import TurtleGrammar.Distinct
import TurtleGrammar.Traced
import TurtleGrammar.Turtle

/-!
# `TurtleGrammar.Drawing` — from a grammar to its segments

A drawing is planned by a grammar, the symbols that draw beside the draw symbol, and the turtle's
setup. Its instructions are the expansion of the grammar without aliases; its segments are what the
turtle draws by them, each once if that is wanted.

## Contents
- `Note`: the notes that a drawing leaves, with `level` and `text`.
- `Drawing`, `Drawing.instructions`, `Drawing.allSegments`, `Drawing.segments`.
- `Draft`: a drawing whose grammar is still to be built.
-/

namespace TurtleGrammar

/-- How important a note is. -/
inductive Level where
  | debug
  | info
  | warning
  | error
  deriving DecidableEq, Repr

namespace Level

def name : Level → String
  | debug => "DEBUG"
  | info => "INFO"
  | warning => "WARNING"
  | error => "ERROR"

/-- The place of a level in the order of importance. -/
def rank : Level → Nat
  | debug => 0
  | info => 1
  | warning => 2
  | error => 3

/-- All levels, the least important first. -/
def all : List Level := [debug, info, warning, error]

end Level

/-- What happened on the way to a result. -/
inductive Note where
  | expanded (before after iterations : Nat)
  | interpreted (symbols segments : Nat)
  | removed (copies : Nat)
  | wrote (segments : Nat) (path : String)
  deriving DecidableEq, Repr

namespace Note

def level : Note → Level
  | wrote _ _ => .info
  | _ => .debug

def text : Note → String
  | expanded before after iterations =>
    "expanded " ++ toString before ++ " symbols to " ++ toString after ++ " in " ++
      toString iterations ++ " iterations"
  | interpreted symbols segments =>
    "interpreted " ++ toString symbols ++ " symbols into " ++ toString segments ++ " segments"
  | removed copies => "removed " ++ toString copies ++ " duplicate segments"
  | wrote segments path => "wrote " ++ toString segments ++ " segments to " ++ path

end Note

/-- The expansion of a grammar, with a note. -/
def Grammar.traced (g : Grammar) : Traced Note Fault Word := do
  let word := g.expansion
  Traced.note (.expanded g.start.length word.length g.iterations)
  return word

/-- The segments that a word draws, with a note. -/
def interpretTraced (setup : Setup) (annotate : Bool) (word : Word) :
    Traced Note Fault (List Segment) := do
  let segments ← Traced.lift (interpret setup annotate word)
  Traced.note (.interpreted word.length segments.length)
  return segments

/-- What to draw and how. -/
structure Drawing where
  grammar : Grammar
  aliases : List Char
  /-- The turn increment, without which nothing is drawn. -/
  angle : Option Binary64
  heading : Binary64
  step : Binary64
  /-- Whether segments carry their particulars. -/
  annotate : Bool
  /-- Whether of equal segments only the first is kept. -/
  distinct : Bool

namespace Drawing

/-- The word that the turtle is to follow. -/
def instructions (d : Drawing) : Traced Note Fault Word := do
  let word ← d.grammar.traced
  return resolveAliases d.aliases word

/-- Every segment that is drawn. -/
def allSegments (d : Drawing) : Traced Note Fault (List Segment) := do
  let word ← d.instructions
  match d.angle with
  | none => .fail (.argument .angleAbsent)
  | some angle => interpretTraced ⟨angle, d.heading, d.step⟩ d.annotate word

/-- The segments of the drawing. -/
def segments (d : Drawing) : Traced Note Fault (List Segment) := do
  let all ← d.allSegments
  if d.distinct then
    let kept := TurtleGrammar.distinct all
    Traced.note (.removed (all.length - kept.length))
    return kept
  else return all

end Drawing

/-- A drawing whose grammar is still to be built from its parts. -/
structure Draft where
  start : Option String
  rules : Table String (Option String)
  iterations : Int
  aliases : List Char
  angle : Option Binary64
  heading : Binary64
  step : Binary64
  annotate : Bool
  distinct : Bool

namespace Draft

/-- The drawing, if its grammar can be built. -/
def drawing? (d : Draft) : Except Fault Drawing :=
  (Grammar.build d.start d.rules d.iterations).map fun grammar =>
    ⟨grammar, d.aliases, d.angle, d.heading, d.step, d.annotate, d.distinct⟩

/-- The word that the turtle is to follow. -/
def instructions (d : Draft) : Except Fault Word :=
  d.drawing?.bind fun drawing => drawing.instructions.outcome

/-- The segments of the drawing. -/
def segments (d : Draft) : Except Fault (List Segment) :=
  d.drawing?.bind fun drawing => drawing.segments.outcome

end Draft

end TurtleGrammar
