import TurtleGrammar.Config
import TurtleGrammar.Csv
import TurtleGrammar.Excerpt
import TurtleGrammar.Json.Reader

/-!
# `TurtleGrammar.Command` — what the program can be told to do

A command starts from the content of a configuration file. It prints lines, leaves notes, and may
have a file to deliver; whether that can be written is not its concern. What was printed and noted
before a fault stays.

## Contents
- `Command`, `Command.source`, `Command.target?`.
- `Event`, `Delivery`: what a command leaves and delivers.
- `Config.ofBytes`: the configuration in a file.
- `Command.performOn` with one function for each command, `Command.perform`.
-/

namespace TurtleGrammar

/-- A command with the paths it is given. -/
inductive Command where
  /-- Draw a configuration on a page, which needs a path. -/
  | render (source : String) (target : Option String)
  /-- Check a configuration and summarise it. -/
  | validate (source : String)
  /-- Print the instructions, or with `raw` the expansion in which aliases stand. -/
  | expand (source : String) (raw : Bool)
  /-- List the segments, on the output if no path is given. -/
  | segments (source : String) (target : Option String)
  deriving DecidableEq

/-- The path of the configuration. -/
def Command.source : Command → String
  | .render source _ => source
  | .validate source => source
  | .expand source _ => source
  | .segments source _ => source

/-- The path of the file that the command writes, if it writes one. -/
def Command.target? : Command → Option String
  | .render _ target => target
  | .validate _ => none
  | .expand _ _ => none
  | .segments _ target => target

/-- Something printed, or a note. -/
inductive Event where
  | printed (text : String)
  | noted (note : Note)
  deriving DecidableEq

/-- A file to be written, the fault that ends its text early, and the notes that tell of it when it
    is whole. -/
structure Delivery where
  path : String
  text : String
  fault : Option Fault
  notes : List Note

/-- A computation of a command. -/
abbrev Run (α : Type) := Traced Event Fault α

namespace Run

/-- A computation whose notes are all that it leaves. -/
def ofTraced {α : Type} (t : Traced Note Fault α) : Run α := ⟨t.notes.map .noted, t.outcome⟩

/-- Print a line. -/
def line (text : String) : Run Unit := .note (.printed (text ++ "\n"))

end Run

/-- The configuration in the content of a file. -/
def Config.ofBytes (path : String) (content : List UInt8) : Except Fault Config :=
  match Text.decode content with
  | .error cause => .error (.notText cause)
  | .ok text =>
    match Json.read (Text.unifyNewlines text) with
    | .error cause => .error (.setting (.notJson path cause))
    | .ok value => Config.ofJson value

namespace Command

/-- Draw a configuration on its page. Without a path the page is drawn and then refused. -/
def performRender (c : Config) (target : Option String) : Run (Option Delivery) := do
  let segments ← Run.ofTraced c.drawing.segments
  let text ← Traced.lift (Svg.document c.page segments)
  match target with
  | some path => return some ⟨path, text, none, [.wrote segments.length path]⟩
  | none => .fail .noPath

/-- The number of symbols to which a check of the drawing is limited. -/
def checkLimit : Nat := 10000

/-- The settings of the turtle in one line. -/
def turtleLine (c : Config) : String :=
  "turtle: angle=" ++ c.angle.text ++ " heading=" ++ c.heading.text ++ " step=" ++ c.step.text ++
    " draw_aliases=" ++ (if c.aliases.isEmpty then "-" else String.ofList c.aliases)

/-- The greatest depth of segments, which is not below zero. -/
def maxDepth (segments : List Segment) : Int := (segments.filterMap Segment.depth).foldl max 0

/-- Check the drawing of a word: all of it, or the excerpt up to the limit. Without a line in the
    excerpt there is nothing to check. -/
def performCheck (c : Config) (word : Word) : Run Unit := do
  let bounded := excerpt word checkLimit
  let cut : Bool := checkLimit < word.length
  Run.line ("symbols: " ++ toString word.length)
  if cut && !bounded.contains Instruction.draw.symbol then
    Run.line ("warning: no \x27F\x27 in the first " ++ toString checkLimit ++
      " symbols; interpretation skipped")
  else
    let setup : Setup := ⟨Angle.ofDegrees c.angle, Angle.ofDegrees c.heading, c.step⟩
    let segments ← Run.ofTraced (interpretTraced setup true bounded)
    Run.line ("segments: " ++ toString segments.length)
    Run.line ("max depth: " ++ String.ofList (signedDigits (maxDepth segments)))
    if cut then
      Run.line ("warning: expansion exceeds " ++ toString checkLimit ++
        " symbols; segment stats are based on the first portion only")

/-- Summarise a configuration and check its drawing. -/
def performValidate (c : Config) : Run (Option Delivery) := do
  Run.line ("name: " ++ c.name)
  Run.line ("axiom length: " ++ toString c.grammar.start.length)
  Run.line ("iterations: " ++ toString c.grammar.iterations)
  Run.line ("rules: " ++ toString c.grammar.rules.size)
  Run.line (turtleLine c)
  let word ← Run.ofTraced c.drawing.instructions
  performCheck c word
  return none

/-- Print the word that a configuration expands to. -/
def performExpand (c : Config) (raw : Bool) : Run (Option Delivery) := do
  let word ← Run.ofTraced (if raw then c.grammar.traced else c.drawing.instructions)
  Run.line (String.ofList word)
  return none

/-- List the segments of a configuration. What is listed before a fault stays, in a file as well. -/
def performSegments (c : Config) (target : Option String) : Run (Option Delivery) := do
  let segments ← Run.ofTraced c.drawing.segments
  let rows := Csv.write segments
  match target with
  | some path => return some ⟨path, rows.text, rows.fault, []⟩
  | none => do
    Traced.note (.printed rows.text)
    match rows.fault with
    | some fault => .fail fault
    | none => return none

/-- What a command does with its configuration. -/
def performOn (c : Config) : Command → Run (Option Delivery)
  | .render _ target => performRender c target
  | .validate _ => performValidate c
  | .expand _ raw => performExpand c raw
  | .segments _ target => performSegments c target

/-- What a command does with the content of its configuration file. -/
def perform (command : Command) (content : List UInt8) : Run (Option Delivery) := do
  let c ← Traced.lift (Config.ofBytes command.source content)
  performOn c command

end Command

end TurtleGrammar
