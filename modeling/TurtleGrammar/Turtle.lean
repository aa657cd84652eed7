import TurtleGrammar.Angle
import TurtleGrammar.Binary64.Trigonometry
import TurtleGrammar.Grammar
import TurtleGrammar.Numeral
import TurtleGrammar.Segment

/-!
# `TurtleGrammar.Turtle` — words as instructions to a turtle

The turtle stands at a point with a heading, a step length and a turn increment. Seven symbols
instruct it; every other symbol is ignored. A branch saves where the turtle stands and how it moves,
and its end restores both. A scale symbol takes the numeral after it as its argument.

A `Machine` reads a word symbol by symbol. It looks ahead only at a scale symbol: the symbols of the
numeral are then counted in `unread` and passed over one by one.

## Contents
- `Instruction` with `symbol` and `ofSymbol?`; `resolveAliases`: a word without aliases.
- `Turtle`, `Frame`, `Machine` and the effect of each instruction.
- `Machine.step`, `Machine.run`: one symbol, a whole word.
- `interpret`: the segments that a word draws.
-/

namespace TurtleGrammar

/-- What a symbol can instruct the turtle to do. -/
inductive Instruction where
  | draw
  | turnPositive
  | turnNegative
  | push
  | pop
  | scale
  | flip
  deriving DecidableEq, Repr

namespace Instruction

def symbol : Instruction → Char
  | draw => 'F'
  | turnPositive => '+'
  | turnNegative => '-'
  | push => '['
  | pop => ']'
  | scale => '@'
  | flip => '!'

/-- The instruction of a symbol; `none` for a symbol that is ignored. -/
def ofSymbol? : Char → Option Instruction
  | 'F' => some draw
  | '+' => some turnPositive
  | '-' => some turnNegative
  | '[' => some push
  | ']' => some pop
  | '@' => some scale
  | '!' => some flip
  | _ => none

@[simp] theorem ofSymbol?_symbol (i : Instruction) : ofSymbol? i.symbol = some i := by
  cases i <;> rfl

end Instruction

/-- A word in which the draw symbol stands for every alias. -/
def resolveAliases (aliases : List Char) (word : Word) : Word :=
  word.map fun c => if aliases.contains c then Instruction.draw.symbol else c

/-- Where the turtle stands and how it moves; `depth` counts the open branches. -/
structure Turtle where
  position : Point
  heading : Binary64
  step : Binary64
  angle : Binary64
  depth : Int
  deriving DecidableEq

/-- What a branch saves. -/
structure Frame where
  position : Point
  angle : Binary64
  heading : Binary64
  step : Binary64
  deriving DecidableEq

/-- The turtle at the start of a drawing. -/
structure Setup where
  angle : Binary64
  heading : Binary64
  step : Binary64

/-- A turtle on its way through a word: the saved frames (latest first), the segments drawn so far
    (latest first), how many symbols were read, and how many of the next ones are part of a numeral
    that was read already. -/
structure Machine where
  turtle : Turtle
  stack : List Frame
  drawn : List Segment
  cursor : Nat
  unread : Nat

namespace Turtle

/-- The point one step ahead. -/
def ahead (t : Turtle) : Point :=
  ⟨t.position.x + t.heading.cos * t.step, t.position.y + t.heading.sin * t.step⟩

/-- The line to a point, with its particulars if they are wanted. -/
def lineTo (annotate : Bool) (stop : Point) (t : Turtle) : Segment :=
  if annotate then ⟨t.position, stop, some t.step, some t.heading, some t.depth⟩
  else .plain t.position stop

/-- What a branch that opens now has to save. -/
def frame (t : Turtle) : Frame := ⟨t.position, t.angle, t.heading, t.step⟩

/-- The turtle back in a saved frame, one branch further out. -/
def restore (t : Turtle) (f : Frame) : Turtle :=
  ⟨f.position, f.heading, f.step, f.angle, t.depth - 1⟩

end Turtle

namespace Machine

/-- The machine before the first symbol. -/
def start (setup : Setup) : Machine :=
  ⟨⟨.origin, setup.heading, setup.step, setup.angle, 0⟩, [], [], 0, 0⟩

/-- Draw a line. Along an infinite heading there is none. -/
def draw (annotate : Bool) (m : Machine) : Except Fault Machine :=
  if m.turtle.heading.isInfinite then .error .headingUnbounded
  else
    let stop := m.turtle.ahead
    .ok { m with
      turtle := { m.turtle with position := stop }
      drawn := m.turtle.lineTo annotate stop :: m.drawn }

/-- Turn by an angle. -/
def turn (delta : Binary64) (m : Machine) : Machine :=
  { m with turtle := { m.turtle with heading := Angle.turn m.turtle.heading delta } }

/-- Open a branch. -/
def push (m : Machine) : Machine :=
  { m with
    turtle := { m.turtle with depth := m.turtle.depth + 1 }
    stack := m.turtle.frame :: m.stack }

/-- Close the branch that was opened last. -/
def pop (m : Machine) : Except Fault Machine :=
  match m.stack with
  | [] => .error (.noOpenBranch m.cursor)
  | f :: rest => .ok { m with turtle := m.turtle.restore f, stack := rest }

/-- Multiply the step length by the numeral at the head of `rest` and pass over that numeral. -/
def scale (rest : Word) (m : Machine) : Except Fault Machine :=
  let (factor, count) := scanNumeral rest
  if count = 0 then .error (.noNumeral m.cursor)
  else .ok { m with turtle := { m.turtle with step := m.turtle.step * factor }, unread := count }

/-- Turn the other way from now on. -/
def flip (m : Machine) : Machine :=
  { m with turtle := { m.turtle with angle := -m.turtle.angle } }

/-- Do what a symbol instructs; `rest` is the word after it. -/
def obey (annotate : Bool) (symbol : Char) (rest : Word) (m : Machine) : Except Fault Machine :=
  match Instruction.ofSymbol? symbol with
  | none => .ok m
  | some .draw => m.draw annotate
  | some .turnPositive => .ok (m.turn m.turtle.angle)
  | some .turnNegative => .ok (m.turn (-m.turtle.angle))
  | some .push => .ok m.push
  | some .pop => m.pop
  | some .scale => m.scale rest
  | some .flip => .ok m.flip

/-- The machine with one more symbol read. -/
def advance (m : Machine) : Machine := { m with cursor := m.cursor + 1 }

/-- Read one symbol: pass over it if it is part of a numeral, obey it otherwise. -/
def step (annotate : Bool) (symbol : Char) (rest : Word) (m : Machine) : Except Fault Machine :=
  match m.unread with
  | left + 1 => .ok { m with unread := left }.advance
  | 0 => (m.obey annotate symbol rest).map advance

/-- Read a word up to its end or to the first symbol that cannot be obeyed. -/
def run (annotate : Bool) : Word → Machine → Except Fault Machine
  | [], m => .ok m
  | symbol :: rest, m =>
    match m.step annotate symbol rest with
    | .error fault => .error fault
    | .ok next => run annotate rest next

/-- The segments in the order in which they were drawn. -/
def segments (m : Machine) : List Segment := m.drawn.reverse

end Machine

/-- The segments that a word draws, in the order in which they are drawn. The step length must be
    above zero, and some symbol must draw. -/
def interpret (setup : Setup) (annotate : Bool) (word : Word) : Except Fault (List Segment) :=
  if !setup.step.isPositive then .error (.argument (.step setup.step))
  else if !word.contains Instruction.draw.symbol then .error .nothingDrawn
  else (Machine.run annotate word (.start setup)).map Machine.segments

end TurtleGrammar
