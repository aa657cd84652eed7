import TurtleGrammar.Fault

/-!
# `TurtleGrammar.Style` — how the lines of a drawing look

## Contents
- `Style`, `Style.standard`.
- `Style.colourIndex`, `Style.strokeOfLine`: palette colours spread evenly over the lines.
-/

namespace TurtleGrammar

/-- The look of the lines. With a palette the lines take its colours in turn, otherwise all have the
    same stroke. -/
structure Style where
  stroke : String
  strokeWidth : Binary64
  lineCap : String
  palette : List String
  deriving DecidableEq

namespace Style

/-- The look of lines of which nothing is said. -/
def standard : Style := ⟨"#000", .one, "round", []⟩

/-- Which of `colours` colours line number `index` of `count` lines takes: the lines are divided
    evenly among them. Without lines the division is by one. -/
def colourIndex (colours : Nat) (index count : Int) : Int :=
  (index * colours).fdiv (max count 1)

/-- The element at a position, counted from the end if it is negative. -/
def element? (colours : List String) (position : Int) : Option String :=
  if 0 ≤ position then colours[position.toNat]?
  else if (-position).toNat ≤ colours.length then colours[colours.length - (-position).toNat]?
  else none

/-- The stroke of line number `index` of `count` lines. -/
def strokeOfLine (style : Style) (index count : Int) : Except Fault String :=
  if style.palette.isEmpty then .ok style.stroke
  else
    let position := colourIndex style.palette.length index count
    match element? style.palette position with
    | some colour => .ok colour
    | none => .error (.paletteEnd position)

end Style

end TurtleGrammar
