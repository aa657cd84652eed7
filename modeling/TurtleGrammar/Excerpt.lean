import TurtleGrammar.Turtle

/-!
# `TurtleGrammar.Excerpt` — the first part of a long word

A word is cut near a limit in such a way that no scale symbol is parted from its numeral.

## Contents
- `cutPosition`: where a word is cut; `signedCutPosition`: with a limit counted from either end.
- `excerpt`: the part before the cut.
-/

namespace TurtleGrammar

/-- The position of the last scale symbol of a word. -/
def lastScale? (word : Word) : Option Nat :=
  match word.reverse.findIdx? (· == Instruction.scale.symbol) with
  | some back => some (word.length - 1 - back)
  | none => none

/-- Can the symbol stand in a numeral? -/
def isNumeralSymbol (c : Char) : Bool := c.isDigit || c == '.'

/-- The end of the numeral that the last scale symbol before a bound takes, if only digits and
    points stand between that symbol and the bound. -/
def openScaleEnd? (word : Word) (bound : Nat) : Option Nat :=
  match lastScale? (word.take bound) with
  | none => none
  | some position =>
    if ((word.take bound).drop (position + 1)).all isNumeralSymbol then
      some (position + 1 + (scanNumeral (word.drop (position + 1))).2)
    else none

/-- Where to cut a word near a limit: at the limit, unless only digits and points stand between the
    last scale symbol before it and the limit; then at the end of that symbol's numeral. -/
def cutPosition (word : Word) (limit : Nat) : Nat :=
  if word.length ≤ limit then word.length else (openScaleEnd? word limit).getD limit

/-- Where to cut a word near a limit that may be counted from the end, as a negative number. -/
def signedCutPosition (word : Word) : Int → Int
  | .ofNat limit => cutPosition word limit
  | .negSucc back =>
    match openScaleEnd? word (word.length - (back + 1)) with
    | some position => position
    | none => .negSucc back

/-- The part of a word before the cut. -/
def excerpt (word : Word) (limit : Nat) : Word := word.take (cutPosition word limit)

end TurtleGrammar
