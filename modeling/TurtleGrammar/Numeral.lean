import TurtleGrammar.Decimal.Basic

/-!
# `TurtleGrammar.Numeral` — numerals in a stream of symbols

A numeral is the longest run of decimal digits with at most one point among them; a run without any
digit is none. Only the ten ASCII digits count.

## Contents
- `numeral`: the run at the head of a word; `numeralValue`: the number it denotes.
- `scanNumeral`: the value of a numeral and its length, zero for none.
-/

namespace TurtleGrammar

/-- The longest run of digits and at most one point at the head of a word, whether or not a digit is
    in it. -/
def numeralRun (word : List Char) : List Char :=
  let whole := word.takeWhile Char.isDigit
  match word.drop whole.length with
  | '.' :: rest => whole ++ '.' :: rest.takeWhile Char.isDigit
  | _ => whole

/-- The numeral at the head of a word, empty if there is none. -/
def numeral (word : List Char) : List Char :=
  if (numeralRun word).any Char.isDigit then numeralRun word else []

/-- The number nearest to what a run of digits with at most one point denotes. -/
def numeralValue (text : List Char) : Binary64 :=
  let whole := text.takeWhile Char.isDigit
  (Decimal.ofParts whole (text.drop (whole.length + 1)) 0).toBinary64 false

/-- The value of the numeral at the head of a word and its length; both zero if there is none. -/
def scanNumeral (word : List Char) : Binary64 × Nat :=
  (numeralValue (numeral word), (numeral word).length)

end TurtleGrammar
