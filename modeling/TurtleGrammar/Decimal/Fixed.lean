import TurtleGrammar.Decimal.Layout

/-!
# `TurtleGrammar.Decimal.Fixed` — coordinates with a limited number of places

A coordinate is its exact value rounded to a multiple of `10 ^ -places` (halves to the even
multiple), written without zeros at the end of its fraction, without a point that nothing follows
and without the sign of a zero.

## Contents
- `Magnitude.steps`: a number as a rounded count of steps of `10 ^ -places`.
- `fixed`: all places written out; `coordinate`: the shortened form.
-/

namespace TurtleGrammar

/-- The number of steps of `10 ^ -places` nearest to the number, halves going to the even count. -/
def Magnitude.steps (places : Nat) (m : Magnitude) : Nat :=
  roundDiv (m.units * powerOfTen places) Binary64.unitsPerOne

/-- A count of steps of `10 ^ -places` with all places written out. -/
def writeSteps (places steps : Nat) : List Char :=
  digits (steps / powerOfTen places) ++
    if places = 0 then [] else '.' :: padZeros places (digits (steps % powerOfTen places))

/-- A number with the given count of decimal places. -/
def Binary64.fixed (places : Nat) (x : Binary64) : List Char :=
  match x with
  | nan => "nan".toList
  | infinity negative => (if negative then ['-'] else []) ++ "inf".toList
  | finite negative size =>
    (if negative then ['-'] else []) ++ writeSteps places (size.steps places)

/-- A text without the copies of one character at its end. -/
def dropTrailing (c : Char) (text : List Char) : List Char :=
  (text.reverse.dropWhile (· == c)).reverse

/-- A text with a point, less the zeros at its end and then the points at its end. -/
def trimFraction (text : List Char) : List Char :=
  if text.contains '.' then dropTrailing '.' (dropTrailing '0' text) else text

/-- The number of decimal places with which every number of the format can be written exactly. -/
def exactPlaces : Nat := 1074

/-- A number as a coordinate: rounded to the given places, without needless characters. Places past
    those of an exact number are zeros and need not be written. -/
def Binary64.coordinate (places : Nat) (x : Binary64) : List Char :=
  let text := trimFraction (x.fixed (min places exactPlaces))
  if text = ['-', '0'] then ['0'] else text

end TurtleGrammar
