import TurtleGrammar.Decimal.Shortest

/-!
# `TurtleGrammar.Decimal.Layout` — the written form of a number

A number is written with the fewest digits that read back, positionally while its decimal exponent
is in the range of the layout and with an exponent otherwise.

## Contents
- `Layout`, `Layout.standard`: where positional notation starts and ends, the width of an exponent.
- `Decimal.write`: the characters of a positive decimal.
- `Binary64.write`, `Binary64.text`: the written form of any number, special values included.
-/

namespace TurtleGrammar

/-- The choices that a written decimal leaves open. -/
structure Layout where
  /-- The least decimal exponent that is written positionally. -/
  positionalFrom : Int
  /-- The least exponent from there on that is not. -/
  positionalBelow : Int
  /-- The least number of digits of an exponent. -/
  exponentWidth : Nat

/-- The layout of every number this library writes: positional from `0.0001` to below `10 ^ 16`, an
    exponent of at least two digits elsewhere. -/
def Layout.standard : Layout := ⟨-4, 16, 2⟩

namespace Decimal

/-- Digits with a point after the first `position` of them, zeros filled in where digits are missing
    and at least one digit on either side of the point. -/
def placePoint (position : Int) (ds : List Char) : List Char :=
  if position ≤ 0 then ['0', '.'] ++ List.replicate (-position).toNat '0' ++ ds
  else if ds.length ≤ position.toNat then
    ds ++ List.replicate (position.toNat - ds.length) '0' ++ ['.', '0']
  else ds.take position.toNat ++ ['.'] ++ ds.drop position.toNat

/-- One digit before the point, the others (if any) after it, and an exponent with its sign. -/
def placeExponent (layout : Layout) (exponent : Int) : List Char → List Char
  | [] => []
  | first :: others =>
    first :: (if others.isEmpty then [] else '.' :: others) ++
      ['e', if exponent < 0 then '-' else '+'] ++
      padZeros layout.exponentWidth (digits exponent.natAbs)

/-- The written form of a decimal whose significand has no zero at its end. -/
def write (layout : Layout) (d : Decimal) : List Char :=
  let ds := digits d.significand
  let position := d.exponent + ds.length
  if layout.positionalFrom < position && position ≤ layout.positionalBelow then
    placePoint position ds
  else placeExponent layout (position - 1) ds

end Decimal

namespace Binary64

/-- The characters of a number: its sign, then the shortest digits that read back. -/
def write (x : Binary64) : List Char :=
  match x with
  | nan => "nan".toList
  | infinity negative => (if negative then ['-'] else []) ++ "inf".toList
  | finite negative size =>
    (if negative then ['-'] else []) ++
      if size.units = 0 then "0.0".toList else (Decimal.shortest size).write .standard

/-- The written form of a number as a string. -/
def text (x : Binary64) : String := String.ofList x.write

end Binary64

end TurtleGrammar
