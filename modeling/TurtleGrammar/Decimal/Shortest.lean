import TurtleGrammar.Decimal.Basic

/-!
# `TurtleGrammar.Decimal.Shortest` — the fewest decimal digits that read back

For a positive number of the format, `Decimal.shortest` is the decimal with the fewest digits that
is read back as that number, and of several such decimals the one nearest to it. On the grid of
decimals with `n` digits only the two neighbours of the number need a look: the numbers that are
read back as it form an interval around it, so if a point of the grid lies in it, a neighbour does.
The nearer neighbour is tried first; the other one can be the only hit where the interval is wider
on its side, at a power of two.

## Contents
- `pointPosition`: how many digits stand before the decimal point.
- `Decimal.neighbour?`: the neighbour on a grid that is read back.
- `Decimal.shortest`, `nearest_of_firstHit?`: what the search finds is read back.
-/

namespace TurtleGrammar

namespace Magnitude

open Binary64 (unitsPerOne)

/-- How many decimal digits of the number stand before its point; zero or less if the first digit
    that is not zero comes after the point. -/
def pointPosition (m : Magnitude) : Int :=
  if unitsPerOne ≤ m.units then digitCount (m.units / unitsPerOne)
  else 1 - digitCount ((unitsPerOne - 1) / m.units)

/-- The exact decimal value. -/
def exactDecimal (m : Magnitude) : Decimal := ⟨m.units * Nat.pow 5 1074, -1074⟩

end Magnitude

namespace Decimal

/-- The same number without the zeros at the end of its significand. -/
def trimmed (d : Decimal) : Decimal :=
  if h : d.significand ≠ 0 ∧ d.significand % 10 = 0 then
    trimmed ⟨d.significand / 10, d.exponent + 1⟩
  else d
termination_by d.significand
decreasing_by omega

/-- A number over the step `10 ^ exponent` of a grid. -/
structure GridQuotient where
  /-- The quotient as `num / den`. -/
  num : Nat
  den : Nat
  /-- The distance to the next greater number of the format, measured like `num`. -/
  gap : Nat

/-- A number over the step of a grid. -/
def gridQuotient (m : Magnitude) (exponent : Int) : GridQuotient :=
  if 0 ≤ exponent then ⟨m.units, Binary64.unitsPerOne * powerOfTen exponent.toNat, 1 <<< m.scale⟩
  else
    let factor := powerOfTen (-exponent).toNat
    ⟨m.units * factor, Binary64.unitsPerOne, (1 <<< m.scale) * factor⟩

/-- Is a neighbour of the quotient on the grid within half a gap? A decimal farther away is not read
    back as the number, so that nothing else needs to be tried on such a grid. -/
def GridQuotient.isNear (q : GridQuotient) : Bool :=
  let rest := q.num % q.den
  2 * rest ≤ q.gap || 2 * (q.den - rest) ≤ q.gap

/-- Is the decimal read back as the number? -/
def readsBack (m : Magnitude) (d : Decimal) : Bool := d.nearest false = .finite false m

/-- Of the two neighbours of the number on the grid with step `10 ^ exponent` the one that is read
    back as the number; if both are, the nearer one, and halfway the one with an even last digit. -/
def neighbour? (m : Magnitude) (exponent : Int) : Option Decimal :=
  let q := gridQuotient m exponent
  if q.isNear then
    let closest := trimmed ⟨roundDiv q.num q.den, exponent⟩
    let below := trimmed ⟨q.num / q.den, exponent⟩
    let above := trimmed ⟨q.num / q.den + 1, exponent⟩
    if readsBack m closest then some closest
    else if readsBack m below then some below
    else if readsBack m above then some above
    else none
  else none

/-- The first hit on the grids with `digits`, `digits + 1`, … digits, at most `tries` of them. -/
def firstHit? (m : Magnitude) : Nat → Nat → Option Decimal
  | 0, _ => none
  | tries + 1, digits =>
    match neighbour? m (m.pointPosition - digits) with
    | some d => some d
    | none => firstHit? m tries (digits + 1)

/-- The decimal with the fewest digits that is read back as the number, nearest to it among those.
    Seventeen digits are always enough. -/
def shortest (m : Magnitude) : Decimal := (firstHit? m 17 1).getD m.exactDecimal

/-- A neighbour is given only if it is read back as the number. -/
theorem nearest_of_neighbour? {m : Magnitude} {exponent : Int} {d : Decimal}
    (h : neighbour? m exponent = some d) : d.nearest false = .finite false m := by
  simp only [neighbour?, readsBack] at h
  grind

/-- **What the search finds is read back as the number.** -/
theorem nearest_of_firstHit? {m : Magnitude} {tries digits : Nat} {d : Decimal}
    (h : firstHit? m tries digits = some d) : d.nearest false = .finite false m := by
  induction tries generalizing digits with
  | zero => simp [firstHit?] at h
  | succ tries ih =>
    rw [firstHit?] at h
    split at h
    · next hit => exact nearest_of_neighbour? (h ▸ hit)
    · exact ih h

end Decimal

end TurtleGrammar
