import TurtleGrammar.Binary64.Basic

/-!
# `TurtleGrammar.Binary64.Arithmetic` — sums, products, quotients and remainders

Each operation computes the exact result on units and rounds it once. Special values follow the
standard of the format: an operation without a sensible result gives NaN.

## Contents
- `add`, `sub`, `mul`, `div` with the operator instances.
- `floorMod`: the remainder that takes the divisor's sign.
-/

namespace TurtleGrammar

namespace Binary64

/-- The rounded sum. An exact sum of zero is `-0.0` only if both terms are negative. -/
def add : Binary64 → Binary64 → Binary64
  | nan, _ => nan
  | _, nan => nan
  | infinity s, infinity t => if s = t then infinity s else nan
  | infinity s, finite _ _ => infinity s
  | finite _ _, infinity t => infinity t
  | finite s a, finite t b =>
    let total := signed s a + signed t b
    if total = 0 then finite (s && t) .zero
    else ofUnitQuotient (total < 0) total.natAbs 1

instance : Add Binary64 := ⟨add⟩

/-- The rounded difference: the sum with the opposite number. -/
def sub (x y : Binary64) : Binary64 := x + -y

instance : Sub Binary64 := ⟨sub⟩

/-- The rounded product; zero times an infinity is NaN. -/
def mul : Binary64 → Binary64 → Binary64
  | nan, _ => nan
  | _, nan => nan
  | infinity s, infinity t => infinity (s != t)
  | infinity s, finite t b => if b.units = 0 then nan else infinity (s != t)
  | finite s a, infinity t => if a.units = 0 then nan else infinity (s != t)
  | finite s a, finite t b => ofUnitQuotient (s != t) (a.units * b.units) unitsPerOne

instance : Mul Binary64 := ⟨mul⟩

/-- The rounded quotient; a non-zero number over zero is an infinity, zero over zero is NaN. -/
def div : Binary64 → Binary64 → Binary64
  | nan, _ => nan
  | _, nan => nan
  | infinity _, infinity _ => nan
  | infinity s, finite t _ => infinity (s != t)
  | finite s _, infinity t => finite (s != t) .zero
  | finite s a, finite t b =>
    if b.units = 0 then if a.units = 0 then nan else infinity (s != t)
    else ofUnitQuotient (s != t) (a.units * unitsPerOne) b.units

instance : Div Binary64 := ⟨div⟩

/-- The remainder of a division rounded down, which takes the divisor's sign, a remainder of zero
    included. It is the exact remainder of the truncated division, to which the divisor is added
    (with one rounding) when the signs differ. -/
def floorMod : Binary64 → Binary64 → Binary64
  | finite s a, finite t b =>
    if b.units = 0 then nan
    else if a.units % b.units = 0 then finite t .zero
    else
      let rest := ofUnitQuotient s (a.units % b.units) 1
      if s = t then rest else rest + finite t b
  | finite s a, infinity t =>
    if a.units = 0 then finite t .zero else if s = t then finite s a else infinity t
  | _, _ => nan

instance : Mod Binary64 := ⟨floorMod⟩

/-- To subtract the opposite of a number is to add the number. -/
theorem sub_neg (x y : Binary64) : x - -y = x + y := by
  show x + - -y = x + y
  rw [neg_neg]

end Binary64

end TurtleGrammar
