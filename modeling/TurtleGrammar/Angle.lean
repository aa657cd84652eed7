import TurtleGrammar.Binary64.Arithmetic

/-!
# `TurtleGrammar.Angle` — angles in radians

## Contents
- `pi`, `tau`, `quarterTurn`: the binary64 numbers nearest to the constants, by `doubledQuarter`.
- `ofDegrees`: conversion from degrees.
- `turn`: a heading after a turn, kept in `[0, tau)`.
-/

namespace TurtleGrammar

namespace Angle

open Binary64

/-- The number nearest to a quarter turn, doubled a number of times. Doubling is exact, so that each
    of them is the number nearest to its multiple of π. -/
def doubledQuarter (times : Nat) (h : times ≤ 2) : Binary64 :=
  finite false ⟨7074237752028440, 1022 + times, by decide, by omega, Or.inl (by decide)⟩

/-- The number nearest to π. -/
def pi : Binary64 := doubledQuarter 1 (by decide)

/-- A full turn, exactly twice `pi`. -/
def tau : Binary64 := doubledQuarter 2 (by decide)

/-- A quarter turn, exactly half of `pi`. -/
def quarterTurn : Binary64 := doubledQuarter 0 (by decide)

/-- Degrees to radians: the product with `pi` is rounded first, then the quotient by 180. -/
def ofDegrees (degrees : Binary64) : Binary64 := degrees * pi / 180

/-- The heading after a turn. The remainder of a tiny negative sum can round up to `tau` itself,
    which is the heading zero. -/
def turn (heading delta : Binary64) : Binary64 :=
  let turned := (heading + delta) % tau
  if less turned tau || turned.isNaN then turned else zero

end Angle

end TurtleGrammar
