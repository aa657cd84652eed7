import TurtleGrammar.Binary64.Arithmetic

/-!
# `TurtleGrammar.Binary64.Trigonometry` — correctly rounded sine and cosine

Both functions are computed with whole numbers: an angle or a function value `v` is represented by
`v * 2 ^ bits`, rounded down. A value is accepted once every number within its error bound rounds to
the same binary64 number; otherwise the computation is repeated with twice as many bits. The sine
and cosine of a non-zero rational are irrational, so that enough bits always decide.

## Contents
- `circle`: the scaled number π, from two arctangent series.
- `sineSeries`/`cosineSeries`: the power series on an angle of at most a quarter turn.
- `Reduced`: an angle as whole quarter turns and a rest.
- `sin`, `cos`.
-/

namespace TurtleGrammar

namespace Binary64

/-! ## The number π -/

/-- The alternating sum of `power / (k ^ 2) ^ i / (2 i + 1)` over `i`, from the term with divisor
    `odd` on; `power` is the numerator of that term. It stops at the first numerator of zero. -/
def arctanTail (square : Nat) : Nat → Nat → Nat → Int
  | 0, _, _ => 0
  | fuel + 1, power, odd =>
    if power = 0 then 0
    else (power / odd : Nat) - arctanTail square fuel (power / square) (odd + 2)

/-- The arctangent of `1 / k`, scaled by `2 ^ bits`, for `k` of at least 2. -/
def arctanInverse (k bits : Nat) : Int :=
  arctanTail (k * k) (bits + 1) (1 <<< bits / k) 1

/-- The number π scaled by `2 ^ bits`: `16 arctan (1 / 5) - 4 arctan (1 / 239)`, with 64 further
    bits that take up the error of the series. -/
def circle (bits : Nat) : Nat :=
  (16 * arctanInverse 5 (bits + 64) - 4 * arctanInverse 239 (bits + 64)).toNat >>> 64

/-- The binary places of π that are computed once. -/
def circlePlaces : Nat := 1536

/-- The scaled number π to `circlePlaces` places. -/
def circleTable : Nat := circle circlePlaces

/-- The number π scaled by `2 ^ bits`, from the table where it reaches. -/
def scaledCircle (bits : Nat) : Nat :=
  if bits ≤ circlePlaces then circleTable >>> (circlePlaces - bits) else circle bits

/-! ## Power series -/

/-- The alternating tail of a power series in an angle: `term` is the present term, the next one is
    `term * square / (n * (n + 1))`. It stops at the first term of zero. -/
def seriesTail (square bits : Nat) : Nat → Nat → Nat → Int
  | 0, _, _ => 0
  | fuel + 1, term, n =>
    if term = 0 then 0
    else term - seriesTail square bits fuel ((term * square) >>> bits / (n * (n + 1))) (n + 2)

/-- The sine of an angle of at most a quarter turn. -/
def sineSeries (bits angle : Nat) : Int :=
  seriesTail ((angle * angle) >>> bits) bits (bits + 1) angle 2

/-- The cosine of an angle of at most a quarter turn. -/
def cosineSeries (bits angle : Nat) : Int :=
  seriesTail ((angle * angle) >>> bits) bits (bits + 1) (1 <<< bits) 1

/-! ## Quarter turns -/

/-- An angle as a number of whole quarter turns and the scaled rest. -/
structure Reduced where
  quarters : Nat
  rest : Nat

/-- Take the quarter turns out of an angle given in units. Large angles are divided with as many
    further bits as their whole part has, so that the rest keeps its accuracy. -/
def reduce (bits units : Nat) : Reduced :=
  let extra := (units / unitsPerOne).log2 + 2
  let angle := units <<< (bits + extra) / unitsPerOne
  let quarter := scaledCircle (bits + extra - 1)
  ⟨angle / quarter, (angle % quarter) >>> extra⟩

/-- The sine of a reduced angle. -/
def Reduced.sine (bits : Nat) (r : Reduced) : Int :=
  match r.quarters % 4 with
  | 0 => sineSeries bits r.rest
  | 1 => cosineSeries bits r.rest
  | 2 => -sineSeries bits r.rest
  | _ => -cosineSeries bits r.rest

/-- The cosine of a reduced angle: the sine of the angle a quarter turn on. -/
def Reduced.cosine (bits : Nat) (r : Reduced) : Int :=
  Reduced.sine bits { r with quarters := r.quarters + 1 }

/-! ## Rounding a scaled value -/

/-- The binary64 number nearest to a scaled value. -/
def ofScaled (bits : Nat) (value : Int) : Binary64 :=
  ofUnitQuotient (value < 0) (value.natAbs * unitsPerOne) (1 <<< bits)

/-- A bound for the error of a scaled function value: each term of the series and the reduced angle
    are off by a few units, and a series has fewer terms than bits. -/
def slack (bits : Nat) : Nat := 8 * bits

/-- The number to which all values within the error bound round; if they disagree, the same question
    with twice as many bits, and in the last round the number nearest to the value itself. -/
def settle (value : Nat → Int) : Nat → Nat → Binary64
  | 0, bits => ofScaled bits (value bits)
  | rounds + 1, bits =>
    let middle := value bits
    let low := ofScaled bits (middle - slack bits)
    if low = ofScaled bits (middle + slack bits) then low
    else settle value rounds (2 * bits)

/-- Angles of at most this many units (`2 ^ -27`) are their own sine, and their cosine is one: the
    next term of the series is less than half a step of the format. -/
def tinyUnits : Nat := 1 <<< 1047

/-- The bits of the first attempt. -/
def firstBits : Nat := 96

/-- How often the number of bits may double. -/
def doublings : Nat := 5

/-- The sine of an angle in radians; of an infinity it has no value. -/
def sin : Binary64 → Binary64
  | finite s a =>
    if a.units ≤ tinyUnits then finite s a
    else
      let size := settle (fun bits => (reduce bits a.units).sine bits) doublings firstBits
      if s then -size else size
  | _ => nan

/-- The cosine of an angle in radians; of an infinity it has no value. -/
def cos : Binary64 → Binary64
  | finite _ a =>
    if a.units ≤ tinyUnits then one
    else settle (fun bits => (reduce bits a.units).cosine bits) doublings firstBits
  | _ => nan

end Binary64

end TurtleGrammar
