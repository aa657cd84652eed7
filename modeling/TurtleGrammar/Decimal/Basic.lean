import TurtleGrammar.Binary64.Basic
import TurtleGrammar.Text.Digits

/-!
# `TurtleGrammar.Decimal.Basic` — decimal numbers and the binary64 numbers nearest to them

A `Decimal` is a whole significand times a power of ten. `Decimal.nearest` is its one rounding into
binary64; `Decimal.toBinary64` gives the same number without computing powers of ten that lie far
outside the format (`toBinary64_eq_nearest`).

## Contents
- `powerOfTen`; `digitCount` with its bound `lt_powerOfTen_digitCount`.
- `Decimal`, `Decimal.nearest`, `Decimal.toBinary64`.
- `Decimal.toBinary64_eq_nearest`: far outside the format no digit needs a look.
-/

namespace TurtleGrammar

/-- The number one with `n` zeros after it. -/
def powerOfTen (n : Nat) : Nat := Nat.pow 10 n

theorem powerOfTen_succ (n : Nat) : powerOfTen (n + 1) = powerOfTen n * 10 := rfl

theorem powerOfTen_add (m n : Nat) : powerOfTen (m + n) = powerOfTen m * powerOfTen n :=
  Nat.pow_add ..

theorem powerOfTen_pos (n : Nat) : 0 < powerOfTen n := Nat.pow_pos (by decide)

/-- Ten is above `2 ^ 3`, which bounds powers of ten by powers of two. -/
theorem shiftLeft_le_powerOfTen (n : Nat) : 1 <<< (3 * n) ≤ powerOfTen n := by
  rw [Nat.shiftLeft_eq, Nat.one_mul, Nat.pow_mul]
  exact Nat.pow_le_pow_left (by decide) n

/-- The number of decimal digits of a natural number; zero has one. -/
def digitCount (n : Nat) : Nat :=
  if n < 10 then 1 else digitCount (n / 10) + 1

/-- A number has too few digits to reach the power of ten with that many zeros. -/
theorem lt_powerOfTen_digitCount (n : Nat) : n < powerOfTen (digitCount n) := by
  fun_induction digitCount n with
  | case1 n h => exact h
  | case2 n h ih =>
    rw [powerOfTen_succ]
    exact (Nat.div_lt_iff_lt_mul (by decide)).1 ih

/-- The number `significand * 10 ^ exponent`. -/
structure Decimal where
  significand : Nat
  exponent : Int
  deriving DecidableEq, Inhabited

namespace Decimal

/-- The decimal with the given digits before and after its point and the given power of ten. -/
def ofParts (whole fraction : List Char) (exponent : Int) : Decimal :=
  ⟨ofDigits (whole ++ fraction), exponent - fraction.length⟩

/-- The binary64 number nearest to a decimal with the given sign. -/
def nearest (negative : Bool) (d : Decimal) : Binary64 :=
  if 0 ≤ d.exponent then
    .ofUnitQuotient negative (d.significand * powerOfTen d.exponent.toNat * Binary64.unitsPerOne) 1
  else
    .ofUnitQuotient negative (d.significand * Binary64.unitsPerOne) (powerOfTen (-d.exponent).toNat)

/-- The binary64 number nearest to a decimal with the given sign. From `10 ^ 342` on it is an
    infinity and below `10 ^ -360` it is a zero, whatever the digits are. -/
def toBinary64 (negative : Bool) (d : Decimal) : Binary64 :=
  if d.significand = 0 then .finite negative .zero
  else if 342 ≤ d.exponent then .infinity negative
  else if d.exponent ≤ -360 && digitCount d.significand + 360 ≤ (-d.exponent).toNat then
    .finite negative .zero
  else d.nearest negative

end Decimal

/-! ## Far outside the format -/

namespace Magnitude

theorem excess_of_lt {num den : Nat} (h : num < den) : excess num den = 0 := by
  simp [excess, Nat.div_eq_of_lt h]

theorem rounded_of_lt_half {num den : Nat} (h : 2 * num < den) : rounded num den = 0 := by
  have hlt : num < den := by omega
  simp [rounded, excess_of_lt hlt, roundDiv, Nat.div_eq_of_lt hlt, Nat.mod_eq_of_lt hlt, h]

/-- Less than half a unit is rounded to zero. -/
theorem ofQuotient?_of_lt_half {num den : Nat} (h : 2 * num < den) :
    ofQuotient? num den = some zero := by
  have hexcess := excess_of_lt (show num < den by omega)
  have hround := rounded_of_lt_half h
  obtain ⟨m, hm, hmantissa, hscale⟩ := @ofQuotient?_of_lt num den
    (by rw [hround]; decide) (by rw [hexcess]; decide)
  rw [hm]
  exact congrArg some (ext (hmantissa.trans hround) (hscale.trans hexcess))

/-- From `2 ^ 2098` units on no magnitude is near enough, whatever the lower digits are. -/
theorem ofQuotient?_of_large {num : Nat} (h : 1 <<< 2098 ≤ num) : ofQuotient? num 1 = none := by
  have hlog : 2098 ≤ num.log2 := le_log2_of_shiftLeft_le h
  apply ofQuotient?_eq_none
  simp only [excess, Nat.div_one]
  omega

end Magnitude

namespace Binary64

/-- Less than half a unit is a zero with the sign. -/
theorem ofUnitQuotient_of_lt_half (negative : Bool) {num den : Nat} (h : 2 * num < den) :
    ofUnitQuotient negative num den = finite negative .zero := by
  unfold ofUnitQuotient
  rw [Magnitude.ofQuotient?_of_lt_half h]

/-- From `2 ^ 2098` units on a number is an infinity with the sign. -/
theorem ofUnitQuotient_of_large (negative : Bool) {num : Nat} (h : 1 <<< 2098 ≤ num) :
    ofUnitQuotient negative num 1 = infinity negative := by
  unfold ofUnitQuotient
  rw [Magnitude.ofQuotient?_of_large h]

end Binary64

namespace Decimal

/-- **One rounding.** The cases far outside the format give what rounding the decimal would give. -/
theorem toBinary64_eq_nearest (negative : Bool) (d : Decimal) :
    d.toBinary64 negative = d.nearest negative := by
  unfold toBinary64
  split
  · next hzero =>
    rw [nearest, hzero]
    split
    · rw [Nat.zero_mul, Nat.zero_mul]
      exact (Binary64.ofUnitQuotient_of_lt_half _ (by decide)).symm
    · rw [Nat.zero_mul]
      exact (Binary64.ofUnitQuotient_of_lt_half _ (powerOfTen_pos _)).symm
  · next hzero =>
    split
    · next hlarge =>
      have hten : powerOfTen d.exponent.toNat ≤ d.significand * powerOfTen d.exponent.toNat :=
        Nat.le_mul_of_pos_left _ (by omega)
      rw [nearest, if_pos (by omega)]
      refine (Binary64.ofUnitQuotient_of_large _ ?_).symm
      calc 1 <<< 2098 ≤ 1 <<< (3 * d.exponent.toNat + 1074) := shiftLeft_le_shiftLeft 1 (by omega)
        _ = 1 <<< (3 * d.exponent.toNat) * Binary64.unitsPerOne := by
              rw [one_shiftLeft_add, Binary64.unitsPerOne_eq]
        _ ≤ _ := Nat.mul_le_mul_right _ (Nat.le_trans (shiftLeft_le_powerOfTen _) hten)
    · split
      · next hsmall =>
        simp only [Bool.and_eq_true, decide_eq_true_eq] at hsmall
        rw [nearest, if_neg (by omega)]
        refine (Binary64.ofUnitQuotient_of_lt_half _ ?_).symm
        obtain ⟨j, hj⟩ : ∃ j, (-d.exponent).toNat = digitCount d.significand + (j + 1) :=
          ⟨(-d.exponent).toNat - digitCount d.significand - 1, by omega⟩
        have hunits : Binary64.unitsPerOne ≤ powerOfTen j :=
          Nat.le_trans (Binary64.unitsPerOne_le (by omega)) (shiftLeft_le_powerOfTen j)
        have hstep : 2 * Binary64.unitsPerOne ≤ powerOfTen (j + 1) := by
          rw [powerOfTen_succ]
          omega
        calc 2 * (d.significand * Binary64.unitsPerOne)
            = d.significand * (2 * Binary64.unitsPerOne) := by
              rw [← Nat.mul_assoc, ← Nat.mul_assoc, Nat.mul_comm 2]
          _ < powerOfTen (digitCount d.significand) * powerOfTen (j + 1) :=
              Nat.mul_lt_mul_of_lt_of_le (lt_powerOfTen_digitCount d.significand) hstep
                (powerOfTen_pos _)
          _ = powerOfTen (-d.exponent).toNat := by rw [hj, powerOfTen_add (digitCount _)]
      · rfl

end Decimal

end TurtleGrammar
