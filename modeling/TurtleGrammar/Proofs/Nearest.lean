import Mathlib.Data.Nat.Cast.Order.Field
import TurtleGrammar.Proofs.Coordinate
import TurtleGrammar.Proofs.Magnitude

/-!
# `TurtleGrammar.Proofs.Nearest` — the number of the format nearest to an exact number

An exact number is rounded to the nearest number of the format, of two equally near ones to the one
with the even mantissa. From half a step past the largest number on it is rounded to an infinity.
Rounding itself looks only at whole numbers of the steps between neighbours of the quotient. What
lies between them is no competitor: numbers with smaller steps lie below a power of two that is a
whole number of steps and up to the quotient, so that it is nearer than they are.

## Contents
- `NearestEven.abs_sub_le`, `NearestEven.even_of_tie`: no whole number is nearer.
- `Magnitude.abs_units_sub_le`, `Magnitude.even_of_tie`: no magnitude is nearer.
- `Magnitude.ofQuotient?_eq_none_iff_le`: which quotients overflow.
- `Binary64.IsNearest`, `Binary64.IsNearest.unique`: the nearest number of the format.
- `Binary64.isNearest_ofUnitQuotient`, `Decimal.isNearest_toBinary64`: rounding gives it.
-/

namespace TurtleGrammar

/-! ## Whole numbers -/

namespace NearestEven

variable {q : ℚ} {j k : ℤ}

/-- Two whole numbers are at least one apart. -/
theorem one_le_abs_add (hne : j ≠ k) (q : ℚ) : 1 ≤ |q - k| + |q - j| := by
  have hone : (1 : ℤ) ≤ |j - k| := Int.one_le_abs (sub_ne_zero.2 hne)
  have hapart : (1 : ℚ) ≤ |(j : ℚ) - k| := by exact_mod_cast hone
  calc (1 : ℚ) ≤ |(j : ℚ) - k| := hapart
    _ = |(q - k) - (q - j)| := by congr 1; ring
    _ ≤ |q - k| + |q - j| := abs_sub _ _

/-- No whole number is nearer. -/
theorem abs_sub_le (h : NearestEven q k) (j : ℤ) : |q - k| ≤ |q - j| := by
  rcases eq_or_ne j k with rfl | hne
  · exact le_rfl
  · have hapart := one_le_abs_add hne q
    have hnear := h.near
    linarith

/-- Of two equally near whole numbers it is the even one. -/
theorem even_of_tie (h : NearestEven q k) (hne : j ≠ k) (htie : |q - j| = |q - k|) : Even k := by
  have hapart := one_le_abs_add hne q
  have hnear := h.near
  exact h.even (by linarith)

/-- Beyond an odd number the next one is the nearest from the middle on. -/
theorem lt_iff_of_not_even (h : NearestEven q k) (hodd : ¬ Even j) : j < k ↔ j + 1 / 2 ≤ q := by
  obtain ⟨hlow, hhigh⟩ := abs_le.1 h.near
  constructor
  · intro hlt
    have hstep : (j + 1 : ℚ) ≤ k := by exact_mod_cast hlt
    linarith
  · intro hmiddle
    by_contra hle
    have hle' : (k : ℚ) ≤ j := by exact_mod_cast not_lt.1 hle
    have htie : |q - k| = 1 / 2 := by
      rw [abs_of_nonneg (by linarith)]
      linarith
    have hsame : (k : ℚ) = j := by linarith
    have hsame' : k = j := by exact_mod_cast hsame
    exact hodd (hsame' ▸ h.even htie)

end NearestEven

/-! ## Magnitudes -/

theorem cast_shiftLeft (n k : Nat) : ((n <<< k : Nat) : ℚ) = n * 2 ^ k := by
  rw [Nat.shiftLeft_eq, Nat.cast_mul, Nat.cast_pow, Nat.cast_ofNat]

namespace Magnitude

variable {num den : Nat} {size other : Magnitude}

/-- The rounded mantissa is the whole number of steps nearest to the quotient. -/
theorem nearestEven_rounded (num : Nat) (hden : 0 < den) :
    NearestEven (num / den / 2 ^ excess num den) (rounded num den : Nat) := by
  have hquotient := NearestEven.quotient num (shiftLeft_pos hden (excess num den))
  rwa [cast_shiftLeft, ← div_div] at hquotient

/-- A rounded quotient as a number of steps. -/
theorem cast_units_ofQuotient? (h : ofQuotient? num den = some size) :
    (size.units : ℚ) = (rounded num den : ℤ) * 2 ^ excess num den := by
  rw [units_ofQuotient? h, cast_shiftLeft, Int.cast_natCast]

/-- A distance counted in steps. -/
theorem abs_mul_sub {step : ℚ} (hstep : 0 < step) (j u : ℚ) :
    |j * step - u| = |u / step - j| * step := by
  have hne : step ≠ 0 := hstep.ne'
  have hscaled : j * step - u = -((u / step - j) * step) := by
    field_simp
    ring
  rw [hscaled, abs_neg, abs_mul, abs_of_pos hstep]

/-- A magnitude is a whole number of the steps of a quotient, or such a number lies above it and up
    to the quotient. -/
theorem units_cases (other : Magnitude) (num den : Nat) :
    (∃ j : ℤ, (other.units : ℚ) = j * 2 ^ excess num den) ∨
      ∃ j : ℤ, (other.units : ℚ) < j * 2 ^ excess num den ∧
        (j * 2 ^ excess num den : ℚ) ≤ num / den := by
  by_cases hscale : excess num den ≤ other.scale
  · have hunits : other.units =
        other.mantissa <<< (other.scale - excess num den) <<< excess num den := by
      rw [← Nat.shiftLeft_add, Nat.sub_add_cancel hscale]
      rfl
    left
    refine ⟨(other.mantissa <<< (other.scale - excess num den) : Nat), ?_⟩
    rw [hunits, cast_shiftLeft, Int.cast_natCast]
  · -- the power of two below the quotient
    have hpower : ((1 <<< (52 + excess num den) : Nat) : ℚ) =
        ((1 <<< 52 : Nat) : ℤ) * 2 ^ excess num den := by
      rw [one_shiftLeft_add, Nat.cast_mul, cast_shiftLeft 1 (excess num den), Nat.cast_one, one_mul,
        Int.cast_natCast]
    have hother : other.units < 1 <<< (52 + excess num den) :=
      Nat.lt_of_lt_of_le other.units_lt (shiftLeft_le_shiftLeft 1 (by omega))
    have hquotient : 1 <<< (52 + excess num den) ≤ num / den := le_of_excess_ne_zero (by omega)
    right
    refine ⟨(1 <<< 52 : Nat), ?_, ?_⟩
    · rw [← hpower]
      exact_mod_cast hother
    · calc (((1 <<< 52 : Nat) : ℤ) * 2 ^ excess num den : ℚ)
          = ((1 <<< (52 + excess num den) : Nat) : ℚ) := hpower.symm
        _ ≤ ((num / den : Nat) : ℚ) := by exact_mod_cast hquotient
        _ ≤ num / den := Nat.cast_div_le

/-- No whole number of steps is nearer to a quotient than the rounded one. -/
theorem abs_units_sub_le_steps (h : ofQuotient? num den = some size) (hden : 0 < den) (j : ℤ) :
    |(size.units : ℚ) - num / den| ≤ |j * 2 ^ excess num den - (num / den : ℚ)| := by
  have hstep : (0 : ℚ) < 2 ^ excess num den := by positivity
  rw [cast_units_ofQuotient? h, abs_mul_sub hstep, abs_mul_sub hstep]
  exact mul_le_mul_of_nonneg_right ((nearestEven_rounded num hden).abs_sub_le j) hstep.le

/-- A magnitude is a whole number of steps, or it is farther from the quotient than the rounded
    one. -/
theorem units_eq_or_lt (h : ofQuotient? num den = some size) (hden : 0 < den) (other : Magnitude) :
    (∃ j : ℤ, (other.units : ℚ) = j * 2 ^ excess num den) ∨
      |(size.units : ℚ) - num / den| < |(other.units : ℚ) - num / den| := by
  refine (units_cases other num den).imp id fun ⟨j, hother, hle⟩ => ?_
  calc |(size.units : ℚ) - num / den|
      ≤ |j * 2 ^ excess num den - (num / den : ℚ)| := abs_units_sub_le_steps h hden j
    _ = num / den - j * 2 ^ excess num den := by
        rw [abs_of_nonpos (sub_nonpos.2 hle), neg_sub]
    _ < num / den - other.units := sub_lt_sub_left hother _
    _ = |(other.units : ℚ) - num / den| := by
        rw [abs_of_neg (sub_neg.2 (hother.trans_le hle)), neg_sub]

/-- **No magnitude is nearer** to a quotient than the rounded one. -/
theorem abs_units_sub_le (h : ofQuotient? num den = some size) (hden : 0 < den)
    (other : Magnitude) : |(size.units : ℚ) - num / den| ≤ |(other.units : ℚ) - num / den| := by
  rcases units_eq_or_lt h hden other with ⟨j, hj⟩ | hlt
  · rw [hj]
    exact abs_units_sub_le_steps h hden j
  · exact hlt.le

/-- Rounding keeps the mantissa, or carries into a power of two. -/
theorem mantissa_ofQuotient? (h : ofQuotient? num den = some size) :
    size.mantissa = rounded num den ∨ size.mantissa = 1 <<< 52 := by
  simp only [ofQuotient?] at h
  split at h
  · split at h
    · obtain rfl := Option.some.inj h
      exact Or.inl rfl
    · cases h
  · split at h
    · obtain rfl := Option.some.inj h
      exact Or.inr rfl
    · cases h

/-- Of two equally near magnitudes the rounded one has the even mantissa. -/
theorem even_of_tie (h : ofQuotient? num den = some size) (hden : 0 < den) (hne : other ≠ size)
    (htie : |(other.units : ℚ) - num / den| = |(size.units : ℚ) - num / den|) :
    Even size.mantissa := by
  have hstep : (0 : ℚ) < 2 ^ excess num den := by positivity
  rcases units_eq_or_lt h hden other with ⟨j, hj⟩ | hlt
  · have hother : j ≠ (rounded num den : Nat) := by
      rintro rfl
      rw [← cast_units_ofQuotient? h] at hj
      exact hne (units_inj.1 (by exact_mod_cast hj))
    rw [cast_units_ofQuotient? h, hj, abs_mul_sub hstep, abs_mul_sub hstep] at htie
    have heven : Even (rounded num den) := by
      have := (nearestEven_rounded num hden).even_of_tie hother (mul_right_cancel₀ hstep.ne' htie)
      exact_mod_cast this
    rcases mantissa_ofQuotient? h with hmantissa | hmantissa
    · rwa [hmantissa]
    · rw [hmantissa]
      decide
  · exact absurd htie hlt.ne'

/-! ## Overflow -/

/-- A quotient overflows if its step is too large, or if it is rounded up past the largest
    mantissa at the largest step. -/
theorem ofQuotient?_eq_none_iff : ofQuotient? num den = none ↔
    2045 < excess num den ∨ excess num den = 2045 ∧ rounded num den = 1 <<< 53 := by
  have hle := rounded_le num den
  unfold rounded at hle ⊢
  simp only [ofQuotient?]
  split
  · split
    · simp only [reduceCtorEq, false_iff]
      omega
    · simp only [true_iff]
      omega
  · split
    · simp only [reduceCtorEq, false_iff]
      omega
    · simp only [true_iff]
      omega

theorem lt_of_excess_lt (hden : 0 < den) (h : excess num den < 2045) :
    (num / den : ℚ) < 2 ^ 2098 - 2 ^ 2044 := by
  have hstep : (0 : ℚ) < 2 ^ excess num den := by positivity
  have hlast : (2 : ℚ) ^ excess num den ≤ 2 ^ 2044 := pow_le_pow_right₀ one_le_two (by omega)
  have hbound : (2 : ℚ) ^ 2098 = 2 ^ 54 * 2 ^ 2044 := by rw [← pow_add]
  have hrounded : ((rounded num den : ℤ) : ℚ) ≤ 2 ^ 53 := by exact_mod_cast rounded_le num den
  obtain ⟨_, hnear⟩ := abs_le.1 (nearestEven_rounded num hden).near
  rw [hbound]
  generalize (2 : ℚ) ^ 2044 = last at hlast ⊢
  have hquotient : (num / den / 2 ^ excess num den : ℚ) ≤ 2 ^ 53 + 1 / 2 := by linarith
  rw [div_le_iff₀ hstep] at hquotient
  calc (num / den : ℚ) ≤ (2 ^ 53 + 1 / 2) * 2 ^ excess num den := hquotient
    _ ≤ (2 ^ 53 + 1 / 2) * last := mul_le_mul_of_nonneg_left hlast (by norm_num)
    _ < 2 ^ 54 * last - last := by linarith

theorem le_of_lt_excess (h : 2045 < excess num den) :
    (2 : ℚ) ^ 2098 - 2 ^ 2044 ≤ num / den := by
  have hpower : 1 <<< 2098 ≤ num / den :=
    Nat.le_trans (shiftLeft_le_shiftLeft 1 (by omega)) (le_of_excess_ne_zero (by omega))
  calc (2 : ℚ) ^ 2098 - 2 ^ 2044 ≤ 2 ^ 2098 := sub_le_self _ (by positivity)
    _ = ((1 <<< 2098 : Nat) : ℚ) := by rw [cast_shiftLeft, Nat.cast_one, one_mul]
    _ ≤ ((num / den : Nat) : ℚ) := by exact_mod_cast hpower
    _ ≤ num / den := Nat.cast_div_le

/-- At the largest step the largest mantissa is odd, so that its middle to the next one is rounded
    up. -/
theorem rounded_eq_iff_le (hden : 0 < den) (h : excess num den = 2045) :
    rounded num den = 1 <<< 53 ↔ (2 : ℚ) ^ 2098 - 2 ^ 2044 ≤ num / den := by
  have hstep : (0 : ℚ) < 2 ^ 2045 := by positivity
  have hbound : (2 : ℚ) ^ 2098 - 2 ^ 2044 = (((2 ^ 53 - 1 : ℤ) : ℚ) + 1 / 2) * 2 ^ 2045 := by
    have hnext : (2 : ℚ) ^ 2098 = 2 ^ 54 * 2 ^ 2044 := by rw [← pow_add]
    have hstep : (2 : ℚ) ^ 2045 = 2 ^ 2044 * 2 := pow_succ 2 2044
    rw [hnext, hstep]
    generalize (2 : ℚ) ^ 2044 = last
    push_cast
    ring
  have hnear := nearestEven_rounded num hden
  have hle := rounded_le num den
  rw [h] at hnear
  have hodd : ¬ Even (2 ^ 53 - 1 : ℤ) := by decide
  have hcarry := hnear.lt_iff_of_not_even hodd
  rw [le_div_iff₀ hstep] at hcarry
  rw [hbound, ← hcarry]
  omega

/-- **Overflow** begins half a step past the largest magnitude. -/
theorem ofQuotient?_eq_none_iff_le (hden : 0 < den) :
    ofQuotient? num den = none ↔ (2 : ℚ) ^ 2098 - 2 ^ 2044 ≤ num / den := by
  rw [ofQuotient?_eq_none_iff]
  rcases Nat.lt_trichotomy (excess num den) 2045 with hlt | heq | hgt
  · have hbelow := lt_of_excess_lt hden hlt
    exact iff_of_false (by omega) (not_le.2 hbelow)
  · rw [← rounded_eq_iff_le hden heq]
    omega
  · exact iff_of_true (Or.inl hgt) (le_of_lt_excess hgt)

/-! ## Neighbours -/

/-- The steps of a magnitude that is below another one lead up to that one at most. -/
theorem add_step_le_of_lt (h : size.units < other.units) :
    size.units + 1 <<< size.scale ≤ other.units := by
  have hscale : size.scale ≤ other.scale := by
    by_contra hlt
    have hless := units_lt_of_scale_lt (not_le.1 hlt)
    omega
  have hother : other.units = (other.mantissa <<< (other.scale - size.scale)) <<< size.scale := by
    rw [← Nat.shiftLeft_add, Nat.sub_add_cancel hscale]
    rfl
  unfold units at h ⊢
  unfold units at hother
  rw [hother, shiftLeft_eq_mul _ size.scale] at h ⊢
  rw [shiftLeft_eq_mul (other.mantissa <<< (other.scale - size.scale)) size.scale] at h ⊢
  have hmantissa := Nat.lt_of_mul_lt_mul_right h
  calc size.mantissa * 1 <<< size.scale + 1 <<< size.scale
      = (size.mantissa + 1) * 1 <<< size.scale := (Nat.succ_mul _ _).symm
    _ ≤ other.mantissa <<< (other.scale - size.scale) * 1 <<< size.scale :=
        Nat.mul_le_mul_right _ hmantissa

/-- Between two magnitudes with even mantissas there is another one. -/
theorem exists_between (h : size.units < other.units) (hsize : Even size.mantissa)
    (hother : Even other.mantissa) :
    ∃ middle : Magnitude, size.units < middle.units ∧ middle.units < other.units := by
  have hlt : size.mantissa + 1 < 1 <<< 53 := by
    have hmantissa := size.mantissa_lt
    obtain ⟨half, hhalf⟩ := hsize
    omega
  let middle : Magnitude := ⟨size.mantissa + 1, size.scale, hlt, size.scale_le,
    size.normal.imp Nat.le_succ_of_le id⟩
  have hmiddle : middle.units = size.units + 1 <<< size.scale := by
    show (size.mantissa + 1) <<< size.scale = size.mantissa <<< size.scale + 1 <<< size.scale
    rw [shiftLeft_eq_mul, shiftLeft_eq_mul size.mantissa, Nat.succ_mul]
  have hstep := shiftLeft_pos Nat.one_pos size.scale
  have hle := add_step_le_of_lt h
  have hne : middle.units ≠ other.units := by
    intro heq
    rw [← units_inj.1 heq] at hother
    exact (Nat.even_add_one.1 hother) hsize
  exact ⟨middle, by omega, by omega⟩

end Magnitude

/-! ## The nearest number -/

namespace Binary64

variable {x y : Binary64} {q : ℚ} {num den : Nat}

/-- The first exact number that is rounded to an infinity: half a step past the largest number of
    the format. -/
def overflowBound : ℚ := 2 ^ 1024 - 2 ^ 970

/-- Is a number of the format the one nearest to an exact number that is not below zero? No finite
    number is nearer, and if another one is as near, the mantissa is even. From the bound of the
    format on it is the infinity. -/
inductive IsNearest (q : ℚ) : Binary64 → Prop where
  | inRange {size : Magnitude} (hrange : q < overflowBound)
      (hnear : ∀ y : Binary64, y.isFinite = true →
        |(finite false size).value - q| ≤ |y.value - q|)
      (heven : ∀ y : Binary64, y.isFinite = true → y.value ≠ (finite false size).value →
        |y.value - q| = |(finite false size).value - q| → Even size.mantissa) :
      IsNearest q (finite false size)
  | beyond (hrange : overflowBound ≤ q) : IsNearest q (infinity false)

theorem cast_unitsPerOne : (unitsPerOne : ℚ) = 2 ^ 1074 := by
  rw [unitsPerOne_eq, cast_shiftLeft, Nat.cast_one, one_mul]

theorem value_finite_false (a : Magnitude) : (finite false a).value = a.units / unitsPerOne := rfl

theorem value_lt_value_iff {a b : Magnitude} :
    (finite false a).value < (finite false b).value ↔ a.units < b.units := by
  have hunits : (0 : ℚ) < unitsPerOne := by exact_mod_cast unitsPerOne_pos
  rw [value_finite_false, value_finite_false, div_lt_div_iff_of_pos_right hunits, Nat.cast_lt]

/-- A finite number is a magnitude, or it is below zero. -/
theorem exists_value_eq_or_neg (h : y.isFinite = true) :
    (∃ b, y.value = (finite false b).value) ∨ y.value < 0 := by
  cases y with
  | nan | infinity negative => cases h
  | finite negative b =>
      cases negative with
      | false => exact Or.inl ⟨b, rfl⟩
      | true =>
          have hvalue : (finite true b).value = -(finite false b).value := by
            rw [value_finite, value_finite_false]
            unfold signFactor
            simp [neg_div]
          rcases Nat.eq_zero_or_pos b.units with hzero | hpos
          · left
            refine ⟨b, ?_⟩
            rw [hvalue, value_finite_false, hzero]
            simp
          · right
            have hunits : (0 : ℚ) < unitsPerOne := by exact_mod_cast unitsPerOne_pos
            have hpos' : (0 : ℚ) < b.units := by exact_mod_cast hpos
            rw [hvalue, value_finite_false, neg_lt_zero]
            exact div_pos hpos' hunits

/-- A distance counted in units. -/
theorem abs_value_sub (a : Magnitude) (q : ℚ) :
    |(finite false a).value - q| = |a.units - q * unitsPerOne| / unitsPerOne := by
  have hunits : (0 : ℚ) < unitsPerOne := by exact_mod_cast unitsPerOne_pos
  have hdistance : (finite false a).value - q = (a.units - q * unitsPerOne) / unitsPerOne := by
    rw [value_finite_false, sub_div, mul_div_cancel_right₀ _ hunits.ne']
  rw [hdistance, abs_div, abs_of_pos hunits]

/-- Numbers below zero are farther than zero from what is not below it. -/
theorem abs_zero_sub_lt (hq : 0 ≤ q) (hy : y.value < 0) :
    |(finite false .zero).value - q| < |y.value - q| := by
  have hzero : (finite false .zero).value = 0 := by
    rw [value_finite_false]
    exact zero_div _
  rw [hzero, zero_sub, abs_neg, abs_of_nonneg hq, abs_of_neg (by linarith)]
  linarith

/-- Two magnitudes are not both nearest. -/
theorem IsNearest.not_units_lt {a b : Magnitude} (ha : IsNearest q (finite false a))
    (hb : IsNearest q (finite false b)) : ¬ a.units < b.units := by
  intro hlt
  cases ha with
  | inRange _ hnear heven =>
      cases hb with
      | inRange _ hnear' heven' =>
          have hvalue := value_lt_value_iff.2 hlt
          have htie := le_antisymm (hnear (finite false b) rfl) (hnear' (finite false a) rfl)
          have hfirst := heven (finite false b) rfl hvalue.ne' htie.symm
          have hsecond := heven' (finite false a) rfl hvalue.ne htie
          -- a number between them would be nearer than both
          obtain ⟨middle, hlow, hhigh⟩ := Magnitude.exists_between hlt hfirst hsecond
          have hlow' := value_lt_value_iff.2 hlow
          have hhigh' := value_lt_value_iff.2 hhigh
          have hmiddle := hnear (finite false middle) rfl
          rcases abs_eq_abs.1 htie with hsame | hopposite
          · linarith
          · have hcloser : |(finite false middle).value - q| < (finite false b).value - q :=
              abs_lt.2 ⟨by linarith, by linarith⟩
            rw [hopposite, abs_neg] at hmiddle
            exact absurd (le_abs_self _) (not_le.2 (hmiddle.trans_lt hcloser))

/-- **One number is the nearest.** -/
theorem IsNearest.unique (hx : IsNearest q x) (hy : IsNearest q y) : x = y := by
  cases hx with
  | @inRange a hrange hnear heven =>
      cases hy with
      | @inRange b hrange' hnear' heven' =>
          have hx' := IsNearest.inRange hrange hnear heven
          have hy' := IsNearest.inRange hrange' hnear' heven'
          have hle := not_lt.1 (hy'.not_units_lt hx')
          have hge := not_lt.1 (hx'.not_units_lt hy')
          rw [Magnitude.units_inj.1 (Nat.le_antisymm hle hge)]
      | beyond hrange' => exact absurd hrange (not_lt.2 hrange')
  | beyond hrange =>
      cases hy with
      | inRange hrange' _ _ => exact absurd hrange' (not_lt.2 hrange)
      | beyond _ => rfl

/-- **Rounding gives the nearest number.** -/
theorem isNearest_ofUnitQuotient (hden : 0 < den) (h : (num / den : ℚ) = q * unitsPerOne) :
    IsNearest q (ofUnitQuotient false num den) := by
  have hunits : (0 : ℚ) < unitsPerOne := by exact_mod_cast unitsPerOne_pos
  have hq : 0 ≤ q := by
    have hquotient : (0 : ℚ) ≤ num / den := by positivity
    rw [h] at hquotient
    exact nonneg_of_mul_nonneg_left hquotient hunits
  have hbound : overflowBound * unitsPerOne = 2 ^ 2098 - 2 ^ 2044 := by
    unfold overflowBound
    rw [cast_unitsPerOne, sub_mul, ← pow_add, ← pow_add]
  have hrange := @Magnitude.ofQuotient?_eq_none_iff_le num den hden
  rw [h, ← hbound, mul_le_mul_iff_of_pos_right hunits] at hrange
  unfold ofUnitQuotient
  cases hsize : Magnitude.ofQuotient? num den with
  | none => exact .beyond (hrange.1 hsize)
  | some size =>
      have hinside : q < overflowBound := by
        rw [← not_le, ← hrange, hsize]
        exact nofun
      have hmagnitude : ∀ other : Magnitude,
          |(finite false size).value - q| ≤ |(finite false other).value - q| := by
        intro other
        rw [abs_value_sub, abs_value_sub, div_le_div_iff_of_pos_right hunits, ← h]
        exact Magnitude.abs_units_sub_le hsize hden other
      refine .inRange hinside ?_ ?_
      · intro y hy
        rcases exists_value_eq_or_neg hy with ⟨other, hother⟩ | hneg
        · rw [hother]
          exact hmagnitude other
        · exact (hmagnitude .zero).trans (abs_zero_sub_lt hq hneg).le
      · intro y hy hne htie
        rcases exists_value_eq_or_neg hy with ⟨other, hother⟩ | hneg
        · rw [hother] at hne htie
          rw [abs_value_sub, abs_value_sub, div_left_inj' hunits.ne', ← h] at htie
          refine Magnitude.even_of_tie hsize hden ?_ htie
          rintro rfl
          exact hne rfl
        · exact absurd htie ((hmagnitude .zero).trans_lt (abs_zero_sub_lt hq hneg)).ne'

end Binary64

namespace Decimal

/-- **Decimals are rounded to the nearest number.** -/
theorem isNearest_toBinary64 (d : Decimal) : Binary64.IsNearest d.value (d.toBinary64 false) := by
  rw [toBinary64_eq_nearest]
  unfold nearest value
  split
  · next hwhole =>
    refine Binary64.isNearest_ofUnitQuotient Nat.one_pos ?_
    have hpower : (10 : ℚ) ^ d.exponent = 10 ^ d.exponent.toNat := by
      rw [← zpow_natCast, Int.toNat_of_nonneg hwhole]
    rw [hpower, Nat.cast_one, div_one, Nat.cast_mul, Nat.cast_mul, Binary64.cast_powerOfTen]
  · next hfraction =>
    refine Binary64.isNearest_ofUnitQuotient (powerOfTen_pos _) ?_
    have hpower : (10 : ℚ) ^ d.exponent = (10 ^ (-d.exponent).toNat)⁻¹ := by
      rw [← zpow_natCast, Int.toNat_of_nonneg (by omega), ← zpow_neg, neg_neg]
    rw [hpower, Nat.cast_mul, Binary64.cast_powerOfTen, div_eq_mul_inv, mul_right_comm]

end Decimal

end TurtleGrammar
