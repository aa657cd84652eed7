import TurtleGrammar.Binary64.Basic

/-!
# `TurtleGrammar.Proofs.Magnitude` — the size of magnitudes

A magnitude is a mantissa times a power of two. Its scale says between which powers of two it lies,
so that each number has one form, and so that rounding to the nearest magnitude respects the order:
a quotient up to some magnitude is rounded to one up to it.

## Contents
- `Magnitude.units_lt`, `Magnitude.le_units`: the powers of two around a magnitude.
- `Magnitude.units_inj`: one form for each number.
- `Magnitude.units_ofQuotient?`, `Magnitude.units_ofQuotient?_le`: the size of a rounded quotient.
- `Magnitude.exists_ofQuotient?`: numbers that do not overflow.
-/

namespace TurtleGrammar

theorem shiftLeft_eq_mul (n k : Nat) : n <<< k = n * 1 <<< k := by
  rw [Nat.shiftLeft_eq, Nat.shiftLeft_eq 1, Nat.one_mul]

namespace Magnitude

variable {a b size bound : Magnitude} {num den : Nat}

theorem units_lt (size : Magnitude) : size.units < 1 <<< (53 + size.scale) := by
  have hmantissa := size.mantissa_lt
  unfold units
  rw [one_shiftLeft_add, shiftLeft_eq_mul]
  exact Nat.mul_lt_mul_of_pos_right hmantissa (shiftLeft_pos (by decide) _)

/-- Above the smallest scale mantissas have all their binary places. -/
theorem le_units (h : size.scale ≠ 0) : 1 <<< (52 + size.scale) ≤ size.units := by
  have hmantissa : 1 <<< 52 ≤ size.mantissa := size.normal.resolve_right h
  unfold units
  rw [one_shiftLeft_add, shiftLeft_eq_mul size.mantissa]
  exact Nat.mul_le_mul_right _ hmantissa

theorem units_lt_of_scale_lt (h : a.scale < b.scale) : a.units < b.units := by
  have hpower : 1 <<< (53 + a.scale) ≤ 1 <<< (52 + b.scale) := shiftLeft_le_shiftLeft 1 (by omega)
  have hb : 1 <<< (52 + b.scale) ≤ b.units := le_units (by omega)
  exact Nat.lt_of_lt_of_le a.units_lt (Nat.le_trans hpower hb)

/-- **One form.** A number of units has one mantissa and one scale. -/
theorem units_inj : a.units = b.units ↔ a = b := by
  constructor
  · intro h
    have hscale : a.scale = b.scale := by
      rcases Nat.lt_trichotomy a.scale b.scale with hlt | heq | hlt
      · exact absurd h (Nat.ne_of_lt (units_lt_of_scale_lt hlt))
      · exact heq
      · exact absurd h (Nat.ne_of_gt (units_lt_of_scale_lt hlt))
    have hmantissa : a.mantissa = b.mantissa := by
      unfold units at h
      rw [hscale, Nat.shiftLeft_eq, Nat.shiftLeft_eq] at h
      exact Nat.eq_of_mul_eq_mul_right (Nat.two_pow_pos b.scale) h
    exact ext hmantissa hscale
  · intro h
    rw [h]

/-! ## Rounded quotients -/

/-- The units of a rounded quotient, whether or not rounding carries into one more place. -/
theorem units_ofQuotient? (h : ofQuotient? num den = some size) :
    size.units = rounded num den <<< excess num den := by
  have hle := rounded_le num den
  simp only [ofQuotient?] at h
  split at h
  · split at h
    · obtain rfl := Option.some.inj h
      rfl
    · cases h
  · next hcarry =>
    have hrounded : rounded num den = 1 <<< 53 := by
      unfold rounded at hle ⊢
      omega
    split at h
    · obtain rfl := Option.some.inj h
      show (1 <<< 52) <<< (excess num den + 1) = _
      rw [hrounded, ← Nat.shiftLeft_add, ← Nat.shiftLeft_add]
      congr 1
      omega
    · cases h

theorem excess_le_of_small {num k : Nat} (h : num < 1 <<< k) : excess num 1 + 53 ≤ max k 53 := by
  rw [Nat.shiftLeft_eq, Nat.one_mul] at h
  unfold excess
  rw [Nat.div_one]
  rcases Nat.eq_zero_or_pos num with rfl | hpos
  · rw [Nat.log2_zero]
    omega
  · have hlog : num.log2 < k := (Nat.log2_lt (Nat.ne_of_gt hpos)).2 h
    omega

theorem le_of_excess_ne_zero (h : excess num den ≠ 0) :
    1 <<< (52 + excess num den) ≤ num / den := by
  have hlog : (num / den).log2 = 52 + excess num den := by
    unfold excess at h ⊢
    omega
  have hne : num / den ≠ 0 := by
    intro hzero
    rw [hzero, Nat.log2_zero] at hlog
    omega
  rw [Nat.shiftLeft_eq, Nat.one_mul, ← hlog]
  exact Nat.log2_self_le hne

/-- **Rounding respects the order.** A quotient up to a magnitude is rounded to one up to it. -/
theorem units_ofQuotient?_le (h : ofQuotient? num den = some size) (hden : 0 < den)
    (hnum : num ≤ bound.units * den) : size.units ≤ bound.units := by
  rw [units_ofQuotient? h]
  -- the bound is a whole number of the places to which the quotient is rounded
  have hscale : excess num den ≤ bound.scale := by
    by_cases hzero : excess num den = 0
    · omega
    · have hquotient : num / den ≤ bound.units := Nat.div_le_of_le_mul (Nat.mul_comm .. ▸ hnum)
      have hpower : 1 <<< (52 + excess num den) < 1 <<< (53 + bound.scale) :=
        Nat.lt_of_le_of_lt (Nat.le_trans (le_of_excess_ne_zero hzero) hquotient) bound.units_lt
      rw [Nat.shiftLeft_eq, Nat.shiftLeft_eq, Nat.one_mul, Nat.one_mul,
        Nat.pow_lt_pow_iff_right (by decide)] at hpower
      omega
  have hbound : bound.units =
      bound.mantissa <<< (bound.scale - excess num den) <<< excess num den := by
    rw [← Nat.shiftLeft_add, Nat.sub_add_cancel hscale]
    rfl
  have hrounded : rounded num den ≤ bound.mantissa <<< (bound.scale - excess num den) := by
    refine roundDiv_le (shiftLeft_pos hden _) ?_
    rw [hbound, shiftLeft_eq_mul _ (excess num den)] at hnum
    rw [shiftLeft_eq_mul den, Nat.mul_comm den, ← Nat.mul_assoc]
    exact hnum
  rw [hbound, Nat.shiftLeft_eq, Nat.shiftLeft_eq _ (excess num den)]
  exact Nat.mul_le_mul_right _ hrounded

/-- Between the largest magnitude and the next power of two lies one step. -/
theorem units_add_step_le (size : Magnitude) : size.units + 1 <<< 2045 ≤ 1 <<< 2098 := by
  have hscale := size.scale_le
  rcases Nat.lt_or_ge size.scale 2045 with hlt | hge
  · -- a smaller scale leaves at least half of the power
    have hunits : size.units < 1 <<< 2097 :=
      Nat.lt_of_lt_of_le size.units_lt (shiftLeft_le_shiftLeft 1 (by omega))
    have hstep : 1 <<< 2045 ≤ 1 <<< 2097 := shiftLeft_le_shiftLeft 1 (by decide)
    have hdouble : 1 <<< 2098 = 2 * 1 <<< 2097 := Nat.shiftLeft_succ 1 2097
    omega
  · have hmantissa : size.mantissa + 1 ≤ 1 <<< 53 := size.mantissa_lt
    have hmul : (size.mantissa + 1) * 1 <<< 2045 ≤ 1 <<< 53 * 1 <<< 2045 :=
      Nat.mul_le_mul_right _ hmantissa
    have htop : size.scale = 2045 := by omega
    unfold units
    rw [htop, shiftLeft_eq_mul, ← Nat.succ_mul]
    rwa [one_shiftLeft_add 53 2045]

/-- **No overflow.** A number of units that lies more than half a step below the power of two past
    the largest magnitude is rounded to a magnitude. -/
theorem exists_ofQuotient? (h : 2 * num + 1 <<< 2045 < 1 <<< 2099) :
    ∃ size, ofQuotient? num 1 = some size := by
  have hpower : 1 <<< 2099 = 2 * 1 <<< 2098 := Nat.shiftLeft_succ 1 2098
  have hexcess : excess num 1 ≤ 2045 := by
    have hnum : num < 1 <<< 2098 := by omega
    have hsmall := excess_le_of_small hnum
    omega
  have htop : excess num 1 = 2045 → rounded num 1 < 1 <<< 53 := by
    intro heq
    have hnear := two_mul_roundDiv_le num (shiftLeft_pos (n := 1) (by decide) 2045)
    refine Nat.lt_of_not_le fun hcarry => ?_
    have hmul : 1 <<< 2045 * 1 <<< 53 ≤ 1 <<< 2045 * rounded num 1 :=
      Nat.mul_le_mul_left _ hcarry
    rw [← one_shiftLeft_add 2045 53] at hmul
    unfold rounded at hmul
    rw [heq] at hmul
    omega
  by_cases hcarry : rounded num 1 < 1 <<< 53
  · obtain ⟨size, hsize, _⟩ := ofQuotient?_of_lt hcarry hexcess
    exact ⟨size, hsize⟩
  · -- at the largest scale there is no carry, so that one more place is left
    have hlower : excess num 1 + 1 ≤ 2045 := by
      have hne := mt htop hcarry
      omega
    unfold rounded at hcarry
    simp only [ofQuotient?]
    rw [dif_neg hcarry, dif_pos hlower]
    exact ⟨_, rfl⟩

end Magnitude

end TurtleGrammar
