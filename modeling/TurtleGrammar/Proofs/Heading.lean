import TurtleGrammar.Angle
import TurtleGrammar.Proofs.Magnitude

/-!
# `TurtleGrammar.Proofs.Heading` — headings after a turn

A turn takes the remainder by a full turn. The size of a remainder is below the divisor's before it
is rounded and at most that after it, and a full turn is far too small for a sum with it to
overflow. So no heading after a turn is infinite.

## Contents
- `Binary64.ofUnitQuotient_of_le`, `Binary64.add_isFinite_of_small`: numbers that do not overflow.
- `Binary64.floorMod_cases`, `Binary64.floorMod_isInfinite`: remainders by a finite number.
- `Angle.turn_isInfinite`: headings after a turn.
-/

namespace TurtleGrammar

namespace Binary64

variable {x y : Binary64} {num : Nat} {a bound divisor : Magnitude}

theorem exists_finite_of_isFinite (h : x.isFinite = true) : ∃ s size, x = finite s size := by
  cases x with
  | nan => cases h
  | infinity s => cases h
  | finite s size => exact ⟨s, size, rfl⟩

theorem isInfinite_of_isFinite (h : x.isFinite = true) : x.isInfinite = false := by
  obtain ⟨s, size, rfl⟩ := exists_finite_of_isFinite h
  rfl

/-- A whole number of units up to a magnitude is rounded to a number up to it. -/
theorem ofUnitQuotient_of_le (negative : Bool) (h : num ≤ bound.units) :
    ∃ size, ofUnitQuotient negative num 1 = finite negative size ∧ size.units ≤ bound.units := by
  have hbound := bound.units_add_step_le
  have hstep : 0 < 1 <<< 2045 := shiftLeft_pos (by decide) 2045
  have hdouble : 1 <<< 2099 = 2 * 1 <<< 2098 := Nat.shiftLeft_succ 1 2098
  have hsmall : 2 * num + 1 <<< 2045 < 1 <<< 2099 := by omega
  obtain ⟨size, hsize⟩ := Magnitude.exists_ofQuotient? hsmall
  refine ⟨size, ?_, Magnitude.units_ofQuotient?_le hsize Nat.one_pos (by omega)⟩
  unfold ofUnitQuotient
  rw [hsize]

/-- **No overflow.** A number below half a step of the largest numbers may be added to any. -/
theorem add_isFinite_of_small (s : Bool) (ha : 2 * a.units < 1 <<< 2045)
    (hy : y.isFinite = true) : (finite s a + y).isFinite = true := by
  obtain ⟨t, b, rfl⟩ := exists_finite_of_isFinite hy
  have hb := b.units_add_step_le
  have hdouble : 1 <<< 2099 = 2 * 1 <<< 2098 := Nat.shiftLeft_succ 1 2098
  have htotal : (signed s a + signed t b).natAbs ≤ a.units + b.units := by
    unfold signed
    cases s <;> cases t <;> simp only [Bool.false_eq_true, if_true, if_false] <;> omega
  show (add (finite s a) (finite t b)).isFinite = true
  simp only [add]
  split
  · rfl
  · have hsmall : 2 * (signed s a + signed t b).natAbs + 1 <<< 2045 < 1 <<< 2099 := by omega
    obtain ⟨size, hsize⟩ := Magnitude.exists_ofQuotient? hsmall
    unfold ofUnitQuotient
    rw [hsize]
    rfl

/-- A remainder is zero, or at most as large as the divisor, which is added to it if the signs
    differ. -/
theorem floorMod_cases (s t : Bool) (a : Magnitude) (h : divisor.units ≠ 0) :
    finite s a % finite t divisor = finite t .zero ∨
    ∃ rest : Magnitude, rest.units ≤ divisor.units ∧
      finite s a % finite t divisor =
        if s = t then finite s rest else finite s rest + finite t divisor := by
  have hless : a.units % divisor.units < divisor.units := Nat.mod_lt _ (Nat.pos_of_ne_zero h)
  obtain ⟨rest, hrest, hunits⟩ := ofUnitQuotient_of_le s (Nat.le_of_lt hless)
  have hmod : finite s a % finite t divisor = floorMod (finite s a) (finite t divisor) := rfl
  rw [hmod]
  simp only [floorMod]
  rw [if_neg h, hrest]
  by_cases hzero : a.units % divisor.units = 0
  · exact Or.inl (if_pos hzero)
  · exact Or.inr ⟨rest, hunits, if_neg hzero⟩

/-- **Remainders are finite.** The remainder of a number by one that is far below the largest number
    is finite, or there is none. -/
theorem floorMod_isInfinite (x : Binary64) (negative : Bool) (h : 2 * divisor.units < 1 <<< 2045) :
    (x % finite negative divisor).isInfinite = false := by
  cases x with
  | nan => rfl
  | infinity s => rfl
  | finite s a =>
      by_cases hzero : divisor.units = 0
      · show (floorMod (finite s a) (finite negative divisor)).isInfinite = false
        simp only [floorMod]
        rw [if_pos hzero]
        rfl
      · rcases floorMod_cases s negative a hzero with hmod | ⟨rest, hunits, hmod⟩
        · rw [hmod]
          rfl
        · rw [hmod]
          split
          · rfl
          · have hrest : 2 * rest.units < 1 <<< 2045 := by omega
            exact isInfinite_of_isFinite (add_isFinite_of_small s hrest rfl)

end Binary64

namespace Angle

open Binary64

/-- A full turn is far smaller than a step of the largest numbers. -/
theorem tau_small : ∃ size, tau = finite false size ∧ 2 * size.units < 1 <<< 2045 := by
  obtain ⟨size, hsize, hscale⟩ : ∃ size, tau = finite false size ∧ size.scale = 1024 :=
    ⟨_, rfl, rfl⟩
  have hunits := size.units_lt
  rw [hscale] at hunits
  have hpower : 2 * 1 <<< 1077 ≤ 1 <<< 2045 := by
    rw [← Nat.shiftLeft_succ]
    exact shiftLeft_le_shiftLeft 1 (by decide)
  exact ⟨size, hsize, by omega⟩

/-- After a turn no heading is infinite. -/
theorem turn_isInfinite (heading delta : Binary64) : (turn heading delta).isInfinite = false := by
  have hrest : ((heading + delta) % tau).isInfinite = false := by
    obtain ⟨size, hsize, hsmall⟩ := tau_small
    rw [hsize]
    exact floorMod_isInfinite _ false hsmall
  simp only [turn]
  split
  · exact hrest
  · rfl

end Angle

end TurtleGrammar
