import TurtleGrammar.Proofs.Magnitude
import TurtleGrammar.Segment

/-!
# `TurtleGrammar.Proofs.Equality` — equal numbers, points and segments

Numbers are compared by their value: zeros are equal whatever their sign, and a NaN is equal to
nothing. Every other number has one form, so that numbers are equal exactly if their forms are when
the sign of a zero is dropped. Segments are compared number by number.

## Contents
- `Binary64.equals_iff`, `Segment.equals_iff`: equality by forms.
- `Segment.equals_trans`, `Segment.equals_comm`, `Segment.equals_of_hasNaN`: what is left of the laws
  of an equality.
- `Point.Coincides`: equal points, or the same ones; `Segment.coincides_of_equals`.
-/

namespace TurtleGrammar

namespace Binary64

variable {x y : Binary64}

theorem isNaN_eq_false_iff : x.isNaN = false ↔ x ≠ nan := by
  cases x <;> simp [isNaN]

theorem isNaN_unsignedZero (x : Binary64) : x.unsignedZero.isNaN = x.isNaN := by
  cases x with
  | nan | infinity s => rfl
  | finite s a => cases s <;> rfl

theorem unsignedZero_finite (s : Bool) (a : Magnitude) :
    (finite s a).unsignedZero = finite (s && a.units != 0) a := by
  cases s <;> rfl

/-- **Equal numbers** have the same form but for the sign of a zero, and are no NaN. -/
theorem equals_iff : x.equals y = true ↔ x ≠ nan ∧ x.unsignedZero = y.unsignedZero := by
  have hnan : (nan : Binary64).unsignedZero = nan := rfl
  have hinfinity : ∀ s, (infinity s).unsignedZero = infinity s := fun _ => rfl
  cases x with
  | nan => simp [equals]
  | infinity s =>
      cases y with
      | nan | infinity t | finite t b => simp [equals, unsignedZero_finite, hnan, hinfinity]
  | finite s a =>
      cases y with
      | nan | infinity t => simp [equals, unsignedZero_finite, hnan, hinfinity]
      | finite t b =>
          -- the sign bears on the value unless there are no units
          have hvalue : signed s a = signed t b ↔
              (s && a.units != 0) = (t && b.units != 0) ∧ a.units = b.units := by
            unfold signed
            cases s <;> cases t <;> simp <;> grind
          simp [equals, unsignedZero_finite, hvalue, Magnitude.units_inj]

theorem equals_self (h : x ≠ nan) : x.equals x = true := equals_iff.2 ⟨h, rfl⟩

/-- Are the numbers equal, or both a NaN? -/
def Coincides (x y : Binary64) : Prop := x.equals y = true ∨ x = nan ∧ y = nan

theorem coincides_self (x : Binary64) : x.Coincides x := by
  by_cases h : x = nan
  · exact Or.inr ⟨h, h⟩
  · exact Or.inl (equals_self h)

end Binary64

/-- Are the points equal coordinate by coordinate, up to the sign of a zero and with one NaN? -/
def Point.Coincides (p q : Point) : Prop := p.x.Coincides q.x ∧ p.y.Coincides q.y

theorem Point.coincides_self (p : Point) : p.Coincides p :=
  ⟨p.x.coincides_self, p.y.coincides_self⟩

namespace Segment

variable {r s t : Segment}

theorem equalOption_iff {x y : Option Binary64} : equalOption x y = true ↔
    (∀ v ∈ x, v ≠ .nan) ∧ x.map Binary64.unsignedZero = y.map Binary64.unsignedZero := by
  cases x <;> cases y <;> simp [equalOption, Binary64.equals_iff]

theorem hasNaN_eq_false_iff : s.hasNaN = false ↔
    (s.start.x ≠ .nan ∧ s.start.y ≠ .nan ∧ s.stop.x ≠ .nan ∧ s.stop.y ≠ .nan) ∧
      (∀ v ∈ s.length, v ≠ .nan) ∧ ∀ v ∈ s.heading, v ≠ .nan := by
  unfold hasNaN numbers
  cases s.length <;> cases s.heading <;> simp [Binary64.isNaN_eq_false_iff, and_assoc]

theorem hasNaN_key (s : Segment) : s.key.hasNaN = s.hasNaN := by
  unfold hasNaN numbers key
  cases s.length <;> cases s.heading <;> simp [Binary64.isNaN_unsignedZero]

/-- **Equal segments** have the same key and no NaN. -/
theorem equals_iff : s.equals t = true ↔ s.hasNaN = false ∧ s.key = t.key := by
  rw [hasNaN_eq_false_iff]
  unfold equals key
  simp only [Bool.and_eq_true, Binary64.equals_iff, equalOption_iff, beq_iff_eq, mk.injEq,
    Point.mk.injEq]
  grind

theorem hasNaN_of_equals (h : s.equals t = true) : t.hasNaN = false := by
  obtain ⟨hnan, hkey⟩ := equals_iff.1 h
  rw [← hasNaN_key, ← hkey, hasNaN_key, hnan]

theorem equals_self (h : s.hasNaN = false) : s.equals s = true := equals_iff.2 ⟨h, rfl⟩

theorem equals_trans (hrs : r.equals s = true) (hst : s.equals t = true) : r.equals t = true := by
  rw [equals_iff] at hrs hst ⊢
  exact ⟨hrs.1, hrs.2.trans hst.2⟩

theorem equals_comm (s t : Segment) : s.equals t = t.equals s := by
  rw [Bool.eq_iff_iff]
  constructor
  · intro h
    exact equals_iff.2 ⟨hasNaN_of_equals h, (equals_iff.1 h).2.symm⟩
  · intro h
    exact equals_iff.2 ⟨hasNaN_of_equals h, (equals_iff.1 h).2.symm⟩

/-- A segment with a NaN is equal to none. -/
theorem equals_of_hasNaN (h : s.hasNaN = true) (t : Segment) : s.equals t = false := by
  refine Bool.eq_false_iff.2 fun heq => ?_
  rw [(equals_iff.1 heq).1] at h
  exact Bool.false_ne_true h

/-- Equal segments end at the same point. -/
theorem coincides_of_equals (h : s.equals t = true) : s.stop.Coincides t.stop := by
  unfold equals at h
  simp only [Bool.and_eq_true] at h
  exact ⟨Or.inl h.1.1.1.1.2, Or.inl h.1.1.1.2⟩

end Segment

end TurtleGrammar
