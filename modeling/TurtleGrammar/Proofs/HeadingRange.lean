import TurtleGrammar.Proofs.Heading
import TurtleGrammar.Proofs.Underway

/-!
# `TurtleGrammar.Proofs.HeadingRange` — headings within a full turn

A turn leaves the heading in the range from zero up to a full turn, provided that the sum it takes
the remainder of is finite. The sums with the heading at the start are finite by assumption. After
the first turn the heading is far too small for a sum with the angle to overflow, however large the
angle is, so that every later turn leaves it in the range again.

## Contents
- `Binary64.Nonnegative`, `Binary64.nonnegative_floorMod`: remainders by a positive number.
- `Angle.InTurn`, `Angle.turn_inTurn`: the range, and the heading after a turn.
- `Machine.Oriented`: headings and angles of the turtle and of the saved frames; preserved by every
  symbol.
- `headings_within_turn`: the heading at every position of a word.
-/

namespace TurtleGrammar

namespace Binary64

variable {x y : Binary64} {divisor : Magnitude}

/-- A finite sum has finite terms. -/
theorem isFinite_of_add (h : (x + y).isFinite = true) : x.isFinite = true ∧ y.isFinite = true := by
  change (add x y).isFinite = true at h
  cases x with
  | nan => cases h
  | infinity s =>
      cases y with
      | nan => cases h
      | infinity t =>
          simp only [add] at h
          split at h <;> cases h
      | finite t b => cases h
  | finite s a =>
      cases y with
      | nan => cases h
      | infinity t => cases h
      | finite t b => exact ⟨rfl, rfl⟩

/-- Is the number above zero, or one of the two zeros? -/
def Nonnegative (x : Binary64) : Prop := x.isNaN = false ∧ less x zero = false

theorem nonnegative_finite (size : Magnitude) : Nonnegative (finite false size) := by
  have hunits : ¬(size.units : Int) < 0 := by omega
  exact ⟨rfl, decide_eq_false hunits⟩

theorem nonnegative_ofUnitQuotient (num den : Nat) : Nonnegative (ofUnitQuotient false num den) := by
  unfold ofUnitQuotient
  cases Magnitude.ofQuotient? num den with
  | none => exact ⟨rfl, rfl⟩
  | some size => exact nonnegative_finite size

/-- A number is made up for by one that is at least as large. -/
theorem nonnegative_add {a b : Magnitude} (h : a.units ≤ b.units) :
    Nonnegative (finite true a + finite false b) := by
  show Nonnegative (add (finite true a) (finite false b))
  simp only [add]
  split
  · exact ⟨rfl, rfl⟩
  · have hsign : ¬ signed true a + signed false b < 0 := by
      show ¬ -(a.units : Int) + b.units < 0
      omega
    rw [decide_eq_false hsign]
    exact nonnegative_ofUnitQuotient _ _

/-- **Remainders by a positive number** are not below zero. -/
theorem nonnegative_floorMod (hx : x.isFinite = true) (h : divisor.units ≠ 0) :
    Nonnegative (x % finite false divisor) := by
  obtain ⟨s, a, rfl⟩ := exists_finite_of_isFinite hx
  rcases floorMod_cases s false a h with hmod | ⟨rest, hunits, hmod⟩
  · rw [hmod]
    exact nonnegative_finite .zero
  · rw [hmod]
    cases s with
    | false => exact nonnegative_finite rest
    | true => exact nonnegative_add hunits

end Binary64

namespace Angle

open Binary64

variable {heading delta : Binary64}

/-- Is the heading in the range from zero up to a full turn, the latter excluded? -/
def InTurn (heading : Binary64) : Prop := less heading zero = false ∧ less heading tau = true

instance (heading : Binary64) : Decidable (InTurn heading) := inferInstanceAs (Decidable (_ ∧ _))

/-- **A turn** by which the heading does not overflow leaves it in the range. -/
theorem turn_inTurn (h : (heading + delta).isFinite = true) : InTurn (turn heading delta) := by
  have hremainder : Nonnegative ((heading + delta) % tau) := nonnegative_floorMod h (by decide)
  simp only [turn, hremainder.1, Bool.or_false]
  split
  · next hless => exact ⟨hremainder.2, hless⟩
  · -- the remainder was rounded up to the full turn
    decide

/-- Headings in the range are far smaller than a step of the largest numbers. -/
theorem InTurn.small (h : InTurn heading) :
    ∃ s a, heading = finite s a ∧ 2 * a.units < 1 <<< 2045 := by
  obtain ⟨hlow, hhigh⟩ := h
  cases heading with
  | nan => cases hhigh
  | infinity s =>
      cases s with
      | false => cases hhigh
      | true => cases hlow
  | finite s a =>
      obtain ⟨size, hsize, hsmall⟩ := tau_small
      rw [hsize] at hhigh
      have hbelow : signed s a < size.units := of_decide_eq_true hhigh
      have habove : ¬ signed s a < 0 := of_decide_eq_false hlow
      refine ⟨s, a, rfl, ?_⟩
      unfold signed at hbelow habove
      cases s <;> simp only [Bool.false_eq_true, if_true, if_false] at hbelow habove <;> omega

/-- From the range no finite angle leads to an overflow. -/
theorem InTurn.add_isFinite (h : InTurn heading) (hdelta : delta.isFinite = true) :
    (heading + delta).isFinite = true := by
  obtain ⟨s, a, rfl, hsmall⟩ := h.small
  exact add_isFinite_of_small s hsmall hdelta

end Angle

namespace Setup

variable {setup : Setup} {heading angle delta : Binary64}

/-- A heading and an angle as they can occur in a drawing: the heading at the start or one in the
    range, the angle at the start or its opposite. -/
structure Admits (setup : Setup) (heading angle : Binary64) : Prop where
  heading_cases : heading = setup.heading ∨ Angle.InTurn heading
  angle_cases : angle = setup.angle ∨ angle = -setup.angle

theorem Admits.opposite (h : setup.Admits heading angle) : setup.Admits heading (-angle) := by
  refine ⟨h.heading_cases, ?_⟩
  rcases h.angle_cases with rfl | rfl
  · exact Or.inr rfl
  · exact Or.inl (Binary64.neg_neg _)

/-- Turning to either side leads into the range, from the heading at the start as well. -/
theorem Admits.turn_inTurn (h : setup.Admits heading angle)
    (hplus : (setup.heading + setup.angle).isFinite = true)
    (hminus : (setup.heading - setup.angle).isFinite = true) :
    Angle.InTurn (Angle.turn heading angle) := by
  have hsum : (setup.heading + angle).isFinite = true := by
    rcases h.angle_cases with rfl | rfl
    · exact hplus
    · exact hminus
  -- later sums are finite because the heading is in the range, whatever the angle is
  apply Angle.turn_inTurn
  rcases h.heading_cases with rfl | hrange
  · exact hsum
  · exact hrange.add_isFinite (Binary64.isFinite_of_add hsum).2

end Setup

namespace Machine

variable {annotate : Bool} {setup : Setup} {rest word : Word} {count : Nat} {c : Char}
  {m next : Machine}

/-- Headings and angles of the turtle and of the saved frames. -/
structure Oriented (setup : Setup) (m : Machine) : Prop where
  turtle : setup.Admits m.turtle.heading m.turtle.angle
  frames : ∀ f ∈ m.stack, setup.Admits f.heading f.angle

theorem oriented_start (setup : Setup) : (start setup).Oriented setup := by
  refine ⟨⟨Or.inl rfl, Or.inl rfl⟩, fun f hf => ?_⟩
  exact absurd hf List.not_mem_nil

section Bounded

variable (hplus : (setup.heading + setup.angle).isFinite = true)
  (hminus : (setup.heading - setup.angle).isFinite = true)

include hplus hminus

/-- After a turn the heading is in the range. -/
theorem Reads.inTurn (hreads : Reads annotate rest m c next) (hm : m.Oriented setup)
    (hc : c = Instruction.turnPositive.symbol ∨ c = Instruction.turnNegative.symbol) :
    Angle.InTurn next.turtle.heading := by
  cases hreads with
  | turnPositive => exact hm.turtle.turn_inTurn hplus hminus
  | turnNegative => exact hm.turtle.opposite.turn_inTurn hplus hminus
  | ignore h =>
      have hne := Instruction.ne_symbol_of_none h
      exact absurd hc (not_or_intro (hne _) (hne _))
  | draw | push | pop | scale | flip => exact absurd hc (by decide)

/-- **One symbol** leaves the turtle and the frames with such headings and angles. -/
theorem Reads.oriented (hreads : Reads annotate rest m c next) (hm : m.Oriented setup) :
    next.Oriented setup := by
  have hturned := hreads.inTurn hplus hminus hm
  refine ⟨?_, hreads.forall_frames hm.turtle hm.frames⟩
  cases hreads with
  | ignore | draw | push | scale => exact hm.turtle
  | turnPositive => exact ⟨Or.inr (hturned (Or.inl rfl)), hm.turtle.angle_cases⟩
  | turnNegative => exact ⟨Or.inr (hturned (Or.inr rfl)), hm.turtle.angle_cases⟩
  | flip => exact hm.turtle.opposite
  | @pop f outer hstack =>
      -- the frame that is taken off may bring the heading at the start back
      exact hm.frames f (hstack ▸ List.mem_cons_self)

theorem oriented_of_runTo (hcount : count ≤ word.length)
    (h : runTo annotate count word (.start setup) = .ok m) : m.settled.Oriented setup := by
  refine runTo_invariant (fun _ now => now.Oriented setup) (oriented_start setup) ?_ hcount h
  intro count c m next _ _ hreads hm
  exact hreads.oriented hplus hminus hm

end Bounded

end Machine

/-- **Headings lie within a full turn.** Let the sum and the difference of the heading and the angle
    at the start be finite, as they can be only for a finite heading and a finite angle. Then
    wherever the turtle stands in a word, its heading and those of the saved frames are the heading
    at the start or lie in the range from zero up to a full turn, and right after a turn its heading
    lies in that range. -/
theorem headings_within_turn (setup : Setup) (word : Word)
    (hplus : (setup.heading + setup.angle).isFinite = true)
    (hminus : (setup.heading - setup.angle).isFinite = true) :
    Angle.tau = 2 * Angle.pi ∧
    (∀ (annotate : Bool) (count : Nat) (m : Machine), count ≤ word.length →
      Machine.runTo annotate count word (.start setup) = .ok m →
        (m.turtle.heading = setup.heading ∨ Angle.InTurn m.turtle.heading) ∧
          ∀ f ∈ m.stack, f.heading = setup.heading ∨ Angle.InTurn f.heading) ∧
    ∀ (annotate : Bool) (count : Nat) (c : Char) (m : Machine), word[count]? = some c →
      (c = Instruction.turnPositive.symbol ∨ c = Instruction.turnNegative.symbol) →
        Machine.runTo annotate (count + 1) word (.start setup) = .ok m →
          Angle.InTurn m.turtle.heading := by
  refine ⟨by decide +kernel, fun annotate count m hcount h => ?_, ?_⟩
  · have hm := Machine.oriented_of_runTo hplus hminus hcount h
    exact ⟨hm.turtle.heading_cases, fun f hf => (hm.frames f hf).heading_cases⟩
  · intro annotate count c m hsymbol hc h
    obtain ⟨before, hbefore, hreads⟩ := Machine.reads_of_runTo hsymbol h
    have hcount : count ≤ word.length := Nat.le_of_lt (List.getElem?_eq_some_iff.1 hsymbol).1
    have hm := Machine.oriented_of_runTo hplus hminus hcount hbefore
    have hturned := Machine.Reads.inTurn hplus hminus hreads hm hc
    exact hturned

/-- The largest angle, with a heading that it does not lead out of the format. -/
def Setup.widest : Setup where
  angle := .finite false ⟨(1 <<< 53) - 1, 2045, by decide, by decide, by decide⟩
  heading := Angle.quarterTurn
  step := .one

/-- Inside a branch the turtle turns by the largest angle; at its end the heading at the start comes
    back, and from there the turtle turns the other way. -/
theorem headings_within_turn_widest :
    (Setup.widest.heading + Setup.widest.angle).isFinite = true ∧
    (Setup.widest.heading - Setup.widest.angle).isFinite = true ∧
    ∃ inside outside,
      Machine.runTo true 2 ['[', '+', ']', '!', '+', 'F'] (.start .widest) = .ok inside ∧
      Machine.runTo true 5 ['[', '+', ']', '!', '+', 'F'] (.start .widest) = .ok outside ∧
      Angle.InTurn inside.turtle.heading ∧ Angle.InTurn outside.turtle.heading ∧
      ∀ f ∈ inside.stack, f.heading = Setup.widest.heading ∨ Angle.InTurn f.heading := by
  have hplus : (Setup.widest.heading + Setup.widest.angle).isFinite = true := by decide +kernel
  have hminus : (Setup.widest.heading - Setup.widest.angle).isFinite = true := by decide +kernel
  obtain ⟨inside, hinside⟩ : ∃ inside,
      Machine.runTo true 2 ['[', '+', ']', '!', '+', 'F'] (.start .widest) = .ok inside :=
    exists_of_isOk (by decide +kernel)
  obtain ⟨outside, houtside⟩ : ∃ outside,
      Machine.runTo true 5 ['[', '+', ']', '!', '+', 'F'] (.start .widest) = .ok outside :=
    exists_of_isOk (by decide +kernel)
  obtain ⟨_, hruns, hturns⟩ :=
    headings_within_turn .widest ['[', '+', ']', '!', '+', 'F'] hplus hminus
  refine ⟨hplus, hminus, inside, outside, hinside, houtside, ?_, ?_, ?_⟩
  · exact hturns true 1 _ inside rfl (Or.inl rfl) hinside
  · exact hturns true 4 _ outside rfl (Or.inl rfl) houtside
  · exact (hruns true 2 inside (by decide) hinside).2

end TurtleGrammar
