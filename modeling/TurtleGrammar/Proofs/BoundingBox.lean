import Mathlib.Data.Set.Insert
import TurtleGrammar.Proofs.FirstOccurrence
import TurtleGrammar.Proofs.Range

/-!
# `TurtleGrammar.Proofs.BoundingBox` — boxes are as small as they can be

The coordinates that the ends of segments have along an axis settle the range of their box along
this axis, and those along the other axis do not matter. Every coordinate lies in the range, and the
range ends at two of them; a NaN does not count. Ranges of the same numbers are therefore equal, up
to the sign of a zero, so that neither the order of segments nor their direction bears on a box.

## Contents
- `Range.Tight`, `Range.Covers.tight`: the smallest range of some numbers, which lists have.
- `Range.Tight.equals`: there is one such range.
- `Bounds.endNumbers`: the coordinates of segments along an axis.
- `Rearranges`, `Bounds.endNumbers_of_rearranges`: other orders and directions.
- `Bounds.ofSegments_tight`: all laws of boxes.
-/

namespace TurtleGrammar

open Binary64

variable {x : Binary64} {segments others : List Segment}

/-! ## Tight ranges -/

namespace Binary64

/-- What is not below infinity is infinity. -/
theorem eq_of_rank_infinity_le (hx : x.isNaN = false) (h : (infinity false).rank ≤ x.rank) :
    x = infinity false := by
  cases x with
  | nan => cases hx
  | infinity s =>
      cases s with
      | false => rfl
      | true => exact absurd h (by simp [rank])
  | finite s a => exact absurd h (not_le.2 (rank_of_isFinite rfl).2)

/-- What is not above minus infinity is minus infinity. -/
theorem eq_of_rank_le_infinity (hx : x.isNaN = false) (h : x.rank ≤ (infinity true).rank) :
    x = infinity true := by
  cases x with
  | nan => cases hx
  | infinity s =>
      cases s with
      | true => rfl
      | false => exact absurd h (by simp [rank])
  | finite s a => exact absurd h (not_le.2 (rank_of_isFinite rfl).1)

end Binary64

namespace Range

variable {r s : Range} {list : List Binary64} {numbers : Set Binary64}

/-- Is a range the smallest one in which some numbers lie, a NaN among them apart? If there is no
    other number, it is the empty range from infinity to minus infinity. -/
structure Tight (r : Range) (numbers : Set Binary64) : Prop where
  low_isNaN : r.low.isNaN = false
  high_isNaN : r.high.isNaN = false
  low_atMost : ∀ x ∈ numbers, x.isNaN = false → r.low.AtMost x
  atMost_high : ∀ x ∈ numbers, x.isNaN = false → x.AtMost r.high
  attained : (∃ x ∈ numbers, x.isNaN = false) → r.low ∈ numbers ∧ r.high ∈ numbers
  unattained : (∀ x ∈ numbers, x.isNaN = true) → r.low = infinity false ∧ r.high = infinity true

/-- **Ranges of lists are tight.** -/
theorem Covers.tight (h : Covers r list) : Tight r {x | x ∈ list} where
  low_isNaN := h.low.isNaN
  high_isNaN := h.high.isNaN
  low_atMost := by
    intro x hmem hx
    exact (atMost_iff h.low.isNaN hx).2 (h.low.le x hmem hx)
  atMost_high := by
    intro x hmem hx
    exact (atMost_iff hx h.high.isNaN).2 (h.high.le x hmem hx)
  attained := by
    rintro ⟨x, hmem, hx⟩
    exact ⟨h.low.mem_of_start (fun _ => eq_of_rank_infinity_le) hmem hx,
      h.high.mem_of_start (fun _ => eq_of_rank_le_infinity) hmem hx⟩
  unattained := by
    intro hall
    exact ⟨h.low.eq_start hall, h.high.eq_start hall⟩

/-- Are the ends of two ranges equal numbers? -/
structure Equals (r s : Range) : Prop where
  low : r.low.equals s.low = true
  high : r.high.equals s.high = true

theorem Tight.low_rank_le (hr : r.Tight numbers) (hs : s.low ∈ numbers)
    (hnumber : s.low.isNaN = false) : r.low.rank ≤ s.low.rank :=
  (atMost_iff hr.low_isNaN hnumber).1 (hr.low_atMost _ hs hnumber)

theorem Tight.high_rank_le (hr : r.Tight numbers) (hs : s.high ∈ numbers)
    (hnumber : s.high.isNaN = false) : s.high.rank ≤ r.high.rank :=
  (atMost_iff hnumber hr.high_isNaN).1 (hr.atMost_high _ hs hnumber)

/-- **There is one tight range** of some numbers, up to the sign of a zero. -/
theorem Tight.equals (hr : r.Tight numbers) (hs : s.Tight numbers) : r.Equals s := by
  by_cases hex : ∃ x ∈ numbers, x.isNaN = false
  · obtain ⟨hrLow, hrHigh⟩ := hr.attained hex
    obtain ⟨hsLow, hsHigh⟩ := hs.attained hex
    constructor
    · rw [equals_iff_rank hr.low_isNaN hs.low_isNaN]
      exact le_antisymm (hr.low_rank_le hsLow hs.low_isNaN) (hs.low_rank_le hrLow hr.low_isNaN)
    · rw [equals_iff_rank hr.high_isNaN hs.high_isNaN]
      exact le_antisymm (hs.high_rank_le hrHigh hr.high_isNaN)
        (hr.high_rank_le hsHigh hs.high_isNaN)
  · have hall : ∀ x ∈ numbers, x.isNaN = true := by
      intro x hmem
      by_contra hx
      exact hex ⟨x, hmem, Bool.eq_false_iff.2 hx⟩
    obtain ⟨hrLow, hrHigh⟩ := hr.unattained hall
    obtain ⟨hsLow, hsHigh⟩ := hs.unattained hall
    constructor
    · rw [hrLow, hsLow]
      rfl
    · rw [hrHigh, hsHigh]
      rfl

end Range

/-! ## Other orders and directions -/

/-- Are the segments of a list those of another one in any order, each as it is or reversed? -/
def Rearranges (others segments : List Segment) : Prop :=
  ∃ turned, others.Perm turned ∧
    List.Forall₂ (fun t s : Segment => t = s ∨ t.Reverses s) turned segments

theorem Rearranges.eq_nil_iff (h : Rearranges others segments) : others = [] ↔ segments = [] := by
  obtain ⟨turned, hperm, hturned⟩ := h
  rw [← List.length_eq_zero_iff, ← List.length_eq_zero_iff, hperm.length_eq, hturned.length_eq]

namespace Bounds

variable {bounds : Bounds}

/-- The coordinates that the ends of segments have along an axis. -/
def endNumbers (axis : Point → Binary64) (segments : List Segment) : Set Binary64 :=
  {x | ∃ s ∈ segments, x = axis s.start ∨ x = axis s.stop}

theorem endNumbers_cons (axis : Point → Binary64) (s : Segment) (rest : List Segment) :
    endNumbers axis (s :: rest) = {axis s.start, axis s.stop} ∪ endNumbers axis rest := by
  ext x
  simp [endNumbers]

theorem endNumbers_eq (axis : Point → Binary64) (segments : List Segment) :
    endNumbers axis segments = {x | x ∈ (ends segments).map axis} := by
  ext x
  constructor
  · rintro ⟨s, hs, rfl | rfl⟩
    · exact List.mem_map_of_mem (List.mem_flatMap.2 ⟨s, hs, List.mem_cons_self⟩)
    · exact List.mem_map_of_mem
        (List.mem_flatMap.2 ⟨s, hs, List.mem_cons_of_mem _ List.mem_cons_self⟩)
  · intro hx
    obtain ⟨p, hp, rfl⟩ := List.mem_map.1 hx
    obtain ⟨s, hs, hmem⟩ := List.mem_flatMap.1 hp
    simp only [List.mem_cons, List.not_mem_nil, or_false] at hmem
    exact ⟨s, hs, hmem.imp (congrArg axis) (congrArg axis)⟩

/-- **The same numbers** are those of segments in another order and direction. -/
theorem endNumbers_of_rearranges (h : Rearranges others segments) (axis : Point → Binary64) :
    endNumbers axis others = endNumbers axis segments := by
  obtain ⟨turned, hperm, hturned⟩ := h
  have hsame : endNumbers axis others = endNumbers axis turned := by
    unfold endNumbers
    simp only [hperm.mem_iff]
  rw [hsame]
  clear hsame hperm
  induction hturned with
  | nil => rfl
  | cons hhead _ ih =>
      rw [endNumbers_cons, endNumbers_cons, ih]
      rcases hhead with rfl | hreverses
      · rfl
      · rw [hreverses.start_eq, hreverses.stop_eq, Set.pair_comm]

/-! ## Boxes -/

theorem ofSegments_of_ne_nil (hne : segments ≠ []) : ofSegments segments =
    .ok ⟨Range.of ((ends segments).map Point.x), Range.of ((ends segments).map Point.y)⟩ := by
  unfold ofSegments
  rw [if_neg (by simpa using hne)]

theorem tight_of (axis : Point → Binary64) (segments : List Segment) :
    (Range.of ((ends segments).map axis)).Tight (endNumbers axis segments) := by
  rw [endNumbers_eq]
  exact (Range.covers_of _).tight

theorem tight_of_ofSegments (h : ofSegments segments = .ok bounds) :
    bounds.x.Tight (endNumbers Point.x segments) ∧
      bounds.y.Tight (endNumbers Point.y segments) := by
  have hne : segments ≠ [] := by
    rintro rfl
    cases h
  rw [ofSegments_of_ne_nil hne] at h
  obtain rfl := Except.ok.inj h
  exact ⟨tight_of Point.x segments, tight_of Point.y segments⟩

/-- **Boxes are tight.** Segments have a box whose range along each axis is the smallest one in
    which the coordinates of their ends along this axis lie. In another order, and with any of them
    reversed, they have an equal box. Only without segments there is none. -/
theorem ofSegments_tight (segments : List Segment) :
    (segments ≠ [] → ∃ bounds, ofSegments segments = .ok bounds ∧
      bounds.x.Tight (endNumbers Point.x segments) ∧
      bounds.y.Tight (endNumbers Point.y segments)) ∧
    (∀ others bounds, Rearranges others segments → ofSegments segments = .ok bounds →
      ∃ otherBounds, ofSegments others = .ok otherBounds ∧
        otherBounds.x.Equals bounds.x ∧ otherBounds.y.Equals bounds.y) ∧
    ∀ fault, ofSegments segments = .error fault ↔ segments = [] ∧ fault = .noGeometry := by
  refine ⟨?_, ?_, ?_⟩
  · intro hne
    have hbox := ofSegments_of_ne_nil hne
    exact ⟨_, hbox, tight_of_ofSegments hbox⟩
  · intro others bounds hothers h
    have hne : segments ≠ [] := by
      rintro rfl
      cases h
    have hbox := ofSegments_of_ne_nil (mt hothers.eq_nil_iff.1 hne)
    obtain ⟨hx, hy⟩ := tight_of_ofSegments h
    obtain ⟨hotherX, hotherY⟩ := tight_of_ofSegments hbox
    rw [endNumbers_of_rearranges hothers] at hotherX hotherY
    exact ⟨_, hbox, hotherX.equals hx, hotherY.equals hy⟩
  · intro fault
    constructor
    · intro h
      by_cases hempty : segments = []
      · subst hempty
        exact ⟨rfl, (Except.error.inj h).symm⟩
      · rw [ofSegments_of_ne_nil hempty] at h
        cases h
    · rintro ⟨rfl, rfl⟩
      rfl

/-- Two lines of which one coordinate is unknown; the other one falls from one to zero, and rises
    from minus zero to infinity. -/
def straySegments : List Segment :=
  [.plain ⟨.nan, .one⟩ ⟨.nan, .zero⟩, .plain ⟨.nan, -.zero⟩ ⟨.nan, .infinity false⟩]

/-- The stray lines have an empty range along one axis, and one that ends at their coordinates along
    the other. In the other order, one of them reversed, they have an equal range along it. -/
theorem ofSegments_tight_stray :
    straySegments ≠ [] ∧
    ∃ bounds, ofSegments straySegments = .ok bounds ∧
      (bounds.x.low = .infinity false ∧ bounds.x.high = .infinity true) ∧
      bounds.y.high ∈ endNumbers Point.y straySegments ∧
      ∃ others otherBounds, Rearranges others straySegments ∧ others ≠ straySegments ∧
        ofSegments others = .ok otherBounds ∧ otherBounds.y.Equals bounds.y := by
  obtain ⟨htight, hrearranged, _⟩ := ofSegments_tight straySegments
  have hne : straySegments ≠ [] := List.cons_ne_nil _ _
  obtain ⟨bounds, hbounds, hx, hy⟩ := htight hne
  have hall : ∀ x ∈ endNumbers Point.x straySegments, x.isNaN = true := by
    simp [endNumbers, straySegments, Segment.plain, isNaN]
  have hsome : ∃ x ∈ endNumbers Point.y straySegments, x.isNaN = false :=
    ⟨.one, ⟨_, List.mem_cons_self, Or.inl rfl⟩, rfl⟩
  have hothers : Rearranges [.plain ⟨.nan, -.zero⟩ ⟨.nan, .infinity false⟩,
      .plain ⟨.nan, .zero⟩ ⟨.nan, .one⟩] straySegments :=
    ⟨_, List.Perm.swap _ _ _, .cons (Or.inr ⟨rfl, rfl⟩) (.cons (Or.inl rfl) .nil)⟩
  obtain ⟨otherBounds, hbox, _, hequal⟩ := hrearranged _ _ hothers hbounds
  exact ⟨hne, bounds, hbounds, hx.unattained hall, (hy.attained hsome).2, _, otherBounds, hothers,
    by decide +kernel, hbox, hequal⟩

end Bounds

end TurtleGrammar
