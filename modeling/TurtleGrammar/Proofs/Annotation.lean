import TurtleGrammar.Proofs.Drawing
import TurtleGrammar.Proofs.Particulars

/-!
# `TurtleGrammar.Proofs.Annotation` — drawings with and without particulars

Particulars bear on nothing but the comparison of segments: lines that differ in their depth alone
are kept twice with particulars and once without. Segments that are equal with particulars are equal
without them, so that dropping repetitions under the finer equality first leaves the first of every
class of the coarser one where it was.

## Contents
- `Segment.equals_erase`: equality without particulars.
- `distinct_map_erase_distinct`: repetitions dropped twice.
- `Drawing.unannotated`, `Drawing.outcome_segments_erase`, `Draft.segments_erase`: what is left
  without particulars.
-/

namespace TurtleGrammar

namespace Segment

variable {s t : Segment}

/-- Segments that are equal are equal without their particulars. -/
theorem equals_erase (h : s.equals t = true) : s.erase.equals t.erase = true := by
  unfold equals at h ⊢
  simp only [Bool.and_eq_true] at h ⊢
  exact ⟨⟨⟨h.1.1.1, rfl⟩, rfl⟩, rfl⟩

end Segment

/-! ## Repetitions under a finer and a coarser equality -/

/-- **Repetitions can be dropped first.** What is left of a list without particulars is what is left
    of it if its repetitions with particulars were dropped before. -/
theorem distinct_map_erase_distinct (segments : List Segment) :
    distinct ((distinct segments).map Segment.erase) = distinct (segments.map Segment.erase) := by
  induction segments using List.reverseRecOn with
  | nil => rfl
  | append_singleton segments s ih =>
      rw [distinct_append_singleton segments s, List.map_append, List.map_append,
        List.map_singleton, distinct_append_singleton (segments.map Segment.erase)]
      by_cases hany : (distinct segments).any s.equals = true
      · -- the segment repeats one of the list, and it still does so without particulars
        obtain ⟨e, he, heq⟩ := List.any_eq_true.1 hany
        have hmem : e.erase ∈ segments.map Segment.erase :=
          List.mem_map_of_mem ((distinct_sublist segments).subset he)
        have hrepeats : (distinct (segments.map Segment.erase)).any s.erase.equals = true :=
          List.any_eq_true.2 (exists_equals_of_mem hmem (Segment.equals_erase heq))
        rw [if_pos hany, if_pos hrepeats, List.map_nil, List.append_nil, List.append_nil, ih]
      · rw [if_neg hany, List.map_singleton, distinct_append_singleton, ih]

/-! ## Drawings -/

namespace Drawing

/-- The drawing that records no particulars. -/
def unannotated (d : Drawing) : Drawing := { d with annotate := false }

theorem outcome_allSegments_erase (d : Drawing) :
    d.allSegments.outcome.map (List.map Segment.erase) =
      d.unannotated.allSegments.outcome := by
  cases h : d.angle with
  | none =>
      rw [outcome_allSegments_of_none h]
      exact (outcome_allSegments_of_none (d := d.unannotated) h).symm
  | some angle =>
      rw [outcome_allSegments h, interpret_erase]
      exact (outcome_allSegments (d := d.unannotated) h).symm

theorem kept_erase (d : Drawing) (all : List Segment) :
    d.kept ((d.kept all).map Segment.erase) = d.kept (all.map Segment.erase) := by
  unfold kept
  cases d.distinct with
  | false => rfl
  | true => exact distinct_map_erase_distinct all

/-- What a drawing gives, without particulars and without the repetitions that are then left, is
    what it gives if it records none. -/
theorem outcome_segments_erase (d : Drawing) :
    d.segments.outcome.map (fun segments => d.kept (segments.map Segment.erase)) =
      d.unannotated.segments.outcome := by
  rw [outcome_segments_eq_map, outcome_segments_eq_map, ← outcome_allSegments_erase]
  cases d.allSegments.outcome with
  | error fault => rfl
  | ok all => exact congrArg Except.ok (d.kept_erase all)

end Drawing

/-- **Particulars are only annotation.** A drawing that records them is refused exactly if it is
    refused without them, for the same reason. Otherwise, if it keeps every segment, its segments
    are the same without their particulars; and if it keeps the first of equal ones, more of them may
    be left, but the first of those that are equal without particulars are the same. -/
theorem Draft.segments_erase (d : Draft) :
    (Draft.segments { d with annotate := true, distinct := false }).map (List.map Segment.erase) =
      Draft.segments { d with annotate := false, distinct := false } ∧
    (Draft.segments { d with annotate := true, distinct := true }).map
        (fun segments => TurtleGrammar.distinct (segments.map Segment.erase)) =
      Draft.segments { d with annotate := false, distinct := true } := by
  unfold Draft.segments Draft.drawing?
  cases Grammar.build d.start d.rules d.iterations with
  | error fault => exact ⟨rfl, rfl⟩
  | ok grammar =>
      exact ⟨Drawing.outcome_segments_erase
          ⟨grammar, d.aliases, d.angle, d.heading, d.step, true, false⟩,
        Drawing.outcome_segments_erase
          ⟨grammar, d.aliases, d.angle, d.heading, d.step, true, true⟩⟩

end TurtleGrammar
