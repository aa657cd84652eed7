import Mathlib.Data.List.Induction
import Std.Data.HashSet.Lemmas
import TurtleGrammar.Distinct
import TurtleGrammar.Proofs.Equality

/-!
# `TurtleGrammar.Proofs.Distinct` — what is left of a list without its repetitions

Segments are dropped one by one, and those that stay are not moved. The first one has nothing before
it that it could repeat. A segment is dropped exactly if an equal one was kept before it, although
only the keys of the kept segments are looked at.

## Contents
- `keepNew_sublist`, `isPrefix_keepNew`: the list on the way.
- `distinct_sublist`, `distinct_ne_nil`: what is left of it.
- `distinct_append_singleton`: what one more segment adds.
- `exists_equals_of_mem`, `filter_hasNaN_distinct`: what stands for the segments that are dropped, and
  which ones never are.
- `exists_coincides_of_mem`: every end of a segment is the end of one that is left.
-/

namespace TurtleGrammar

/-- What is kept is taken from the list in its order, behind what was kept before. -/
theorem keepNew_sublist (seen : Std.HashSet Segment) (kept segments : List Segment) :
    (keepNew seen kept segments).Sublist (kept.reverse ++ segments) := by
  induction segments generalizing seen kept with
  | nil =>
      rw [keepNew]
      exact List.sublist_append_left kept.reverse []
  | cons s rest ih =>
      have hkept : (s :: kept).reverse ++ rest = kept.reverse ++ s :: rest := by simp
      have hdropped : (kept.reverse ++ rest).Sublist (kept.reverse ++ s :: rest) :=
        (List.sublist_cons_self s rest).append_left kept.reverse
      rw [keepNew]
      split
      · exact hkept ▸ ih seen (s :: kept)
      · split
        · exact (ih seen kept).trans hdropped
        · exact hkept ▸ ih (seen.insert s.key) (s :: kept)

/-- What was kept once stays. -/
theorem isPrefix_keepNew (seen : Std.HashSet Segment) (kept segments : List Segment) :
    kept.reverse <+: keepNew seen kept segments := by
  induction segments generalizing seen kept with
  | nil => exact List.prefix_refl _
  | cons s rest ih =>
      have hkept : kept.reverse <+: (s :: kept).reverse := by
        rw [List.reverse_cons]
        exact List.prefix_append _ _
      rw [keepNew]
      split
      · exact hkept.trans (ih seen (s :: kept))
      · split
        · exact ih seen kept
        · exact hkept.trans (ih (seen.insert s.key) (s :: kept))

theorem distinct_sublist (segments : List Segment) : (distinct segments).Sublist segments :=
  keepNew_sublist ∅ [] segments

/-- The first segment of a list is always kept. -/
theorem isPrefix_distinct (s : Segment) (rest : List Segment) : [s] <+: distinct (s :: rest) := by
  unfold distinct
  rw [keepNew, Std.HashSet.contains_empty]
  split
  · exact isPrefix_keepNew ∅ [s] rest
  · exact isPrefix_keepNew _ [s] rest

theorem distinct_ne_nil {segments : List Segment} (h : segments ≠ []) : distinct segments ≠ [] := by
  obtain ⟨s, rest, rfl⟩ := List.exists_cons_of_ne_nil h
  exact List.ne_nil_of_mem ((isPrefix_distinct s rest).subset List.mem_cons_self)

/-! ## One more segment -/

variable {seen : Std.HashSet Segment} {kept segments : List Segment} {s e : Segment}

/-- The keys that were seen tell which segments are equal to a kept one. -/
def Records (seen : Std.HashSet Segment) (kept : List Segment) : Prop :=
  ∀ s : Segment, s.hasNaN = false →
    (seen.contains s.key = true ↔ ∃ e ∈ kept, s.equals e = true)

theorem records_empty : Records ∅ [] := by
  intro s _
  simp [Std.HashSet.contains_empty]

namespace Records

/-- A segment with a NaN is equal to none and need not be recorded. -/
theorem cons_of_hasNaN (h : Records seen kept) (hs : s.hasNaN = true) :
    Records seen (s :: kept) := by
  intro t ht
  have hne : t.equals s = false := by
    rw [Segment.equals_comm]
    exact Segment.equals_of_hasNaN hs t
  rw [h t ht]
  simp [hne]

theorem insert (h : Records seen kept) : Records (seen.insert s.key) (s :: kept) := by
  intro t ht
  have hkey : t.equals s = true ↔ s.key = t.key := by
    rw [Segment.equals_iff]
    exact ⟨fun heq => heq.2.symm, fun heq => ⟨ht, heq.symm⟩⟩
  rw [Std.HashSet.contains_insert, Bool.or_eq_true, beq_iff_eq, h t ht]
  simp [hkey]

end Records

theorem keepNew_append_singleton (h : Records seen kept) (segments : List Segment) (s : Segment) :
    keepNew seen kept (segments ++ [s]) = keepNew seen kept segments ++
      if (keepNew seen kept segments).any s.equals then [] else [s] := by
  induction segments generalizing seen kept with
  | nil =>
      rw [List.nil_append, keepNew, keepNew, keepNew, keepNew]
      by_cases hnan : s.hasNaN = true
      · have hnew : kept.reverse.any s.equals = false := by
          apply List.any_eq_false.2
          intro e _
          rw [Segment.equals_of_hasNaN hnan e]
          exact Bool.false_ne_true
        rw [if_pos hnan, if_neg (by simp [hnew]), List.reverse_cons]
      · have hseen : kept.reverse.any s.equals = seen.contains s.key := by
          rw [Bool.eq_iff_iff, h s (by simpa using hnan)]
          simp
        rw [if_neg hnan, hseen]
        by_cases hcontains : seen.contains s.key = true
        · rw [if_pos hcontains, if_pos hcontains, List.append_nil]
        · rw [if_neg hcontains, if_neg hcontains, keepNew, List.reverse_cons]
  | cons t rest ih =>
      rw [List.cons_append, keepNew, keepNew]
      by_cases hnan : t.hasNaN = true
      · rw [if_pos hnan, if_pos hnan]
        exact ih (h.cons_of_hasNaN hnan)
      · rw [if_neg hnan, if_neg hnan]
        by_cases hcontains : seen.contains t.key = true
        · rw [if_pos hcontains, if_pos hcontains]
          exact ih h
        · rw [if_neg hcontains, if_neg hcontains]
          exact ih h.insert

/-- **One more segment** is left unless it is equal to one that is left before it. -/
theorem distinct_append_singleton (segments : List Segment) (s : Segment) :
    distinct (segments ++ [s]) = distinct segments ++
      if (distinct segments).any s.equals then [] else [s] :=
  keepNew_append_singleton records_empty segments s

/-- What is equal to a segment of the list is equal to one that is left of it. -/
theorem exists_equals_of_mem (hmem : e ∈ segments) (heq : s.equals e = true) :
    ∃ k ∈ distinct segments, s.equals k = true := by
  induction segments using List.reverseRecOn with
  | nil => cases hmem
  | append_singleton segments last ih =>
      rw [distinct_append_singleton]
      rcases List.mem_append.1 hmem with hearlier | hlast
      · obtain ⟨k, hk, hsk⟩ := ih hearlier
        exact ⟨k, List.mem_append_left _ hk, hsk⟩
      · obtain rfl := List.mem_singleton.1 hlast
        by_cases hany : (distinct segments).any e.equals = true
        · obtain ⟨k, hk, hek⟩ := List.any_eq_true.1 hany
          exact ⟨k, List.mem_append_left _ hk, Segment.equals_trans heq hek⟩
        · rw [if_neg hany]
          exact ⟨e, List.mem_append_right _ List.mem_cons_self, heq⟩

/-- Of the segments with a NaN all are left. -/
theorem filter_hasNaN_distinct (segments : List Segment) :
    (distinct segments).filter Segment.hasNaN = segments.filter Segment.hasNaN := by
  induction segments using List.reverseRecOn with
  | nil => rfl
  | append_singleton segments last ih =>
      rw [distinct_append_singleton, List.filter_append, List.filter_append, ih]
      by_cases hany : (distinct segments).any last.equals = true
      · -- what is equal to another segment has no NaN
        obtain ⟨e, _, heq⟩ := List.any_eq_true.1 hany
        rw [if_pos hany, List.filter_nil, List.filter_cons_of_neg (by simp [(Segment.equals_iff.1 heq).1]),
          List.filter_nil]
      · rw [if_neg hany]

/-- Where a segment of the list ends, a segment that is left ends. -/
theorem exists_coincides_of_mem (h : s ∈ segments) :
    ∃ e ∈ distinct segments, s.stop.Coincides e.stop := by
  by_cases hnan : s.hasNaN = true
  · have hkept : s ∈ (distinct segments).filter Segment.hasNaN := by
      rw [filter_hasNaN_distinct]
      exact List.mem_filter.2 ⟨h, hnan⟩
    exact ⟨s, (List.mem_filter.1 hkept).1, s.stop.coincides_self⟩
  · obtain ⟨e, he, heq⟩ := exists_equals_of_mem h (Segment.equals_self (by simpa using hnan))
    exact ⟨e, he, Segment.coincides_of_equals heq⟩

end TurtleGrammar
