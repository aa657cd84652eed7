import TurtleGrammar.Proofs.Distinct

/-!
# `TurtleGrammar.Proofs.FirstOccurrence` — the segments that repeat none before them

A list is gone through once, and each segment is compared with those that were kept, not with all
that came before it. That makes no difference: what is equal to a dropped segment is equal to the
kept one that the dropped segment repeats. So exactly the segments are left that are equal to none
before them in the whole list.

Equality is no equivalence here. A NaN makes a segment differ from itself, so that it is left however
often it occurs; among the other segments equality is one, and zeros of both signs are the same.

## Contents
- `FirstAt`, `firstOccurrences`: what is equal to nothing before it, by positions of the list.
- `distinct_eq_firstOccurrences`: that is what is left.
- `pairwise_distinct`, `distinct_of_pairwise`: no two of them are equal, and such a list is left as
  it is.
- `Segment.Reverses`, `distinct_keeps_first`: all laws of what is left.
-/

namespace TurtleGrammar

variable {segments : List Segment} {position : Nat} {r s t : Segment}

/-- Does a segment stand at a position of a list, and is it equal to none before it? -/
structure FirstAt (segments : List Segment) (position : Nat) (s : Segment) : Prop where
  at_position : segments[position]? = some s
  new : ∀ e ∈ segments.take position, s.equals e = false

/-- The segments of a list that are equal to none before them, in their order. -/
def firstOccurrences (segments : List Segment) : List Segment :=
  (segments.zipIdx.filter fun (s, position) => !(segments.take position).any s.equals).map Prod.fst

/-! ## Comparing with what was kept, and with everything -/

/-- A segment is equal to one that is left exactly if it is equal to one of the list. -/
theorem any_equals_distinct (segments : List Segment) (s : Segment) :
    (distinct segments).any s.equals = segments.any s.equals := by
  rw [Bool.eq_iff_iff, List.any_eq_true, List.any_eq_true]
  constructor
  · rintro ⟨e, he, heq⟩
    exact ⟨e, (distinct_sublist segments).subset he, heq⟩
  · rintro ⟨e, he, heq⟩
    exact exists_equals_of_mem he heq

theorem firstOccurrences_append_singleton (segments : List Segment) (s : Segment) :
    firstOccurrences (segments ++ [s]) = firstOccurrences segments ++
      if segments.any s.equals then [] else [s] := by
  -- what stands before a position of the list is not changed by what comes after it
  have hearlier : (segments.zipIdx.filter fun (e, position) =>
        !((segments ++ [s]).take position).any e.equals) =
      segments.zipIdx.filter fun (e, position) => !(segments.take position).any e.equals := by
    refine List.filter_congr fun item hitem => ?_
    have hlt : item.2 < segments.length := by
      have h := List.snd_lt_of_mem_zipIdx hitem
      simpa using h
    dsimp only
    rw [List.take_append_of_le_length (Nat.le_of_lt hlt)]
  unfold firstOccurrences
  rw [List.zipIdx_append, List.filter_append, hearlier, List.map_append]
  congr 1
  by_cases hany : segments.any s.equals = true
  · simp [hany]
  · simp [hany]

/-- **What is left** of a list are its segments that are equal to none before them. -/
theorem distinct_eq_firstOccurrences (segments : List Segment) :
    distinct segments = firstOccurrences segments := by
  induction segments using List.reverseRecOn with
  | nil => rfl
  | append_singleton segments s ih =>
      rw [distinct_append_singleton, firstOccurrences_append_singleton, any_equals_distinct, ih]

/-- What is no first occurrence repeats one that is earlier in the list. -/
theorem exists_firstAt (h : segments[position]? = some s) (hrepeats : ¬ FirstAt segments position s) :
    ∃ earlier < position, ∃ e, FirstAt segments earlier e ∧ s.equals e = true := by
  induction position using Nat.strongRecOn generalizing s with
  | ind position ih =>
      have hex : ∃ e ∈ segments.take position, s.equals e = true := by
        by_contra hnone
        refine hrepeats ⟨h, fun e he => Bool.eq_false_iff.2 fun heq => hnone ⟨e, he, heq⟩⟩
      obtain ⟨e, he, heq⟩ := hex
      obtain ⟨earlier, hearlier, hat⟩ := List.mem_take_iff_getElem.1 he
      have hlt : earlier < position := by omega
      have hat' : segments[earlier]? = some e := List.getElem?_eq_some_iff.2 ⟨by omega, hat⟩
      by_cases hfirst : FirstAt segments earlier e
      · exact ⟨earlier, hlt, e, hfirst, heq⟩
      · obtain ⟨first, hbefore, k, hk, hek⟩ := ih earlier hlt hat' hfirst
        exact ⟨first, Nat.lt_trans hbefore hlt, k, hk, Segment.equals_trans heq hek⟩

/-- A first occurrence is left. -/
theorem FirstAt.mem_distinct (h : FirstAt segments position s) : s ∈ distinct segments := by
  have hitem : (s, position) ∈ segments.zipIdx :=
    List.mk_mem_zipIdx_iff_getElem?.2 h.at_position
  have hnew : (segments.take position).any s.equals = false :=
    List.any_eq_false.2 fun e he => by simp [h.new e he]
  rw [distinct_eq_firstOccurrences]
  exact List.mem_map.2 ⟨(s, position), List.mem_filter.2 ⟨hitem, by simp [hnew]⟩, rfl⟩

/-! ## No two are equal -/

/-- Two segments of which neither is equal to the other. -/
def Segment.Differs (s t : Segment) : Prop := s.equals t = false ∧ t.equals s = false

theorem pairwise_distinct (segments : List Segment) :
    (distinct segments).Pairwise Segment.Differs := by
  induction segments using List.reverseRecOn with
  | nil => exact List.Pairwise.nil
  | append_singleton segments s ih =>
      rw [distinct_append_singleton]
      by_cases hany : (distinct segments).any s.equals = true
      · rw [if_pos hany, List.append_nil]
        exact ih
      · rw [if_neg hany]
        refine List.pairwise_append.2 ⟨ih, List.pairwise_singleton _ s, fun e he last hlast => ?_⟩
        obtain rfl := List.mem_singleton.1 hlast
        have hnew : last.equals e = false := by
          simpa using List.any_eq_false.1 (Bool.eq_false_iff.2 hany) e he
        exact ⟨Segment.equals_comm last e ▸ hnew, hnew⟩

/-- A list of which no two segments are equal is left as it is. -/
theorem distinct_of_pairwise (h : segments.Pairwise Segment.Differs) :
    distinct segments = segments := by
  induction segments using List.reverseRecOn with
  | nil => rfl
  | append_singleton segments s ih =>
      obtain ⟨hpairs, _, hlast⟩ := List.pairwise_append.1 h
      have hnew : segments.any s.equals = false :=
        List.any_eq_false.2 fun e he => by simp [(hlast e he s List.mem_cons_self).2]
      rw [distinct_append_singleton, any_equals_distinct, hnew, ih hpairs]
      rfl

/-! ## Reversed lines -/

/-- Are the ends of a segment those of the other one, exchanged? -/
structure Segment.Reverses (t s : Segment) : Prop where
  start_eq : t.start = s.stop
  stop_eq : t.stop = s.start

/-- Are the coordinates of two points equal as numbers? -/
def Point.equals (p q : Point) : Bool := p.x.equals q.x && p.y.equals q.y

/-- A line between different points is not equal to its reversal. -/
theorem Segment.Reverses.differs (h : t.Reverses s) (hends : s.start.equals s.stop = false) :
    t.equals s = false := by
  refine Bool.eq_false_iff.2 fun heq => ?_
  unfold Segment.equals at heq
  simp only [Bool.and_eq_true] at heq
  rw [h.stop_eq] at heq
  have hequal : s.start.equals s.stop = true := Bool.and_eq_true_iff.2 ⟨heq.1.1.1.1.2, heq.1.1.1.2⟩
  rw [hequal] at hends
  exact Bool.noConfusion hends

/-- Is a segment left behind the segments of a list? -/
def Stays (before : List Segment) (s : Segment) : Prop :=
  distinct (before ++ [s]) = distinct before ++ [s]

theorem stays_iff : Stays segments s ↔ segments.any s.equals = false := by
  unfold Stays
  rw [distinct_append_singleton, any_equals_distinct]
  cases segments.any s.equals <;> simp

/-- **The first occurrences are kept.** What is left of a list are its segments that are equal to none
    before them, in their order. No two of them are equal, and every other segment of the list is
    equal to an earlier one that is left. All segments with a NaN are left. Nothing is dropped when
    it is done again. Whether the reversal of a line between different points stays does not depend
    on the line. -/
theorem distinct_keeps_first (segments : List Segment) :
    distinct segments = firstOccurrences segments ∧
    (distinct segments).Sublist segments ∧
    (distinct segments).Pairwise Segment.Differs ∧
    (∀ position s, segments[position]? = some s →
      FirstAt segments position s ∧ s ∈ distinct segments ∨
      ∃ earlier < position, ∃ e ∈ distinct segments,
        FirstAt segments earlier e ∧ s.equals e = true) ∧
    (distinct segments).filter Segment.hasNaN = segments.filter Segment.hasNaN ∧
    distinct (distinct segments) = distinct segments ∧
    ∀ s t, t.Reverses s → s.start.equals s.stop = false → ∀ before after,
      Stays (before ++ s :: after) t ↔ Stays (before ++ after) t := by
  refine ⟨distinct_eq_firstOccurrences segments, distinct_sublist segments,
    pairwise_distinct segments, ?_, filter_hasNaN_distinct segments,
    distinct_of_pairwise (pairwise_distinct segments), ?_⟩
  · intro position s hat
    by_cases hfirst : FirstAt segments position s
    · exact Or.inl ⟨hfirst, hfirst.mem_distinct⟩
    · obtain ⟨earlier, hlt, e, he, heq⟩ := exists_firstAt hat hfirst
      exact Or.inr ⟨earlier, hlt, e, he.mem_distinct, he, heq⟩
  · intro s t hreverses hends before after
    have hdiffers := hreverses.differs hends
    rw [stays_iff, stays_iff, List.any_append, List.any_append, List.any_cons, hdiffers,
      Bool.false_or]

/-- A line upwards, its copy with a zero of the other sign, a line of which nothing is known twice, and
    the line back. -/
def retracedLines : List Segment :=
  [.plain .origin ⟨.zero, .one⟩, .plain .origin ⟨-.zero, .one⟩, .plain .origin ⟨.nan, .nan⟩,
    .plain .origin ⟨.nan, .nan⟩, .plain ⟨.zero, .one⟩ .origin]

/-- Of the retraced lines the copy is dropped, and the line back stays behind them. -/
theorem distinct_keeps_first_retraced :
    (distinct retracedLines).length = 4 ∧
    (∃ earlier < 1, ∃ e, FirstAt retracedLines earlier e) ∧
    Stays [.plain .origin ⟨.zero, .one⟩] (.plain ⟨.zero, .one⟩ .origin) := by
  obtain ⟨hleft, _, _, hpositions, _, _, hreversal⟩ := distinct_keeps_first retracedLines
  refine ⟨?_, ?_, ?_⟩
  · rw [hleft]
    decide +kernel
  · rcases hpositions 1 (.plain .origin ⟨-.zero, .one⟩) rfl with ⟨hfirst, _⟩ | hearlier
    · have hcopy := hfirst.new (.plain .origin ⟨.zero, .one⟩) List.mem_cons_self
      exact absurd hcopy (by decide +kernel)
    · obtain ⟨earlier, hlt, e, _, he, _⟩ := hearlier
      exact ⟨earlier, hlt, e, he⟩
  · have hback := hreversal (.plain .origin ⟨.zero, .one⟩) (.plain ⟨.zero, .one⟩ .origin) ⟨rfl, rfl⟩
      (by decide +kernel) [] []
    exact hback.2 (stays_iff.2 rfl)

end TurtleGrammar
