import Mathlib.Data.Int.ConditionallyCompleteOrder
import TurtleGrammar.Bounds
import TurtleGrammar.Proofs.Coordinate

/-!
# `TurtleGrammar.Proofs.Range` — the range of numbers

The numbers other than NaN are in one order, infinities at its ends and the two zeros at one place.
A range grows as numbers are taken in: its ends are never NaN, every number other than NaN lies
between them, and an end that is not the one of the empty range is one of the numbers.

## Contents
- `Binary64.rank`, `Binary64.less_iff`: the place of a number in the order.
- `Binary64.AtMost`: the order itself, in which the two zeros are one number.
- `Range.First`: the first of some numbers; `Range.Covers`: what a range says of its numbers.
- `Range.covers_of`: ranges of lists; `Range.Covers.value_between`: the range of finite numbers.
-/

namespace TurtleGrammar

namespace Binary64

variable {x y : Binary64}

/-- The place of a number in the order of those that are not NaN. -/
def rank : Binary64 → WithBot (WithTop ℤ)
  | infinity true => ⊥
  | infinity false => ((⊤ : WithTop ℤ) : WithBot (WithTop ℤ))
  | finite negative size => ((signed negative size : WithTop ℤ) : WithBot (WithTop ℤ))
  | nan => ⊥

/-- A finite number lies between the infinities. -/
theorem rank_of_isFinite (h : x.isFinite = true) :
    (infinity true).rank < x.rank ∧ x.rank < (infinity false).rank := by
  cases x with
  | nan | infinity s => cases h
  | finite s a =>
      exact ⟨WithBot.bot_lt_coe _, WithBot.coe_lt_coe.2 (WithTop.coe_lt_top _)⟩

/-- Numbers are compared by their places. -/
theorem less_iff (hx : x.isNaN = false) (hy : y.isNaN = false) :
    x.less y = true ↔ x.rank < y.rank := by
  cases x with
  | nan => cases hx
  | infinity s =>
      cases y with
      | nan => cases hy
      | infinity t => cases s <;> cases t <;> simp [less, rank]
      | finite t b => cases s <;> simp [less, rank]
  | finite s a =>
      cases y with
      | nan => cases hy
      | infinity t =>
          cases t with
          | false => exact iff_of_true rfl (rank_of_isFinite rfl).2
          | true => simp [less, rank]
      | finite t b => simp [less, rank]

/-- Equal numbers have one place. -/
theorem equals_iff_rank (hx : x.isNaN = false) (hy : y.isNaN = false) :
    x.equals y = true ↔ x.rank = y.rank := by
  cases x with
  | nan => cases hx
  | infinity s =>
      cases y with
      | nan => cases hy
      | infinity t => cases s <;> cases t <;> simp [equals, rank]
      | finite t b => cases s <;> simp [equals, rank]
  | finite s a =>
      cases y with
      | nan => cases hy
      | infinity t => cases t <;> simp [equals, rank]
      | finite t b => simp [equals, rank]

/-- Is a number at most the other one? A NaN is at most nothing, and nothing is at most a NaN. -/
def AtMost (x y : Binary64) : Prop := x.less y = true ∨ x.equals y = true

theorem atMost_iff (hx : x.isNaN = false) (hy : y.isNaN = false) :
    x.AtMost y ↔ x.rank ≤ y.rank := by
  unfold AtMost
  rw [less_iff hx hy, equals_iff_rank hx hy, le_iff_lt_or_eq]

theorem isNaN_of_isFinite (h : x.isFinite = true) : x.isNaN = false := by
  cases x with
  | nan => cases h
  | infinity s => rfl
  | finite s a => rfl

/-- The values of finite numbers are in the order of their places. -/
theorem value_le_value_iff (hx : x.isFinite = true) (hy : y.isFinite = true) :
    x.value ≤ y.value ↔ x.rank ≤ y.rank := by
  cases x with
  | nan | infinity s => cases hx
  | finite s a =>
      cases y with
      | nan | infinity t => cases hy
      | finite t b =>
          have hunits : (0 : ℚ) < unitsPerOne := by exact_mod_cast unitsPerOne_pos
          unfold value rank
          rw [div_le_div_iff_of_pos_right hunits]
          simp

end Binary64

namespace Range

open Binary64

variable {r : Range} {numbers : List Binary64} {x : Binary64}

/-- Is a number the first one of some numbers by a key, NaN apart, or else the one to start from? -/
structure First {α : Type} [LE α] (key : Binary64 → α) (start first : Binary64)
    (numbers : List Binary64) : Prop where
  isNaN : first.isNaN = false
  le : ∀ x ∈ numbers, x.isNaN = false → key first ≤ key x
  mem : first = start ∨ first ∈ numbers

/-- The first number after one more: the new one if it comes before. -/
theorem First.append_singleton {α : Type} [LinearOrder α] {key : Binary64 → α}
    {start first : Binary64} (h : First key start first numbers) (x : Binary64) {before : Bool}
    (hbefore : before = true ↔ x.isNaN = false ∧ key x < key first) :
    First key start (if before then x else first) (numbers ++ [x]) := by
  cases before with
  | true =>
      obtain ⟨hnumber, hless⟩ := hbefore.1 rfl
      refine ⟨hnumber, fun y hy hyNumber => ?_, .inr (by simp)⟩
      rcases List.mem_append.1 hy with hold | hnew
      · exact hless.le.trans (h.le y hold hyNumber)
      · exact (congrArg key (List.mem_singleton.1 hnew)).ge
  | false =>
      refine ⟨h.isNaN, fun y hy hyNumber => ?_, h.mem.imp_right (List.mem_append_left _)⟩
      rcases List.mem_append.1 hy with hold | hnew
      · exact h.le y hold hyNumber
      · obtain rfl := List.mem_singleton.1 hnew
        exact not_lt.1 fun hless => nomatch hbefore.2 ⟨hyNumber, hless⟩

/-- A number that only itself comes after is the first one only if it is one of the numbers. -/
theorem First.mem_of_start {α : Type} [LE α] {key : Binary64 → α} {start first : Binary64}
    (h : First key start first numbers)
    (hstart : ∀ y : Binary64, y.isNaN = false → key start ≤ key y → y = start)
    (hmem : x ∈ numbers) (hx : x.isNaN = false) : first ∈ numbers := by
  rcases h.mem with hfirst | hfirst
  · have hle := h.le x hmem hx
    rw [hfirst] at hle ⊢
    exact hstart x hx hle ▸ hmem
  · exact hfirst

/-- Without another number than NaN the first one is the one to start from. -/
theorem First.eq_start {α : Type} [LE α] {key : Binary64 → α} {start first : Binary64}
    (h : First key start first numbers) (hall : ∀ x ∈ numbers, x.isNaN = true) :
    first = start := by
  refine h.mem.resolve_right fun hmem => ?_
  have hnan := hall first hmem
  rw [h.isNaN] at hnan
  cases hnan

/-- Is a range the one of some numbers: do they all lie between its ends, NaN apart, and are the
    ends among them, unless they are those of the empty range? -/
structure Covers (r : Range) (numbers : List Binary64) : Prop where
  low : First rank (infinity false) r.low numbers
  high : First (fun x => OrderDual.toDual x.rank) (infinity true) r.high numbers

theorem covers_empty : Covers empty [] where
  low := ⟨rfl, nofun, .inl rfl⟩
  high := ⟨rfl, nofun, .inl rfl⟩

/-- A number that is compared as less is none of the two a NaN. -/
theorem isNaN_of_less {x y : Binary64} (h : x.less y = true) :
    x.isNaN = false ∧ y.isNaN = false := by
  cases x <;> cases y <;> first | exact ⟨rfl, rfl⟩ | cases h

/-- **A number is taken in.** -/
theorem Covers.cover (h : Covers r numbers) (x : Binary64) :
    Covers (r.cover x) (numbers ++ [x]) where
  low := by
    refine h.low.append_singleton x ⟨fun hless => ?_, fun ⟨hx, hrank⟩ => ?_⟩
    · exact ⟨(isNaN_of_less hless).1, (less_iff (isNaN_of_less hless).1 h.low.isNaN).1 hless⟩
    · exact (less_iff hx h.low.isNaN).2 hrank
  high := by
    refine h.high.append_singleton x ⟨fun hless => ?_, fun ⟨hx, hrank⟩ => ?_⟩
    · exact ⟨(isNaN_of_less hless).2, (less_iff h.high.isNaN (isNaN_of_less hless).2).1 hless⟩
    · exact (less_iff h.high.isNaN hx).2 hrank

/-- **Ranges of lists** are ranges of their numbers. -/
theorem covers_of (numbers : List Binary64) : Covers (Range.of numbers) numbers := by
  induction numbers using List.reverseRecOn with
  | nil => exact covers_empty
  | append_singleton numbers x ih =>
      have hof : Range.of (numbers ++ [x]) = (Range.of numbers).cover x := by
        unfold Range.of
        rw [List.foldl_append]
        rfl
      rw [hof]
      exact ih.cover x

/-! ## Finite numbers -/

/-- The range of finite numbers is finite, if there are any. -/
theorem Covers.isFinite (h : Covers r numbers) (hall : ∀ x ∈ numbers, x.isFinite = true)
    (hne : numbers ≠ []) : r.low.isFinite = true ∧ r.high.isFinite = true := by
  obtain ⟨x, rest, rfl⟩ := List.exists_cons_of_ne_nil hne
  have hx : x.isFinite = true := hall x List.mem_cons_self
  have hnumber := isNaN_of_isFinite hx
  obtain ⟨hbottom, htop⟩ := rank_of_isFinite hx
  constructor
  · rcases h.low.mem with hstart | hmem
    · have hle := h.low.le x List.mem_cons_self hnumber
      rw [hstart] at hle
      exact absurd (hle.trans_lt htop) (lt_irrefl _)
    · exact hall _ hmem
  · rcases h.high.mem with hstart | hmem
    · have hle : x.rank ≤ r.high.rank := h.high.le x List.mem_cons_self hnumber
      rw [hstart] at hle
      exact absurd (hbottom.trans_le hle) (lt_irrefl _)
    · exact hall _ hmem

/-- Finite numbers lie between the ends of their range. -/
theorem Covers.value_between (h : Covers r numbers) (hall : ∀ x ∈ numbers, x.isFinite = true)
    (hmem : x ∈ numbers) : r.low.value ≤ x.value ∧ x.value ≤ r.high.value := by
  obtain ⟨hlow, hhigh⟩ := h.isFinite hall (List.ne_nil_of_mem hmem)
  have hx := hall x hmem
  have hnumber := isNaN_of_isFinite hx
  exact ⟨(value_le_value_iff hlow hx).2 (h.low.le x hmem hnumber),
    (value_le_value_iff hx hhigh).2 (h.high.le x hmem hnumber)⟩

end Range

end TurtleGrammar
