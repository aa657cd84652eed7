import Mathlib.Data.List.Infix
import TurtleGrammar.Proofs.Numeral

/-!
# `TurtleGrammar.Proofs.LongestNumeral` — numerals are read as far as they go

Whether a text is a numeral can be told from the text alone: it has a digit, and nothing but digits
and at most one point. The numeral that is read at the head of a word is the longest of its first
parts that are numerals, and none is read where none of them is one.

## Contents
- `isNumeral`: numerals by themselves; `longestNumeral?`: the longest one at the head of a word.
- `isPrefix_numeralRun`: no longer first part could be a numeral.
- `longestNumeral?_eq`: what is read is the longest.
-/

namespace TurtleGrammar

/-- Is the text a numeral: digits, with at most one point before, among or behind them? -/
def isNumeral (text : List Char) : Bool :=
  text.all isNumeralSymbol && text.any Char.isDigit && decide (text.count '.' ≤ 1)

/-- The longest numeral with which a word begins: its longest first part that is one. -/
def longestNumeral? (word : List Char) : Option (List Char) := word.inits.reverse.find? isNumeral

theorem isNumeral_iff {text : List Char} :
    isNumeral text = true ↔ (∀ c ∈ text, isNumeralSymbol c = true) ∧
      text.any Char.isDigit = true ∧ text.count '.' ≤ 1 := by
  unfold isNumeral
  rw [Bool.and_eq_true, Bool.and_eq_true, decide_eq_true_iff, List.all_eq_true, and_assoc]

/-! ## The longest of some first parts -/

/-- First parts are tried from the longest one on. -/
theorem find?_inits_of_longest {p : List Char → Bool} {text word : List Char}
    (hpart : text <+: word) (htext : p text = true)
    (hlongest : ∀ other, other <+: word → p other = true → other <+: text) :
    word.inits.reverse.find? p = some text := by
  induction word using List.reverseRecOn with
  | nil =>
      obtain rfl := List.prefix_nil.1 hpart
      simp [htext]
  | append_singleton shorter c ih =>
      have hinits : (shorter ++ [c]).inits.reverse = (shorter ++ [c]) :: shorter.inits.reverse := by
        simp [List.inits_append]
      rw [hinits]
      rcases List.prefix_concat_iff.1 hpart with rfl | hshorter
      · exact List.find?_cons_of_pos htext
      · -- a numeral that is longer than `text` would be a first part of it
        have hwhole : ¬ p (shorter ++ [c]) = true := by
          intro hp
          have hlength := ((hlongest _ (List.prefix_refl _) hp).trans hshorter).length_le
          rw [List.length_append, List.length_singleton] at hlength
          omega
        rw [List.find?_cons_of_neg hwhole]
        exact ih hshorter fun other hother => hlongest other (hother.trans (List.prefix_append _ _))

/-! ## The run at the head of a word is the longest -/

theorem count_point_numeralRun_le (word : List Char) : (numeralRun word).count '.' ≤ 1 := by
  induction word with
  | nil => exact Nat.zero_le 1
  | cons c word ih =>
      rcases numeralSymbol_cases c with h | rfl | h
      · have hpoint : c ≠ '.' := by
          rintro rfl
          exact absurd h (by decide)
        rw [numeralRun_digit h, List.count_cons_of_ne hpoint]
        exact ih
      · have hdigits : (word.takeWhile Char.isDigit).count '.' = 0 := by
          refine List.count_eq_zero.2 fun hmem => ?_
          exact absurd (List.mem_takeWhile_imp hmem) (by decide)
        rw [numeralRun_point, List.count_cons_self, hdigits]
      · rw [numeralRun_other h]
        exact Nat.zero_le 1

/-- A first part of symbols of numerals with at most one point lies within the run. -/
theorem isPrefix_numeralRun {text word : List Char} (hpart : text <+: word)
    (hsymbols : ∀ c ∈ text, isNumeralSymbol c = true) (hpoints : text.count '.' ≤ 1) :
    text <+: numeralRun word := by
  induction word generalizing text with
  | nil => exact hpart
  | cons c word ih =>
      rcases List.prefix_cons_iff.1 hpart with rfl | ⟨rest, rfl, hrest⟩
      · exact List.nil_prefix
      · have hsymbols' : ∀ d ∈ rest, isNumeralSymbol d = true :=
          fun d hd => hsymbols d (List.mem_cons_of_mem c hd)
        rcases numeralSymbol_cases c with h | rfl | h
        · rw [numeralRun_digit h]
          have hpoints' : rest.count '.' ≤ 1 := Nat.le_trans List.count_le_count_cons hpoints
          exact (List.prefix_cons_inj c).2 (ih hrest hsymbols' hpoints')
        · -- the point is the only one, so that digits are left
          have hdigits : ∀ d ∈ rest, d.isDigit = true := by
            intro d hd
            have hnone : '.' ∉ rest := by
              rw [List.count_cons_self] at hpoints
              exact List.count_eq_zero.1 (by omega)
            rcases numeralSymbol_cases d with hdigit | rfl | hother
            · exact hdigit
            · exact absurd hd hnone
            · rw [hsymbols' d hd] at hother
              cases hother
          obtain ⟨later, rfl⟩ := hrest
          rw [numeralRun_point, List.takeWhile_append_of_pos hdigits]
          exact (List.prefix_cons_inj '.').2 (List.prefix_append _ _)
        · rw [hsymbols c List.mem_cons_self] at h
          cases h

theorem isPrefix_numeralRun_of_isNumeral {text word : List Char} (h : isNumeral text = true)
    (hpart : text <+: word) : text <+: numeralRun word := by
  obtain ⟨hsymbols, _, hpoints⟩ := isNumeral_iff.1 h
  exact isPrefix_numeralRun hpart hsymbols hpoints

theorem isNumeral_numeral {word : List Char} (h : numeral word ≠ []) :
    isNumeral (numeral word) = true := by
  unfold numeral at h ⊢
  split
  · next hdigit =>
    exact isNumeral_iff.2 ⟨fun c hc => isNumeralSymbol_of_mem_numeralRun hc, hdigit,
      count_point_numeralRun_le word⟩
  · next hdigit =>
    rw [if_neg hdigit] at h
    exact absurd rfl h

/-- A first part that is a numeral lies within the one that is read. -/
theorem isPrefix_numeral {text word : List Char} (h : isNumeral text = true)
    (hpart : text <+: word) : text <+: numeral word := by
  have hrun := isPrefix_numeralRun_of_isNumeral h hpart
  obtain ⟨c, hc, hdigit⟩ := List.any_eq_true.1 (isNumeral_iff.1 h).2.1
  have hany : (numeralRun word).any Char.isDigit = true :=
    List.any_eq_true.2 ⟨c, hrun.subset hc, hdigit⟩
  unfold numeral
  rwa [if_pos hany]

/-- **The numeral that is read is the longest one.** -/
theorem longestNumeral?_eq (word : List Char) :
    longestNumeral? word = if numeral word = [] then none else some (numeral word) := by
  by_cases hnil : numeral word = []
  · rw [if_pos hnil]
    refine List.find?_eq_none.2 fun text hmem htext => ?_
    have hpart : text <+: word := (List.mem_inits text word).1 (List.mem_reverse.1 hmem)
    have hwithin := isPrefix_numeral htext hpart
    rw [hnil, List.prefix_nil] at hwithin
    rw [hwithin] at htext
    cases htext
  · rw [if_neg hnil]
    exact find?_inits_of_longest (numeral_isPrefix word) (isNumeral_numeral hnil)
      fun other hother hnumeral => isPrefix_numeral hnumeral hother

/-- A numeral by itself is read as a whole. -/
theorem numeral_of_isNumeral {text : List Char} (h : isNumeral text = true) :
    numeral text = text :=
  (numeral_isPrefix text).eq_of_length_le (isPrefix_numeral h (List.prefix_refl text)).length_le

end TurtleGrammar
