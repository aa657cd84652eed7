import Mathlib.Data.List.TakeWhile
import TurtleGrammar.Excerpt

/-!
# `TurtleGrammar.Proofs.Numeral` — where a numeral ends

A numeral is read from the head of a word as far as it goes, so that what follows it is read with
the rest of the word in view. These lemmas say when that rest does not matter: a numeral never runs
past a symbol that cannot stand in one, and cut off at its end it is read as before.

## Contents
- `numeralRun_digit`/`numeralRun_point`/`numeralRun_other`: the run at the head of a word, symbol by
  symbol.
- `numeral_append_of_head`, `numeral_append_of_mem`, `numeral_numeral`: numerals in longer words and
  in shorter ones.
- `startsNumeral`, `numeral_eq_nil_iff`: which words begin with a numeral.
-/

namespace TurtleGrammar

theorem isNumeralSymbol_of_isDigit {c : Char} (h : c.isDigit = true) :
    isNumeralSymbol c = true := by
  simp [isNumeralSymbol, h]

theorem isDigit_of_not_isNumeralSymbol {c : Char} (h : isNumeralSymbol c = false) :
    c.isDigit = false ∧ c ≠ '.' := by
  simpa [isNumeralSymbol] using h

/-! ## The run at the head of a word -/

@[simp] theorem numeralRun_nil : numeralRun [] = [] := rfl

theorem numeralRun_digit {c : Char} (h : c.isDigit = true) (word : List Char) :
    numeralRun (c :: word) = c :: numeralRun word := by
  simp only [numeralRun, List.takeWhile_cons_of_pos h, List.length_cons, List.drop_succ_cons]
  split <;> rfl

theorem numeralRun_point (word : List Char) :
    numeralRun ('.' :: word) = '.' :: word.takeWhile Char.isDigit := by
  have hpoint : ('.' : Char).isDigit ≠ true := by decide
  simp [numeralRun, List.takeWhile_cons_of_neg hpoint]

theorem numeralRun_other {c : Char} (h : isNumeralSymbol c = false) (word : List Char) :
    numeralRun (c :: word) = [] := by
  obtain ⟨hdigit, hpoint⟩ := isDigit_of_not_isNumeralSymbol h
  have hneg : ¬ c.isDigit = true := by simp [hdigit]
  simp only [numeralRun, List.takeWhile_cons_of_neg hneg, List.length_nil, List.drop_zero]
  split
  · next heq => exact absurd (List.cons.inj heq).1 hpoint
  · rfl

/-- The head of a word decides how its run goes on. -/
theorem numeralSymbol_cases (c : Char) :
    c.isDigit = true ∨ c = '.' ∨ isNumeralSymbol c = false := by
  cases h : isNumeralSymbol c with
  | false => exact Or.inr (Or.inr rfl)
  | true =>
      simp only [isNumeralSymbol, Bool.or_eq_true, beq_iff_eq] at h
      exact h.imp id Or.inl

theorem numeralRun_isPrefix (word : List Char) : numeralRun word <+: word := by
  induction word with
  | nil => exact List.nil_prefix
  | cons c word ih =>
      rcases numeralSymbol_cases c with h | rfl | h
      · rw [numeralRun_digit h]
        exact (List.prefix_cons_inj c).2 ih
      · rw [numeralRun_point]
        have hdigits : word.takeWhile Char.isDigit <+: word := List.takeWhile_prefix _
        exact (List.prefix_cons_inj '.').2 hdigits
      · rw [numeralRun_other h]
        exact List.nil_prefix

theorem isNumeralSymbol_of_mem_numeralRun {c : Char} {word : List Char} (h : c ∈ numeralRun word) :
    isNumeralSymbol c = true := by
  induction word with
  | nil => exact absurd h List.not_mem_nil
  | cons d word ih =>
      rcases numeralSymbol_cases d with hd | rfl | hd
      · rw [numeralRun_digit hd] at h
        rcases List.mem_cons.1 h with rfl | h
        · exact isNumeralSymbol_of_isDigit hd
        · exact ih h
      · rw [numeralRun_point] at h
        rcases List.mem_cons.1 h with rfl | h
        · rfl
        · exact isNumeralSymbol_of_isDigit (List.mem_takeWhile_imp h)
      · rw [numeralRun_other hd] at h
        exact absurd h List.not_mem_nil

/-- Digits end where the next word begins, unless that begins with a digit. -/
theorem takeWhile_isDigit_append {u v : List Char} (hv : ∀ c ∈ v.head?, isNumeralSymbol c = false) :
    (u ++ v).takeWhile Char.isDigit = u.takeWhile Char.isDigit := by
  have hstop : v.takeWhile Char.isDigit = [] := by
    cases v with
    | nil => rfl
    | cons c v =>
        have hc := (isDigit_of_not_isNumeralSymbol (hv c rfl)).1
        exact List.takeWhile_cons_of_neg (by simp [hc])
  -- the next word matters only where the first one is all digits, and then it adds none
  rw [List.takeWhile_append, hstop, List.append_nil]
  split
  · next hall =>
    have hdigits : u.takeWhile Char.isDigit <+: u := List.takeWhile_prefix _
    exact (hdigits.eq_of_length hall).symm
  · rfl

theorem numeralRun_append_of_head {u v : List Char}
    (hv : ∀ c ∈ v.head?, isNumeralSymbol c = false) : numeralRun (u ++ v) = numeralRun u := by
  induction u with
  | nil =>
      cases v with
      | nil => rfl
      | cons c v => exact numeralRun_other (hv c rfl) v
  | cons c u ih =>
      rw [List.cons_append]
      rcases numeralSymbol_cases c with h | rfl | h
      · rw [numeralRun_digit h, numeralRun_digit h, ih]
      · rw [numeralRun_point, numeralRun_point, takeWhile_isDigit_append hv]
      · rw [numeralRun_other h, numeralRun_other h]

theorem numeralRun_numeralRun (word : List Char) :
    numeralRun (numeralRun word) = numeralRun word := by
  induction word with
  | nil => rfl
  | cons c word ih =>
      rcases numeralSymbol_cases c with h | rfl | h
      · rw [numeralRun_digit h, numeralRun_digit h, ih]
      · rw [numeralRun_point, numeralRun_point, List.takeWhile_takeWhile]
        simp
      · rw [numeralRun_other h, numeralRun_nil]

/-! ## The numeral at the head of a word -/

@[simp] theorem numeral_nil : numeral [] = [] := rfl

/-- Words with the same run at their head have the same numeral there. -/
theorem numeral_congr {u v : List Char} (h : numeralRun u = numeralRun v) :
    numeral u = numeral v := by
  unfold numeral
  rw [h]

theorem numeral_isPrefix (word : List Char) : numeral word <+: word := by
  unfold numeral
  split
  · exact numeralRun_isPrefix word
  · exact List.nil_prefix

theorem isNumeralSymbol_of_mem_numeral {c : Char} {word : List Char} (h : c ∈ numeral word) :
    isNumeralSymbol c = true := by
  unfold numeral at h
  split at h
  · exact isNumeralSymbol_of_mem_numeralRun h
  · exact absurd h List.not_mem_nil

/-- A word that does not begin with a digit or a point continues no numeral. -/
theorem numeral_append_of_head {u v : List Char} (hv : ∀ c ∈ v.head?, isNumeralSymbol c = false) :
    numeral (u ++ v) = numeral u :=
  numeral_congr (numeralRun_append_of_head hv)

/-- A numeral ends before the first symbol that cannot stand in one, whatever comes later. -/
theorem numeral_append_of_mem {u v : List Char} {c : Char} (hc : c ∈ u)
    (hother : isNumeralSymbol c = false) : numeral (u ++ v) = numeral u := by
  obtain ⟨x, y, rfl⟩ := List.append_of_mem hc
  have hhead : ∀ z, ∀ d ∈ (c :: z : List Char).head?, isNumeralSymbol d = false := by
    intro z d hd
    rw [List.head?_cons, Option.mem_some_iff] at hd
    exact hd ▸ hother
  -- both numerals are that of the part before `c`
  rw [List.append_assoc, List.cons_append, numeral_append_of_head (hhead _),
    numeral_append_of_head (hhead _)]

/-- A numeral cut off at its end is read as before. -/
theorem numeral_numeral (word : List Char) : numeral (numeral word) = numeral word := by
  by_cases h : (numeralRun word).any Char.isDigit = true
  · have hword : numeral word = numeralRun word := if_pos h
    rw [hword, numeral_congr (numeralRun_numeralRun word), hword]
  · have hword : numeral word = [] := if_neg h
    rw [hword, numeral_nil]

/-! ## Words that begin with a numeral -/

/-- Does a word begin with a digit, or with a point and a digit? -/
def startsNumeral : List Char → Bool
  | [] => false
  | c :: rest => c.isDigit || (c == '.' && rest.head?.any Char.isDigit)

theorem any_takeWhile_isDigit (word : List Char) :
    (word.takeWhile Char.isDigit).any Char.isDigit = word.head?.any Char.isDigit := by
  cases word with
  | nil => rfl
  | cons c word => by_cases h : c.isDigit = true <;> simp [h]

theorem any_numeralRun (word : List Char) :
    (numeralRun word).any Char.isDigit = startsNumeral word := by
  cases word with
  | nil => rfl
  | cons c rest =>
      rcases numeralSymbol_cases c with h | rfl | h
      · simp [numeralRun_digit h, startsNumeral, h]
      · rw [numeralRun_point, List.any_cons, any_takeWhile_isDigit]
        rfl
      · obtain ⟨hdigit, hpoint⟩ := isDigit_of_not_isNumeralSymbol h
        simp [numeralRun_other h, startsNumeral, hdigit, hpoint]

/-- There is a numeral at the head of a word exactly if the word begins with one. -/
theorem numeral_eq_nil_iff (word : List Char) : numeral word = [] ↔ startsNumeral word = false := by
  have hany := any_numeralRun word
  by_cases h : startsNumeral word = true
  · have hword : numeral word = numeralRun word := if_pos (hany.trans h)
    constructor
    · intro hnil
      rw [← hword, hnil] at hany
      exact hany.symm
    · intro hfalse
      rw [h] at hfalse
      exact absurd hfalse (by decide)
  · have hword : numeral word = [] := if_neg (by rw [hany]; exact h)
    exact iff_of_true hword (by simpa using h)

end TurtleGrammar
