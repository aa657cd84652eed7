import TurtleGrammar.CyclicNumeral
import TurtleGrammar.Proofs.LongestNumeral
import TurtleGrammar.Proofs.Nearest

/-!
# `TurtleGrammar.Proofs.NumeralGrammar` — numerals and the numbers that they denote

A numeral has one of three forms: digits, digits with a point and perhaps more digits behind them,
or a point with digits behind it. Each form says which exact number it denotes. The scanner knows no
forms: it goes on as long as there are digits and no second point, and looks for a digit only at the
end. It finds the longest first part of one of the forms, and its value is the number of the format
nearest to what that part denotes.

## Contents
- `Numeral`: the forms with the numbers that they denote; `isNumeral_iff_exists`: all of them.
- `Numeral.unique`, `Numeral.isNearest`: the number that a numeral denotes, and its value.
- `LongestAt`: the longest numeral with which a word begins.
- `scanNumeralAt_longest`: what is found at a position of a word.
-/

namespace TurtleGrammar

/-- A numeral with the number that it denotes. -/
inductive Numeral : List Char → ℚ → Prop where
  | whole {digits : List Char} (hne : digits ≠ []) (hdigits : ∀ c ∈ digits, c.isDigit = true) :
      Numeral digits (ofDigits digits)
  | pointed {whole fraction : List Char} (hne : whole ≠ [])
      (hwhole : ∀ c ∈ whole, c.isDigit = true) (hfraction : ∀ c ∈ fraction, c.isDigit = true) :
      Numeral (whole ++ '.' :: fraction)
        (ofDigits whole + ofDigits fraction / 10 ^ fraction.length)
  | fraction {fraction : List Char} (hne : fraction ≠ [])
      (hfraction : ∀ c ∈ fraction, c.isDigit = true) :
      Numeral ('.' :: fraction) (ofDigits fraction / 10 ^ fraction.length)

variable {text word whole fraction : List Char} {q r : ℚ}

/-! ## Forms of numerals -/

theorem any_isDigit_of_ne_nil (hne : whole ≠ []) (hwhole : ∀ c ∈ whole, c.isDigit = true) :
    whole.any Char.isDigit = true := by
  obtain ⟨first, others, rfl⟩ := List.exists_cons_of_ne_nil hne
  exact List.any_eq_true.2 ⟨first, List.mem_cons_self, hwhole first List.mem_cons_self⟩

theorem count_point_of_digits (hwhole : ∀ c ∈ whole, c.isDigit = true) : whole.count '.' = 0 :=
  List.count_eq_zero.2 fun hmem => absurd (hwhole '.' hmem) (by decide)

/-- Digits around a point are a numeral if there is one at all. -/
theorem isNumeral_pointed (hwhole : ∀ c ∈ whole, c.isDigit = true)
    (hfraction : ∀ c ∈ fraction, c.isDigit = true)
    (hany : (whole ++ '.' :: fraction).any Char.isDigit = true) :
    isNumeral (whole ++ '.' :: fraction) = true := by
  refine isNumeral_iff.2 ⟨?_, hany, ?_⟩
  · intro c hc
    rcases List.mem_append.1 hc with hmem | hmem
    · exact isNumeralSymbol_of_isDigit (hwhole c hmem)
    · rcases List.mem_cons.1 hmem with rfl | hmem
      · rfl
      · exact isNumeralSymbol_of_isDigit (hfraction c hmem)
  · rw [List.count_append, List.count_cons_self, count_point_of_digits hwhole,
      count_point_of_digits hfraction]

theorem Numeral.isNumeral (h : Numeral text q) : isNumeral text = true := by
  cases h with
  | whole hne hdigits =>
      refine isNumeral_iff.2 ⟨fun c hc => isNumeralSymbol_of_isDigit (hdigits c hc),
        any_isDigit_of_ne_nil hne hdigits, ?_⟩
      rw [count_point_of_digits hdigits]
      exact Nat.zero_le 1
  | pointed hne hwhole hfraction =>
      refine isNumeral_pointed hwhole hfraction ?_
      rw [List.any_append, any_isDigit_of_ne_nil hne hwhole, Bool.true_or]
  | @fraction fraction hne hfraction =>
      refine isNumeral_pointed (List.forall_mem_nil _) hfraction ?_
      rw [List.nil_append, List.any_cons, any_isDigit_of_ne_nil hne hfraction, Bool.or_true]

/-- Symbols of numerals without a point are digits. -/
theorem isDigit_of_count_point (hsymbols : ∀ c ∈ text, isNumeralSymbol c = true)
    (hpoints : text.count '.' = 0) : ∀ c ∈ text, c.isDigit = true := by
  intro c hc
  rcases numeralSymbol_cases c with hdigit | rfl | hother
  · exact hdigit
  · exact absurd hc (List.count_eq_zero.1 hpoints)
  · rw [hsymbols c hc] at hother
    cases hother

/-- Digits with at most one point have one of the forms. -/
theorem exists_numeral (h : isNumeral text = true) : ∃ q, Numeral text q := by
  obtain ⟨hsymbols, hany, hpoints⟩ := isNumeral_iff.1 h
  by_cases hpoint : '.' ∈ text
  · obtain ⟨whole, fraction, rfl, hwhole⟩ := List.eq_append_cons_of_mem hpoint
    have hnone : whole.count '.' = 0 := List.count_eq_zero.2 hwhole
    rw [List.count_append, List.count_cons_self] at hpoints
    have hdigits := isDigit_of_count_point
      (fun c hc => hsymbols c (List.mem_append_left _ hc)) hnone
    have hdigits' := isDigit_of_count_point
      (fun c hc => hsymbols c (List.mem_append_right _ (List.mem_cons_of_mem _ hc)))
      (show fraction.count '.' = 0 by omega)
    by_cases hne : whole = []
    · -- the digit stands behind the point
      subst hne
      have hne' : fraction ≠ [] := by
        rintro rfl
        cases hany
      exact ⟨_, .fraction hne' hdigits'⟩
    · exact ⟨_, .pointed hne hdigits hdigits'⟩
  · have hne : text ≠ [] := by
      rintro rfl
      cases hany
    exact ⟨_, .whole hne (isDigit_of_count_point hsymbols (List.count_eq_zero.2 hpoint))⟩

theorem isNumeral_iff_exists : isNumeral text = true ↔ ∃ q, Numeral text q :=
  ⟨exists_numeral, fun ⟨_, h⟩ => h.isNumeral⟩

/-! ## Values -/

/-- Digits in front count for powers of ten. -/
theorem ofDigits_append (whole fraction : List Char) :
    ofDigits (whole ++ fraction) = powerOfTen fraction.length * ofDigits whole +
      ofDigits fraction := by
  unfold ofDigits
  rw [Nat.ofDigitChars_append, Nat.ofDigitChars_eq_ofDigitChars_zero]
  rfl

theorem value_ofParts_eq_add (whole fraction : List Char) :
    (Decimal.ofParts whole fraction 0).value =
      ofDigits whole + ofDigits fraction / 10 ^ fraction.length := by
  have hten : (10 : ℚ) ^ fraction.length ≠ 0 := pow_ne_zero _ (by norm_num)
  rw [Decimal.value_ofParts, ofDigits_append, Nat.cast_add, Nat.cast_mul, Binary64.cast_powerOfTen,
    add_div, mul_div_cancel_left₀ _ hten]

theorem ofDigits_nil : ofDigits [] = 0 := rfl

/-- The digits of a numeral before and behind its point, as a decimal. -/
def numeralDecimal (text : List Char) : Decimal :=
  Decimal.ofParts (text.takeWhile Char.isDigit)
    (text.drop ((text.takeWhile Char.isDigit).length + 1)) 0

theorem numeralValue_eq (text : List Char) :
    numeralValue text = (numeralDecimal text).toBinary64 false := rfl

theorem numeralDecimal_digits (hwhole : ∀ c ∈ whole, c.isDigit = true) :
    numeralDecimal whole = Decimal.ofParts whole [] 0 := by
  have htake : whole.takeWhile Char.isDigit = whole := List.takeWhile_eq_self_iff.2 hwhole
  have hdrop : whole.drop (whole.length + 1) = [] := List.drop_eq_nil_of_le (Nat.le_succ _)
  unfold numeralDecimal
  rw [htake, hdrop]

theorem numeralDecimal_pointed (hwhole : ∀ c ∈ whole, c.isDigit = true) (fraction : List Char) :
    numeralDecimal (whole ++ '.' :: fraction) = Decimal.ofParts whole fraction 0 := by
  have htake : (whole ++ '.' :: fraction).takeWhile Char.isDigit = whole := by
    rw [List.takeWhile_append_of_pos hwhole, List.takeWhile_cons_of_neg (by decide),
      List.append_nil]
  have hdrop : (whole ++ '.' :: fraction).drop (whole.length + 1) = fraction := by
    rw [← List.drop_drop, List.drop_left]
    rfl
  unfold numeralDecimal
  rw [htake, hdrop]

/-- What a numeral denotes is the exact number of its decimal. -/
theorem Numeral.eq_value (h : Numeral text q) : q = (numeralDecimal text).value := by
  cases h with
  | whole hne hdigits =>
      rw [numeralDecimal_digits hdigits, value_ofParts_eq_add, ofDigits_nil, Nat.cast_zero,
        zero_div, add_zero]
  | pointed hne hwhole hfraction =>
      rw [numeralDecimal_pointed hwhole, value_ofParts_eq_add]
  | @fraction fraction hne hfraction =>
      rw [← List.nil_append ('.' :: fraction), numeralDecimal_pointed (List.forall_mem_nil _),
        value_ofParts_eq_add, ofDigits_nil, Nat.cast_zero, zero_add]

/-- A numeral denotes one number. -/
theorem Numeral.unique (h : Numeral text q) (h' : Numeral text r) : r = q :=
  h'.eq_value.trans h.eq_value.symm

/-- **The value of a numeral** is the number nearest to what it denotes. -/
theorem Numeral.isNearest (h : Numeral text q) : Binary64.IsNearest q (numeralValue text) := by
  rw [h.eq_value, numeralValue_eq]
  exact Decimal.isNearest_toBinary64 (numeralDecimal text)

/-! ## The longest numeral at a position -/

/-- Is a text the longest numeral with which a word begins, and does it denote the number? -/
structure LongestAt (word text : List Char) (q : ℚ) : Prop where
  isPrefix : text <+: word
  numeral : Numeral text q
  longest : ∀ other r, Numeral other r → other <+: word → other.length ≤ text.length

/-- What is read at the head of a word is its longest numeral, unless it has none. -/
theorem longestAt_numeral (h : numeral word ≠ []) : ∃ q, LongestAt word (numeral word) q := by
  obtain ⟨q, hq⟩ := exists_numeral (isNumeral_numeral h)
  refine ⟨q, numeral_isPrefix word, hq, fun other r hother hpart => ?_⟩
  exact (isPrefix_numeral hother.isNumeral hpart).length_le

theorem not_isPrefix_of_numeral_eq_nil (h : numeral word = []) (hnumeral : Numeral text q) :
    ¬ text <+: word := by
  intro hpart
  have hwithin := isPrefix_numeral hnumeral.isNumeral hpart
  rw [h, List.prefix_nil] at hwithin
  have hempty := hnumeral.isNumeral
  rw [hwithin] at hempty
  cases hempty

/-- **Numerals are read as far as they go.** At every position, those past the end of the word
    included, the scanner has a result. If a numeral stands there, it is the length of the longest
    one with the number of the format nearest to the one number that it denotes, however many digits
    it has. Otherwise both are zero. -/
theorem scanNumeralAt_longest (word : List Char) (start : Nat) :
    ∃ value length, scanNumeralAt word start = .ok (value, length) ∧
      ((length = 0 ∧ value = .zero ∧ ∀ text q, Numeral text q → ¬ text <+: word.drop start) ∨
       (0 < length ∧ ∃ text q, LongestAt (word.drop start) text q ∧
          (∀ r, Numeral text r → r = q) ∧ length = text.length ∧
          ∀ x, Binary64.IsNearest q x ↔ x = value)) := by
  refine ⟨numeralValue (numeral (word.drop start)), (numeral (word.drop start)).length, rfl, ?_⟩
  by_cases hnil : numeral (word.drop start) = []
  · left
    rw [hnil]
    exact ⟨rfl, rfl, fun text q h => not_isPrefix_of_numeral_eq_nil hnil h⟩
  · obtain ⟨q, hlongest⟩ := longestAt_numeral hnil
    have hnearest := hlongest.numeral.isNearest
    right
    refine ⟨List.length_pos_iff.2 hnil, _, q, hlongest, fun r hr => ?_, rfl, fun x => ⟨?_, ?_⟩⟩
    · exact hlongest.numeral.unique hr
    · intro hx
      exact hx.unique hnearest
    · rintro rfl
      exact hnearest

/-- A superscript is no digit, a second point ends a numeral, and a point alone is none. -/
example : scanNumeralAt ['²', '1', '.', '.', '5'] 1 = .ok (.one, 2) ∧
    scanNumeralAt ['²', '1', '.', '.', '5'] 0 = .ok (.zero, 0) ∧
    scanNumeralAt ['²', '1', '.', '.', '5'] 2 = .ok (.zero, 0) := by decide +kernel

end TurtleGrammar
