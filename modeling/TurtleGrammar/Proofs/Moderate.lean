import TurtleGrammar.Proofs.Nesting
import TurtleGrammar.Proofs.Schema

/-!
# `TurtleGrammar.Proofs.Moderate` — texts within the limits of any reader

Here values nest without a bound, an integer has any number of digits, and what is not a character
reads as the replacement character. Readers that are in use have limits instead, beyond which they
give up in ways of their own: values that nest deeper than their stack, integers with more digits
than they convert, and one half of a surrogate pair, which they keep and then cannot write. A
moderate text stays away from all three, so that reading it does not depend on the reader.

A text is held against the limits by a scan of its characters, whether or not it is one of a value:
a reader may give up before it comes to what is wrong with the text. The value of a text is within
the limits that the scan is held to.

## Contents
- `Json.maxNesting`, `Json.maxDigits`: the limits.
- `Json.Paired`: no text in a value stands for half of a pair.
- `Json.Moderate`, `Json.moderate_of_length_le`: texts within the limits.
- `Json.Moderate.nesting_le`, `Json.Moderate.width_le`: what is read from them is within the limits.
-/

namespace TurtleGrammar

namespace Json

/-! ## Limits -/

/-- The arrays and objects inside each other that any reader has room for. -/
def maxNesting : Nat := 200

/-- The digits of an integer that any reader converts. -/
def maxDigits : Nat := 4300

/-- Is every text and every name in a value free of the replacement character, as which one half of
    a surrogate pair is read? -/
structure Paired (value : Json) : Prop where
  texts : ∀ s, Inside (.string s) value → replacement ∉ s.toList
  names : ∀ members, Inside (.object members) value → ∀ m ∈ members, replacement ∉ m.1.toList

/-- Is a text within the limits of any reader? No place in it is nested too deep or follows too many
    digits, and no half of a surrogate pair is read from it. -/
structure Moderate (text : List Char) : Prop where
  nesting : ∀ front, front <+: text → (scan front).depth ≤ maxNesting
  digits : ∀ front, front <+: text → (scan front).digits ≤ maxDigits
  paired : ∀ value, read text = .ok value → value.Paired

/-- A short text has no room to leave the limits. -/
theorem moderate_of_length_le {text : List Char} (h : text.length ≤ maxNesting)
    (hpaired : ∀ value, read text = .ok value → value.Paired) : Moderate text := by
  have hfront : ∀ front, front <+: text → (scan front).depth ≤ maxNesting ∧
      (scan front).digits ≤ maxNesting := by
    intro front hprefix
    obtain ⟨hdepth, hdigits⟩ := scan_le_length front
    have hlength := hprefix.length_le
    omega
  refine ⟨fun front hprefix => (hfront front hprefix).1, fun front hprefix => ?_, hpaired⟩
  exact Nat.le_trans (hfront front hprefix).2 (by decide)

/-! ## What is read from a moderate text -/

variable {text : List Char} {value w : Json}

/-- What is inside a value stands at some level of it. -/
theorem Inside.exists_nested (h : Inside w value) : ∃ n, Nested w n value := by
  induction h with
  | self => exact ⟨0, .self⟩
  | item hmem _ ih =>
      obtain ⟨n, hn⟩ := ih
      exact ⟨n + 1, .item hmem hn⟩
  | member hmem _ ih =>
      obtain ⟨n, hn⟩ := ih
      exact ⟨n + 1, .member hmem hn⟩

/-- **Nesting.** No value in what is read from a moderate text is nested too deep. -/
theorem Moderate.nesting_le {n : Nat} (h : Moderate text) (hread : read text = .ok value)
    (hw : Nested w n value) : n + w.opens ≤ maxNesting := by
  obtain ⟨front, hfront, hdepth, _⟩ := exists_scan_of_read hread hw
  exact Nat.le_trans hdepth (h.nesting front hfront)

/-- **Digits.** No integer in what is read from a moderate text has too many digits. -/
theorem Moderate.width_le (h : Moderate text) (hread : read text = .ok value)
    (hw : Inside w value) : w.width ≤ maxDigits := by
  obtain ⟨n, hn⟩ := hw.exists_nested
  obtain ⟨front, hfront, _, hdigits⟩ := exists_scan_of_read hread hn
  exact Nat.le_trans hdigits (h.digits front hfront)

end Json

end TurtleGrammar
