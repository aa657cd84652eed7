/-!
# `TurtleGrammar.Text.Digits` — numbers as runs of digits

## Contents
- `digits`, `hexDigits`: a natural number without leading zeros.
- `padZeros`: zeros in front up to a width.
- `ofDigits`: the number that a run of decimal digits denotes, with `ofDigits_digits`.
-/

namespace TurtleGrammar

/-- The decimal digits of a natural number, without leading zeros. -/
def digits (n : Nat) : List Char := Nat.toDigits 10 n

/-- The hexadecimal digits of a natural number in lower case, without leading zeros. -/
def hexDigits (n : Nat) : List Char := Nat.toDigits 16 n

/-- Zeros put before a text until it has the given length. -/
def padZeros (width : Nat) (text : List Char) : List Char :=
  List.replicate (width - text.length) '0' ++ text

/-- The number that a run of decimal digits denotes. -/
def ofDigits (text : List Char) : Nat := Nat.ofDigitChars 10 text 0

/-- A number is read back from its digits. -/
@[simp] theorem ofDigits_digits (n : Nat) : ofDigits (digits n) = n :=
  Nat.ofDigitChars_toDigits (by decide) (by decide)

theorem isDigit_of_mem_digits {n : Nat} {c : Char} (h : c ∈ digits n) : c.isDigit = true :=
  Nat.isDigit_of_mem_toDigits (by decide) (by decide) h

/-- A whole number in decimal, with a sign if it is negative. -/
def signedDigits (n : Int) : List Char :=
  (if n < 0 then ['-'] else []) ++ digits n.natAbs

end TurtleGrammar
