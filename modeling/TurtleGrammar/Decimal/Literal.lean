import TurtleGrammar.Decimal.Basic

/-!
# `TurtleGrammar.Decimal.Literal` — reading written numbers

## Contents
- `fractionDigits`, `exponentPart?`: the parts of a literal after its whole digits.
- `Binary64.read?`: the number that a text denotes; the inverse of `Binary64.write`.
-/

namespace TurtleGrammar

/-- The digits after a point; none without a point. -/
def fractionDigits (s : List Char) : List Char :=
  match s with
  | '.' :: t => t.takeWhile Char.isDigit
  | _ => []

/-- The letter, the sign and the digits of an exponent; `none` unless a digit is among them. -/
def exponentPart? (s : List Char) : Option (Int × Nat) :=
  match s with
  | letter :: t =>
    if letter = 'e' || letter = 'E' then
      let signs := (t.take 1).filter (fun c => c = '+' || c = '-')
      let ds := (t.drop signs.length).takeWhile Char.isDigit
      if ds.isEmpty then none
      else
        let exponent : Int := if signs = ['-'] then -(ofDigits ds : Int) else ofDigits ds
        some (exponent, 1 + signs.length + ds.length)
    else none
  | [] => none

namespace Binary64

/-- The number that a text without a sign denotes: digits with a point somewhere among them or none,
    and possibly an exponent. -/
def readUnsigned? (negative : Bool) (text : List Char) : Option Binary64 :=
  let whole := text.takeWhile Char.isDigit
  let afterWhole := text.drop whole.length
  let fraction := fractionDigits afterWhole
  let pointed := afterWhole.head? = some '.'
  let afterFraction := afterWhole.drop (if pointed then fraction.length + 1 else 0)
  if whole.isEmpty && fraction.isEmpty then none
  else if afterFraction.isEmpty then some ((Decimal.ofParts whole fraction 0).toBinary64 negative)
  else
    match exponentPart? afterFraction with
    | some (exponent, used) =>
      if used = afterFraction.length then
        some ((Decimal.ofParts whole fraction exponent).toBinary64 negative)
      else none
    | none => none

/-- The number that a text denotes: a literal, `inf` or `nan`, with or without a sign. -/
def read? (text : List Char) : Option Binary64 :=
  let (negative, size) : Bool × List Char :=
    match text with
    | '-' :: rest => (true, rest)
    | '+' :: rest => (false, rest)
    | _ => (false, text)
  if size = "nan".toList then some .nan
  else if size = "inf".toList then some (.infinity negative)
  else readUnsigned? negative size

end Binary64

end TurtleGrammar
