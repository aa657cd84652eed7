import TurtleGrammar.Decimal.Literal
import TurtleGrammar.Json.Basic
import TurtleGrammar.Table

/-!
# `TurtleGrammar.Json.Reader` — reading JSON values from text

Every reader takes the remaining characters and gives a value with the characters after it, which
are fewer; this is what lets values nest without a bound. A refusal carries the characters that
remain at the offending place, from which `read` computes line and column.

Beyond the standard, `NaN`, `Infinity` and `-Infinity` are values. A repeated name in an object
keeps its first place and takes the last value.

## Contents
- `skipBlanks`, `readString`, `readNumber`, `literals`: the leaves.
- `readValue`, `readItems`, `readMembers`: values, arrays and objects.
- `read`: a whole text.
-/

namespace TurtleGrammar

namespace Json

/-- A refusal with the characters that remain where it arose. -/
structure Stop where
  cause : ReadCause
  remaining : List Char

/-- The characters left after a reader took at least one of `s`. -/
abbrev Shorter (s : List Char) := { rest : List Char // rest.length < s.length }

/-- What a reader of `s` gives. -/
abbrev Reading (α : Type) (s : List Char) := Except Stop (α × Shorter s)

/-- White space between the tokens. -/
def isBlank (c : Char) : Bool := c == ' ' || c == '\t' || c == '\n' || c == '\r'

def skipBlanks (s : List Char) : List Char := s.dropWhile isBlank

theorem length_skipBlanks_le (s : List Char) : (skipBlanks s).length ≤ s.length :=
  (List.dropWhile_sublist isBlank).length_le

/-! ## Strings -/

/-- The value of a hexadecimal digit. -/
def hexValue? (c : Char) : Option Nat :=
  if '0' ≤ c && c ≤ '9' then some (c.toNat - '0'.toNat)
  else if 'a' ≤ c && c ≤ 'f' then some (c.toNat - 'a'.toNat + 10)
  else if 'A' ≤ c && c ≤ 'F' then some (c.toNat - 'A'.toNat + 10)
  else none

/-- The number that four hexadecimal digits denote. -/
def hexQuad? (s : List Char) : Option Nat :=
  match s.take 4 with
  | [a, b, c, d] => do
    return ((← hexValue? a) * 16 + (← hexValue? b)) * 256 + (← hexValue? c) * 16 + (← hexValue? d)
  | _ => none

def isHighSurrogate (unit : Nat) : Bool := 0xD800 ≤ unit && unit ≤ 0xDBFF

def isLowSurrogate (unit : Nat) : Bool := 0xDC00 ≤ unit && unit ≤ 0xDFFF

/-- The replacement character, which stands for what is no character. -/
def replacement : Char := Char.ofNat 0xFFFD

/-- The character of a code unit. A surrogate that stands alone has none and reads as the
    replacement character. -/
def ofCodeUnit (unit : Nat) : Char :=
  if 0xD800 ≤ unit && unit ≤ 0xDFFF then replacement else Char.ofNat unit

/-- The character that two surrogates form. -/
def ofSurrogates (high low : Nat) : Char :=
  Char.ofNat (0x10000 + (high - 0xD800) * 0x400 + (low - 0xDC00))

/-- The second half of a pair after its first half: `none` if no escape of a code unit follows (with
    at least one character after it), otherwise its code unit. -/
def secondUnit? (s : List Char) : Option (Except Stop Nat) :=
  match s with
  | '\\' :: 'u' :: t =>
    if (t.drop 4).isEmpty then none
    else match hexQuad? t with
      | some unit => some (.ok unit)
      | none => some (.error ⟨.codeUnit, 'u' :: t⟩)
  | _ => none

/-- The escape of a code unit, `t` being what follows its letter: the character and how many
    characters of `t` it takes. At least one character must come after it. -/
def readCodeUnit (t : List Char) : Except Stop (Char × Nat) :=
  if (t.drop 4).isEmpty then .error ⟨.codeUnit, 'u' :: t⟩
  else match hexQuad? t with
    | none => .error ⟨.codeUnit, 'u' :: t⟩
    | some unit =>
      if isHighSurrogate unit then
        match secondUnit? (t.drop 4) with
        | none => .ok (ofCodeUnit unit, 4)
        | some (.error e) => .error e
        | some (.ok second) =>
          if isLowSurrogate second then .ok (ofSurrogates unit second, 10)
          else .ok (ofCodeUnit unit, 4)
      else .ok (ofCodeUnit unit, 4)

/-- The character that a letter after a backslash stands for. -/
def escapes : List (Char × Char) :=
  [('"', '"'), ('\\', '\\'), ('/', '/'), ('b', Char.ofNat 8), ('f', Char.ofNat 12), ('n', '\n'),
    ('r', '\r'), ('t', '\t')]

/-- Read a string from the character after its opening quote on; `opening` is the text from the
    quote on, and `seen` holds the characters so far, latest first. -/
def readString (opening : List Char) (seen : List Char) (s : List Char) : Reading String s :=
  match s with
  | [] => .error ⟨.unterminatedString, opening⟩
  | '"' :: rest => .ok (String.ofList seen.reverse, ⟨rest, by simp⟩)
  | '\\' :: [] => .error ⟨.unterminatedString, opening⟩
  | '\\' :: 'u' :: t =>
    match readCodeUnit t with
    | .error e => .error e
    | .ok (c, used) =>
      match readString opening (c :: seen) (t.drop used) with
      | .error e => .error e
      | .ok (text, ⟨rest, h⟩) => .ok (text, ⟨rest, by
          simp only [List.length_drop, List.length_cons] at h ⊢
          omega⟩)
  | '\\' :: letter :: t =>
    match escapes.lookup letter with
    | none => .error ⟨.escape, s⟩
    | some c =>
      match readString opening (c :: seen) t with
      | .error e => .error e
      | .ok (text, ⟨rest, h⟩) => .ok (text, ⟨rest, by
          simp only [List.length_cons]
          omega⟩)
  | c :: t =>
    if c.toNat ≤ 0x1F then .error ⟨.controlCharacter, s⟩
    else
      match readString opening (c :: seen) t with
      | .error e => .error e
      | .ok (text, ⟨rest, h⟩) => .ok (text, ⟨rest, by
          simp only [List.length_cons]
          omega⟩)
termination_by s.length

/-! ## Numbers and literals -/

/-- The digits before the point: a zero alone, or a run that starts with another digit. -/
def wholeDigits (s : List Char) : List Char :=
  match s with
  | '0' :: _ => ['0']
  | _ => s.takeWhile Char.isDigit

/-- Read a number. With neither fraction nor exponent it is an exact integer. -/
def readNumber (s : List Char) : Reading Json s :=
  let sign := (s.take 1).filter (· = '-')
  let whole := wholeDigits (s.drop sign.length)
  if hwhole : whole = [] then .error ⟨.value, s⟩
  else
    let afterWhole := s.drop (sign.length + whole.length)
    let fraction := fractionDigits afterWhole
    let afterFraction := afterWhole.drop (if fraction.isEmpty then 0 else fraction.length + 1)
    let negative := !sign.isEmpty
    let (value, used) : Json × Nat :=
      match exponentPart? afterFraction with
      | some (exponent, used) =>
        (.float ((Decimal.ofParts whole fraction exponent).toBinary64 negative), used)
      | none =>
        if fraction.isEmpty then
          (.integer (if negative then -(ofDigits whole : Int) else ofDigits whole), 0)
        else (.float ((Decimal.ofParts whole fraction 0).toBinary64 negative), 0)
    .ok (value, ⟨afterFraction.drop used, by
      have hpos : 0 < whole.length := List.length_pos_iff.2 hwhole
      have hne : 0 < s.length := by
        rcases s with _ | ⟨c, t⟩
        · simp [whole, sign, wholeDigits] at hwhole
        · simp
      simp only [afterFraction, afterWhole, List.length_drop]
      omega⟩)

/-- The values that are written as a word. -/
def literals : List (List Char × Json) :=
  [("null".toList, .null), ("true".toList, .boolean true), ("false".toList, .boolean false),
    ("NaN".toList, .float .nan), ("Infinity".toList, .float (.infinity false)),
    ("-Infinity".toList, .float (.infinity true))]

/-- Read a word among the literals, or else a number. -/
def readScalar (s : List Char) : Reading Json s :=
  match literals.find? (fun l => l.1.isPrefixOf s) with
  | some (word, value) =>
    if h : 0 < word.length ∧ 0 < s.length then
      .ok (value, ⟨s.drop word.length, by
        simp only [List.length_drop]
        omega⟩)
    else .error ⟨.value, s⟩
  | none => readNumber s

/-! ## Values -/

/-- The object with the given members, set one after the other in a table: a name that is repeated
    keeps its first place and takes its last value. -/
def ofMembers (members : List (String × Json)) : Json := .object (Table.ofList members).entries

mutual

/-- Read a value that starts with the first character. -/
def readValue (s : List Char) : Reading Json s :=
  match s with
  | [] => .error ⟨.value, []⟩
  | '"' :: t =>
    match readString ('"' :: t) [] t with
    | .error e => .error e
    | .ok (text, ⟨rest, h⟩) => .ok (.string text, ⟨rest, by
        simp only [List.length_cons]
        omega⟩)
  | '[' :: t =>
    have hle := length_skipBlanks_le t
    match hs : skipBlanks t with
    | ']' :: rest => .ok (.array [], ⟨rest, by
        simp only [hs, List.length_cons] at hle ⊢
        omega⟩)
    | u =>
      match readItems u with
      | .error e => .error e
      | .ok (items, ⟨rest, h⟩) => .ok (.array items, ⟨rest, by
          simp only [hs, List.length_cons] at hle ⊢
          omega⟩)
  | '{' :: t =>
    have hle := length_skipBlanks_le t
    match hs : skipBlanks t with
    | '}' :: rest => .ok (.object [], ⟨rest, by
        simp only [hs, List.length_cons] at hle ⊢
        omega⟩)
    | u =>
      match readMembers u with
      | .error e => .error e
      | .ok (members, ⟨rest, h⟩) => .ok (ofMembers members, ⟨rest, by
          simp only [hs, List.length_cons] at hle ⊢
          omega⟩)
  | c :: t => readScalar (c :: t)
termination_by (s.length, 0)
decreasing_by
  · simp only [hs, List.length_cons] at hle ⊢
    exact Prod.Lex.left _ _ (by omega)
  · simp only [hs, List.length_cons] at hle ⊢
    exact Prod.Lex.left _ _ (by omega)

/-- Read the values of an array up to its closing bracket. -/
def readItems (s : List Char) : Reading (List Json) s :=
  match readValue s with
  | .error e => .error e
  | .ok (value, ⟨t, ht⟩) =>
    have hle := length_skipBlanks_le t
    match hs : skipBlanks t with
    | ']' :: rest => .ok ([value], ⟨rest, by
        simp only [hs, List.length_cons] at hle
        omega⟩)
    | ',' :: u =>
      have hle' := length_skipBlanks_le u
      match readItems (skipBlanks u) with
      | .error e => .error e
      | .ok (items, ⟨rest, h⟩) => .ok (value :: items, ⟨rest, by
          simp only [hs, List.length_cons] at hle
          omega⟩)
    | u => .error ⟨.comma, u⟩
termination_by (s.length, 1)
decreasing_by
  · exact Prod.Lex.right _ (by decide)
  · simp only [hs, List.length_cons] at hle
    exact Prod.Lex.left _ _ (by omega)

/-- Read the members of an object up to its closing brace. -/
def readMembers (s : List Char) : Reading (List (String × Json)) s :=
  match s with
  | '"' :: t =>
    match readString ('"' :: t) [] t with
    | .error e => .error e
    | .ok (name, ⟨a, ha⟩) =>
      have hla := length_skipBlanks_le a
      match hsa : skipBlanks a with
      | ':' :: b =>
        have hlb := length_skipBlanks_le b
        match readValue (skipBlanks b) with
        | .error e => .error e
        | .ok (value, ⟨c, hc⟩) =>
          have hlc := length_skipBlanks_le c
          match hsc : skipBlanks c with
          | '}' :: rest => .ok ([(name, value)], ⟨rest, by
              simp only [hsa, hsc, List.length_cons] at hla hlc ⊢
              omega⟩)
          | ',' :: d =>
            have hld := length_skipBlanks_le d
            match readMembers (skipBlanks d) with
            | .error e => .error e
            | .ok (members, ⟨rest, h⟩) => .ok ((name, value) :: members, ⟨rest, by
                simp only [hsa, hsc, List.length_cons] at hla hlc ⊢
                omega⟩)
          | u => .error ⟨.comma, u⟩
      | u => .error ⟨.colon, u⟩
  | u => .error ⟨.name, u⟩
termination_by (s.length, 1)
decreasing_by
  · simp only [hsa, List.length_cons] at hla ⊢
    exact Prod.Lex.left _ _ (by omega)
  · simp only [hsa, hsc, List.length_cons] at hla hlc ⊢
    exact Prod.Lex.left _ _ (by omega)

end

/-- Read a text that holds one value, with white space around it. -/
def readAll (text : List Char) : Except Stop Json :=
  if text.head? = some (Char.ofNat 0xFEFF) then .error ⟨.byteOrderMark, text⟩
  else
    match readValue (skipBlanks text) with
    | .error e => .error e
    | .ok (value, ⟨rest, _⟩) =>
      match skipBlanks rest with
      | [] => .ok value
      | u => .error ⟨.extraData, u⟩

/-- The value that a text holds, or where and why it is not one. -/
def read (text : List Char) : Except ReadError Json :=
  match readAll text with
  | .ok value => .ok value
  | .error stop => .error (.after stop.cause (text.take (text.length - stop.remaining.length)))

end Json

end TurtleGrammar
