import TurtleGrammar.Text.Digits

/-!
# `TurtleGrammar.Text.Utf8` — reading bytes as text

`decode` reads the UTF-8 encoding of a text strictly: overlong forms, surrogates and numbers past
the last code point are refused. A refusal names the bytes from the first byte of the character up
to the first byte that cannot continue it.

## Contents
- `Lead`, `lead?`: what the first byte of a character announces.
- `DecodeError` with its `message`.
- `decode`: the characters of a run of bytes; `unifyNewlines`: one form for line ends.
-/

namespace TurtleGrammar

namespace Text

/-- What the first byte of a character announces: the payload it holds, how many bytes follow, and
    the bounds of the next one. -/
structure Lead where
  payload : Nat
  following : Nat
  low : Nat
  high : Nat

/-- The announcement of a first byte; `none` if no character starts with it. The bounds of the
    second byte rule out overlong forms, surrogates and numbers past the last code point. -/
def lead? (byte : Nat) : Option Lead :=
  if byte < 0x80 then some ⟨byte, 0, 0x80, 0xBF⟩
  else if byte < 0xC2 then none
  else if byte < 0xE0 then some ⟨byte - 0xC0, 1, 0x80, 0xBF⟩
  else if byte < 0xF0 then
    some ⟨byte - 0xE0, 2, if byte = 0xE0 then 0xA0 else 0x80, if byte = 0xED then 0x9F else 0xBF⟩
  else if byte < 0xF5 then
    some ⟨byte - 0xF0, 3, if byte = 0xF0 then 0x90 else 0x80, if byte = 0xF4 then 0x8F else 0xBF⟩
  else none

/-- Why a run of bytes is not the encoding of a text. -/
inductive DecodeCause where
  | startByte
  | continuationByte
  | endOfData
  deriving DecidableEq, Repr

/-- A refusal: its cause, where the offending bytes start and how many they are, and the first. -/
structure DecodeError where
  cause : DecodeCause
  position : Nat
  count : Nat
  byte : Nat
  deriving DecidableEq, Repr

def DecodeCause.text : DecodeCause → String
  | .startByte => "invalid start byte"
  | .continuationByte => "invalid continuation byte"
  | .endOfData => "unexpected end of data"

/-- The refusal in words. -/
def DecodeError.message (e : DecodeError) : String :=
  let place :=
    if e.count = 1 then
      "byte 0x" ++ String.ofList (padZeros 2 (hexDigits e.byte)) ++ " in position " ++
        toString e.position
    else
      "bytes in position " ++ toString e.position ++ "-" ++ toString (e.position + e.count - 1)
  "\x27utf-8\x27 codec can\x27t decode " ++ place ++ ": " ++ e.cause.text

/-- A character of which some bytes were read: its first byte, how many were read, the payload so
    far and what is to come. -/
structure Pending where
  first : Nat
  read : Nat
  lead : Lead

/-- Read bytes from a position on; `shown` holds the characters before it, latest first. -/
def decodeFrom : Nat → Option Pending → List Char → List UInt8 → Except DecodeError (List Char)
  | _, none, shown, [] => .ok shown.reverse
  | position, some p, _, [] => .error ⟨.endOfData, position - p.read, p.read, p.first⟩
  | position, none, shown, b :: rest =>
    match lead? b.toNat with
    | none => .error ⟨.startByte, position, 1, b.toNat⟩
    | some ⟨payload, 0, _, _⟩ => decodeFrom (position + 1) none (Char.ofNat payload :: shown) rest
    | some lead => decodeFrom (position + 1) (some ⟨b.toNat, 1, lead⟩) shown rest
  | position, some p, shown, b :: rest =>
    if p.lead.low ≤ b.toNat && b.toNat ≤ p.lead.high then
      let payload := p.lead.payload * 0x40 + (b.toNat - 0x80)
      match p.lead.following with
      | 0 | 1 => decodeFrom (position + 1) none (Char.ofNat payload :: shown) rest
      | left + 2 =>
        decodeFrom (position + 1) (some ⟨p.first, p.read + 1, payload, left + 1, 0x80, 0xBF⟩)
          shown rest
    else .error ⟨.continuationByte, position - p.read, p.read, p.first⟩

/-- The characters that a run of bytes encodes. -/
def decode (bytes : List UInt8) : Except DecodeError (List Char) := decodeFrom 0 none [] bytes

/-- A text in which a carriage return, with a line feed after it or alone, is a line feed. -/
def unifyNewlines : List Char → List Char
  | [] => []
  | '\r' :: '\n' :: rest => '\n' :: unifyNewlines rest
  | '\r' :: rest => '\n' :: unifyNewlines rest
  | c :: rest => c :: unifyNewlines rest

end Text

end TurtleGrammar
