import TurtleGrammar.Binary64.Basic

/-!
# `TurtleGrammar.Json.Basic` — JSON values

Numbers written without point and exponent are exact integers, all others binary64 numbers. Objects
keep their members in order.

## Contents
- `Json` and its look-up `Json.member?`.
- `ReadError`: why a text is not a JSON value, and where.
-/

namespace TurtleGrammar

/-- A JSON value. -/
inductive Json where
  | null
  | boolean (value : Bool)
  | integer (value : Int)
  | float (value : Binary64)
  | string (value : String)
  | array (items : List Json)
  | object (members : List (String × Json))

namespace Json

/-- The value of a name among the members of an object. -/
def member? (name : String) (members : List (String × Json)) : Option Json :=
  members.lookup name

/-- Why a text is not a JSON value. -/
inductive ReadCause where
  | value
  | name
  | colon
  | comma
  | extraData
  | unterminatedString
  | controlCharacter
  | escape
  | codeUnit
  | byteOrderMark
  deriving DecidableEq, Repr

def ReadCause.text : ReadCause → String
  | .value => "Expecting value"
  | .name => "Expecting property name enclosed in double quotes"
  | .colon => "Expecting \x27:\x27 delimiter"
  | .comma => "Expecting \x27,\x27 delimiter"
  | .extraData => "Extra data"
  | .unterminatedString => "Unterminated string starting at"
  | .controlCharacter => "Invalid control character at"
  | .escape => "Invalid \\escape"
  | .codeUnit => "Invalid \\uXXXX escape"
  | .byteOrderMark => "Unexpected UTF-8 BOM (decode using utf-8-sig)"

/-- A refusal of a text: the cause and how many characters precede the place. -/
structure ReadError where
  cause : ReadCause
  line : Nat
  column : Nat
  position : Nat
  deriving DecidableEq, Repr

/-- The refusal at the character after the given ones; lines and columns count from one. -/
def ReadError.after (cause : ReadCause) (before : List Char) : ReadError where
  cause := cause
  line := before.count '\n' + 1
  column := (before.reverse.takeWhile (· != '\n')).length + 1
  position := before.length

/-- The refusal in words. -/
def ReadError.message (e : ReadError) : String :=
  e.cause.text ++ ": line " ++ toString e.line ++ " column " ++ toString e.column ++
    " (char " ++ toString e.position ++ ")"

end Json

end TurtleGrammar
