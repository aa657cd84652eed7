import TurtleGrammar.Text.Digits
import TurtleGrammar.Text.Printable

/-!
# `TurtleGrammar.Text.Quoted` — texts quoted in messages

A quoted text stands between single quotes, or between double quotes if it holds a single quote and
no double quote. Inside, a backslash and the quote are escaped with a backslash, a line feed,
carriage return and tab by their letters, and every other unprintable character by its code point.

## Contents
- `singleQuote`, `quoteFor`: the delimiters.
- `escaped`: what stands for one character; `quoted`: the whole form.
-/

namespace TurtleGrammar

namespace Text

/-- The single quotation mark. -/
def singleQuote : Char := Char.ofNat 39

/-- The delimiter of a quoted text. -/
def quoteFor (text : List Char) : Char :=
  if text.contains singleQuote && !text.contains '"' then '"' else singleQuote

/-- The escape of a character by its code point, with as few digits as its size needs. -/
def codePointEscape (c : Char) : List Char :=
  if c.toNat < 0x100 then ['\\', 'x'] ++ padZeros 2 (hexDigits c.toNat)
  else if c.toNat < 0x10000 then ['\\', 'u'] ++ padZeros 4 (hexDigits c.toNat)
  else ['\\', 'U'] ++ padZeros 8 (hexDigits c.toNat)

/-- What stands for a character between the given delimiters. -/
def escaped (delimiter c : Char) : List Char :=
  if c = delimiter || c = '\\' then ['\\', c]
  else if c = '\n' then ['\\', 'n']
  else if c = '\r' then ['\\', 'r']
  else if c = '\t' then ['\\', 't']
  else if isPrintable c then [c]
  else codePointEscape c

/-- The quoted form of a text. -/
def quoted (text : String) : String :=
  let delimiter := quoteFor text.toList
  String.ofList ([delimiter] ++ text.toList.flatMap (escaped delimiter) ++ [delimiter])

end Text

end TurtleGrammar
