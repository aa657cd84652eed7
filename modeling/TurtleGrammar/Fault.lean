import TurtleGrammar.Decimal.Layout
import TurtleGrammar.Json.Basic
import TurtleGrammar.Text.Quoted
import TurtleGrammar.Text.Utf8

/-!
# `TurtleGrammar.Fault` — what can go wrong, and how it is said

Each fault is the cause of a refusal with the data its message needs. `Fault.message` is the only
place where faults are put into words.

## Contents
- `SettingFault`: a configuration that does not follow its schema, or cannot be rendered.
- `ArgumentFault`: a value that no grammar or drawing admits.
- `Fault`: these and the faults of drawings, pages and numerals, with `message`.
-/

namespace TurtleGrammar

/-- The form that a setting must have. -/
inductive Form where
  | number
  | integer
  | text
  | boolean
  | object
  | list
  | symbols
  | symbol
  deriving DecidableEq, Repr

def Form.description : Form → String
  | .number => "a number"
  | .integer => "an integer"
  | .text => "a string"
  | .boolean => "a boolean"
  | .object => "an object"
  | .list => "a list"
  | .symbols => "a string or a list of strings"
  | .symbol => "a single-character string"

/-- A configuration that cannot be used. Settings are named by their path. -/
inductive SettingFault where
  /-- The file does not hold a JSON value. -/
  | notJson (path : String) (cause : Json.ReadError)
  /-- A setting has the wrong form. -/
  | wrongForm (setting : String) (form : Form)
  /-- The initial word is empty. -/
  | emptyWord
  /-- A rule is not named by one symbol. -/
  | ruleName
  /-- The turn increment is absent. -/
  | angleAbsent
  /-- A setting that must be above zero is not. -/
  | notPositive (setting : String)
  /-- The number of decimal places is out of range. -/
  | places
  /-- The drawing has no extent with its margin added. -/
  | noExtent
  deriving DecidableEq, Repr

def SettingFault.message : SettingFault → String
  | .notJson path cause => "Invalid JSON in " ++ path ++ ": " ++ cause.message
  | .wrongForm setting form => setting ++ " must be " ++ form.description
  | .emptyWord => "axiom must be non-empty"
  | .ruleName => "rules keys must be single-character strings"
  | .angleAbsent => "turtle.angle is required"
  | .notPositive setting => setting ++ " must be > 0"
  | .places => "svg.precision must be between 0 and 10"
  | .noExtent =>
    "Degenerate bounds after margin (width or height is zero). " ++
      "Set svg.margin > 0 to render collinear geometry."

/-- A value that no grammar or drawing admits. -/
inductive ArgumentFault where
  /-- The initial word is empty or no text. -/
  | word
  /-- Fewer than one iteration is asked for. -/
  | iterations (count : Int)
  /-- A rule is named by a text of another length than one. -/
  | ruleName (name : String)
  /-- The replacement of a rule is no text. -/
  | replacement (name : String)
  /-- The step length is not above zero. -/
  | step (length : Binary64)
  /-- No turn increment is given. -/
  | angleAbsent
  deriving DecidableEq

def ArgumentFault.message : ArgumentFault → String
  | .word => "axiom must be a non-empty string"
  | .iterations count => "iterations must be >= 1, got " ++ String.ofList (signedDigits count)
  | .ruleName name => "rule keys must be single-character strings, got " ++ Text.quoted name
  | .replacement name => "replacement for " ++ Text.quoted name ++ " must be a string"
  | .step length => "step must be > 0, got " ++ length.text
  | .angleAbsent => "angle is required"

/-- A refusal. Positions count the symbols before the one at fault. -/
inductive Fault where
  | setting (cause : SettingFault)
  | argument (cause : ArgumentFault)
  /-- A scale symbol without a numeral after it. -/
  | noNumeral (position : Nat)
  /-- A closing bracket without an open branch. -/
  | noOpenBranch (position : Nat)
  /-- No symbol draws a line. -/
  | nothingDrawn
  /-- There are no segments to bound. -/
  | noGeometry
  /-- A line is drawn along an infinite heading. -/
  | headingUnbounded
  /-- A whole number is past the largest number of the format. -/
  | integerTooLarge
  /-- A colour is asked for at a position that the palette does not have. -/
  | paletteEnd (position : Int)
  /-- A row has cells for which there are no columns. -/
  | noColumns
  /-- A number is to be written with a count of decimal places that is negative or too large. -/
  | placesOutside (count : Int)
  /-- A position before the first symbol of a word. -/
  | beforeWord (position : Int)
  /-- A numeral is to be read where there is no symbol. -/
  | emptyNumeral
  /-- A file is to be written, but no path is given. -/
  | noPath
  /-- The switch for the level of notes is given no level. -/
  | noLevel
  /-- A file does not hold text. -/
  | notText (cause : Text.DecodeError)
  deriving DecidableEq

/-- Is the number a signed one of 64 binary digits, like all positions and counts? -/
def fitsWord64 (n : Int) : Bool := -(1 <<< 63 : Nat) ≤ n && n < (1 <<< 63 : Nat)

/-- The refusal of a position that a sequence of some kind does not have. -/
def positionMessage (kind : String) (position : Int) : String :=
  if fitsWord64 position then kind ++ " index out of range"
  else "cannot fit \x27int\x27 into an index-sized integer"

/-- The greatest count of decimal places with which a number can be written. -/
def maxWrittenPlaces : Nat := (1 <<< 31) - 1

/-- The refusal in words. -/
def Fault.message : Fault → String
  | .setting cause => cause.message
  | .argument cause => cause.message
  | .noNumeral position =>
    "No numeric argument after \x27@\x27 at position " ++ toString position ++ "."
  | .noOpenBranch position =>
    "\x27]\x27 at position " ++ toString position ++ " has no matching \x27[\x27"
  | .nothingDrawn => "Instructions do not contain any \x27F\x27."
  | .noGeometry => "No drawable geometry produced."
  | .headingUnbounded => "math domain error"
  | .integerTooLarge => "int too large to convert to float"
  | .paletteEnd position => positionMessage "tuple" position
  | .noColumns =>
    "dict contains fields not in fieldnames: \x27depth\x27, \x27heading\x27, \x27length\x27"
  | .placesOutside count =>
    if count < 0 then "Format specifier missing precision"
    else if fitsWord64 count then "precision too big"
    else "Too many decimal digits in format string"
  | .beforeWord position => positionMessage "string" position
  | .emptyNumeral => "could not convert string to float: \x27\x27"
  | .noPath => "expected str, bytes or os.PathLike object, not list"
  | .noLevel => "\x27list\x27 object has no attribute \x27upper\x27"
  | .notText cause => cause.message

end TurtleGrammar
