import TurtleGrammar.Drawing
import TurtleGrammar.Json.Basic
import TurtleGrammar.Svg

/-!
# `TurtleGrammar.Config` — drawings described in JSON

A configuration is an object with the settings of a grammar, of the turtle, of the output and of the
page. Settings are read in a fixed order, and the first one that does not follow the schema decides
the refusal. An absent setting has its default; a `null` is a value like any other, except for the
page's width, height and background, which it leaves open.

## Contents
- `number`, `integer`, `text`, `boolean`, `object`, `symbols`: a setting of a given form.
- `Config` and `Config.ofJson`.
- `Config.drawing`, `Config.page`: what to draw, and on what page.
-/

namespace TurtleGrammar

namespace Setting

/-- The refusal of a setting of the wrong form. -/
def wrong {α : Type} (setting : String) (form : Form) : Except Fault α :=
  .error (.setting (.wrongForm setting form))

/-- A condition on a setting. -/
def require (holds : Bool) (fault : SettingFault) : Except Fault Unit :=
  if holds then .ok () else .error (.setting fault)

/-- The value of a setting, or its default if it is absent. -/
def get (members : List (String × Json)) (name : String) (default : Json) : Json :=
  (Json.member? name members).getD default

/-- A number; a whole number becomes the nearest one of the format, if it is in range. -/
def number (setting : String) : Json → Except Fault Binary64
  | .integer n => (Binary64.ofInt? n).elim (.error .integerTooLarge) .ok
  | .float x => .ok x
  | _ => wrong setting .number

/-- A whole number, written without point and exponent. -/
def integer (setting : String) : Json → Except Fault Int
  | .integer n => .ok n
  | _ => wrong setting .integer

def text (setting : String) : Json → Except Fault String
  | .string s => .ok s
  | _ => wrong setting .text

def boolean (setting : String) : Json → Except Fault Bool
  | .boolean b => .ok b
  | _ => wrong setting .boolean

def object (setting : String) : Json → Except Fault (List (String × Json))
  | .object members => .ok members
  | _ => wrong setting .object

/-- The name of an element of a setting that is a list. -/
def element (setting : String) (index : Nat) : String := setting ++ "[" ++ toString index ++ "]"

/-- One symbol. -/
def symbol (setting : String) : Json → Except Fault Char
  | .string s =>
    match s.toList with
    | [c] => .ok c
    | _ => wrong setting .symbol
  | _ => wrong setting .symbol

/-- The elements of a list, each of the form that the reader of an element asks for. -/
def elements {α : Type} (setting : String) (one : String → Json → Except Fault α)
    (items : List Json) : Except Fault (List α) :=
  items.zipIdx.mapM fun (item, index) => one (element setting index) item

/-- Symbols, as a text or as a list of texts of one symbol each. -/
def symbols (setting : String) : Json → Except Fault (List Char)
  | .string s => .ok s.toList
  | .array items => elements setting symbol items
  | _ => wrong setting .symbols

/-- A number above zero. -/
def positive (setting : String) (value : Json) : Except Fault Binary64 := do
  let x ← number setting value
  require x.isPositive (.notPositive setting)
  return x

/-- A setting that may be left open. -/
def optional {α : Type} (members : List (String × Json)) (name : String)
    (one : Json → Except Fault α) : Except Fault (Option α) :=
  match get members name .null with
  | .null => .ok none
  | value => (one value).map some

/-- A rule: its name is one symbol, its replacement a text. -/
def rule : String × Json → Except Fault (String × Option String)
  | (name, value) => do
    require (name.length == 1) .ruleName
    let replacement ← text ("rules[\x27" ++ name ++ "\x27]") value
    return (name, some replacement)

end Setting

/-- A drawing and its page, with angles in degrees. -/
structure Config where
  name : String
  grammar : Grammar
  angle : Binary64
  heading : Binary64
  step : Binary64
  aliases : List Char
  annotate : Bool
  distinct : Bool
  margin : Binary64
  places : Nat
  flip : Bool
  width : Option Binary64
  height : Option Binary64
  style : Style
  background : Option String

namespace Config

open Setting

/-- The grammar of a configuration. -/
def readGrammar (root : List (String × Json)) : Except Fault Grammar := do
  let start ← text "axiom" (get root "axiom" (.string ""))
  require (!start.isEmpty) .emptyWord
  let iterations ← integer "iterations" (get root "iterations" (.integer 1))
  let members ← object "rules" (get root "rules" (.object []))
  let rules ← members.mapM rule
  Grammar.build (some start) (.ofList rules) iterations

/-- The greatest number of decimal places of a coordinate. -/
def maxPlaces : Nat := 10

/-- The number of decimal places of a coordinate. -/
def readPlaces (svg : List (String × Json)) : Except Fault Nat := do
  let places ← integer "svg.precision" (get svg "precision" (.integer 3))
  require (0 ≤ places && places ≤ maxPlaces) .places
  return places.toNat

/-- The look of the lines. -/
def readStyle (svg : List (String × Json)) : Except Fault Style := do
  let style ← object "svg.style" (get svg "style" (.object []))
  match get style "palette" (.array []) with
  | .array colours =>
    let stroke ← text "svg.style.stroke" (get style "stroke" (.string Style.standard.stroke))
    let strokeWidth ←
      number "svg.style.stroke_width" (get style "stroke_width" (.float Style.standard.strokeWidth))
    let lineCap ←
      text "svg.style.stroke_linecap" (get style "stroke_linecap" (.string Style.standard.lineCap))
    let palette ← elements "svg.style.palette" text colours
    return ⟨stroke, strokeWidth, lineCap, palette⟩
  | _ => wrong "svg.style.palette" .list

/-- The configuration that a JSON value describes, or its first fault. -/
def ofJson (value : Json) : Except Fault Config := do
  let root ← object "root" value
  let name ← text "name" (get root "name" (.string "L-System"))
  let grammar ← readGrammar root
  let turtle ← object "turtle" (get root "turtle" (.object []))
  require (Json.member? "angle" turtle).isSome .angleAbsent
  let angle ← number "turtle.angle" (get turtle "angle" .null)
  let heading ← number "turtle.heading" (get turtle "heading" (.integer 90))
  let step ← positive "turtle.step" (get turtle "step" (.integer 1))
  let aliases ← symbols "turtle.draw_aliases" (get turtle "draw_aliases" (.string ""))
  let output ← object "output" (get root "output" (.object []))
  let annotate ← boolean "output.extra_info" (get output "extra_info" (.boolean false))
  let distinct ← boolean "output.remove_duplicates" (get output "remove_duplicates" (.boolean true))
  let svg ← object "svg" (get root "svg" (.object []))
  let margin ← number "svg.margin" (get svg "margin" (.integer 1))
  let places ← readPlaces svg
  let flip ← boolean "svg.flip_y" (get svg "flip_y" (.boolean true))
  let width ← optional svg "width" (positive "svg.width")
  let height ← optional svg "height" (positive "svg.height")
  let style ← readStyle svg
  let background ← optional svg "background" (text "svg.background")
  return ⟨name, grammar, angle, heading, step, aliases, annotate, distinct, margin, places, flip,
    width, height, style, background⟩

/-- What a configuration draws. -/
def drawing (c : Config) : Drawing where
  grammar := c.grammar
  aliases := c.aliases
  angle := some (Angle.ofDegrees c.angle)
  heading := Angle.ofDegrees c.heading
  step := c.step
  annotate := c.annotate
  distinct := c.distinct

/-- The page of a configuration, which bears its name as the title. -/
def page (c : Config) : Svg.Page where
  margin := c.margin
  places := c.places
  flip := c.flip
  width := c.width
  height := c.height
  style := c.style
  background := c.background
  title := some c.name

end Config

end TurtleGrammar
