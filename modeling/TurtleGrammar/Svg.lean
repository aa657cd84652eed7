import TurtleGrammar.Bounds
import TurtleGrammar.Decimal.Fixed
import TurtleGrammar.Style

/-!
# `TurtleGrammar.Svg` — drawings as vector graphics

A document shows each segment as one line element. Its view box is the bounding box of the segments
with a margin; a flipped drawing is turned over about the middle of that box.

## Contents
- `Svg.Page`: what a document shows beside the segments.
- `Svg.writtenPlaces`, `Svg.coordinate`, `Svg.writtenCoordinate`: numbers; `Svg.escape`: text
  between tags; `Svg.attr`: a name with its value.
- `Svg.lines`, `Svg.document`: the lines of a document, its whole text.
-/

namespace TurtleGrammar

namespace Svg

/-- How segments are put on a page. -/
structure Page where
  margin : Binary64
  /-- The decimal places of a coordinate. A count that is negative or too large is refused. -/
  places : Int
  /-- Whether the vertical axis points up. -/
  flip : Bool
  width : Option Binary64
  height : Option Binary64
  style : Style
  background : Option String
  title : Option String

/-- What stands for a character between tags. -/
def escapeChar (c : Char) : List Char :=
  if c = '&' then "&amp;".toList
  else if c = '<' then "&lt;".toList
  else if c = '>' then "&gt;".toList
  else [c]

/-- A text between tags. -/
def escape (text : String) : String := String.ofList (text.toList.flatMap escapeChar)

/-- An attribute; its value is written as it is. -/
def attr (name value : String) : String := name ++ "=\"" ++ value ++ "\""

/-- Attributes with blanks between them. -/
def attributes (all : List String) : String := String.intercalate " " all

/-- A count of decimal places with which numbers can be written. -/
def writtenPlaces (count : Int) : Except Fault Nat :=
  if 0 ≤ count && count ≤ maxWrittenPlaces then .ok count.toNat else .error (.placesOutside count)

/-- A number as a coordinate. -/
def coordinate (places : Nat) (x : Binary64) : String := String.ofList (x.coordinate places)

/-- A number as a coordinate with any count of decimal places; it is refused if it cannot be written
    with so many. -/
def writtenCoordinate (count : Int) (x : Binary64) : Except Fault String :=
  (writtenPlaces count).map fun places => coordinate places x

/-- The size of the page along one axis, if it is given and not zero. -/
def sizeAttribute (places : Nat) (name : String) (size : Option Binary64) : List String :=
  match size with
  | some x => if x.equals .zero then [] else [attr name (coordinate places x)]
  | none => []

/-- The opening tag of the document with its view box. -/
def openingLine (places : Nat) (page : Page) (box : Bounds) : String :=
  let c := coordinate places
  let viewBox := c box.x.low ++ " " ++ c box.y.low ++ " " ++ c box.x.size ++ " " ++ c box.y.size
  "<svg " ++
    attributes
      ([attr "xmlns" "http://www.w3.org/2000/svg", attr "version" "1.1",
          attr "viewBox" viewBox] ++
        sizeAttribute places "width" page.width ++ sizeAttribute places "height" page.height) ++
    ">"

/-- The title, if there is one that is not empty. -/
def titleLines (page : Page) : List String :=
  match page.title with
  | some title => if title.isEmpty then [] else ["  <title>" ++ escape title ++ "</title>"]
  | none => []

/-- A rectangle in the background colour that fills the view box, unless the colour is empty or the
    word for none in any case. -/
def backgroundLines (places : Nat) (page : Page) (box : Bounds) : List String :=
  let c := coordinate places
  match page.background with
  | some colour =>
    if colour.isEmpty || colour.map Char.toLower = "none" then []
    else
      ["  <rect " ++
        attributes [attr "x" (c box.x.low), attr "y" (c box.y.low),
          attr "width" (c box.x.size), attr "height" (c box.y.size),
          attr "fill" colour] ++ " />"]
  | none => []

/-- The opening tag of the group of all lines. A common stroke belongs here, and so does the flip
    about the middle of the box. -/
def groupLine (places : Nat) (page : Page) (box : Bounds) : String :=
  let c := coordinate places
  let stroke := if page.style.palette.isEmpty then [attr "stroke" page.style.stroke] else []
  let flip :=
    if page.flip then
      [attr "transform" ("translate(0," ++ c (box.y.low + box.y.high) ++ ") scale(1,-1)")]
    else []
  "  <g " ++
    attributes
      (stroke ++ [attr "stroke-width" (c page.style.strokeWidth),
        attr "stroke-linecap" page.style.lineCap] ++ flip) ++
    ">"

/-- The element of a segment with the stroke that is its own, if it has one. -/
def segmentLine (places : Nat) (s : Segment) (stroke : Option String) : String :=
  let c := coordinate places
  "    <line " ++
    attributes
      ([attr "x1" (c s.start.x), attr "y1" (c s.start.y), attr "x2" (c s.stop.x),
          attr "y2" (c s.stop.y)] ++
        (stroke.map (attr "stroke")).toList) ++
    " />"

/-- The stroke of line number `index` of `count` lines, if it has one of its own. -/
def ownStroke (style : Style) (index count : Nat) : Except Fault (Option String) :=
  if style.palette.isEmpty then .ok none else (style.strokeOfLine index count).map some

/-- The elements of segments. -/
def segmentLines (places : Nat) (style : Style) (segments : List Segment) :
    Except Fault (List String) :=
  segments.zipIdx.mapM fun (s, index) =>
    (ownStroke style index segments.length).map (segmentLine places s)

/-- The lines of a document. Its box must have an extent along both axes. -/
def lines (page : Page) (segments : List Segment) : Except Fault (List String) := do
  let bounds ← Bounds.ofSegments segments
  let box := bounds.widen page.margin
  if !(box.x.size.isPositive && box.y.size.isPositive) then .error (.setting .noExtent)
  else
    let places ← writtenPlaces page.places
    let elements ← segmentLines places page.style segments
    return ["<?xml version=\"1.0\" encoding=\"UTF-8\"?>", openingLine places page box] ++
      titleLines page ++ backgroundLines places page box ++ [groupLine places page box] ++
      elements ++ ["  </g>", "</svg>"]

/-- The text of a document: its lines, each with a line feed after it. -/
def document (page : Page) (segments : List Segment) : Except Fault String :=
  (lines page segments).map fun all => String.join (all.map (· ++ "\n"))

end Svg

end TurtleGrammar
