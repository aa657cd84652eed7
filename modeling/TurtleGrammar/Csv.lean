import TurtleGrammar.Decimal.Layout
import TurtleGrammar.Fault
import TurtleGrammar.Segment

/-!
# `TurtleGrammar.Csv` — segments as comma-separated rows

The columns are those of the first segment: the four coordinates, and its particulars if it carries
them. A segment without particulars leaves their cells empty; one with particulars has no place
under four columns, and the text ends before it.

## Contents
- `Csv.columns`, `Csv.cells`: the header, the cells of a segment.
- `Csv.Output`, `Csv.write`: the text, and the fault that ended it early.
-/

namespace TurtleGrammar

namespace Csv

/-- The names of the coordinates. -/
def coordinateNames : List String := ["x0", "y0", "x1", "y1"]

/-- The names of the particulars. -/
def particularNames : List String := ["length", "heading", "depth"]

/-- A number that may be absent. -/
def cell (x : Option Binary64) : String := (x.map Binary64.text).getD ""

/-- The cells of the coordinates. -/
def coordinateCells (s : Segment) : List String :=
  [s.start.x.text, s.start.y.text, s.stop.x.text, s.stop.y.text]

/-- The cells of the particulars; a segment that does not carry them has empty ones. -/
def particularCells (s : Segment) : List String :=
  match s.depth with
  | some depth => [cell s.length, cell s.heading, String.ofList (signedDigits depth)]
  | none => ["", "", ""]

/-- Are there columns for all that a segment carries? -/
def fits (wide : Bool) (s : Segment) : Bool := wide || !s.isAnnotated

/-- The cells of a segment. -/
def cells (wide : Bool) (s : Segment) : List String :=
  coordinateCells s ++ if wide then particularCells s else []

/-- Cells as a line. -/
def row (cells : List String) : String := String.intercalate "," cells ++ "\n"

/-- A text of rows, and the fault that kept the rest from being written. -/
structure Output where
  text : String
  fault : Option Fault

/-- Does the first segment carry its particulars? -/
def isWide (segments : List Segment) : Bool := (segments.head?.map Segment.isAnnotated).getD false

/-- The names of the columns. -/
def columns (wide : Bool) : List String :=
  coordinateNames ++ if wide then particularNames else []

/-- The header and the rows of a list of segments, up to the first one that has no columns. -/
def write (segments : List Segment) : Output :=
  let wide := isWide segments
  let written := segments.takeWhile (fits wide)
  ⟨String.join (row (columns wide) :: written.map fun s => row (cells wide s)),
    if written.length = segments.length then none else some .noColumns⟩

end Csv

end TurtleGrammar
