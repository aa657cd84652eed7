import TurtleGrammar.Binary64.Arithmetic
import TurtleGrammar.Fault
import TurtleGrammar.Segment

/-!
# `TurtleGrammar.Bounds` — the bounding box of segments

## Contents
- `Range`: the least and the greatest of some numbers; a NaN does not count.
- `Bounds`, `Bounds.ofSegments`: the box around both ends of every segment.
-/

namespace TurtleGrammar

/-- A range of numbers from `low` to `high`. -/
structure Range where
  low : Binary64
  high : Binary64
  deriving DecidableEq

namespace Range

/-- The range of no numbers: it starts at infinity and ends at minus infinity. -/
def empty : Range := ⟨.infinity false, .infinity true⟩

/-- The range with a number taken in; a NaN lies on neither side of a bound and changes nothing. -/
def cover (r : Range) (x : Binary64) : Range :=
  ⟨if x.less r.low then x else r.low, if r.high.less x then x else r.high⟩

/-- The range of a list of numbers. -/
def of (numbers : List Binary64) : Range := numbers.foldl cover empty

/-- How far the range extends. -/
def size (r : Range) : Binary64 := r.high - r.low

/-- The range with a margin on both sides. -/
def widen (r : Range) (margin : Binary64) : Range := ⟨r.low - margin, r.high + margin⟩

end Range

/-- A box of the plane. -/
structure Bounds where
  x : Range
  y : Range
  deriving DecidableEq

namespace Bounds

/-- The ends of a list of segments, in their order. -/
def ends (segments : List Segment) : List Point := segments.flatMap fun s => [s.start, s.stop]

/-- The box around the ends of segments, of which there must be one. -/
def ofSegments (segments : List Segment) : Except Fault Bounds :=
  if segments.isEmpty then .error .noGeometry
  else .ok ⟨Range.of ((ends segments).map Point.x), Range.of ((ends segments).map Point.y)⟩

/-- The box with a margin on every side. -/
def widen (b : Bounds) (margin : Binary64) : Bounds := ⟨b.x.widen margin, b.y.widen margin⟩

end Bounds

end TurtleGrammar
