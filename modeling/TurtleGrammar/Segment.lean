import TurtleGrammar.Binary64.Basic

/-!
# `TurtleGrammar.Segment` — directed line segments

## Contents
- `Point`, `Segment`: a segment may carry its length, heading and depth.
- `Segment.isAnnotated`: whether it does, which the depth alone decides.
- `Segment.equals`: numeric equality of all fields; `Segment.key`: a form in which equal segments
  coincide.
-/

namespace TurtleGrammar

/-- A point of the plane. -/
structure Point where
  x : Binary64
  y : Binary64
  deriving DecidableEq, Hashable, Inhabited

/-- The origin of the plane. -/
def Point.origin : Point := ⟨.zero, .zero⟩

/-- A directed line with the particulars that were recorded when it was drawn. -/
structure Segment where
  start : Point
  stop : Point
  length : Option Binary64
  heading : Option Binary64
  depth : Option Int
  deriving DecidableEq, Hashable

namespace Segment

/-- A segment without particulars. -/
def plain (start stop : Point) : Segment := ⟨start, stop, none, none, none⟩

/-- Does the segment carry its particulars? -/
def isAnnotated (s : Segment) : Bool := s.depth.isSome

/-- The segment without its particulars. -/
def erase (s : Segment) : Segment := plain s.start s.stop

/-- The numbers of a segment. -/
def numbers (s : Segment) : List Binary64 :=
  [s.start.x, s.start.y, s.stop.x, s.stop.y] ++ s.length.toList ++ s.heading.toList

/-- Does a NaN occur in the segment? -/
def hasNaN (s : Segment) : Bool := s.numbers.any Binary64.isNaN

/-- Numeric equality of optional numbers; absent ones are equal. -/
def equalOption : Option Binary64 → Option Binary64 → Bool
  | none, none => true
  | some x, some y => x.equals y
  | _, _ => false

/-- Numeric equality of all fields: zeros are equal whatever their sign, and a NaN makes a segment
    differ from every segment. -/
def equals (s t : Segment) : Bool :=
  s.start.x.equals t.start.x && s.start.y.equals t.start.y && s.stop.x.equals t.stop.x &&
    s.stop.y.equals t.stop.y && equalOption s.length t.length && equalOption s.heading t.heading &&
    s.depth == t.depth

/-- The segment with zeros of one sign: segments without a NaN are equal if these coincide. -/
def key (s : Segment) : Segment :=
  ⟨⟨s.start.x.unsignedZero, s.start.y.unsignedZero⟩, ⟨s.stop.x.unsignedZero, s.stop.y.unsignedZero⟩,
    s.length.map Binary64.unsignedZero, s.heading.map Binary64.unsignedZero, s.depth⟩

end Segment

end TurtleGrammar
