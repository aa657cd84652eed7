import Std.Data.HashSet.Basic
import TurtleGrammar.Segment

/-!
# `TurtleGrammar.Distinct` — lists of segments without repetitions

Of equal segments only the first is kept, and the kept ones stay in order. Segments are directed: a
line and its reversal differ. Every NaN counts as one of its own: a segment with a NaN differs from
every segment, itself included, and is always kept. Whether two fields hold the same NaN is not
asked, for a value of the format does not tell where it came from.

## Contents
- `distinct`.
-/

namespace TurtleGrammar

/-- Add the segments of a list to the kept ones (latest first) unless an equal one was seen; `seen`
    holds the keys of the kept segments. -/
def keepNew (seen : Std.HashSet Segment) (kept : List Segment) : List Segment → List Segment
  | [] => kept.reverse
  | s :: rest =>
    if s.hasNaN then keepNew seen (s :: kept) rest
    else if seen.contains s.key then keepNew seen kept rest
    else keepNew (seen.insert s.key) (s :: kept) rest

/-- The first occurrences of the segments of a list. -/
def distinct (segments : List Segment) : List Segment := keepNew ∅ [] segments

end TurtleGrammar
