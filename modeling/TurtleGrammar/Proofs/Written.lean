import TurtleGrammar.Csv
import TurtleGrammar.Svg
import TurtleGrammar.Proofs.Particulars
import TurtleGrammar.Proofs.Refusal

/-!
# `TurtleGrammar.Proofs.Written` — drawings as text

A page and a table can be refused in ways that a drawing never meets. There is a segment to bound,
every line has a colour of the palette, and all segments carry particulars if the first one does. Of
the faults of a page only one is left, that the box with its margin has no extent.

## Contents
- `Style.colourIndex_lt`, `Style.exists_strokeOfLine`: every line has its colour.
- `Svg.meets_document`: the fault of a page on which there is a segment.
- `isAnnotated_of_interpret`, `Csv.Uniform`, `Csv.fault_write`: all segments of a drawing have the same
  columns, and their table is written to its end.
-/

namespace TurtleGrammar

/-! ## Colours -/

namespace Style

variable {index count : Nat}

/-- The lines are divided among the colours, so that no line is beyond the last of them. -/
theorem colourIndex_lt {colours : Nat} (hcolours : 0 < colours) (h : index < count) :
    0 ≤ colourIndex colours index count ∧ colourIndex colours index count < colours := by
  have hmax : max (count : Int) 1 = count := by omega
  have hcount : (0 : Int) < count := by omega
  unfold colourIndex
  rw [hmax, Int.fdiv_eq_ediv_of_nonneg _ hcount.le]
  constructor
  · apply Int.ediv_nonneg
    · exact Int.mul_nonneg (Int.natCast_nonneg index) (Int.natCast_nonneg colours)
    · exact hcount.le
  · apply Int.ediv_lt_of_lt_mul hcount
    rw [Int.mul_comm (colours : Int)]
    apply Int.mul_lt_mul_of_pos_right
    · exact Int.ofNat_lt.2 h
    · exact Int.ofNat_lt.2 hcolours

theorem exists_strokeOfLine (style : Style) (h : index < count) :
    ∃ stroke, style.strokeOfLine index count = .ok stroke := by
  unfold strokeOfLine
  by_cases hempty : style.palette.isEmpty = true
  · rw [if_pos hempty]
    exact ⟨style.stroke, rfl⟩
  · rw [if_neg hempty]
    have hcolours : 0 < style.palette.length := by
      apply List.length_pos_iff.2
      simpa using hempty
    obtain ⟨hnonneg, hlt⟩ := colourIndex_lt hcolours h
    have hat : (colourIndex style.palette.length index count).toNat < style.palette.length := by
      omega
    have hcolour : element? style.palette (colourIndex style.palette.length index count) =
        some style.palette[(colourIndex style.palette.length index count).toNat] := by
      unfold element?
      rw [if_pos hnonneg, List.getElem?_eq_getElem hat]
    simp only [hcolour]
    exact ⟨_, rfl⟩

end Style

/-! ## Pages -/

namespace Svg

variable {page : Page} {segments : List Segment} {kind : Fault → Prop}

theorem meets_writtenPlaces {count : Int} (hnonneg : 0 ≤ count) (hle : count ≤ maxWrittenPlaces) :
    Meets Anything kind (writtenPlaces count) := by
  unfold writtenPlaces
  rw [if_pos (by simp [hnonneg, hle])]
  exact .of_value trivial

/-- Every segment of a list has its element. -/
theorem meets_segmentLines (places : Nat) (style : Style) (segments : List Segment) :
    Meets Anything kind (segmentLines places style segments) := by
  unfold segmentLines
  suffices helement : ∀ item ∈ segments.zipIdx, Meets Anything kind
      ((ownStroke style item.2 segments.length).map (segmentLine places item.1)) from
    (Meets.mapM helement).mono (fun _ _ => trivial) fun _ h => h
  rintro ⟨s, index⟩ hmem
  have hindex : index < segments.length := by
    have := List.snd_lt_of_mem_zipIdx hmem
    simpa using this
  obtain ⟨stroke, hstroke⟩ := style.exists_strokeOfLine hindex
  unfold ownStroke
  split
  · exact .of_value trivial
  · rw [hstroke]
    exact .of_value trivial

/-- **The fault of a page.** Segments are put on a page unless their box with the margin has no
    extent. -/
theorem meets_document (hne : segments ≠ []) (hnonneg : 0 ≤ page.places)
    (hle : page.places ≤ maxWrittenPlaces) :
    Meets Anything (· = .setting .noExtent) (document page segments) := by
  have hbounds : Meets Anything (· = .setting .noExtent) (Bounds.ofSegments segments) := by
    unfold Bounds.ofSegments
    rw [if_neg (by simpa using hne)]
    exact .of_value trivial
  have hlines : Meets Anything (· = .setting .noExtent) (lines page segments) := by
    unfold lines
    refine hbounds.bind fun bounds _ => ?_
    dsimp only
    split
    · exact .of_fault rfl
    · refine (meets_writtenPlaces hnonneg hle).bind fun places _ => ?_
      refine (meets_segmentLines places page.style segments).bind fun elements _ => ?_
      exact .of_value trivial
  exact hlines.map fun _ _ => trivial

end Svg

/-! ## Tables -/

variable {setup : Setup} {annotate : Bool} {word : Word} {segments : List Segment} {s : Segment}

/-- The segments of a drawing carry particulars exactly if the drawing records them. -/
theorem isAnnotated_of_interpret (h : interpret setup annotate word = .ok segments)
    (hmem : s ∈ segments) : s.isAnnotated = annotate := by
  cases annotate with
  | true =>
      -- a segment with particulars has a depth, which is what marks it
      have hdepth : s.depth ∈ segments.map Segment.depth := List.mem_map_of_mem hmem
      rw [depths_of_interpret h] at hdepth
      obtain ⟨p, _, hp⟩ := List.mem_map.1 hdepth
      unfold Segment.isAnnotated
      rw [← hp]
      rfl
  | false =>
      -- a drawing without particulars is what is left of itself when they are taken away
      have herase := interpret_erase setup false word
      rw [h] at herase
      have hsegments : segments.map Segment.erase = segments := Except.ok.inj herase
      rw [← hsegments] at hmem
      obtain ⟨t, _, rfl⟩ := List.mem_map.1 hmem
      rfl

namespace Csv

/-- Do all segments carry their particulars, or none, as it is said? -/
def Uniform (annotate : Bool) (segments : List Segment) : Prop :=
  ∀ s ∈ segments, s.isAnnotated = annotate

/-- The first segment decides for all. -/
theorem isWide_of_mem (h : Uniform annotate segments) (hmem : s ∈ segments) :
    isWide segments = annotate := by
  cases segments with
  | nil => cases hmem
  | cons first rest => exact h first List.mem_cons_self

/-- There are columns for every segment. -/
theorem fits_of_uniform (h : Uniform annotate segments) :
    ∀ s ∈ segments, fits (isWide segments) s = true := by
  intro s hs
  unfold fits
  rw [isWide_of_mem h hs, h s hs]
  cases annotate <;> rfl

/-- With columns for every segment a table has all its rows. -/
theorem write_of_fits (hfits : ∀ s ∈ segments, fits (isWide segments) s = true) :
    write segments = ⟨String.join ((columns (isWide segments) ::
      segments.map (cells (isWide segments))).map row), none⟩ := by
  have hall : segments.takeWhile (fits (isWide segments)) = segments :=
    List.takeWhile_eq_self_iff.2 hfits
  unfold write
  simp [hall, Function.comp_def]

/-- A table of segments that all carry particulars, or all do not, is written to its end. -/
theorem fault_write (h : Uniform annotate segments) : (write segments).fault = none := by
  rw [write_of_fits (fits_of_uniform h)]

end Csv

end TurtleGrammar
