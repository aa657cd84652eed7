import Mathlib.Data.List.Forall2
import TurtleGrammar.Proofs.Distinct
import TurtleGrammar.Proofs.Markup
import TurtleGrammar.Proofs.ReadBack
import TurtleGrammar.Proofs.Written

/-!
# `TurtleGrammar.Proofs.Rows` — tables read back to their segments

A table is parted at its line feeds and each of its rows at its commas. No cell holds one of these
characters, so that the cells are found again, and every cell is read as the number that was written
into it. A segment is read back up to what its row does not show: the length and the heading of one
that does not carry its particulars.

## Contents
- `Csv.rows?`, `Csv.segment?`: the cells of a text, the segment of a row.
- `Csv.rows?_join`: the cells are those that were written.
- `Segment.recorded`, `Csv.segment?_cells`: a row is read as what it shows of its segment.
- `Csv.write_lossless`: tables are read back.
-/

namespace TurtleGrammar

namespace Csv

/-! ## Reading -/

/-- The cells of a text, row by row; none if its last row does not end. -/
def rows? (text : String) : Option (List (List String)) :=
  let lines := text.toList.splitOn '\n'
  if lines.getLast? = some [] then
    some (lines.dropLast.map fun line => (line.splitOn ',').map String.ofList)
  else none

/-- The number in a cell. -/
def number? (cell : String) : Option Binary64 := Binary64.read? cell.toList

/-- The number in a cell that may be empty. -/
def optionalNumber? (cell : String) : Option (Option Binary64) :=
  if cell = "" then some none else (number? cell).map some

/-- The number that a text of digits denotes. -/
def natural? (text : List Char) : Option Nat :=
  if text.isEmpty || !text.all Char.isDigit then none else some (ofDigits text)

/-- The whole number in a cell. -/
def integer? (cell : String) : Option Int :=
  match cell.toList with
  | '-' :: size => (natural? size).map fun n : Nat => -(n : Int)
  | text => (natural? text).map fun n : Nat => (n : Int)

/-- The segment in the cells of a row. -/
def segment? : List String → Option Segment
  | [x0, y0, x1, y1] => do
    let start : Point := ⟨← number? x0, ← number? y0⟩
    let stop : Point := ⟨← number? x1, ← number? y1⟩
    return .plain start stop
  | [x0, y0, x1, y1, length, heading, depth] => do
    let start : Point := ⟨← number? x0, ← number? y0⟩
    let stop : Point := ⟨← number? x1, ← number? y1⟩
    let length ← optionalNumber? length
    let heading ← optionalNumber? heading
    let depth ← integer? depth
    return ⟨start, stop, length, heading, some depth⟩
  | _ => none

/-! ## Cells and rows -/

/-- Is a text without the characters that part cells and rows? -/
structure Whole (cell : String) : Prop where
  no_comma : ',' ∉ cell.toList
  unbroken : '\n' ∉ cell.toList

variable {s : Segment} {segments : List Segment} {annotate : Bool} {cells : List String}

theorem splitOn_row (hne : cells ≠ []) (hcells : ∀ cell ∈ cells, Whole cell) :
    ((String.intercalate "," cells).toList.splitOn ',').map String.ofList = cells := by
  have hparts : ∀ part ∈ cells.map String.toList, ',' ∉ part := by
    intro part hpart
    obtain ⟨cell, hcell, rfl⟩ := List.mem_map.1 hpart
    exact (hcells cell hcell).no_comma
  have hsplit := List.splitOn_intercalate ',' hparts (by simpa using hne)
  rw [String.toList_intercalate]
  show ((List.intercalate [','] (cells.map String.toList)).splitOn ',').map String.ofList = cells
  rw [hsplit, List.map_map]
  simp

theorem unbroken_row (hcells : ∀ cell ∈ cells, Whole cell) :
    '\n' ∉ (String.intercalate "," cells).toList := by
  induction cells with
  | nil => simp
  | cons cell others ih =>
      obtain ⟨hcell, hothers⟩ := List.forall_mem_cons.1 hcells
      cases others with
      | nil => simpa using hcell.unbroken
      | cons next rest =>
          rw [String.intercalate_cons_cons, String.toList_append, String.toList_append,
            List.mem_append, List.mem_append, not_or, not_or]
          exact ⟨⟨hcell.unbroken, by decide⟩, ih hothers⟩

/-- **Rows are found again**: the cells of a text are those that it was written from. -/
theorem rows?_join {table : List (List String)}
    (h : ∀ cells ∈ table, cells ≠ [] ∧ ∀ cell ∈ cells, Whole cell) :
    rows? (String.join (table.map row)) = some table := by
  have hrows : table.map row = (table.map (String.intercalate ",")).map (· ++ "\n") := by
    rw [List.map_map]
    rfl
  -- no line feed stands in a row, so that every line is a row and the last one is empty
  have hlines : (String.join (table.map row)).toList.splitOn '\n' =
      table.map (fun cells => (String.intercalate "," cells).toList) ++ [[]] := by
    rw [hrows, Markup.splitOn_lines, List.flatMap_map]
    congr 1
    rw [← List.flatMap_singleton' (table.map _), List.flatMap_map]
    refine List.flatMap_congr fun cells hcells => ?_
    exact List.splitOn_eq_singleton (unbroken_row (h cells hcells).2)
  have hcells : table.map (fun cells =>
      ((String.intercalate "," cells).toList.splitOn ',').map String.ofList) = table := by
    conv_rhs => rw [← List.map_id table]
    exact List.map_congr_left fun cells hmem => splitOn_row (h cells hmem).1 (h cells hmem).2
  unfold rows?
  simp only [hlines, List.getLast?_concat, List.dropLast_concat, if_true, List.map_map]
  exact congrArg some hcells

/-! ## Numbers in cells -/

theorem whole_of_symbols {text : List Char}
    (h : ∀ c ∈ text, Binary64.isTextSymbol c = true) : Whole (String.ofList text) := by
  have hnot : ∀ c, Binary64.isTextSymbol c = false → c ∉ (String.ofList text).toList := by
    intro c hc hmem
    rw [String.toList_ofList] at hmem
    rw [h c hmem] at hc
    cases hc
  exact ⟨hnot ',' (by decide), hnot '\n' (by decide)⟩

theorem whole_text (x : Binary64) : Whole x.text :=
  whole_of_symbols fun _ => Binary64.isTextSymbol_of_mem_write

theorem whole_cell (x : Option Binary64) : Whole (cell x) := by
  cases x with
  | none => exact ⟨List.not_mem_nil, List.not_mem_nil⟩
  | some x => exact whole_text x

theorem whole_signedDigits (n : Int) : Whole (String.ofList (signedDigits n)) := by
  refine whole_of_symbols fun c hc => ?_
  rcases List.mem_append.1 hc with hsign | hdigit
  · split at hsign
    · rw [List.mem_singleton.1 hsign]
      decide
    · cases hsign
  · exact Binary64.isTextSymbol_of_isDigit (isDigit_of_mem_digits hdigit)

theorem number?_text (x : Binary64) : number? x.text = some x := by
  unfold number? Binary64.text
  rw [String.toList_ofList, Binary64.read?_write]

theorem optionalNumber?_cell (x : Option Binary64) : optionalNumber? (cell x) = some x := by
  cases x with
  | none => rfl
  | some x =>
      have hne : x.text ≠ "" := by
        intro hempty
        have hread := number?_text x
        rw [hempty] at hread
        cases hread
      show optionalNumber? x.text = some (some x)
      unfold optionalNumber?
      rw [if_neg hne, number?_text]
      rfl

theorem natural?_digits (n : Nat) : natural? (digits n) = some n := by
  have hempty : (digits n).isEmpty = false := by simp [digits, Nat.toDigits_ne_nil]
  have hall : (digits n).all Char.isDigit = true :=
    List.all_eq_true.2 fun _ h => isDigit_of_mem_digits h
  unfold natural?
  rw [hempty, hall, ofDigits_digits]
  rfl

theorem integer?_signedDigits (n : Int) :
    integer? (String.ofList (signedDigits n)) = some n := by
  unfold integer? signedDigits
  rw [String.toList_ofList]
  by_cases hneg : n < 0
  · rw [if_pos hneg]
    show (natural? (digits n.natAbs)).map (fun n : Nat => -(n : Int)) = some n
    rw [natural?_digits, Option.map_some]
    congr 1
    omega
  · rw [if_neg hneg, List.nil_append]
    split
    · next hminus =>
      have hdigit : '-'.isDigit = true := isDigit_of_mem_digits (hminus ▸ List.mem_cons_self)
      cases hdigit
    · rw [natural?_digits, Option.map_some]
      congr 1
      omega

end Csv

/-! ## Segments in rows -/

namespace Segment

/-- The segment as its row shows it: without a length and a heading if it does not carry its
    particulars. -/
def recorded (s : Segment) : Segment := if s.isAnnotated then s else s.erase

/-- Have two segments the same values in all fields that their rows show? -/
structure SameFields (s t : Segment) : Prop where
  start_eq : s.start = t.start
  stop_eq : s.stop = t.stop
  depth_eq : s.depth = t.depth
  particulars_eq : s.isAnnotated = true → s.length = t.length ∧ s.heading = t.heading

theorem sameFields_of_recorded {s t : Segment} (h : s.recorded = t.recorded) : SameFields s t := by
  obtain ⟨start, stop, length, heading, depth⟩ := s
  obtain ⟨start', stop', length', heading', depth'⟩ := t
  cases depth with
  | none =>
      cases depth' with
      | none =>
          obtain ⟨hstart, hstop⟩ : start = start' ∧ stop = stop' := by
            simpa [recorded, isAnnotated, erase, plain] using h
          exact ⟨hstart, hstop, rfl, nofun⟩
      | some d' => simp [recorded, isAnnotated, erase, plain] at h
  | some d =>
      cases depth' with
      | none => simp [recorded, isAnnotated, erase, plain] at h
      | some d' =>
          obtain ⟨hstart, hstop, hlength, hheading, hdepth⟩ :
              start = start' ∧ stop = stop' ∧ length = length' ∧ heading = heading' ∧ d = d' := by
            simpa [recorded, isAnnotated] using h
          exact ⟨hstart, hstop, congrArg some hdepth, fun _ => ⟨hlength, hheading⟩⟩

end Segment

namespace Csv

variable {s : Segment} {segments first second : List Segment} {annotate : Bool}

/-- **A row is read back** as what it shows of its segment. -/
theorem segment?_cells (s : Segment) : segment? (cells s.isAnnotated s) = some s.recorded := by
  obtain ⟨start, stop, length, heading, depth⟩ := s
  cases depth with
  | none =>
      show segment? [start.x.text, start.y.text, stop.x.text, stop.y.text] = _
      unfold segment?
      simp only [number?_text]
      rfl
  | some depth =>
      show segment? [start.x.text, start.y.text, stop.x.text, stop.y.text, cell length,
        cell heading, String.ofList (signedDigits depth)] = _
      unfold segment?
      simp only [number?_text, optionalNumber?_cell, integer?_signedDigits]
      rfl

theorem mapM_segment? (segments : List Segment) :
    (segments.map fun s => cells s.isAnnotated s).mapM segment? =
      some (segments.map Segment.recorded) := by
  induction segments with
  | nil => rfl
  | cons s rest ih =>
      rw [List.map_cons, List.mapM_cons, segment?_cells, ih]
      rfl

theorem whole_of_mem_columns {wide : Bool} {name : String} (h : name ∈ columns wide) :
    Whole name := by
  have hsymbols : ∀ name ∈ columns wide, name.toList.all Binary64.isTextSymbol = true := by
    cases wide <;> decide
  have hwhole := whole_of_symbols (List.all_eq_true.1 (hsymbols name h))
  rwa [String.ofList_toList] at hwhole

theorem whole_of_mem_cells {wide : Bool} {cell : String} (h : cell ∈ cells wide s) :
    Whole cell := by
  have hempty : Whole "" := whole_cell none
  rcases List.mem_append.1 h with hcoordinate | hparticular
  · simp only [coordinateCells, List.mem_cons, List.not_mem_nil, or_false] at hcoordinate
    rcases hcoordinate with rfl | rfl | rfl | rfl <;> exact whole_text _
  · split at hparticular
    · unfold particularCells at hparticular
      split at hparticular
      · simp only [List.mem_cons, List.not_mem_nil, or_false] at hparticular
        rcases hparticular with rfl | rfl | rfl
        · exact whole_cell s.length
        · exact whole_cell s.heading
        · exact whole_signedDigits _
      · simp only [List.mem_cons, List.not_mem_nil, or_false] at hparticular
        rcases hparticular with rfl | rfl | rfl <;> exact hempty
    · cases hparticular

/-- The cells of a table of segments are found again in its rows. -/
theorem rows?_table (wide : Bool) (segments : List Segment) :
    rows? (String.join ((columns wide :: segments.map (cells wide)).map row)) =
      some (columns wide :: segments.map (cells wide)) := by
  refine rows?_join fun row hrow => ?_
  rcases List.mem_cons.1 hrow with rfl | hmem
  · exact ⟨List.cons_ne_nil _ _, fun name => whole_of_mem_columns⟩
  · obtain ⟨s, _, rfl⟩ := List.mem_map.1 hmem
    exact ⟨List.cons_ne_nil _ _, fun cell => whole_of_mem_cells⟩

/-- The cells of the table of segments that all have the same columns. -/
theorem rows?_write (h : Uniform annotate segments) :
    rows? (write segments).text = some (columns (annotate && !segments.isEmpty) ::
      segments.map fun s => cells s.isAnnotated s) := by
  have hwide : isWide segments = (annotate && !segments.isEmpty) := by
    cases segments with
    | nil => exact (Bool.and_false annotate).symm
    | cons s rest =>
        rw [isWide_of_mem h List.mem_cons_self]
        exact (Bool.and_true annotate).symm
  have hcells : segments.map (cells (isWide segments)) =
      segments.map fun s => cells s.isAnnotated s := by
    refine List.map_congr_left fun s hs => ?_
    rw [isWide_of_mem h hs, h s hs]
  rw [write_of_fits (fits_of_uniform h), rows?_table, hcells, hwide]

/-- **Tables are lossless.** The table of segments that all carry particulars, or all do not, is
    written to its end. Its text is parted into the names of the columns and one row for each
    segment, in order, and from each row the values of its segment are read, all that the row shows.
    Two such tables have the same text only if they have as many segments, with the same values.
    All segments of a drawing, and all that are left of them without repetitions, carry particulars
    or none does. -/
theorem write_lossless :
    (∀ annotate segments, Uniform annotate segments →
      (write segments).fault = none ∧
      ∃ body, rows? (write segments).text =
          some (columns (annotate && !segments.isEmpty) :: body) ∧
        body.mapM segment? = some (segments.map Segment.recorded)) ∧
    (∀ annotate annotate' first second, Uniform annotate first → Uniform annotate' second →
      (write first).text = (write second).text → List.Forall₂ Segment.SameFields first second) ∧
    ∀ setup annotate word segments, interpret setup annotate word = .ok segments →
      Uniform annotate segments ∧ Uniform annotate (distinct segments) := by
  refine ⟨?_, ?_, ?_⟩
  · intro annotate segments h
    exact ⟨fault_write h, _, rows?_write h, mapM_segment? segments⟩
  · intro annotate annotate' first second hfirst hsecond htext
    -- the same text has the same rows, and the same row is read as the same values
    have hrows := (rows?_write hfirst).symm.trans (htext ▸ rows?_write hsecond)
    have hbody := (List.cons.inj (Option.some.inj hrows)).2
    have hread := (mapM_segment? first).symm.trans (hbody ▸ mapM_segment? second)
    have hsame : List.Forall₂ (fun s t : Segment => s.recorded = t.recorded) first second := by
      have h := List.forall₂_eq_eq_eq ▸ Option.some.inj hread
      rwa [List.forall₂_map_left_iff, List.forall₂_map_right_iff] at h
    exact hsame.imp fun _ _ => Segment.sameFields_of_recorded
  · intro setup annotate word segments h
    exact ⟨fun s => isAnnotated_of_interpret h,
      fun s hs => isAnnotated_of_interpret h ((distinct_sublist segments).subset hs)⟩

/-- Two lines with particulars: of the first the heading is not known, of the second nothing is but the
    depth. -/
def partlyKnown : List Segment :=
  [⟨.origin, ⟨-.zero, .one⟩, some .one, none, some (-1)⟩,
    ⟨⟨.nan, .infinity true⟩, ⟨.nan, .nan⟩, none, none, some 12⟩]

/-- The lines that are partly known are read back as they are. A length that no row shows makes no
    difference to the text. A drawn line has a table. -/
theorem write_lossless_partlyKnown :
    (Uniform true partlyKnown ∧ ∃ body,
      rows? (write partlyKnown).text = some (columns true :: body) ∧
        body.mapM segment? = some partlyKnown) ∧
    (∃ first second : List Segment, (write first).text = (write second).text ∧ first ≠ second ∧
      List.Forall₂ Segment.SameFields first second) ∧
    ∃ segments, interpret ⟨.zero, .zero, .one⟩ true ['F'] = .ok segments ∧
      Uniform true (distinct segments) := by
  obtain ⟨hread, hsame, hdrawn⟩ := write_lossless
  refine ⟨?_, ?_, ?_⟩
  · have huniform : Uniform true partlyKnown := by
      unfold Uniform
      decide +kernel
    obtain ⟨_, body, hrows, hbody⟩ := hread true partlyKnown huniform
    exact ⟨huniform, body, hrows, hbody⟩
  · refine ⟨[⟨.origin, .origin, some .one, none, none⟩], [.plain .origin .origin], rfl,
      by decide +kernel, ?_⟩
    exact hsame false false _ _ (by unfold Uniform; decide +kernel)
      (by unfold Uniform; decide +kernel) rfl
  · obtain ⟨segments, h⟩ : ∃ segments,
        interpret ⟨.zero, .zero, .one⟩ true ['F'] = .ok segments :=
      exists_of_isOk (by decide +kernel)
    exact ⟨segments, h, (hdrawn _ _ _ _ h).2⟩

end Csv

end TurtleGrammar
