import TurtleGrammar.Proofs.Rows

/-!
# `TurtleGrammar.Proofs.Columns` — tables that have too few columns

A table is written row by row from the named values of its segments. A value goes into the column
of its name, a column without a value stays empty, and a value without a column ends the table
before its row. The columns are those of the first segment. So a table ends early exactly if its
first segment carries no particulars and a later one does; what comes before such a one is written.

## Contents
- `Csv.fields`, `Csv.place?`: the named values of a segment and the row that they make.
- `Csv.writeRows`, `Csv.write_eq_writeTable`: tables are written row by row.
- `Csv.Outgrown`, `Csv.outgrown_iff`: lists that have too few columns.
- `Csv.Tabulates`: texts that hold the rows of a table.
- `Csv.write_outgrown`: what is written of every list.
-/

namespace TurtleGrammar

namespace Csv

variable {segments before after : List Segment} {s : Segment} {wide : Bool}

/-! ## Row by row -/

/-- The values of a segment with their names: its coordinates, and its particulars if it carries
    them. A particular that is not known is an empty text. -/
def fields (s : Segment) : List (String × String) :=
  [("x0", s.start.x.text), ("y0", s.start.y.text), ("x1", s.stop.x.text), ("y1", s.stop.y.text)] ++
    match s.depth with
    | some depth => [("length", cell s.length), ("heading", cell s.heading),
        ("depth", String.ofList (signedDigits depth))]
    | none => []

/-- The cells that values make under the given columns, one for each column; none if there is a
    value without a column. -/
def place? (names : List String) (values : List (String × String)) : Option (List String) :=
  if values.all fun value => names.contains value.1 then
    some (names.map fun name => (values.lookup name).getD "")
  else none

/-- Rows are written one after the other, up to the first values that make none. -/
def writeRows (names : List String) : List (List (String × String)) → Output
  | [] => ⟨"", none⟩
  | values :: rest =>
    match place? names values with
    | some cells => ⟨row cells ++ (writeRows names rest).text, (writeRows names rest).fault⟩
    | none => ⟨"", some .noColumns⟩

/-- A table is its header and its rows. -/
def writeTable (names : List String) (records : List (List (String × String))) : Output :=
  ⟨row names ++ (writeRows names records).text, (writeRows names records).fault⟩

/-- **The row of a segment.** Its values make its cells if there are columns for all of them. -/
theorem place?_fields (wide : Bool) (s : Segment) :
    place? (columns wide) (fields s) = if fits wide s then some (cells wide s) else none := by
  obtain ⟨start, stop, length, heading, depth⟩ := s
  cases wide <;> cases depth <;> rfl

theorem writeRows_cons (wide : Bool) (s : Segment) (rest : List Segment) :
    writeRows (columns wide) ((s :: rest).map fields) =
      if fits wide s then
        ⟨row (cells wide s) ++ (writeRows (columns wide) (rest.map fields)).text,
          (writeRows (columns wide) (rest.map fields)).fault⟩
      else ⟨"", some .noColumns⟩ := by
  rw [List.map_cons, writeRows, place?_fields]
  cases fits wide s <;> rfl

/-- Rows that fit are written, and what follows them does not depend on them. -/
theorem writeRows_append (hbefore : ∀ e ∈ before, fits wide e = true) (after : List Segment) :
    writeRows (columns wide) ((before ++ after).map fields) =
      ⟨String.join (before.map fun e => row (cells wide e)) ++
          (writeRows (columns wide) (after.map fields)).text,
        (writeRows (columns wide) (after.map fields)).fault⟩ := by
  induction before with
  | nil => simp [String.join]
  | cons e others ih =>
      obtain ⟨he, hothers⟩ := List.forall_mem_cons.1 hbefore
      rw [List.cons_append, writeRows_cons, if_pos he, ih hothers, List.map_cons,
        String.join_cons, String.append_assoc]

/-! ## Tables that end early -/

/-- Segments have columns, or there is a first one that has none. -/
theorem fits_or_exists (wide : Bool) (segments : List Segment) :
    (∀ e ∈ segments, fits wide e = true) ∨
    ∃ before s after, segments = before ++ s :: after ∧ (∀ e ∈ before, fits wide e = true) ∧
      fits wide s = false := by
  induction segments with
  | nil => exact Or.inl (List.forall_mem_nil _)
  | cons e rest ih =>
      cases he : fits wide e with
      | false => exact Or.inr ⟨[], e, rest, rfl, List.forall_mem_nil _, he⟩
      | true =>
          rcases ih with hall | ⟨before, s, after, rfl, hbefore, hs⟩
          · exact Or.inl (List.forall_mem_cons.2 ⟨he, hall⟩)
          · exact Or.inr ⟨e :: before, s, after, rfl, List.forall_mem_cons.2 ⟨he, hbefore⟩, hs⟩

theorem write_of_unfit (hsegments : segments = before ++ s :: after)
    (hbefore : ∀ e ∈ before, fits (isWide segments) e = true)
    (hs : fits (isWide segments) s = false) :
    write segments = ⟨String.join ((columns (isWide segments) ::
      before.map (cells (isWide segments))).map row), some .noColumns⟩ := by
  generalize hwide : isWide segments = wide at hbefore hs ⊢
  have hwritten : segments.takeWhile (fits wide) = before := by
    rw [hsegments, List.takeWhile_append_of_pos hbefore, List.takeWhile_cons_of_neg (by simp [hs]),
      List.append_nil]
  have hshort : before.length ≠ segments.length := by
    rw [hsegments, List.length_append, List.length_cons]
    omega
  unfold write
  simp [hwide, hwritten, hshort, Function.comp_def]

/-- **Tables are written row by row**, up to the first segment that has no columns. -/
theorem write_eq_writeTable (segments : List Segment) :
    write segments = writeTable (columns (isWide segments)) (segments.map fields) := by
  unfold writeTable
  rcases fits_or_exists (isWide segments) segments with hall | ⟨before, s, after, h, hbefore, hs⟩
  · have hrows := writeRows_append hall []
    rw [List.append_nil] at hrows
    rw [write_of_fits hall, hrows]
    simp [writeRows, String.join_cons, Function.comp_def]
  · have hrows := writeRows_append hbefore (s :: after)
    rw [← h, writeRows_cons, hs] at hrows
    rw [write_of_unfit h hbefore hs, hrows]
    simp [String.join_cons, Function.comp_def]

/-! ## Lists that have too few columns -/

/-- Does the first segment of a list carry no particulars, while a later one does? -/
def Outgrown (segments : List Segment) : Prop :=
  ∃ first rest, segments = first :: rest ∧ first.isAnnotated = false ∧
    ∃ s ∈ rest, s.isAnnotated = true

theorem isWide_iff :
    isWide segments = true ↔ ∃ first rest, segments = first :: rest ∧ first.isAnnotated = true := by
  cases segments with
  | nil => simp [isWide]
  | cons first rest => simp [isWide]

theorem outgrown_iff : Outgrown segments ↔ ∃ s ∈ segments, fits (isWide segments) s = false := by
  cases segments with
  | nil => simp [Outgrown]
  | cons first rest =>
      have hwide : isWide (first :: rest) = first.isAnnotated := rfl
      rw [hwide]
      cases hfirst : first.isAnnotated with
      | false => simp [Outgrown, fits, hfirst]
      | true => simp [Outgrown, fits, hfirst]

/-- Is a text the rows of a table, one after the other, and are its cells found again in it? -/
structure Tabulates (text : String) (table : List (List String)) : Prop where
  text_eq : text = String.join (table.map row)
  rows_eq : rows? text = some table

theorem tabulates_join (wide : Bool) (segments : List Segment) :
    Tabulates (String.join ((columns wide :: segments.map (cells wide)).map row))
      (columns wide :: segments.map (cells wide)) :=
  ⟨rfl, rows?_table wide segments⟩

theorem length_cells (wide : Bool) (s : Segment) :
    (cells wide s).length = (columns wide).length := by
  obtain ⟨start, stop, length, heading, depth⟩ := s
  cases wide <;> cases depth <;> rfl

theorem cells_false : cells false = coordinateCells := funext fun _ => List.append_nil _

/-- A segment without particulars leaves their columns empty. -/
theorem cells_true (h : s.isAnnotated = false) :
    cells true s = coordinateCells s ++ ["", "", ""] := by
  obtain ⟨start, stop, length, heading, depth⟩ := s
  cases depth with
  | none => rfl
  | some depth => cases h

/-- A table ends early exactly if it is outgrown. -/
theorem fault_write_cases (segments : List Segment) :
    (write segments).fault = some .noColumns ∧ Outgrown segments ∨
    (write segments).fault = none ∧ ¬ Outgrown segments := by
  rw [outgrown_iff]
  rcases fits_or_exists (isWide segments) segments with hall | ⟨before, s, after, h, hbefore, hs⟩
  · right
    rw [write_of_fits hall]
    refine ⟨rfl, ?_⟩
    rintro ⟨e, he, hunfit⟩
    rw [hall e he] at hunfit
    cases hunfit
  · left
    rw [write_of_unfit h hbefore hs]
    refine ⟨rfl, s, ?_, hs⟩
    rw [h]
    exact List.mem_append_right before List.mem_cons_self

/-- What is written of a list that is outgrown. -/
theorem tabulates_of_outgrown (hsegments : segments = before ++ s :: after) (hne : before ≠ [])
    (hbefore : Uniform false before) (hs : s.isAnnotated = true) :
    Tabulates (write segments).text (coordinateNames :: before.map coordinateCells) := by
  have hwide : isWide segments = false := by
    obtain ⟨first, rest, rfl⟩ := List.exists_cons_of_ne_nil hne
    rw [hsegments]
    exact hbefore first List.mem_cons_self
  have htable : coordinateNames :: before.map coordinateCells =
      columns false :: before.map (cells false) := by
    rw [cells_false]
    rfl
  have hfits : ∀ e ∈ before, fits (isWide segments) e = true := by
    intro e he
    rw [hwide, fits, hbefore e he]
    rfl
  have hunfit : fits (isWide segments) s = false := by
    rw [hwide, fits, hs]
    rfl
  rw [htable, write_of_unfit hsegments hfits hunfit, hwide]
  exact tabulates_join false before

/-- What is written of a list that has columns for all its segments. -/
theorem tabulates_of_not_outgrown (h : ¬ Outgrown segments) : Tabulates (write segments).text
    (columns (isWide segments) :: segments.map (cells (isWide segments))) := by
  have hfits : ∀ e ∈ segments, fits (isWide segments) e = true := by
    intro e he
    by_contra hunfit
    exact h (outgrown_iff.2 ⟨e, he, Bool.eq_false_iff.2 hunfit⟩)
  rw [write_of_fits hfits]
  exact tabulates_join _ segments

/-- **Tables end where they are outgrown.** A table is written row by row under the columns of its
    first segment. It ends early exactly if that segment carries no particulars and a later one
    does. Then the coordinates are its columns, and the rows of all segments before the first one
    with particulars are written. Every other table has a row for each segment, with as many cells
    as there are columns. Particulars have columns exactly if the first segment carries them, and a
    segment without particulars leaves these columns empty. -/
theorem write_outgrown (segments : List Segment) :
    write segments = writeTable (columns (isWide segments)) (segments.map fields) ∧
    ((write segments).fault = some .noColumns ↔ Outgrown segments) ∧
    ((write segments).fault = none ↔ ¬ Outgrown segments) ∧
    (∀ before s after, segments = before ++ s :: after → before ≠ [] → Uniform false before →
      s.isAnnotated = true →
      Tabulates (write segments).text (coordinateNames :: before.map coordinateCells)) ∧
    (¬ Outgrown segments → Tabulates (write segments).text
      (columns (isWide segments) :: segments.map (cells (isWide segments)))) ∧
    (isWide segments = true ↔ ∃ first rest, segments = first :: rest ∧ first.isAnnotated = true) ∧
    ∀ s ∈ segments, (cells (isWide segments) s).length = (columns (isWide segments)).length ∧
      (isWide segments = true → s.isAnnotated = false →
        cells (isWide segments) s = coordinateCells s ++ ["", "", ""]) := by
  refine ⟨write_eq_writeTable segments, ?_, ?_, ?_, tabulates_of_not_outgrown, isWide_iff, ?_⟩
  · rcases fault_write_cases segments with ⟨hfault, h⟩ | ⟨hfault, h⟩ <;> simp [hfault, h]
  · rcases fault_write_cases segments with ⟨hfault, h⟩ | ⟨hfault, h⟩ <;> simp [hfault, h]
  · intro before s after hsegments hne hbefore hs
    exact tabulates_of_outgrown hsegments hne hbefore hs
  · intro s _
    refine ⟨length_cells _ s, fun hwide hs => ?_⟩
    rw [hwide]
    exact cells_true hs

/-- A line of which a length is known but no depth, its copy, a line with particulars and one more
    line without. -/
def lateParticulars : List Segment :=
  [⟨.origin, ⟨.zero, .one⟩, some .one, none, none⟩, .plain .origin ⟨.zero, .one⟩,
    ⟨.origin, ⟨.zero, .one⟩, some .one, none, some 2⟩, .plain .origin .origin]

/-- Of the lines with late particulars two are written. Begun with the third line, the table has a
    row for each of its lines, and three cells of the last row are empty. -/
theorem write_outgrown_late :
    ((write lateParticulars).fault = some .noColumns ∧
      rows? (write lateParticulars).text =
        some (coordinateNames :: (lateParticulars.take 2).map coordinateCells)) ∧
    (write (lateParticulars.drop 2)).fault = none ∧
    rows? (write (lateParticulars.drop 2)).text =
      some (columns true :: (lateParticulars.drop 2).map (cells true)) ∧
    cells true (.plain .origin .origin) =
      coordinateCells (.plain .origin .origin) ++ ["", "", ""] := by
  obtain ⟨_, hfault, _, hearly, _⟩ := write_outgrown lateParticulars
  obtain ⟨_, _, hwhole, _, hrows, _, hcells⟩ := write_outgrown (lateParticulars.drop 2)
  have houtgrown : Outgrown lateParticulars :=
    ⟨_, _, rfl, rfl, ⟨.origin, ⟨.zero, .one⟩, some .one, none, some 2⟩, by simp, rfl⟩
  have hwide : ¬ Outgrown (lateParticulars.drop 2) := by
    rintro ⟨first, rest, h, hfirst, _⟩
    obtain rfl := (List.cons.inj h).1
    cases hfirst
  have hlast : Segment.plain .origin .origin ∈ lateParticulars.drop 2 :=
    List.mem_cons_of_mem _ List.mem_cons_self
  refine ⟨⟨hfault.2 houtgrown, ?_⟩, hwhole.2 hwide, (hrows hwide).rows_eq,
    (hcells _ hlast).2 rfl rfl⟩
  refine (hearly (lateParticulars.take 2) _ _ rfl (List.cons_ne_nil _ _) ?_ rfl).rows_eq
  intro s hs
  simp only [lateParticulars, List.take_succ_cons, List.take_zero, List.mem_cons,
    List.not_mem_nil, or_false] at hs
  rcases hs with rfl | rfl <;> rfl

end Csv

end TurtleGrammar
