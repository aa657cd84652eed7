import TurtleGrammar.Proofs.Coordinate
import TurtleGrammar.Proofs.Markup
import TurtleGrammar.Proofs.Written

/-!
# `TurtleGrammar.Proofs.Page` — the lines of a page

A page that is not refused has one form: a line for each part of it, the elements of the segments
last but two. Its tags are lists of attributes, of which only the strings of the style and the
background are not numbers or fixed words.

## Contents
- `Svg.lineStroke`, `Svg.elements`: the elements of segments.
- `Svg.Laid`, `Svg.lines_eq_ok_iff`: the pages that are not refused, and their lines.
- `Svg.openingLine_eq`, `Svg.groupLine_eq`, `Svg.segmentLine_eq`, `Svg.backgroundLines_eq`: tags
  as lists of attributes.
-/

namespace TurtleGrammar

namespace Svg

open Markup

variable {page : Page} {segments : List Segment} {bounds box : Bounds} {places : Nat}
  {all : List String} {style : Style} {index count : Nat}

/-! ## Elements -/

/-- The stroke of its own that a line has: none without a palette. -/
def lineStroke (style : Style) (index count : Nat) : Option String :=
  if style.palette.isEmpty then none else (style.strokeOfLine index count).toOption

/-- The elements of segments, each with its stroke. -/
def elements (places : Nat) (style : Style) (segments : List Segment) : List String :=
  segments.zipIdx.map fun item =>
    segmentLine places item.1 (lineStroke style item.2 segments.length)

theorem ownStroke_eq (style : Style) (h : index < count) :
    ownStroke style index count = .ok (lineStroke style index count) := by
  unfold ownStroke lineStroke
  split
  · rfl
  · obtain ⟨stroke, hstroke⟩ := style.exists_strokeOfLine h
    rw [hstroke]
    rfl

/-- A list of computations that all have results gives the list of the results. -/
theorem mapM_eq_ok {α β : Type} {f : α → Except Fault β} {g : α → β} {items : List α}
    (h : ∀ item ∈ items, f item = .ok (g item)) : items.mapM f = .ok (items.map g) := by
  induction items with
  | nil => rfl
  | cons item rest ih =>
      obtain ⟨hitem, hrest⟩ := List.forall_mem_cons.1 h
      rw [List.mapM_cons, hitem, ih hrest]
      rfl

/-- Every segment of a list has its element. -/
theorem segmentLines_eq (places : Nat) (style : Style) (segments : List Segment) :
    segmentLines places style segments = .ok (elements places style segments) := by
  unfold segmentLines elements
  refine mapM_eq_ok fun item hmem => ?_
  have hindex : item.2 < segments.length := by
    have := List.snd_lt_of_mem_zipIdx hmem
    simpa using this
  simp only [ownStroke_eq style hindex]
  rfl

theorem length_elements (places : Nat) (style : Style) (segments : List Segment) :
    (elements places style segments).length = segments.length := by
  simp [elements]

theorem getElem?_elements (places : Nat) (style : Style) (segments : List Segment) (i : Nat) :
    (elements places style segments)[i]? = segments[i]?.map fun s =>
      segmentLine places s (lineStroke style i segments.length) := by
  unfold elements
  rw [List.getElem?_map, List.getElem?_zipIdx, Nat.zero_add, Option.map_map]
  rfl

/-! ## Lines -/

/-- The lines of a page up to its background. -/
def headLines (places : Nat) (page : Page) (box : Bounds) : List String :=
  ["<?xml version=\"1.0\" encoding=\"UTF-8\"?>", openingLine places page box] ++ titleLines page

/-- The lines of a page up to its group. -/
def frontLines (places : Nat) (page : Page) (box : Bounds) : List String :=
  headLines places page box ++ backgroundLines places page box ++ [groupLine places page box]

/-- The lines after the elements of a page. -/
def backLines : List String := ["  </g>", "</svg>"]

/-- The lines of a page around its group. -/
theorem frontLines_append (places : Nat) (page : Page) (box : Bounds) (rest : List String) :
    frontLines places page box ++ rest =
      headLines places page box ++ backgroundLines places page box ++
        groupLine places page box :: rest := by
  unfold frontLines
  rw [List.append_assoc _ [groupLine places page box], List.singleton_append]

/-- Are segments with these bounds put on the page, with these places? -/
structure Laid (page : Page) (segments : List Segment) (bounds : Bounds) (places : Nat) : Prop where
  bounds_eq : Bounds.ofSegments segments = .ok bounds
  wide : (bounds.widen page.margin).x.size.isPositive = true
  high : (bounds.widen page.margin).y.size.isPositive = true
  places_eq : page.places = places
  places_le : page.places ≤ maxWrittenPlaces

theorem writtenPlaces_eq_ok_iff {count : Int} :
    writtenPlaces count = .ok places ↔ count = places ∧ count ≤ maxWrittenPlaces := by
  unfold writtenPlaces
  by_cases h : (0 ≤ count && count ≤ maxWrittenPlaces) = true
  · rw [if_pos h]
    simp only [Bool.and_eq_true, decide_eq_true_eq] at h
    constructor
    · intro hok
      have := Except.ok.inj hok
      omega
    · rintro ⟨rfl, _⟩
      rfl
  · rw [if_neg h]
    simp only [Bool.and_eq_true, decide_eq_true_eq, not_and] at h
    constructor
    · exact nofun
    · rintro ⟨rfl, hle⟩
      exact absurd hle (h (Int.natCast_nonneg places))

/-- **Pages that are not refused** have their lines in one order. -/
theorem lines_eq_ok_iff : lines page segments = .ok all ↔
    ∃ bounds places, Laid page segments bounds places ∧
      all = frontLines places page (bounds.widen page.margin) ++
        elements places page.style segments ++ backLines := by
  constructor
  · intro h
    unfold lines at h
    cases hbounds : Bounds.ofSegments segments with
    | error fault =>
        rw [hbounds] at h
        cases h
    | ok bounds =>
        rw [hbounds] at h
        simp only [bind, Except.bind] at h
        split at h
        · cases h
        · next hextent =>
          cases hplaces : writtenPlaces page.places with
          | error fault =>
              rw [hplaces] at h
              cases h
          | ok places =>
              rw [hplaces] at h
              simp only [segmentLines_eq] at h
              simp only [Bool.not_eq_true', Bool.not_eq_false, Bool.and_eq_true] at hextent
              obtain ⟨heq, hle⟩ := writtenPlaces_eq_ok_iff.1 hplaces
              exact ⟨bounds, places, ⟨hbounds, hextent.1, hextent.2, heq, hle⟩,
                (Except.ok.inj h).symm⟩
  · rintro ⟨bounds, places, hlaid, rfl⟩
    have hplaces : writtenPlaces page.places = .ok places :=
      writtenPlaces_eq_ok_iff.2 ⟨hlaid.places_eq, hlaid.places_le⟩
    unfold lines
    rw [hlaid.bounds_eq]
    simp only [bind, Except.bind, hlaid.wide, hlaid.high, hplaces, segmentLines_eq]
    rfl

/-! ## Tags -/

/-- A tag: how it begins, its attributes, and how it ends. -/
def tag (head : String) (pairs : List (String × String)) (tail : String) : List Char :=
  head.toList ++ written pairs ++ tail.toList

theorem toList_tag {pairs : List (String × String)} (hne : pairs ≠ []) (head tail : String) :
    (head ++ " " ++ attributes (pairs.map fun a => attr a.1 a.2) ++ tail).toList =
      tag head pairs tail := by
  obtain ⟨a, others, rfl⟩ := List.exists_cons_of_ne_nil hne
  unfold tag
  rw [← toList_attributes]
  simp

/-- The text of the view box: its corner and its size. -/
def viewBoxText (places : Nat) (box : Bounds) : String :=
  coordinate places box.x.low ++ " " ++ coordinate places box.y.low ++ " " ++
    coordinate places box.x.size ++ " " ++ coordinate places box.y.size

/-- The size of the page along one axis with its name. -/
def sizePair (places : Nat) (name : String) (size : Option Binary64) : List (String × String) :=
  match size with
  | some x => if x.equals .zero then [] else [(name, coordinate places x)]
  | none => []

theorem sizeAttribute_eq (places : Nat) (name : String) (size : Option Binary64) :
    sizeAttribute places name size = (sizePair places name size).map fun a => attr a.1 a.2 := by
  unfold sizeAttribute sizePair
  cases size with
  | none => rfl
  | some x =>
      dsimp only
      split <;> rfl

/-- The attributes of the opening tag of the document. -/
def openingPairs (places : Nat) (page : Page) (box : Bounds) : List (String × String) :=
  [("xmlns", "http://www.w3.org/2000/svg"), ("version", "1.1"),
    ("viewBox", viewBoxText places box)] ++
    sizePair places "width" page.width ++ sizePair places "height" page.height

theorem openingLine_eq (places : Nat) (page : Page) (box : Bounds) :
    (openingLine places page box).toList = tag "<svg" (openingPairs places page box) ">" := by
  have hhead : "<svg " = "<svg" ++ " " := by decide
  have hne : openingPairs places page box ≠ [] := List.cons_ne_nil _ _
  rw [← toList_tag hne]
  unfold openingLine openingPairs
  simp only [sizeAttribute_eq, hhead, List.map_append]
  rfl

/-- The attributes of the background. -/
def backgroundPairs (places : Nat) (box : Bounds) (colour : String) : List (String × String) :=
  [("x", coordinate places box.x.low), ("y", coordinate places box.y.low),
    ("width", coordinate places box.x.size), ("height", coordinate places box.y.size),
    ("fill", colour)]

/-- The colour of the background that is shown, if one is. -/
def shownBackground (page : Page) : Option String :=
  page.background.filter fun colour => !(colour.isEmpty || colour.map Char.toLower = "none")

/-- A background is one line or none. -/
theorem backgroundLines_eq (places : Nat) (page : Page) (box : Bounds) :
    (backgroundLines places page box).map String.toList =
      (shownBackground page).toList.map fun colour =>
        tag "  <rect" (backgroundPairs places box colour) " />" := by
  have hhead : "  <rect " = "  <rect" ++ " " := by decide
  unfold backgroundLines shownBackground
  cases page.background with
  | none => rfl
  | some colour =>
      have hne : backgroundPairs places box colour ≠ [] := List.cons_ne_nil _ _
      cases hshown : (colour.isEmpty || colour.map Char.toLower = "none") with
      | true =>
          simp only [hshown, Option.filter_some, Bool.not_true, if_true, Bool.false_eq_true,
            if_false]
          rfl
      | false =>
          simp only [hshown, Option.filter_some, Bool.not_false, if_true, Option.toList_some,
            List.map_cons, List.map_nil, Bool.false_eq_true, if_false]
          rw [← toList_tag hne, hhead]
          rfl

/-- The attributes of the group before its cap: the stroke, if it is common to all lines, and its
    width. -/
def strokePairs (places : Nat) (page : Page) : List (String × String) :=
  (if page.style.palette.isEmpty then [("stroke", page.style.stroke)] else []) ++
    [("stroke-width", coordinate places page.style.strokeWidth)]

/-- The transform of the group, if the vertical axis points up. -/
def turnPairs (places : Nat) (page : Page) (box : Bounds) : List (String × String) :=
  if page.flip then
    [("transform", "translate(0," ++ coordinate places (box.y.low + box.y.high) ++ ") scale(1,-1)")]
  else []

/-- The attributes of the group. -/
def groupPairs (places : Nat) (page : Page) (box : Bounds) : List (String × String) :=
  strokePairs places page ++ ("stroke-linecap", page.style.lineCap) :: turnPairs places page box

theorem groupLine_eq (places : Nat) (page : Page) (box : Bounds) :
    (groupLine places page box).toList = tag "  <g" (groupPairs places page box) ">" := by
  have hhead : "  <g " = "  <g" ++ " " := by decide
  have hne : groupPairs places page box ≠ [] := by
    unfold groupPairs
    simp
  rw [← toList_tag hne]
  unfold groupLine groupPairs strokePairs turnPairs
  rw [hhead]
  cases page.flip <;> cases page.style.palette.isEmpty <;> rfl

/-- The attributes of the element of a segment. -/
def segmentPairs (places : Nat) (s : Segment) (stroke : Option String) : List (String × String) :=
  [("x1", coordinate places s.start.x), ("y1", coordinate places s.start.y),
    ("x2", coordinate places s.stop.x), ("y2", coordinate places s.stop.y)] ++
    stroke.toList.map fun value => ("stroke", value)

theorem segmentLine_eq (places : Nat) (s : Segment) (stroke : Option String) :
    (segmentLine places s stroke).toList =
      tag "    <line" (segmentPairs places s stroke) " />" := by
  have hhead : "    <line " = "    <line" ++ " " := by decide
  have hne : segmentPairs places s stroke ≠ [] := List.cons_ne_nil _ _
  rw [← toList_tag hne]
  unfold segmentLine segmentPairs
  rw [hhead]
  cases stroke <;> rfl

/-! ## Plain attributes -/

theorem tame_append {s t : String} (hs : Tame s) (ht : Tame t) : Tame (s ++ t) := by
  constructor
  · simp [hs.unquoted, ht.unquoted]
  · simp [hs.unbroken, ht.unbroken]

theorem not_mem_toList_coordinate {c : Char} (hc : Binary64.isNumberSymbol c = false) (places : Nat)
    (x : Binary64) : c ∉ (coordinate places x).toList := by
  unfold coordinate
  rw [String.toList_ofList]
  exact Binary64.not_mem_coordinate hc x places

theorem tame_coordinate (places : Nat) (x : Binary64) : Tame (coordinate places x) :=
  ⟨not_mem_toList_coordinate (by decide) places x, not_mem_toList_coordinate (by decide) places x⟩

/-- A text of characters none of which is a quote, a line feed or a blank. -/
def isName (text : String) : Bool := text.toList.all fun c => c != '"' && c != '\n' && c != ' '

theorem plain_of_isName {name value : String} (hname : isName name = true) (hvalue : Tame value) :
    Plain (name, value) := by
  have hall : ∀ c ∈ name.toList, c ≠ '"' ∧ c ≠ '\n' ∧ c ≠ ' ' := by
    intro c hc
    have := List.all_eq_true.1 hname c hc
    simpa [and_assoc] using this
  exact ⟨⟨fun h => (hall _ h).1 rfl, fun h => (hall _ h).2.1 rfl⟩, fun h => (hall _ h).2.2 rfl,
    hvalue⟩

theorem plain_coordinate {name : String} (hname : isName name = true) (places : Nat)
    (x : Binary64) : Plain (name, coordinate places x) :=
  plain_of_isName hname (tame_coordinate places x)

theorem tame_viewBoxText (places : Nat) (box : Bounds) : Tame (viewBoxText places box) := by
  have hblank : Tame " " := ⟨by decide, by decide⟩
  unfold viewBoxText
  exact tame_append (tame_append (tame_append (tame_append (tame_append (tame_append
    (tame_coordinate _ _) hblank) (tame_coordinate _ _)) hblank) (tame_coordinate _ _)) hblank)
    (tame_coordinate _ _)

theorem plain_sizePair {name : String} (hname : isName name = true) (places : Nat)
    (size : Option Binary64) : ∀ a ∈ sizePair places name size, Plain a := by
  intro a ha
  unfold sizePair at ha
  split at ha
  · split at ha
    · cases ha
    · rw [List.mem_singleton.1 ha]
      exact plain_coordinate hname places _
  · cases ha

theorem plain_openingPairs (places : Nat) (page : Page) (box : Bounds) :
    ∀ a ∈ openingPairs places page box, Plain a := by
  intro a ha
  unfold openingPairs at ha
  simp only [List.mem_append, List.mem_cons, List.not_mem_nil, or_false] at ha
  rcases ha with ((rfl | rfl | rfl) | hwidth) | hheight
  · exact plain_of_isName (by decide) ⟨by decide, by decide⟩
  · exact plain_of_isName (by decide) ⟨by decide, by decide⟩
  · exact plain_of_isName (by decide) (tame_viewBoxText places box)
  · exact plain_sizePair (by decide) places page.width a hwidth
  · exact plain_sizePair (by decide) places page.height a hheight

theorem plain_segmentPairs (places : Nat) (s : Segment) {stroke : Option String}
    (h : ∀ value ∈ stroke, Tame value) : ∀ a ∈ segmentPairs places s stroke, Plain a := by
  intro a ha
  unfold segmentPairs at ha
  simp only [List.mem_append, List.mem_cons, List.not_mem_nil, or_false, List.mem_map,
    Option.mem_toList] at ha
  rcases ha with (rfl | rfl | rfl | rfl) | ⟨value, hvalue, rfl⟩
  · exact plain_coordinate (by decide) places _
  · exact plain_coordinate (by decide) places _
  · exact plain_coordinate (by decide) places _
  · exact plain_coordinate (by decide) places _
  · exact plain_of_isName (by decide) (h value hvalue)

theorem plain_backgroundPairs (places : Nat) (box : Bounds) {colour : String} (h : Tame colour) :
    ∀ a ∈ backgroundPairs places box colour, Plain a := by
  intro a ha
  unfold backgroundPairs at ha
  simp only [List.mem_cons, List.not_mem_nil, or_false] at ha
  rcases ha with rfl | rfl | rfl | rfl | rfl
  · exact plain_coordinate (by decide) places _
  · exact plain_coordinate (by decide) places _
  · exact plain_coordinate (by decide) places _
  · exact plain_coordinate (by decide) places _
  · exact plain_of_isName (by decide) h

theorem plain_groupPairs (places : Nat) (box : Bounds) (hstroke : Tame page.style.stroke)
    (hcap : Tame page.style.lineCap) : ∀ a ∈ groupPairs places page box, Plain a := by
  intro a ha
  unfold groupPairs strokePairs turnPairs at ha
  simp only [List.mem_append, List.mem_cons, List.not_mem_nil, or_false] at ha
  rcases ha with (hown | rfl) | rfl | hflip
  · split at hown
    · rw [List.mem_singleton.1 hown]
      exact plain_of_isName (by decide) hstroke
    · cases hown
  · exact plain_coordinate (by decide) places _
  · exact plain_of_isName (by decide) hcap
  · split at hflip
    · rw [List.mem_singleton.1 hflip]
      refine plain_of_isName (by decide) (tame_append (tame_append ?_ (tame_coordinate _ _)) ?_)
      · exact ⟨by decide, by decide⟩
      · exact ⟨by decide, by decide⟩
    · cases hflip

/-- A tag with plain attributes is one line. -/
theorem not_mem_tag {head tail : String} {pairs : List (String × String)}
    (hhead : '\n' ∉ head.toList) (htail : '\n' ∉ tail.toList) (hpairs : ∀ a ∈ pairs, Plain a) :
    '\n' ∉ tag head pairs tail := by
  unfold tag
  simp [hhead, htail, not_mem_written hpairs]

/-- **Plain attributes are read back** from their tag. -/
theorem attributesOf_toList_tag {head tail : String} {pairs : List (String × String)}
    (hne : pairs ≠ []) (hhead : '"' ∉ head.toList) (htail : '"' ∉ tail.toList)
    (hpairs : ∀ a ∈ pairs, Plain a) : attributesOf (tag head pairs tail) = texts pairs := by
  unfold tag
  rw [attributesOf_tag hhead hne hpairs, attributesOf_of_not_mem htail, List.append_nil]

/-- A plain attribute is found by its name. -/
theorem attribute?_tag {head tail : String} {pairs : List (String × String)} (name : String)
    (hne : pairs ≠ []) (hhead : '"' ∉ head.toList) (htail : '"' ∉ tail.toList)
    (hpairs : ∀ a ∈ pairs, Plain a) :
    attribute? name (tag head pairs tail) = (pairs.lookup name).map String.toList := by
  unfold attribute?
  rw [attributesOf_toList_tag hne hhead htail hpairs, lookup_texts]

/-! ## The text of a document -/

theorem exists_laid {text : String} (h : document page segments = .ok text) :
    ∃ bounds places, Laid page segments bounds places := by
  obtain ⟨all, hall, _⟩ := map_eq_ok_iff.1 h
  obtain ⟨bounds, places, hlaid, _⟩ := lines_eq_ok_iff.1 hall
  exact ⟨bounds, places, hlaid⟩

/-- The lines of a page that is laid with its bounds and its places. -/
theorem Laid.lines_eq (h : Laid page segments bounds places) :
    lines page segments = .ok (frontLines places page (bounds.widen page.margin) ++
      elements places page.style segments ++ backLines) :=
  lines_eq_ok_iff.2 ⟨bounds, places, h, rfl⟩

/-- The lines between the line feeds of a document. -/
theorem Laid.splitOn_document {text : String} (hlaid : Laid page segments bounds places)
    (h : document page segments = .ok text) :
    text.toList.splitOn '\n' =
      (frontLines places page (bounds.widen page.margin) ++
        elements places page.style segments ++ backLines).flatMap
          (fun line => line.toList.splitOn '\n') ++ [[]] := by
  obtain ⟨all, hall, rfl⟩ := map_eq_ok_iff.1 h
  rw [hlaid.lines_eq] at hall
  rw [← Except.ok.inj hall]
  exact splitOn_lines _

end Svg

end TurtleGrammar
