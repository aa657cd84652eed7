import TurtleGrammar.Proofs.Entity
import TurtleGrammar.Proofs.Page

/-!
# `TurtleGrammar.Proofs.Elements` — a drawing read back from its page

The lines of a document that begin as elements do are the elements of the segments, one for each and
in their order. A title cannot look like one, although it may have line feeds of its own: no
less-than sign of it stays. What an element says of its segment are its rounded coordinates and its
stroke.

## Contents
- `Svg.elementLines`: the lines of a text that begin as elements do.
- `Svg.TameLook`: looks none of whose strings has a double quote or a line feed.
- `Svg.Laid.elementLines_eq`: the lines of a document that begin so are the elements.
- `Svg.document_elements`: what is read from them.
-/

namespace TurtleGrammar

namespace Svg

open Markup

variable {page : Page} {segments : List Segment} {bounds : Bounds} {places : Nat} {text : String}
  {style : Style} {index count : Nat}

/-! ## Lines that begin as elements do -/

/-- How the line of an element begins. -/
def elementMark : List Char := "    <line ".toList

/-- The lines of a text that begin as elements do. -/
def elementLines (text : List Char) : List (List Char) :=
  (text.splitOn '\n').filter elementMark.isPrefixOf

/-- Are the strings of the look and the background without double quotes and line feeds? -/
structure TameLook (page : Page) : Prop where
  stroke : Tame page.style.stroke
  lineCap : Tame page.style.lineCap
  palette : ∀ colour ∈ page.style.palette, Tame colour
  background : ∀ colour ∈ page.background, Tame colour

/-- A text that begins otherwise does not begin as an element. -/
theorem not_isPrefixOf_append {head : List Char} (hshort : ¬ head <+: elementMark)
    (hlong : ¬ elementMark <+: head) (rest : List Char) :
    elementMark.isPrefixOf (head ++ rest) = false := by
  rw [Bool.eq_false_iff, Ne, List.isPrefixOf_iff_prefix]
  intro h
  rcases List.prefix_or_prefix_of_prefix h (List.prefix_append head rest) with hmark | hhead
  · exact hlong hmark
  · exact hshort hhead

/-- A tag in one line is no element if it begins otherwise. -/
theorem filter_tag {head tail : String} {pairs : List (String × String)}
    (hshort : ¬ head.toList <+: elementMark) (hlong : ¬ elementMark <+: head.toList)
    (hline : '\n' ∉ tag head pairs tail) :
    ((tag head pairs tail).splitOn '\n').filter elementMark.isPrefixOf = [] := by
  have hmark : elementMark.isPrefixOf (tag head pairs tail) = false := by
    unfold tag
    rw [List.append_assoc]
    exact not_isPrefixOf_append hshort hlong _
  rw [List.splitOn_eq_singleton hline, List.filter_cons_of_neg (by simp [hmark]), List.filter_nil]

/-! ## The title -/

/-- No less-than sign stays in a text that is escaped. -/
theorem not_mem_escape (title : String) : '<' ∉ (escape title).toList := by
  rw [toList_escape]
  exact not_mem_flatMap_encode (by decide) (by decide) title.toList

/-- The first part of a text begins as the text does. -/
theorem exists_mem_splitOn_cons {separator c : Char} (hne : c ≠ separator) (rest : List Char) :
    ∃ piece ∈ (c :: rest).splitOn separator, piece.head? = some c := by
  obtain ⟨piece, others, hrest⟩ := List.exists_cons_of_ne_nil (List.splitOn_ne_nil separator rest)
  refine ⟨c :: piece, ?_, rfl⟩
  rw [List.splitOn_cons_eq_if_modifyHead, if_neg (by simpa using hne), hrest]
  exact List.mem_cons_self

/-- The less-than signs of a title line are those of its tags. -/
theorem splitOn_titleLine (title : String) :
    ("  <title>" ++ escape title ++ "</title>").toList.splitOn '<' =
      ["  ".toList, "title>".toList ++ (escape title).toList, "/title>".toList] := by
  have htext : ("  <title>" ++ escape title ++ "</title>").toList =
      "  ".toList ++ '<' :: (("title>".toList ++ (escape title).toList) ++
        '<' :: "/title>".toList) := by
    rw [String.toList_append, String.toList_append, List.append_assoc, List.append_assoc]
    rfl
  have htitle : '<' ∉ "title>".toList ++ (escape title).toList := by
    rw [List.mem_append, not_or]
    exact ⟨by decide, not_mem_escape title⟩
  rw [htext, List.splitOn_append_cons_self_of_not_mem (by decide),
    List.splitOn_append_cons_self_of_not_mem htitle, List.splitOn_eq_singleton (by decide)]

/-- No line of a title begins as an element does. -/
theorem filter_title (title : String) :
    (("  <title>" ++ escape title ++ "</title>").toList.splitOn '\n').filter
      elementMark.isPrefixOf = [] := by
  rw [List.filter_eq_nil_iff]
  intro piece hpiece hmark
  rw [List.isPrefixOf_iff_prefix] at hmark
  -- after a less-than sign an element goes on with another letter than the tags of a title
  have hsign : elementMark = "    ".toList ++ '<' :: 'l' :: "ine ".toList := by decide
  obtain ⟨before, after, htext⟩ := hmark.isInfix.trans (isInfix_of_mem_splitOn hpiece)
  have hline : ("  <title>" ++ escape title ++ "</title>").toList =
      (before ++ "    ".toList) ++ '<' :: 'l' :: ("ine ".toList ++ after) := by
    rw [← htext, hsign]
    simp only [List.append_assoc, List.cons_append]
  obtain ⟨part, hpart, hhead⟩ :=
    exists_mem_splitOn_cons (show 'l' ≠ '<' by decide) ("ine ".toList ++ after)
  have hmem : part ∈ ("  <title>" ++ escape title ++ "</title>").toList.splitOn '<' := by
    rw [hline, List.splitOn_append_cons_self]
    exact List.mem_append_right _ hpart
  rw [splitOn_titleLine] at hmem
  simp only [List.mem_cons, List.not_mem_nil, or_false] at hmem
  rcases hmem with rfl | rfl | rfl
  · cases hhead
  · cases hhead
  · cases hhead

/-! ## The lines of a document -/

/-- No line before the elements begins as an element does. -/
theorem filter_frontLines (htame : TameLook page) (places : Nat) (box : Bounds) :
    ∀ line ∈ frontLines places page box,
      (line.toList.splitOn '\n').filter elementMark.isPrefixOf = [] := by
  intro line hline
  unfold frontLines headLines at hline
  simp only [List.mem_append, List.mem_cons, List.not_mem_nil, or_false] at hline
  rcases hline with (((rfl | rfl) | htitle) | hbackground) | rfl
  · decide
  · rw [openingLine_eq]
    exact filter_tag (by decide) (by decide)
      (not_mem_tag (by decide) (by decide) (plain_openingPairs places page box))
  · unfold titleLines at htitle
    split at htitle
    · split at htitle
      · cases htitle
      · rw [List.mem_singleton.1 htitle]
        exact filter_title _
    · cases htitle
  · have hmem := List.mem_map_of_mem (f := String.toList) hbackground
    rw [backgroundLines_eq] at hmem
    obtain ⟨colour, hcolour, htag⟩ := List.mem_map.1 hmem
    have hshown : colour ∈ page.background :=
      (Option.mem_filter_iff.1 (Option.mem_toList.1 hcolour)).1
    rw [← htag]
    exact filter_tag (by decide) (by decide)
      (not_mem_tag (by decide) (by decide)
        (plain_backgroundPairs places box (htame.background colour hshown)))
  · rw [groupLine_eq]
    exact filter_tag (by decide) (by decide)
      (not_mem_tag (by decide) (by decide)
        (plain_groupPairs places box htame.stroke htame.lineCap))

/-- A colour that is a line's own is one of the palette. -/
theorem mem_palette_of_mem_lineStroke {colour : String}
    (h : colour ∈ lineStroke style index count) : colour ∈ style.palette := by
  unfold lineStroke Style.strokeOfLine at h
  split at h
  · cases h
  · dsimp only at h
    split at h
    · next found hfound =>
      obtain rfl := Option.some.inj h
      unfold Style.element? at hfound
      split at hfound
      · exact List.mem_of_getElem? hfound
      · split at hfound
        · exact List.mem_of_getElem? hfound
        · cases hfound
    · cases h

/-- The stroke of a tame look that is a line's own is tame. -/
theorem TameLook.lineStroke (htame : TameLook page) (index count : Nat) :
    ∀ colour ∈ Svg.lineStroke page.style index count, Tame colour := fun colour h =>
  htame.palette colour (mem_palette_of_mem_lineStroke h)

/-- An element is one line that begins as elements do. -/
theorem filter_segmentLine (places : Nat) (s : Segment) {stroke : Option String}
    (h : ∀ value ∈ stroke, Tame value) :
    ((segmentLine places s stroke).toList.splitOn '\n').filter elementMark.isPrefixOf =
      [(segmentLine places s stroke).toList] := by
  have hline : '\n' ∉ (segmentLine places s stroke).toList := by
    rw [segmentLine_eq]
    exact not_mem_tag (by decide) (by decide) (plain_segmentPairs places s h)
  have hmark : elementMark.isPrefixOf (segmentLine places s stroke).toList = true := by
    rw [List.isPrefixOf_iff_prefix]
    unfold segmentLine elementMark
    rw [String.toList_append, String.toList_append, List.append_assoc]
    exact List.prefix_append _ _
  rw [List.splitOn_eq_singleton hline, List.filter_cons_of_pos hmark, List.filter_nil]

/-- **The elements of a document** are the lines that begin as elements do. -/
theorem Laid.elementLines_eq (hlaid : Laid page segments bounds places) (htame : TameLook page)
    (h : document page segments = .ok text) :
    elementLines text.toList = (elements places page.style segments).map String.toList := by
  have hfront : (frontLines places page (bounds.widen page.margin)).flatMap (fun line =>
      (line.toList.splitOn '\n').filter elementMark.isPrefixOf) = [] :=
    List.flatMap_eq_nil_iff.2 (filter_frontLines htame places _)
  have hback : backLines.flatMap (fun line =>
      (line.toList.splitOn '\n').filter elementMark.isPrefixOf) = [] := by decide
  have helements : (elements places page.style segments).flatMap (fun line =>
      (line.toList.splitOn '\n').filter elementMark.isPrefixOf) =
        (elements places page.style segments).map String.toList := by
    unfold elements
    rw [List.flatMap_map, List.map_map, ← List.flatMap_pure_eq_map]
    refine List.flatMap_congr fun item _ => ?_
    exact filter_segmentLine places item.1 (htame.lineStroke item.2 segments.length)
  unfold elementLines
  rw [hlaid.splitOn_document h, List.filter_append, List.filter_flatMap, List.flatMap_append,
    List.flatMap_append, hfront, hback, helements, List.filter_cons_of_neg (by decide)]
  simp only [List.nil_append, List.append_nil, List.filter_nil]

/-! ## What is read from an element -/

/-- Is a text the decimal of the multiple of a step nearest to a number, of two the even one? -/
def ReadsNearest (text : List Char) (places : Nat) (x : Binary64) : Prop :=
  ∃ k : ℤ, decimalValue? text = some (k / 10 ^ places : ℚ) ∧ NearestEven (x.value * 10 ^ places) k

/-- Are the ends of a segment finite? -/
structure FiniteEnds (s : Segment) : Prop where
  start_x : s.start.x.isFinite = true
  start_y : s.start.y.isFinite = true
  stop_x : s.stop.x.isFinite = true
  stop_y : s.stop.y.isFinite = true

/-- An element shows its segment: it has the ends as attributes, each rounded. -/
structure ShowsEnds (line : List Char) (places : Nat) (s : Segment) : Prop where
  x1 : ∃ value, attribute? "x1" line = some value ∧ ReadsNearest value places s.start.x
  y1 : ∃ value, attribute? "y1" line = some value ∧ ReadsNearest value places s.start.y
  x2 : ∃ value, attribute? "x2" line = some value ∧ ReadsNearest value places s.stop.x
  y2 : ∃ value, attribute? "y2" line = some value ∧ ReadsNearest value places s.stop.y

theorem readsNearest_coordinate {x : Binary64} (h : x.isFinite = true) (places : Nat) :
    ReadsNearest (coordinate places x).toList places x := by
  unfold ReadsNearest coordinate
  rw [String.toList_ofList]
  exact Binary64.decimalValue?_coordinate h places

/-- The attributes of an element are found by their names. -/
theorem attribute?_segmentLine (name : String) (places : Nat) (s : Segment) {stroke : Option String}
    (h : ∀ value ∈ stroke, Tame value) :
    attribute? name (segmentLine places s stroke).toList =
      ((segmentPairs places s stroke).lookup name).map String.toList := by
  rw [segmentLine_eq]
  exact attribute?_tag name (List.cons_ne_nil _ _) (by decide) (by decide)
    (plain_segmentPairs places s h)

/-- An element of a segment with finite ends shows it. -/
theorem showsEnds_segmentLine {s : Segment} (hfinite : FiniteEnds s) (places : Nat)
    {stroke : Option String} (h : ∀ value ∈ stroke, Tame value) :
    ShowsEnds (segmentLine places s stroke).toList places s := by
  have hattribute := fun name => attribute?_segmentLine name places s h
  constructor
  · exact ⟨_, hattribute "x1", readsNearest_coordinate hfinite.start_x places⟩
  · exact ⟨_, hattribute "y1", readsNearest_coordinate hfinite.start_y places⟩
  · exact ⟨_, hattribute "x2", readsNearest_coordinate hfinite.stop_x places⟩
  · exact ⟨_, hattribute "y2", readsNearest_coordinate hfinite.stop_y places⟩

/-- An element has a stroke if it has one of its own. -/
theorem attribute?_stroke_segmentLine (places : Nat) (s : Segment) {stroke : Option String}
    (h : ∀ value ∈ stroke, Tame value) :
    attribute? "stroke" (segmentLine places s stroke).toList = stroke.map String.toList := by
  rw [attribute?_segmentLine "stroke" places s h]
  cases stroke <;> rfl

/-- With a palette the stroke of a line is the colour that the palette has for it. -/
theorem exists_lineStroke (hne : style.palette ≠ []) (h : index < count) :
    ∃ colour, style.strokeOfLine index count = .ok colour ∧
      lineStroke style index count = some colour := by
  obtain ⟨colour, hcolour⟩ := style.exists_strokeOfLine h
  refine ⟨colour, hcolour, ?_⟩
  unfold lineStroke
  rw [if_neg (by simpa using hne), hcolour]
  rfl

/-- **A drawing is read back** from its document. There is one element for each segment, in their
    order. It has the ends of the segment as attributes, each the multiple of a step nearest to the
    coordinate, and it has a stroke exactly if there is a palette, namely the one for its line. -/
theorem document_elements (h : document page segments = .ok text) (htame : TameLook page)
    (hfinite : ∀ s ∈ segments, FiniteEnds s) :
    ∃ places : Nat, page.places = places ∧
      (elementLines text.toList).length = segments.length ∧
      ∀ (i : Nat) (s : Segment), segments[i]? = some s →
        ∃ line, (elementLines text.toList)[i]? = some line ∧ ShowsEnds line places s ∧
          (page.style.palette = [] → attribute? "stroke" line = none) ∧
          (page.style.palette ≠ [] → ∃ colour,
            page.style.strokeOfLine i segments.length = .ok colour ∧
            attribute? "stroke" line = some colour.toList) := by
  obtain ⟨bounds, places, hlaid⟩ := exists_laid h
  have hlines := hlaid.elementLines_eq htame h
  refine ⟨places, hlaid.places_eq, ?_, fun i s hs => ?_⟩
  · rw [hlines, List.length_map, length_elements]
  · have hstroke := htame.lineStroke i segments.length
    have hcount : i < segments.length := (List.getElem?_eq_some_iff.1 hs).1
    refine ⟨(segmentLine places s (Svg.lineStroke page.style i segments.length)).toList, ?_,
      showsEnds_segmentLine (hfinite s (List.mem_of_getElem? hs)) places hstroke, ?_, ?_⟩
    · rw [hlines, List.getElem?_map, getElem?_elements, hs]
      rfl
    · intro hpalette
      rw [attribute?_stroke_segmentLine places s hstroke]
      unfold Svg.lineStroke
      rw [hpalette]
      rfl
    · intro hpalette
      obtain ⟨colour, hcolour, hown⟩ := exists_lineStroke hpalette hcount
      refine ⟨colour, hcolour, ?_⟩
      rw [attribute?_stroke_segmentLine places s hstroke, hown]
      rfl

/-- A page with a palette and a title that has a line like an element. -/
def titledPage : Page :=
  ⟨.one, 3, true, none, none, ⟨"#000", .one, "round", ["red", "blue"]⟩, some "white",
    some "bend\n    <line x1=\"7\" />"⟩

/-- A line across and one upwards from its end. -/
def bend : List Segment :=
  [.plain .origin ⟨.one, .zero⟩, .plain ⟨.one, .zero⟩ ⟨.one, .one⟩]

theorem finiteEnds_bend : ∀ s ∈ bend, FiniteEnds s := by
  intro s hs
  simp only [bend, List.mem_cons, List.not_mem_nil, or_false] at hs
  rcases hs with rfl | rfl
  · exact ⟨rfl, rfl, rfl, rfl⟩
  · exact ⟨rfl, rfl, rfl, rfl⟩

/-- The title of the page is no element; the second line is shown in the second colour. -/
theorem document_elements_bend :
    TameLook titledPage ∧ (∀ s ∈ bend, FiniteEnds s) ∧
      ∃ text, document titledPage bend = .ok text ∧
        (elementLines text.toList).length = 2 ∧
        ∃ line, (elementLines text.toList)[1]? = some line ∧
          ShowsEnds line 3 (.plain ⟨.one, .zero⟩ ⟨.one, .one⟩) ∧
          attribute? "stroke" line = some "blue".toList := by
  have htame : TameLook titledPage := by
    constructor
    · exact ⟨by decide, by decide⟩
    · exact ⟨by decide, by decide⟩
    · intro colour hcolour
      simp only [titledPage, List.mem_cons, List.not_mem_nil, or_false] at hcolour
      rcases hcolour with rfl | rfl
      · exact ⟨by decide, by decide⟩
      · exact ⟨by decide, by decide⟩
    · rintro colour ⟨⟩
      exact ⟨by decide, by decide⟩
  have hdrawn : (document titledPage bend).isOk = true := by decide +kernel
  obtain ⟨text, htext⟩ := exists_of_isOk hdrawn
  obtain ⟨places, hplaces, hlength, hshown⟩ := document_elements htext htame finiteEnds_bend
  obtain ⟨line, hline, hends, _, hstroke⟩ := hshown 1 _ rfl
  obtain ⟨colour, hcolour, hvalue⟩ := hstroke (List.cons_ne_nil _ _)
  obtain rfl : 3 = places := Int.ofNat.inj hplaces
  have hblue : titledPage.style.strokeOfLine (1 : Nat) bend.length = .ok "blue" := by
    decide +kernel
  obtain rfl : colour = "blue" := Except.ok.inj (hcolour.symm.trans hblue)
  exact ⟨htame, finiteEnds_bend, text, htext, hlength, line, hline, hends, hvalue⟩

end Svg

end TurtleGrammar
