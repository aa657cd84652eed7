import TurtleGrammar.Proofs.Elements
import TurtleGrammar.Proofs.Entity
import TurtleGrammar.Proofs.Rendered

/-!
# `TurtleGrammar.Proofs.Attribute` — strings of a configuration in attributes

Four kinds of strings come into a document as attribute values: the stroke and the cap of the group,
the colours of the palette and the background. They are written as they are, in contrast to the
title. A reader that stops at the next double quote and undoes the entities gets the string back
exactly if it has no double quote, no less-than sign and no ampersand.

## Contents
- `Svg.Slot`, `Svg.Slot.given?`: the attributes and the strings that are given for them.
- `Svg.Site`, `Svg.Slot.site`: where in a document such an attribute opens.
- `Svg.shows_site`, `Svg.Site.Shows.exists_eq`: the string stands there as it is.
- `Svg.document_slot`: the strings that are read back.
-/

namespace TurtleGrammar

namespace Svg

open Markup

variable {page : Page} {segments : List Segment} {box : Bounds} {places : Nat}
  {text given : String}

/-! ## Attributes whose values are given -/

/-- An attribute whose value is a string of the configuration: of the group, of the background, or
    of the element of a line. -/
inductive Slot where
  | stroke
  | lineCap
  | background
  | colour (line : Nat)

/-- The string that is given for an attribute, if the document has that attribute. -/
def Slot.given? (page : Page) (count : Nat) : Slot → Option String
  | stroke => if page.style.palette.isEmpty then some page.style.stroke else none
  | lineCap => some page.style.lineCap
  | background => shownBackground page
  | colour line => if line < count then lineStroke page.style line count else none

/-- Where an attribute stands: the lines before its own, how its tag begins, the attributes before
    it, and its name. -/
structure Site where
  before : List String
  head : String
  pairs : List (String × String)
  name : String

/-- The text of lines with a line feed after each. -/
def joined (all : List String) : List Char := (String.join (all.map (· ++ "\n"))).toList

/-- The text up to the value of an attribute, with the quote that opens it. -/
def Site.opening (site : Site) : List Char :=
  joined site.before ++ site.head.toList ++ written site.pairs ++ ' ' :: site.name.toList ++
    ['=', '"']

/-- Where an attribute stands in a document. -/
def Slot.site (places : Nat) (page : Page) (box : Bounds) (segments : List Segment) : Slot → Site
  | stroke =>
    ⟨headLines places page box ++ backgroundLines places page box, "  <g", [], "stroke"⟩
  | lineCap =>
    ⟨headLines places page box ++ backgroundLines places page box, "  <g",
      strokePairs places page, "stroke-linecap"⟩
  | background =>
    ⟨headLines places page box, "  <rect",
      [("x", coordinate places box.x.low), ("y", coordinate places box.y.low),
        ("width", coordinate places box.x.size), ("height", coordinate places box.y.size)], "fill"⟩
  | colour line =>
    ⟨frontLines places page box ++ (elements places page.style segments).take line, "    <line",
      segments[line]?.toList.flatMap fun s => segmentPairs places s none, "stroke"⟩

/-! ## Values as they are written -/

theorem joined_append (front rest : List String) :
    joined (front ++ rest) = joined front ++ joined rest := by
  unfold joined
  rw [List.map_append, String.join_append, String.toList_append]

theorem joined_cons (line : String) (rest : List String) :
    joined (line :: rest) = line.toList ++ '\n' :: joined rest := by
  unfold joined
  rw [List.map_cons, String.join_cons, String.toList_append, String.toList_append,
    List.append_assoc]
  rfl

/-- Does a line at a site show a string? -/
def Site.Shows (site : Site) (all : List String) (given : String) : Prop :=
  ∃ line others tail after, all = site.before ++ line :: after ∧
    line.toList = tag site.head (site.pairs ++ (site.name, given) :: others) tail

/-- A value stands as it is after the text that opens it. -/
theorem Site.Shows.exists_eq {site : Site} {all : List String} (h : site.Shows all given) :
    ∃ rest, joined all = site.opening ++ given.toList ++ '"' :: rest := by
  obtain ⟨line, others, tail, after, rfl, hline⟩ := h
  refine ⟨written others ++ tail.toList ++ '\n' :: joined after, ?_⟩
  have hvalue : written ((site.name, given) :: others) =
      ' ' :: site.name.toList ++ ['=', '"'] ++ given.toList ++ '"' :: written others := by
    unfold written attr
    simp
  rw [joined_append, joined_cons, hline]
  unfold Site.opening tag
  rw [written_append, hvalue]
  simp only [List.append_assoc, List.cons_append, List.nil_append]

/-- A list around one of its elements. -/
theorem eq_take_append_of_getElem? {α : Type} {items : List α} {item : α} {i : Nat}
    (h : items[i]? = some item) : items = items.take i ++ item :: items.drop (i + 1) := by
  obtain ⟨hlt, rfl⟩ := List.getElem?_eq_some_iff.1 h
  conv_lhs => rw [← List.take_append_drop i items, List.drop_eq_getElem_cons hlt]

/-- The string that is given for an attribute is shown where the attribute stands. -/
theorem shows_site (slot : Slot) (hgiven : slot.given? page segments.length = some given) :
    (slot.site places page box segments).Shows
      (frontLines places page box ++ elements places page.style segments ++ backLines) given := by
  rw [List.append_assoc]
  cases slot with
  | stroke =>
      unfold Slot.given? at hgiven
      obtain ⟨hempty, hstroke⟩ := Option.ite_none_right_eq_some.1 hgiven
      refine ⟨_, (groupPairs places page box).tail, ">", _, frontLines_append places page box _, ?_⟩
      rw [groupLine_eq]
      unfold groupPairs strokePairs
      rw [if_pos hempty, Option.some.inj hstroke]
      rfl
  | lineCap =>
      obtain rfl := Option.some.inj hgiven
      exact ⟨_, turnPairs places page box, ">", _, frontLines_append places page box _,
        groupLine_eq places page box⟩
  | background =>
      have hlines := backgroundLines_eq places page box
      rw [show shownBackground page = some given from hgiven] at hlines
      obtain ⟨line, hbackground, hline⟩ := List.map_eq_singleton_iff.1 hlines
      refine ⟨line, [], " />",
        groupLine places page box :: (elements places page.style segments ++ backLines), ?_, hline⟩
      rw [frontLines_append, hbackground]
      simp only [Slot.site, List.append_assoc, List.cons_append, List.nil_append]
  | colour line =>
      unfold Slot.given? at hgiven
      obtain ⟨hline, hstroke⟩ := Option.ite_none_right_eq_some.1 hgiven
      have hs : segments[line]? = some segments[line] := List.getElem?_eq_getElem hline
      have helement : (elements places page.style segments)[line]? =
          some (segmentLine places segments[line] (some given)) := by
        rw [getElem?_elements, hs, hstroke]
        rfl
      have hpairs : (segments[line]?.toList.flatMap fun s => segmentPairs places s none) ++
          [("stroke", given)] = segmentPairs places segments[line] (some given) := by
        rw [hs]
        rfl
      refine ⟨segmentLine places segments[line] (some given), [], " />",
        (elements places page.style segments).drop (line + 1) ++ backLines, ?_, ?_⟩
      · conv_lhs => rw [eq_take_append_of_getElem? helement]
        simp only [Slot.site, List.append_assoc, List.cons_append]
      · rw [segmentLine_eq, ← hpairs]
        rfl

/-- **Strings of a configuration in a document.** The string that is given for an attribute stands
    as it is after the text that opens the attribute, up to a double quote. What a reader takes to
    be the value is read back as that string, without a less-than sign and without an ampersand but
    of entities, exactly if the string has no double quote, no less-than sign and no ampersand. -/
theorem document_slot (h : document page segments = .ok text) (slot : Slot)
    (hgiven : slot.given? page segments.length = some given) :
    ∃ bounds places, Laid page segments bounds places ∧ ∃ opening rest,
      opening = (slot.site places page (bounds.widen page.margin) segments).opening ∧
      text.toList = opening ++ given.toList ++ '"' :: rest ∧
      (KeepsText Entity.predefined (quoted (text.toList.drop opening.length)) given.toList ↔
        '"' ∉ given.toList ∧ '<' ∉ given.toList ∧ '&' ∉ given.toList) := by
  obtain ⟨bounds, places, hlaid⟩ := exists_laid h
  obtain ⟨all, hall, rfl⟩ := map_eq_ok_iff.1 h
  rw [hlaid.lines_eq] at hall
  have hshows : (slot.site places page (bounds.widen page.margin) segments).Shows
      (frontLines places page (bounds.widen page.margin) ++
        elements places page.style segments ++ backLines) given := shows_site slot hgiven
  obtain ⟨rest, hrest⟩ := hshows.exists_eq
  rw [Except.ok.inj hall] at hrest
  refine ⟨bounds, places, hlaid, _, rest, rfl, hrest, ?_⟩
  have hvalue : ((String.join (all.map (· ++ "\n"))).toList).drop
      (slot.site places page (bounds.widen page.margin) segments).opening.length =
        given.toList ++ '"' :: rest := by
    change (joined all).drop _ = _
    rw [hrest, List.append_assoc, List.drop_left]
  rw [hvalue]
  exact keepsText_quoted_iff isTable_predefined rest

/-- A background without special characters is read back. -/
theorem document_slot_white :
    Slot.background.given? titledPage bend.length = some "white" ∧
      ∃ text, document titledPage bend = .ok text ∧ ∃ opening rest,
        text.toList = opening ++ "white".toList ++ '"' :: rest ∧
        KeepsText Entity.predefined (quoted (text.toList.drop opening.length)) "white".toList := by
  have hgiven : Slot.background.given? titledPage bend.length = some "white" := by
    decide +kernel
  have hdrawn : (document titledPage bend).isOk = true := by decide +kernel
  obtain ⟨text, htext⟩ := exists_of_isOk hdrawn
  obtain ⟨_, _, _, opening, rest, _, hvalue, hkept⟩ := document_slot htext .background hgiven
  exact ⟨hgiven, text, htext, opening, rest, hvalue, hkept.2 ⟨by decide, by decide, by decide⟩⟩

end Svg

/-- A stroke that closes its attribute and opens another one. -/
def breakingStroke : String := "red\" onload=\"run()"

/-- The member of a configuration with this stroke. -/
def breakingMembers : List (String × Json) :=
  [("svg", .object [("style", .object [("stroke", .string breakingStroke)])])]

/-- The group of a page with this stroke. -/
def brokenGroup : String :=
  "  <g stroke=\"red\" onload=\"run()\" stroke-width=\"1\" stroke-linecap=\"round\" " ++
    "transform=\"translate(0,1) scale(1,-1)\">"

/-- The stroke is accepted and written as it is, so that the group has an attribute that nothing in
    the configuration names. What is read as the stroke is not what was given. -/
theorem document_slot_broken :
    page? (.object (uprightMembers ++ breakingMembers)) =
        some (uprightPage uprightOpening brokenGroup) ∧
      Markup.attribute? "stroke" brokenGroup.toList = some "red".toList ∧
      Markup.attribute? "onload" brokenGroup.toList = some "run()".toList ∧
      ¬ Markup.KeepsText Entity.predefined "red".toList breakingStroke.toList := by
  refine ⟨by decide +kernel, by decide +kernel, by decide +kernel, ?_⟩
  rintro ⟨hundone, _, _⟩
  have hred : Markup.undo Entity.predefined 0 "red".toList = "red".toList := by decide
  rw [hred] at hundone
  exact absurd hundone (by decide)

end TurtleGrammar
