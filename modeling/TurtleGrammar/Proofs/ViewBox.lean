import Mathlib
import TurtleGrammar.Proofs.Coordinate
import TurtleGrammar.Proofs.HeadingRange
import TurtleGrammar.Proofs.Page
import TurtleGrammar.Proofs.Rendered

/-!
# `TurtleGrammar.Proofs.ViewBox` — the view box of a page

A page is refused if its box has no extent, but what a page shows of its box is rounded. The view
box is usable, four decimals with both sizes above zero, exactly if both sizes are finite and more
than half a step of the last place. A page that is not refused can fail both: an infinite margin
makes sizes infinite, and a line along an axis can be thinner than half a step.

## Contents
- `Svg.viewBoxNumbers?`, `Svg.HasViewBox`: the view box that a document shows.
- `Svg.Laid.viewBoxNumbers?_eq`: its numbers are those of the box, rounded.
- `Svg.Laid.hasViewBox_iff`: the boxes that are shown as usable ones.
- `session_viewBox`: the view box of a page that a run has written.
-/

namespace TurtleGrammar

namespace Binary64

variable {x y : Binary64}

theorem isFinite_neg (x : Binary64) : (-x).isFinite = x.isFinite := by cases x <;> rfl

theorem isFinite_of_sub (h : (x - y).isFinite = true) : x.isFinite = true ∧ y.isFinite = true := by
  obtain ⟨hx, hy⟩ := isFinite_of_add h
  exact ⟨hx, isFinite_neg y ▸ hy⟩

/-- Is the number finite, and more than half a step of the last of its places? -/
def ExceedsHalfStep (x : Binary64) (places : Nat) : Prop :=
  x.isFinite = true ∧ 1 < 2 * (x.value * 10 ^ places)

/-- A number is shown as a decimal above zero if it exceeds half a step. -/
theorem exists_decimalValue?_pos_iff {places : Nat} :
    (∃ v, decimalValue? (x.coordinate places) = some v ∧ 0 < v) ↔ x.ExceedsHalfStep places := by
  have hten : (0 : ℚ) < 10 ^ places := by positivity
  constructor
  · rintro ⟨v, hv, hpos⟩
    cases hfinite : x.isFinite with
    | false =>
        rw [decimalValue?_coordinate_eq_none hfinite] at hv
        cases hv
    | true =>
        obtain ⟨k, hk, hnear⟩ := decimalValue?_coordinate hfinite places
        rw [hk] at hv
        obtain rfl := Option.some.inj hv
        have hcount : (0 : ℚ) < k := (div_pos_iff_of_pos_right hten).1 hpos
        exact ⟨hfinite, hnear.pos_iff.1 (by exact_mod_cast hcount)⟩
  · rintro ⟨hfinite, hhalf⟩
    obtain ⟨k, hk, hnear⟩ := decimalValue?_coordinate hfinite places
    have hcount : (0 : ℚ) < k := by exact_mod_cast hnear.pos_iff.2 hhalf
    exact ⟨_, hk, div_pos hcount hten⟩

end Binary64

namespace Svg

open Markup

variable {page : Page} {segments : List Segment} {bounds box : Bounds} {places : Nat}
  {text : String}

/-! ## What a document shows -/

/-- The numbers of the view box in the second line of a document, where its opening tag is. -/
def viewBoxNumbers? (text : List Char) : Option (List ℚ) :=
  (text.splitOn '\n')[1]?.bind fun line =>
    (attribute? "viewBox" line).bind fun value => (value.splitOn ' ').mapM decimalValue?

/-- Does a document show a view box of four decimals, its width and its height above zero? -/
def HasViewBox (text : List Char) : Prop :=
  ∃ x y width height, viewBoxNumbers? text = some [x, y, width, height] ∧ 0 < width ∧ 0 < height

theorem splitOn_viewBoxText (places : Nat) (box : Bounds) :
    (viewBoxText places box).toList.splitOn ' ' =
      [box.x.low.coordinate places, box.y.low.coordinate places,
        box.x.size.coordinate places, box.y.size.coordinate places] := by
  have hblank : ∀ x : Binary64, ' ' ∉ x.coordinate places := fun x =>
    Binary64.not_mem_coordinate (by decide) x places
  have htext : (viewBoxText places box).toList =
      box.x.low.coordinate places ++ ' ' :: (box.y.low.coordinate places ++
        ' ' :: (box.x.size.coordinate places ++ ' ' :: box.y.size.coordinate places)) := by
    simp [viewBoxText, coordinate]
  rw [htext, List.splitOn_append_cons_self_of_not_mem (hblank _),
    List.splitOn_append_cons_self_of_not_mem (hblank _),
    List.splitOn_append_cons_self_of_not_mem (hblank _), List.splitOn_eq_singleton (hblank _)]

/-- The second line of a document is its opening tag. -/
theorem Laid.secondLine (hlaid : Laid page segments bounds places)
    (h : document page segments = .ok text) : (text.toList.splitOn '\n')[1]? =
      some (tag "<svg" (openingPairs places page (bounds.widen page.margin)) ">") := by
  have hfirst : '\n' ∉ "<?xml version=\"1.0\" encoding=\"UTF-8\"?>".toList := by decide
  have hsecond : '\n' ∉ (openingLine places page (bounds.widen page.margin)).toList := by
    rw [openingLine_eq]
    exact not_mem_tag (by decide) (by decide) (plain_openingPairs places page _)
  rw [hlaid.splitOn_document h]
  unfold frontLines headLines
  simp only [List.cons_append, List.nil_append, List.flatMap_cons,
    List.splitOn_eq_singleton hfirst, List.splitOn_eq_singleton hsecond]
  rw [← openingLine_eq]
  rfl

/-- **The numbers of the view box** are those of the box, each rounded to its coordinate. -/
theorem Laid.viewBoxNumbers?_eq (hlaid : Laid page segments bounds places)
    (h : document page segments = .ok text) (hbox : bounds.widen page.margin = box) :
    viewBoxNumbers? text.toList =
      [box.x.low, box.y.low, box.x.size, box.y.size].mapM fun x =>
        decimalValue? (x.coordinate places) := by
  have hvalue : attribute? "viewBox" (tag "<svg" (openingPairs places page box) ">") =
      some (viewBoxText places box).toList :=
    attribute?_tag "viewBox" (List.cons_ne_nil _ _) (by decide) (by decide)
      (plain_openingPairs places page box)
  unfold viewBoxNumbers?
  rw [hlaid.secondLine h, hbox, Option.bind_some, hvalue, Option.bind_some, splitOn_viewBoxText]
  rfl

theorem mapM_quad_eq_some_iff {α β : Type} {f : α → Option β} {a b c d : α} {w x y z : β} :
    [a, b, c, d].mapM f = some [w, x, y, z] ↔
      f a = some w ∧ f b = some x ∧ f c = some y ∧ f d = some z := by
  simp [List.mapM_cons, Option.bind_eq_some_iff]

/-- **Usable view boxes.** A document shows one exactly if both sizes of its box exceed half a step
    of the last place. -/
theorem Laid.hasViewBox_iff (hlaid : Laid page segments bounds places)
    (h : document page segments = .ok text) (hbox : bounds.widen page.margin = box) :
    HasViewBox text.toList ↔
      box.x.size.ExceedsHalfStep places ∧ box.y.size.ExceedsHalfStep places := by
  have hnumbers := hlaid.viewBoxNumbers?_eq h hbox
  constructor
  · rintro ⟨x, y, width, height, hshown, hwidth, hheight⟩
    rw [hnumbers, mapM_quad_eq_some_iff] at hshown
    obtain ⟨_, _, hw, hh⟩ := hshown
    exact ⟨Binary64.exists_decimalValue?_pos_iff.1 ⟨width, hw, hwidth⟩,
      Binary64.exists_decimalValue?_pos_iff.1 ⟨height, hh, hheight⟩⟩
  · rintro ⟨hwide, hhigh⟩
    -- a finite size has both of its ends finite
    obtain ⟨x, hx, _⟩ := Binary64.decimalValue?_coordinate
      (Binary64.isFinite_of_sub hwide.1).2 places
    obtain ⟨y, hy, _⟩ := Binary64.decimalValue?_coordinate
      (Binary64.isFinite_of_sub hhigh.1).2 places
    obtain ⟨width, hwidth, hwidth_pos⟩ := Binary64.exists_decimalValue?_pos_iff.2 hwide
    obtain ⟨height, hheight, hheight_pos⟩ := Binary64.exists_decimalValue?_pos_iff.2 hhigh
    refine ⟨x / 10 ^ places, y / 10 ^ places, width, height, ?_, hwidth_pos, hheight_pos⟩
    rw [hnumbers, mapM_quad_eq_some_iff]
    exact ⟨hx, hy, hwidth, hheight⟩

end Svg

open CommandLine

/-! ## Pages that were written -/

/-- A configuration of one line upwards, on a page with the usual margin. -/
def uprightText : String :=
  "\x7b\"axiom\":\"F\",\"turtle\":\x7b\"angle\":90\x7d,
    \"output\":\x7b\"remove_duplicates\":false\x7d\x7d"

/-- The same line on a page without a margin. -/
def flatText : String :=
  "\x7b\"axiom\":\"F\",\"turtle\":\x7b\"angle\":90\x7d,
    \"output\":\x7b\"remove_duplicates\":false\x7d,\"svg\":\x7b\"margin\":0\x7d\x7d"

/-- The member of the page without a margin. -/
def flatMembers : List (String × Json) := [("svg", .object [("margin", .integer 0)])]

/-- The opening tag of the page without a margin. -/
def flatOpening : String :=
  "<svg xmlns=\"http://www.w3.org/2000/svg\" version=\"1.1\" viewBox=\"0 0 0 1\">"

/-- The group of both pages. -/
def uprightGroup : String :=
  "  <g stroke=\"#000\" stroke-width=\"1\" stroke-linecap=\"round\" " ++
    "transform=\"translate(0,1) scale(1,-1)\">"

/-- The view box of the page stands in its opening tag. -/
theorem viewBoxNumbers?_uprightPage {opening : String} (h : '\n' ∉ opening.toList)
    (group : String) : Svg.viewBoxNumbers? (uprightPage opening group).toList =
      (Markup.attribute? "viewBox" opening.toList).bind fun value =>
        (value.splitOn ' ').mapM decimalValue? := by
  have hfirst : '\n' ∉ "<?xml version=\"1.0\" encoding=\"UTF-8\"?>".toList := by decide
  unfold Svg.viewBoxNumbers? uprightPage
  rw [Markup.splitOn_lines]
  simp only [List.flatMap_cons, List.splitOn_eq_singleton hfirst, List.splitOn_eq_singleton h]
  rfl

/-- With a margin the page of the line has a width. -/
theorem session_upright_margin :
    (session "" ["render", "c", "c"] (letterDisk (asciiContent uprightText))).1.ending =
        .status 0 ∧
      (session "" ["render", "c", "c"] (letterDisk (asciiContent uprightText))).2 =
        letterDisk (uprightPage uprightOpening uprightGroup).toUTF8.toList := by
  have hdecode : Text.decode (asciiContent uprightText) = .ok uprightText.toList :=
    eq_ok_of_toOption (by decide +kernel)
  have hread : Json.read (Text.unifyNewlines uprightText.toList) =
      .ok (.object uprightMembers) := by cbv
  have hpage : page? (.object uprightMembers) =
      some (uprightPage uprightOpening uprightGroup) := by decide +kernel
  exact session_letterDisk hdecode hread hpage

variable {time : String} {arguments : List String} {disk : Disk} {i : Invocation}
  {source : String} {target : Option String}

/-- **View boxes of written pages.** A run that renders and ends with status 0 has written the page
    of its drawing. The view box of that page has four decimals and a width and a height above zero
    exactly if both sizes of the box are finite and exceed half a step of the last place. -/
theorem session_viewBox (time : String) (disk : Disk) (h : Invocation.parse arguments = .ok i)
    (hrender : i.command = .render source target)
    (hended : (session time arguments disk).1.ending = .status 0) :
    ∃ path content c segments bounds, ∃ text : String, target = some path ∧
      disk.read source = .ok content ∧ Config.ofBytes source content = .ok c ∧
      c.drawing.segments.outcome = .ok segments ∧ Svg.Laid c.page segments bounds c.places ∧
      disk.Replaced (session time arguments disk).2 path text.toUTF8.toList ∧
      (Svg.HasViewBox text.toList ↔
        (bounds.widen c.margin).x.size.ExceedsHalfStep c.places ∧
        (bounds.widen c.margin).y.size.ExceedsHalfStep c.places) := by
  have hsession : session time arguments disk = i.execute time disk := by
    unfold session
    rw [h]
  rw [hsession] at hended ⊢
  unfold Invocation.execute at hended ⊢
  cases hlevel : i.level with
  | none =>
      rw [hlevel] at hended
      exact absurd hended (Failure.ending_close_ne _ _ _)
  | some level =>
      rw [hlevel, hrender] at hended
      rw [hrender]
      obtain ⟨content, result, hread, hperform, hwritten⟩ := Command.exists_of_ended hended
      obtain ⟨c, hconfig, _, hpage⟩ := Command.perform_eq_ok hperform
      obtain ⟨path, segments, text, notes, hpath, hsegments, hdocument, rfl⟩ :=
        Command.exists_of_performRender hpage
      obtain ⟨bounds, places, hlaid⟩ := Svg.exists_laid hdocument
      have hplaces : c.places = places := Int.ofNat.inj hlaid.places_eq
      subst hplaces
      exact ⟨path, content, c, segments, bounds, text, hpath, hread, hconfig, hsegments, hlaid,
        hwritten _ rfl, hlaid.hasViewBox_iff hdocument rfl⟩

/-- The line upwards has a page; with the usual margin its view box is usable. -/
theorem session_viewBox_upright :
    Invocation.parse ["render", "c", "c"] = .ok ⟨some .warning, .render "c" (some "c")⟩ ∧
      (session "" ["render", "c", "c"] (letterDisk (asciiContent uprightText))).1.ending =
        .status 0 ∧
      (session "" ["render", "c", "c"] (letterDisk (asciiContent uprightText))).2 =
        letterDisk (uprightPage uprightOpening uprightGroup).toUTF8.toList ∧
      Svg.HasViewBox (uprightPage uprightOpening uprightGroup).toList ∧
      ∃ c : Config, ∃ bounds : Bounds, ∃ text : String,
        (letterDisk (asciiContent uprightText)).Replaced
          (letterDisk (uprightPage uprightOpening uprightGroup).toUTF8.toList) "c"
          text.toUTF8.toList ∧
        (Svg.HasViewBox text.toList ↔
          (bounds.widen c.margin).x.size.ExceedsHalfStep c.places ∧
          (bounds.widen c.margin).y.size.ExceedsHalfStep c.places) := by
  obtain ⟨hended, hdisk⟩ := session_upright_margin
  have hnumbers : Svg.viewBoxNumbers? (uprightPage uprightOpening uprightGroup).toList =
      some [-1, -1, 2, 3] := by
    rw [viewBoxNumbers?_uprightPage (by decide)]
    decide +kernel
  obtain ⟨path, _, c, _, bounds, text, hpath, _, _, _, _, hwritten, hshown⟩ :=
    session_viewBox "" (letterDisk (asciiContent uprightText)) parse_render rfl hended
  obtain rfl := Option.some.inj hpath
  exact ⟨parse_render, hended, hdisk, ⟨-1, -1, 2, 3, hnumbers, by norm_num, by norm_num⟩, c, bounds,
    text, hdisk ▸ hwritten, hshown⟩

/-- Without a margin the line upwards has a page whose view box is no wider than zero. -/
theorem session_viewBox_flat :
    (session "" ["render", "c", "c"] (letterDisk (asciiContent flatText))).1.ending = .status 0 ∧
      (session "" ["render", "c", "c"] (letterDisk (asciiContent flatText))).2 =
        letterDisk (uprightPage flatOpening uprightGroup).toUTF8.toList ∧
      Svg.viewBoxNumbers? (uprightPage flatOpening uprightGroup).toList = some [0, 0, 0, 1] ∧
      ¬ Svg.HasViewBox (uprightPage flatOpening uprightGroup).toList := by
  have hdecode : Text.decode (asciiContent flatText) = .ok flatText.toList :=
    eq_ok_of_toOption (by decide +kernel)
  have hread : Json.read (Text.unifyNewlines flatText.toList) =
      .ok (.object (uprightMembers ++ flatMembers)) := by cbv
  have hpage : page? (.object (uprightMembers ++ flatMembers)) =
      some (uprightPage flatOpening uprightGroup) := by decide +kernel
  obtain ⟨hended, hdisk⟩ := session_letterDisk hdecode hread hpage
  have hnumbers : Svg.viewBoxNumbers? (uprightPage flatOpening uprightGroup).toList =
      some [0, 0, 0, 1] := by
    rw [viewBoxNumbers?_uprightPage (by decide)]
    decide +kernel
  refine ⟨hended, hdisk, hnumbers, ?_⟩
  rintro ⟨x, y, width, height, hshown, hwidth, _⟩
  rw [hnumbers] at hshown
  have hflat : (0 : ℚ) = width := by
    simp only [Option.some.injEq, List.cons.injEq] at hshown
    exact hshown.2.2.1
  exact hwidth.ne hflat

end TurtleGrammar
