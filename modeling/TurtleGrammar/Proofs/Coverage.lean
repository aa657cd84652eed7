import TurtleGrammar.Proofs.Elements
import TurtleGrammar.Proofs.Range
import TurtleGrammar.Proofs.ViewBox

/-!
# `TurtleGrammar.Proofs.Coverage` — view boxes cover drawings as they are shown

Corner and size of a view box, the coordinates and the height about which a drawing is turned over
are each rounded on their own, by at most half a step. Where the box is computed exactly, every end
therefore lies in the view box that is shown or at most two steps beside it: a coordinate is off by
half a step, by two halves if it is turned over, and the far side of the box by two halves again.

## Contents
- `Binary64.exists_printed`: how far a coordinate is from what is shown of it.
- `Range.Exact`: ranges that are widened exactly; `Range.Exact.within_of_near`: what lies in them.
- `Svg.shift?`, `Svg.endNumbers?`: what is read from a group and from an element.
- `Svg.document_covers`: every end lies in the view box, up to two steps.
-/

namespace TurtleGrammar

namespace Binary64

variable {x y : Binary64} {places : Nat}

/-- Half a step of the last place. -/
def halfStep (places : Nat) : ℚ := 1 / (2 * 10 ^ places)

/-- A finite number is shown as a decimal at most half a step beside it. -/
theorem exists_printed (h : x.isFinite = true) (places : Nat) :
    ∃ v, decimalValue? (x.coordinate places) = some v ∧ |v - x.value| ≤ halfStep places := by
  obtain ⟨k, hk, hnear⟩ := decimalValue?_coordinate h places
  have hten : (0 : ℚ) < 10 ^ places := by positivity
  refine ⟨_, hk, ?_⟩
  have hdistance : |(k / 10 ^ places : ℚ) - x.value| =
      |x.value * 10 ^ places - k| / 10 ^ places := by
    rw [← abs_of_pos hten, ← abs_div, abs_of_pos hten, ← abs_neg]
    congr 1
    field_simp
    ring
  have hhalf : halfStep places = 1 / 2 / 10 ^ places := by
    unfold halfStep
    rw [div_div]
  rw [hdistance, hhalf]
  exact (div_le_div_iff_of_pos_right hten).2 hnear.near

theorem halfStep_nonneg (places : Nat) : 0 ≤ halfStep places := by
  unfold halfStep
  positivity

/-- A finite number counted in units; other numbers have none. -/
def units : Binary64 → ℤ
  | finite negative size => signed negative size
  | _ => 0

theorem value_eq_units (x : Binary64) : x.value = x.units / unitsPerOne := by
  cases x with
  | nan | infinity s => simp [value, units]
  | finite s a => rfl

/-- Is a sum finite, and the sum of the values? -/
structure ExactSum (x y : Binary64) : Prop where
  isFinite : (x + y).isFinite = true
  value : (x + y).value = x.value + y.value

/-- Is a difference finite, and the difference of the values? -/
structure ExactDifference (x y : Binary64) : Prop where
  isFinite : (x - y).isFinite = true
  value : (x - y).value = x.value - y.value

theorem exactSum_iff :
    ExactSum x y ↔ (x + y).isFinite = true ∧ (x + y).units = x.units + y.units := by
  have hunits : (unitsPerOne : ℚ) ≠ 0 := by exact_mod_cast unitsPerOne_pos.ne'
  have hvalue : (x + y).value = x.value + y.value ↔ (x + y).units = x.units + y.units := by
    rw [value_eq_units, value_eq_units x, value_eq_units y, ← add_div, div_left_inj' hunits]
    exact_mod_cast Iff.rfl
  rw [← hvalue]
  exact ⟨fun h => ⟨h.isFinite, h.value⟩, fun h => ⟨h.1, h.2⟩⟩

theorem exactDifference_iff :
    ExactDifference x y ↔ (x - y).isFinite = true ∧ (x - y).units = x.units - y.units := by
  have hunits : (unitsPerOne : ℚ) ≠ 0 := by exact_mod_cast unitsPerOne_pos.ne'
  have hvalue : (x - y).value = x.value - y.value ↔ (x - y).units = x.units - y.units := by
    rw [value_eq_units, value_eq_units x, value_eq_units y, ← sub_div, div_left_inj' hunits]
    exact_mod_cast Iff.rfl
  rw [← hvalue]
  exact ⟨fun h => ⟨h.isFinite, h.value⟩, fun h => ⟨h.1, h.2⟩⟩

instance : Decidable (ExactSum x y) := decidable_of_iff _ exactSum_iff.symm

instance : Decidable (ExactDifference x y) := decidable_of_iff _ exactDifference_iff.symm

end Binary64

open Binary64

/-- Does a number lie in the interval with the given start and size, up to a tolerance? -/
def Within (low size tolerance v : ℚ) : Prop := low - tolerance ≤ v ∧ v ≤ low + size + tolerance

namespace Range

variable {r : Range} {margin : Binary64} {numbers : List Binary64}

/-- Are the ends and the size of a range with a margin exact? -/
structure Exact (r : Range) (margin : Binary64) : Prop where
  low : ExactDifference r.low margin
  high : ExactSum r.high margin
  size : ExactDifference (r.widen margin).high (r.widen margin).low

theorem exact_iff : r.Exact margin ↔ ExactDifference r.low margin ∧ ExactSum r.high margin ∧
    ExactDifference (r.widen margin).high (r.widen margin).low :=
  ⟨fun h => ⟨h.low, h.high, h.size⟩, fun h => ⟨h.1, h.2.1, h.2.2⟩⟩

instance : Decidable (r.Exact margin) := decidable_of_iff _ exact_iff.symm

/-- Are two numbers what is shown of the start and of the size of a range? -/
structure Shown (r : Range) (places : Nat) (low size : ℚ) : Prop where
  low : |low - r.low.value| ≤ halfStep places
  size : |size - r.size.value| ≤ halfStep places

/-- Does a number lie in a range? -/
def Holds (r : Range) (q : ℚ) : Prop := r.low.value ≤ q ∧ q ≤ r.high.value

/-- What lies in an exact range is shown within what is shown of the range, up to two steps, if it
    is shown at most one step beside where it lies. -/
theorem Exact.within_of_near {low size v q : ℚ} {places : Nat} (h : r.Exact margin)
    (hshown : (r.widen margin).Shown places low size) (hq : (r.widen margin).Holds q)
    (hnear : |v - q| ≤ 2 * halfStep places) : Within low size (2 / 10 ^ places) v := by
  have hsteps : (2 / 10 ^ places : ℚ) = 4 * halfStep places := by
    unfold halfStep
    field_simp
    norm_num
  have hvalue : (r.widen margin).size.value =
      (r.widen margin).high.value - (r.widen margin).low.value := h.size.value
  obtain ⟨hlow, hsize⟩ := hshown
  obtain ⟨hqLow, hqHigh⟩ := hq
  rw [abs_le] at hlow hsize hnear
  unfold Within
  rw [hsteps]
  constructor <;> linarith

/-- A margin that is not below zero keeps what lies in a range. -/
theorem Exact.holds_widen (h : r.Exact margin) (hnonneg : 0 ≤ margin.value) {q : ℚ}
    (hq : r.Holds q) : (r.widen margin).Holds q := by
  have hlow : (r.widen margin).low.value = r.low.value - margin.value := h.low.value
  have hhigh : (r.widen margin).high.value = r.high.value + margin.value := h.high.value
  obtain ⟨hqLow, hqHigh⟩ := hq
  unfold Holds
  rw [hlow, hhigh]
  constructor <;> linarith

/-- What lies in a range lies in it as well when it is turned over about the middle. -/
theorem Holds.turned {q : ℚ} (h : r.Holds q) : r.Holds (r.low.value + r.high.value - q) := by
  obtain ⟨hlow, hhigh⟩ := h
  constructor <;> linarith

end Range

namespace Svg

open Markup

variable {page : Page} {segments : List Segment} {bounds box : Bounds} {places : Nat}
  {text : String} {s : Segment}

/-! ## What is read from lines -/

/-- The last lines of a page: its group, its elements, of which the count is given, and the two
    lines that close it. -/
def bodyLines (all : List String) (count : Nat) : List String :=
  all.drop (all.length - (count + 3))

/-- The numbers of an element, which are its ends. -/
def endNumbers? (line : List Char) : Option (List ℚ) :=
  ["x1", "y1", "x2", "y2"].mapM fun name => (attribute? name line).bind decimalValue?

/-- How the line of a group that is turned over ends. -/
def turnMark : List Char := ") scale(1,-1)\">".toList

/-- The height in the transform with which the line of a group ends: what stands after the last
    comma before that of the scale. -/
def shift? (line : List Char) : Option ℚ :=
  if turnMark.isSuffixOf line then
    decimalValue? ((line.take (line.length - turnMark.length)).rtakeWhile (· != ','))
  else none

theorem bodyLines_eq (places : Nat) (page : Page) (box : Bounds) (segments : List Segment) :
    bodyLines (frontLines places page box ++ elements places page.style segments ++ backLines)
      segments.length =
        groupLine places page box :: (elements places page.style segments ++ backLines) := by
  have hlength : (groupLine places page box ::
      (elements places page.style segments ++ backLines)).length = segments.length + 3 := by
    rw [List.length_cons, List.length_append, length_elements]
    rfl
  unfold bodyLines
  rw [List.append_assoc, frontLines_append, List.length_append, hlength, Nat.add_sub_cancel,
    List.drop_left]

/-- The ends of an element are read whatever its stroke is, which comes after them. -/
theorem endNumbers?_segmentLine (places : Nat) (s : Segment) (stroke : Option String) :
    endNumbers? (segmentLine places s stroke).toList =
      [s.start.x, s.start.y, s.stop.x, s.stop.y].mapM fun x =>
        decimalValue? (x.coordinate places) := by
  have hpairs : segmentPairs places s stroke =
      segmentPairs places s none ++ stroke.toList.map fun value => ("stroke", value) := by
    cases stroke <;> rfl
  have hattributes : attributesOf (segmentLine places s stroke).toList =
      texts (segmentPairs places s none) ++
        attributesOf (written (stroke.toList.map fun value => ("stroke", value)) ++
          " />".toList) := by
    rw [segmentLine_eq, hpairs]
    unfold tag
    rw [written_append, ← List.append_assoc, List.append_assoc]
    exact attributesOf_tag (by decide) (List.cons_ne_nil _ _)
      (plain_segmentPairs places s fun _ h => absurd h (Option.not_mem_none _)) _
  have hread : ∀ (name : String) (x : Binary64),
      (segmentPairs places s none).lookup name = some (coordinate places x) →
      (attribute? name (segmentLine places s stroke).toList).bind decimalValue? =
        decimalValue? (x.coordinate places) := by
    intro name x hname
    unfold attribute?
    rw [hattributes, List.lookup_append, lookup_texts, hname]
    simp [coordinate]
  unfold endNumbers?
  simp only [List.mapM_cons, List.mapM_nil, hread "x1" s.start.x rfl, hread "y1" s.start.y rfl,
    hread "x2" s.stop.x rfl, hread "y2" s.stop.y rfl]

/-- The transform of a group and the end of its line. -/
theorem written_transform (places : Nat) (z : Binary64) :
    written [("transform", "translate(0," ++ coordinate places z ++ ") scale(1,-1)")] ++
        ">".toList =
      " transform=\"translate(0".toList ++ ',' :: z.coordinate places ++ turnMark := by
  have hhead : ' ' :: ("transform".toList ++ ("=\"".toList ++ "translate(0,".toList)) =
      " transform=\"translate(0".toList ++ [','] := by decide
  have htail : turnMark = ") scale(1,-1)".toList ++ ("\"".toList ++ ">".toList) := by decide
  calc written [("transform", "translate(0," ++ coordinate places z ++ ") scale(1,-1)")] ++
        ">".toList
      = ' ' :: ("transform".toList ++ ("=\"".toList ++ "translate(0,".toList)) ++
          z.coordinate places ++ (") scale(1,-1)".toList ++ ("\"".toList ++ ">".toList)) := by
        unfold written attr coordinate
        simp only [List.flatMap_cons, List.flatMap_nil, String.toList_append, String.toList_ofList,
          List.append_assoc, List.cons_append, List.append_nil]
    _ = " transform=\"translate(0".toList ++ ',' :: z.coordinate places ++ turnMark := by
        rw [hhead, ← htail]
        simp only [List.append_assoc, List.cons_append, List.nil_append]

/-- The height about which a drawing is turned over is read from the end of the group. -/
theorem shift?_groupLine (hflip : page.flip = true) (places : Nat) (box : Bounds) :
    shift? (groupLine places page box).toList =
      decimalValue? ((box.y.low + box.y.high).coordinate places) := by
  have hpairs : groupPairs places page box =
      (strokePairs places page ++ [("stroke-linecap", page.style.lineCap)]) ++
        [("transform",
          "translate(0," ++ coordinate places (box.y.low + box.y.high) ++ ") scale(1,-1)")] := by
    unfold groupPairs turnPairs
    rw [if_pos hflip, List.append_assoc, List.singleton_append]
  obtain ⟨front, hline⟩ : ∃ front, (groupLine places page box).toList =
      (front ++ ',' :: (box.y.low + box.y.high).coordinate places) ++ turnMark := by
    refine ⟨"  <g".toList ++
      written (strokePairs places page ++ [("stroke-linecap", page.style.lineCap)]) ++
        " transform=\"translate(0".toList, ?_⟩
    rw [groupLine_eq, hpairs]
    unfold tag
    rw [written_append, List.append_assoc, List.append_assoc, written_transform]
    simp only [List.append_assoc]
  have hcomma : ',' ∉ (box.y.low + box.y.high).coordinate places :=
    Binary64.not_mem_coordinate (by decide) _ places
  have hmark : turnMark.isSuffixOf (groupLine places page box).toList = true := by
    rw [List.isSuffixOf_iff_suffix, hline]
    exact List.suffix_append _ _
  unfold shift?
  rw [if_pos hmark, hline, List.length_append, Nat.add_sub_cancel, List.take_left,
    rtakeWhile_append hcomma]

/-! ## The box of a drawing -/

/-- The ends of finite segments lie in their box. -/
theorem holds_of_ofSegments (hbounds : Bounds.ofSegments segments = .ok bounds)
    (hfinite : ∀ s ∈ segments, FiniteEnds s) {p : Point} (hp : p ∈ Bounds.ends segments) :
    bounds.x.Holds p.x.value ∧ bounds.y.Holds p.y.value := by
  have hends : ∀ q ∈ Bounds.ends segments, q.x.isFinite = true ∧ q.y.isFinite = true := by
    intro q hq
    obtain ⟨s, hs, hmem⟩ := List.mem_flatMap.1 hq
    have hs := hfinite s hs
    simp only [List.mem_cons, List.not_mem_nil, or_false] at hmem
    rcases hmem with rfl | rfl
    · exact ⟨hs.start_x, hs.start_y⟩
    · exact ⟨hs.stop_x, hs.stop_y⟩
  unfold Bounds.ofSegments at hbounds
  split at hbounds
  · cases hbounds
  · rw [← Except.ok.inj hbounds]
    constructor
    · exact (Range.covers_of _).value_between
        (List.forall_mem_map.2 fun q hq => (hends q hq).1) (List.mem_map_of_mem hp)
    · exact (Range.covers_of _).value_between
        (List.forall_mem_map.2 fun q hq => (hends q hq).2) (List.mem_map_of_mem hp)

/-- How heights are read from a page: as they are, or turned over about the height that is read from
    the group. -/
def Turns (page : Page) (group : Option ℚ) (turned : ℚ → ℚ) : Prop :=
  if page.flip then ∃ shift, group = some shift ∧ turned = fun y => shift - y else turned = id

/-- Are numbers that are shown of a range read as numbers in it, one step beside at most? -/
def ReadsIn (r : Range) (places : Nat) (turned : ℚ → ℚ) : Prop :=
  ∀ v q, |v - q| ≤ halfStep places → r.Holds q →
    ∃ t, r.Holds t ∧ |turned v - t| ≤ 2 * halfStep places

/-- Heights are read within the box, turned over or not. -/
theorem exists_turns (places : Nat) (page : Page) (box : Bounds)
    (hexact : page.flip = true → ExactSum box.y.low box.y.high) :
    ∃ turned, Turns page (shift? (groupLine places page box).toList) turned ∧
      ReadsIn box.y places turned := by
  have hhalf := halfStep_nonneg places
  unfold Turns
  cases hflip : page.flip with
  | false =>
      refine ⟨id, rfl, fun v q hnear hq => ⟨q, hq, ?_⟩⟩
      rw [id]
      linarith
  | true =>
      have hsum := hexact hflip
      obtain ⟨shift, hshift, hnear⟩ := exists_printed hsum.isFinite places
      refine ⟨fun y => shift - y, ?_, fun v q hv hq => ⟨_, hq.turned, ?_⟩⟩
      · rw [if_pos rfl, shift?_groupLine hflip]
        exact ⟨shift, hshift, rfl⟩
      · rw [hsum.value] at hnear
        rw [abs_le] at hnear hv ⊢
        constructor <;> linarith

/-- The numbers of a view box are shown of its ranges. -/
theorem Laid.exists_shown (hlaid : Laid page segments bounds places)
    (h : document page segments = .ok text) (hx : bounds.x.Exact page.margin)
    (hy : bounds.y.Exact page.margin) :
    ∃ left top width height, viewBoxNumbers? text.toList = some [left, top, width, height] ∧
      (bounds.x.widen page.margin).Shown places left width ∧
      (bounds.y.widen page.margin).Shown places top height := by
  obtain ⟨left, hleft, hleftNear⟩ := exists_printed hx.low.isFinite places
  obtain ⟨top, htop, htopNear⟩ := exists_printed hy.low.isFinite places
  obtain ⟨width, hwidth, hwidthNear⟩ := exists_printed hx.size.isFinite places
  obtain ⟨height, hheight, hheightNear⟩ := exists_printed hy.size.isFinite places
  refine ⟨left, top, width, height, ?_, ⟨hleftNear, hwidthNear⟩, ⟨htopNear, hheightNear⟩⟩
  rw [hlaid.viewBoxNumbers?_eq h rfl]
  exact mapM_quad_eq_some_iff.2 ⟨hleft, htop, hwidth, hheight⟩

/-- A point in exact bounds is shown within what is shown of the bounds with their margin. -/
theorem exists_within {margin : Binary64} {left top width height : ℚ} {turned : ℚ → ℚ} {p : Point}
    (hx : bounds.x.Exact margin) (hy : bounds.y.Exact margin) (hnonneg : 0 ≤ margin.value)
    (hshownX : (bounds.x.widen margin).Shown places left width)
    (hshownY : (bounds.y.widen margin).Shown places top height)
    (hturned : ReadsIn (bounds.y.widen margin) places turned)
    (hholds : bounds.x.Holds p.x.value ∧ bounds.y.Holds p.y.value)
    (hfinite : p.x.isFinite = true ∧ p.y.isFinite = true) :
    ∃ x y : ℚ, decimalValue? (p.x.coordinate places) = some x ∧
      decimalValue? (p.y.coordinate places) = some y ∧
      Within left width (2 / 10 ^ places) x ∧ Within top height (2 / 10 ^ places) (turned y) := by
  obtain ⟨x, hxText, hxNear⟩ := exists_printed hfinite.1 places
  obtain ⟨y, hyText, hyNear⟩ := exists_printed hfinite.2 places
  obtain ⟨t, hholdsT, htNear⟩ := hturned y p.y.value hyNear (hy.holds_widen hnonneg hholds.2)
  refine ⟨x, y, hxText, hyText, ?_, hy.within_of_near hshownY hholdsT htNear⟩
  refine hx.within_of_near hshownX (hx.holds_widen hnonneg hholds.1) (hxNear.trans ?_)
  linarith [halfStep_nonneg places]

/-- **View boxes cover drawings.** Where the box of finite segments with a margin that is not below
    zero is exact, every end that is read from its element lies in the view box that is read from
    the document, or at most two steps beside it. Heights are turned over about the height that is
    read from the group if the vertical axis points up. -/
theorem document_covers (h : document page segments = .ok text)
    (hbounds : Bounds.ofSegments segments = .ok bounds) (hfinite : ∀ s ∈ segments, FiniteEnds s)
    (hnonneg : 0 ≤ page.margin.value) (hx : bounds.x.Exact page.margin)
    (hy : bounds.y.Exact page.margin) (hturn : page.flip = true →
      ExactSum (bounds.widen page.margin).y.low (bounds.widen page.margin).y.high) :
    ∃ (places : Nat) (all : List String) (left top width height : ℚ) (turned : ℚ → ℚ),
      page.places = places ∧ lines page segments = .ok all ∧
      text = String.join (all.map (· ++ "\n")) ∧
      viewBoxNumbers? text.toList = some [left, top, width, height] ∧
      Turns page ((bodyLines all segments.length)[0]?.bind fun line => shift? line.toList) turned ∧
      ∀ (i : Nat) (s : Segment), segments[i]? = some s → ∃ x1 y1 x2 y2 : ℚ,
        ((bodyLines all segments.length)[i + 1]?.bind fun line => endNumbers? line.toList) =
          some [x1, y1, x2, y2] ∧
        (Within left width (2 / 10 ^ places) x1 ∧
          Within top height (2 / 10 ^ places) (turned y1)) ∧
        (Within left width (2 / 10 ^ places) x2 ∧
          Within top height (2 / 10 ^ places) (turned y2)) := by
  obtain ⟨bounds', places, hlaid⟩ := exists_laid h
  obtain rfl : bounds' = bounds := Except.ok.inj (hlaid.bounds_eq.symm.trans hbounds)
  obtain ⟨all, hall, rfl⟩ := map_eq_ok_iff.1 h
  obtain ⟨left, top, width, height, hviewBox, hshownX, hshownY⟩ := hlaid.exists_shown h hx hy
  obtain ⟨turned, hturns, hturned⟩ :=
    exists_turns places page (bounds'.widen page.margin) hturn
  have hbody : bodyLines all segments.length =
      groupLine places page (bounds'.widen page.margin) ::
        (elements places page.style segments ++ backLines) := by
    rw [hlaid.lines_eq] at hall
    rw [← Except.ok.inj hall]
    exact bodyLines_eq places page _ segments
  refine ⟨places, all, left, top, width, height, turned, hlaid.places_eq, hall, rfl, hviewBox, ?_,
    fun i s hs => ?_⟩
  · rw [hbody]
    exact hturns
  · have hmem : s ∈ segments := List.mem_of_getElem? hs
    have hends := hfinite s hmem
    have hstart : s.start ∈ Bounds.ends segments :=
      List.mem_flatMap.2 ⟨s, hmem, List.mem_cons_self⟩
    have hstop : s.stop ∈ Bounds.ends segments :=
      List.mem_flatMap.2 ⟨s, hmem, List.mem_cons_of_mem _ List.mem_cons_self⟩
    obtain ⟨x1, y1, hx1, hy1, hfirst⟩ := exists_within hx hy hnonneg hshownX hshownY hturned
      (holds_of_ofSegments hbounds hfinite hstart) ⟨hends.start_x, hends.start_y⟩
    obtain ⟨x2, y2, hx2, hy2, hsecond⟩ := exists_within hx hy hnonneg hshownX hshownY hturned
      (holds_of_ofSegments hbounds hfinite hstop) ⟨hends.stop_x, hends.stop_y⟩
    refine ⟨x1, y1, x2, y2, ?_, hfirst, hsecond⟩
    have hcount : i < (elements places page.style segments).length := by
      rw [length_elements]
      exact (List.getElem?_eq_some_iff.1 hs).1
    rw [hbody, List.getElem?_cons_succ, List.getElem?_append_left hcount, getElem?_elements, hs]
    exact (endNumbers?_segmentLine places s _).trans
      (mapM_quad_eq_some_iff.2 ⟨hx1, hy1, hx2, hy2⟩)

/-- The bend on its page, turned over: its box is exact, and its second line is covered. -/
theorem document_covers_bend :
    ∃ (text : String) (bounds : Bounds), document titledPage bend = .ok text ∧
      Bounds.ofSegments bend = .ok bounds ∧ (∀ s ∈ bend, FiniteEnds s) ∧
      0 ≤ titledPage.margin.value ∧ bounds.x.Exact titledPage.margin ∧
      bounds.y.Exact titledPage.margin ∧
      ExactSum (bounds.widen titledPage.margin).y.low (bounds.widen titledPage.margin).y.high ∧
      ∃ (all : List String) (left top width height shift x1 y1 x2 y2 : ℚ),
        lines titledPage bend = .ok all ∧
        viewBoxNumbers? text.toList = some [left, top, width, height] ∧
        ((bodyLines all 2)[0]?.bind fun line => shift? line.toList) = some shift ∧
        ((bodyLines all 2)[2]?.bind fun line => endNumbers? line.toList) =
          some [x1, y1, x2, y2] ∧
        Within left width (2 / 10 ^ 3) x2 ∧ Within top height (2 / 10 ^ 3) (shift - y2) := by
  have hbounds : Bounds.ofSegments bend = .ok ⟨⟨.zero, .one⟩, ⟨.zero, .one⟩⟩ :=
    eq_ok_of_toOption (by decide +kernel)
  have hnonneg : 0 ≤ titledPage.margin.value := by
    show (0 : ℚ) ≤ Binary64.one.value
    rw [value_eq_units]
    exact div_nonneg (by exact_mod_cast (by decide +kernel : 0 ≤ Binary64.one.units))
      (Nat.cast_nonneg _)
  have hexact : Range.Exact ⟨.zero, .one⟩ titledPage.margin := by decide +kernel
  have hturn : ExactSum (Range.widen ⟨.zero, .one⟩ titledPage.margin).low
      (Range.widen ⟨.zero, .one⟩ titledPage.margin).high := by decide +kernel
  have hdrawn : (document titledPage bend).isOk = true := by decide +kernel
  obtain ⟨text, htext⟩ := exists_of_isOk hdrawn
  obtain ⟨places, all, left, top, width, height, turned, hplaces, hall, _, hviewBox, hturned,
    hends⟩ := document_covers htext hbounds finiteEnds_bend hnonneg hexact hexact fun _ => hturn
  obtain rfl : 3 = places := Int.ofNat.inj hplaces
  obtain ⟨shift, hshift, rfl⟩ := hturned
  obtain ⟨x1, y1, x2, y2, hread, _, hsecond⟩ := hends 1 _ rfl
  exact ⟨text, _, htext, hbounds, finiteEnds_bend, hnonneg, hexact, hexact, hturn, all, left, top,
    width, height, shift, x1, y1, x2, y2, hall, hviewBox, hshift, hread, hsecond⟩

end Svg

end TurtleGrammar
