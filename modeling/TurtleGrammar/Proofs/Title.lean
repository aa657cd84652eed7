import TurtleGrammar.Proofs.Attribute

/-!
# `TurtleGrammar.Proofs.Title` — the title read back from a document

A title may be any text, tags and entities included. Its special characters are replaced before it
is put between its tags, so that its own text cannot end it. What a reader finds between the first
opening tag of a title and the closing tag after it is undone to the title.

## Contents
- `Markup.cut?`, `Markup.between?`: a text around the first occurrence of a mark.
- `Markup.Skips`: texts in which no occurrence of a mark begins.
- `Svg.titleText?`: what a document shows as its title.
- `Svg.keepsText_escape`: the special characters of a title are replaced, and undone to it.
- `Svg.document_title`: titles are read back, and different ones are told apart.
-/

namespace TurtleGrammar

namespace Markup

/-! ## Marks -/

/-- What stands before and after the first occurrence of a mark. -/
def cut? (mark : List Char) : List Char → Option (List Char × List Char)
  | [] => none
  | c :: rest =>
    if mark.isPrefixOf (c :: rest) then some ([], (c :: rest).drop mark.length)
    else (cut? mark rest).map fun parts => (c :: parts.1, parts.2)

/-- What stands between the first occurrence of a mark and the next one of another. -/
def between? (opening closing text : List Char) : Option (List Char) :=
  (cut? opening text).bind fun parts => (cut? closing parts.2).map Prod.fst

/-- Does no occurrence of a mark begin in a text, whatever comes after it? -/
def Skips (mark text : List Char) : Prop :=
  ∀ rest, cut? mark (text ++ rest) = (cut? mark rest).map fun parts => (text ++ parts.1, parts.2)

variable {mark first last text : List Char} {c d e : Char}

theorem cut?_cons_of_not_prefix (h : ¬ mark <+: c :: text) :
    cut? mark (c :: text) = (cut? mark text).map fun parts => (c :: parts.1, parts.2) := by
  have hmark : mark.isPrefixOf (c :: text) = false := by
    rwa [Bool.eq_false_iff, Ne, List.isPrefixOf_iff_prefix]
  rw [cut?, hmark, if_neg Bool.false_ne_true]

theorem skips_nil (mark : List Char) : Skips mark [] := by
  intro rest
  rw [List.nil_append]
  cases cut? mark rest <;> rfl

theorem Skips.append (hfirst : Skips mark first) (hlast : Skips mark last) :
    Skips mark (first ++ last) := by
  intro rest
  rw [List.append_assoc, hfirst, hlast, Option.map_map]
  congr 1
  funext parts
  exact congrArg (·, parts.2) (List.append_assoc first last parts.1).symm

/-- A character with which the mark does not begin. -/
theorem skips_of_ne (h : c ≠ d) : Skips (c :: mark) [d] := by
  intro rest
  refine cut?_cons_of_not_prefix fun hmark => ?_
  exact h (List.cons_prefix_cons.1 hmark).1

/-- A text without the character with which the mark begins. -/
theorem skips_of_not_mem (h : c ∉ text) : Skips (c :: mark) text := by
  induction text with
  | nil => exact skips_nil _
  | cons d others ih =>
      obtain ⟨hd, hothers⟩ := not_or.1 (fun hmem => h (List.mem_cons.2 hmem))
      exact (skips_of_ne hd).append (ih hothers)

/-- A text that begins as the mark does, but goes on with another character. -/
theorem skips_of_second_ne (h : d ≠ e) (htext : c ∉ e :: text) :
    Skips (c :: d :: mark) (c :: e :: text) := by
  intro rest
  have hmark : ¬ c :: d :: mark <+: c :: (e :: text ++ rest) := by
    rw [List.cons_prefix_cons, List.cons_append, List.cons_prefix_cons]
    exact fun hprefix => h hprefix.2.1
  rw [List.cons_append, cut?_cons_of_not_prefix hmark, skips_of_not_mem htext, Option.map_map]
  rfl

/-- The mark is found after a text that skips it. -/
theorem Skips.cut?_eq (h : Skips mark text) (hmark : mark ≠ []) (rest : List Char) :
    cut? mark (text ++ (mark ++ rest)) = some (text, rest) := by
  obtain ⟨c, others, rfl⟩ := List.exists_cons_of_ne_nil hmark
  have hprefix : (c :: others).isPrefixOf (c :: (others ++ rest)) = true :=
    List.isPrefixOf_iff_prefix.2 (List.prefix_append (c :: others) rest)
  have hfound : cut? (c :: others) (c :: others ++ rest) = some ([], rest) := by
    rw [List.cons_append, cut?, if_pos hprefix]
    exact congrArg (fun after => some ([], after)) List.drop_left
  rw [h, hfound, Option.map_some, List.append_nil]

end Markup

namespace Svg

open Markup

variable {page : Page} {segments : List Segment} {bounds : Bounds} {places : Nat}
  {text title : String}

/-! ## What a document shows -/

/-- The tag before a title. -/
def titleOpening : List Char := "<title>".toList

/-- The tag after a title. -/
def titleClosing : List Char := "</title>".toList

/-- What a document shows as its title. -/
def titleText? (text : List Char) : Option (List Char) := between? titleOpening titleClosing text

/-- The lines of a document before its title. -/
def openingLines (places : Nat) (page : Page) (box : Bounds) : List String :=
  ["<?xml version=\"1.0\" encoding=\"UTF-8\"?>", openingLine places page box]

/-- A title that is escaped is undone to itself. -/
theorem keepsText_escape (title : String) :
    KeepsText Entity.betweenTags (escape title).toList title.toList := by
  refine ⟨?_, not_mem_escape title, ?_⟩
  · rw [toList_escape]
    exact isCode_betweenTags.undo_flatMap_encode title.toList
  · rw [toList_escape]
    exact isCode_betweenTags.ampersandsStart_flatMap_encode title.toList

theorem not_mem_sizePair {name : String} (hname : '<' ∉ name.toList) (places : Nat)
    (size : Option Binary64) :
    ∀ a ∈ sizePair places name size, '<' ∉ a.1.toList ∧ '<' ∉ a.2.toList := by
  intro a ha
  unfold sizePair at ha
  split at ha
  · split at ha
    · cases ha
    · rw [List.mem_singleton.1 ha]
      exact ⟨hname, not_mem_toList_coordinate (by decide) places _⟩
  · cases ha

theorem not_mem_viewBoxText (places : Nat) (box : Bounds) :
    '<' ∉ (viewBoxText places box).toList := by
  have hnumber : ∀ x : Binary64, '<' ∉ (coordinate places x).toList :=
    not_mem_toList_coordinate (by decide) places
  unfold viewBoxText
  simp [hnumber]

/-- The attributes of the opening tag have no less-than sign. -/
theorem not_mem_openingPairs (places : Nat) (page : Page) (box : Bounds) :
    ∀ a ∈ openingPairs places page box, '<' ∉ a.1.toList ∧ '<' ∉ a.2.toList := by
  intro a ha
  unfold openingPairs at ha
  simp only [List.mem_append, List.mem_cons, List.not_mem_nil, or_false] at ha
  have hname : '<' ∉ "viewBox".toList := by decide
  rcases ha with ((rfl | rfl | rfl) | hwidth) | hheight
  · exact ⟨by decide, by decide⟩
  · exact ⟨by decide, by decide⟩
  · exact ⟨hname, not_mem_viewBoxText places box⟩
  · exact not_mem_sizePair (by decide) places page.width a hwidth
  · exact not_mem_sizePair (by decide) places page.height a hheight

theorem skips_titleOpening {text : List Char} (h : '<' ∉ text) : Skips titleOpening text :=
  skips_of_not_mem h

/-- A tag of another name. -/
theorem skips_titleOpening_tag {c : Char} {text : List Char} (hc : 't' ≠ c) (h : '<' ∉ c :: text) :
    Skips titleOpening ('<' :: c :: text) :=
  skips_of_second_ne hc h

/-- No title opens in the lines before it. -/
theorem skips_openingLines (places : Nat) (page : Page) (box : Bounds) :
    Skips titleOpening (joined (openingLines places page box)) := by
  have hwritten : '<' ∉ written (openingPairs places page box) :=
    not_mem_written_of_forall (by decide) (not_mem_openingPairs places page box)
  have hxml : Skips titleOpening "<?xml version=\"1.0\" encoding=\"UTF-8\"?>".toList :=
    skips_titleOpening_tag (by decide) (by decide)
  have hopening : Skips titleOpening (openingLine places page box).toList := by
    have htail : '<' ∉ "svg".toList ++ written (openingPairs places page box) ++ ">".toList := by
      simp [hwritten]
    rw [openingLine_eq]
    exact skips_titleOpening_tag (by decide) htail
  have hbreak : Skips titleOpening ['\n'] := skips_titleOpening (by decide)
  unfold openingLines
  rw [joined_cons, joined_cons]
  exact hxml.append (hbreak.append (hopening.append (hbreak.append (skips_nil _))))

/-- A title line around the title. -/
theorem toList_titleLine (title : String) :
    ("  <title>" ++ escape title ++ "</title>").toList =
      "  ".toList ++ (titleOpening ++ ((escape title).toList ++ titleClosing)) := by
  rw [String.toList_append, String.toList_append, List.append_assoc]
  rfl

/-- A document around its title. -/
theorem Laid.exists_title (hlaid : Laid page segments bounds places)
    (h : document page segments = .ok text) (htitle : page.title = some title) (hne : title ≠ "") :
    ∃ rest, text.toList =
      (joined (openingLines places page (bounds.widen page.margin)) ++ "  ".toList) ++
        (titleOpening ++ ((escape title).toList ++ (titleClosing ++ rest))) := by
  obtain ⟨all, hall, rfl⟩ := map_eq_ok_iff.1 h
  have htitleLines : titleLines page = ["  <title>" ++ escape title ++ "</title>"] := by
    unfold titleLines
    rw [htitle]
    exact if_neg (by simpa [String.isEmpty_iff] using hne)
  have hhead : headLines places page (bounds.widen page.margin) =
      openingLines places page (bounds.widen page.margin) ++
        ["  <title>" ++ escape title ++ "</title>"] := by
    rw [← htitleLines]
    rfl
  rw [hlaid.lines_eq, List.append_assoc, frontLines_append, hhead, List.append_assoc,
    List.append_assoc, List.singleton_append] at hall
  refine ⟨'\n' :: joined (backgroundLines places page (bounds.widen page.margin) ++
    groupLine places page (bounds.widen page.margin) ::
      (elements places page.style segments ++ backLines)), ?_⟩
  change joined all = _
  rw [← Except.ok.inj hall, joined_append, joined_cons, toList_titleLine]
  simp only [List.append_assoc]

/-- A document shows its title escaped. -/
theorem titleText?_document (h : document page segments = .ok text)
    (htitle : page.title = some title) (hne : title ≠ "") :
    titleText? text.toList = some (escape title).toList := by
  obtain ⟨bounds, places, hlaid⟩ := exists_laid h
  obtain ⟨rest, hrest⟩ := hlaid.exists_title h htitle hne
  have hfront : Skips titleOpening
      (joined (openingLines places page (bounds.widen page.margin)) ++ "  ".toList) :=
    (skips_openingLines places page _).append (skips_titleOpening (by decide))
  have hshown : Skips titleClosing (escape title).toList := skips_of_not_mem (not_mem_escape title)
  unfold titleText? between?
  rw [hrest, hfront.cut?_eq (by decide), Option.bind_some, hshown.cut?_eq (by decide)]
  rfl

/-- **Titles are read back.** What a document shows as its title is the title with its ampersands,
    its less-than signs and its greater-than signs replaced in this order. It has no sign of a tag
    and no ampersand but of one of the three entities, and it is undone in one pass to the title. So
    documents with different titles show different texts. -/
theorem document_title (h : document page segments = .ok text) (htitle : page.title = some title)
    (hne : title ≠ "") :
    ∃ shown, titleText? text.toList = some shown ∧
      shown = Entity.betweenTags.foldl (fun given e => e.replace given) title.toList ∧
      KeepsText Entity.betweenTags shown title.toList ∧ '>' ∉ shown ∧
      ∀ {page' : Page} {segments' : List Segment} {text' title' : String},
        document page' segments' = .ok text' → page'.title = some title' → title' ≠ "" →
          title' ≠ title → titleText? text'.toList ≠ some shown := by
  have hkeeps := keepsText_escape title
  refine ⟨(escape title).toList, titleText?_document h htitle hne, ?_, hkeeps, ?_, ?_⟩
  · rw [toList_escape, foldl_replace (by decide)]
  · rw [toList_escape]
    exact not_mem_flatMap_encode (by decide) (by decide) title.toList
  · intro page' segments' text' title' h' htitle' hne' hother hshown
    rw [titleText?_document h' htitle' hne'] at hshown
    have hsame : title'.toList = title.toList := by
      rw [← (keepsText_escape title').undone, Option.some.inj hshown, hkeeps.undone]
    exact hother (String.toList_inj.1 hsame)

/-- The page with another title. -/
def retitled (title : String) : Page := { titledPage with title := some title }

/-- A title that has the text of an entity is told from one that has its character. -/
theorem document_title_entity :
    ∃ text, document (retitled "< as &lt;") bend = .ok text ∧
      titleText? text.toList = some "&lt; as &amp;lt;".toList ∧
      ∃ other, document (retitled "< as <") bend = .ok other ∧
        titleText? other.toList ≠ titleText? text.toList := by
  have hdrawn : (document (retitled "< as &lt;") bend).isOk = true := by decide +kernel
  have hother : (document (retitled "< as <") bend).isOk = true := by decide +kernel
  obtain ⟨text, htext⟩ := exists_of_isOk hdrawn
  obtain ⟨other, hothertext⟩ := exists_of_isOk hother
  obtain ⟨shown, hshown, hreplaced, _, _, hapart⟩ := document_title htext rfl (by decide)
  have hentity : shown = "&lt; as &amp;lt;".toList := by
    rw [hreplaced]
    decide
  refine ⟨text, htext, hentity ▸ hshown, other, hothertext, ?_⟩
  rw [hshown]
  exact hapart hothertext rfl (by decide) (by decide)

end Svg

end TurtleGrammar
