import Mathlib.Data.List.DropRight
import Mathlib.Data.List.Infix
import TurtleGrammar.Svg

/-!
# `TurtleGrammar.Proofs.Markup` — lines and tags read back

A document is read line by line and a tag attribute by attribute: a value goes on to the next double
quote, and its name stands before the one that opens it. Attributes whose values hold no quote are
read as they were written, whatever comes after them.

## Contents
- `Markup.attributesOf`, `Markup.attribute?`: the attributes of a tag.
- `Markup.Tame`, `Markup.Plain`: texts and attributes that are read as they are written.
- `Markup.attributesOf_tag`: the attributes at the head of a tag are those that were written.
- `Markup.splitOn_lines`: the lines of a text are those that it was put together from.
-/

namespace TurtleGrammar

namespace Markup

/-! ## Attributes -/

/-- The name of the attribute whose value opens after the text: what stands between the last blank
    and the equals sign. -/
def attributeName (opening : List Char) : List Char :=
  opening.dropLast.rtakeWhile (· != ' ')

/-- The attributes among the parts of a tag that its double quotes separate. A value that no quote
    closes is none. -/
def pairUp : List (List Char) → List (List Char × List Char)
  | opening :: value :: next :: rest =>
    (attributeName opening, value) :: pairUp (next :: rest)
  | _ => []

/-- The attributes of a tag, their names with their values. -/
def attributesOf (tag : List Char) : List (List Char × List Char) := pairUp (tag.splitOn '"')

/-- The value of the attribute with a name, if the tag has one. -/
def attribute? (name : String) (tag : List Char) : Option (List Char) :=
  (attributesOf tag).lookup name.toList

/-- Is a text without double quotes and line feeds? -/
structure Tame (text : String) : Prop where
  unquoted : '"' ∉ text.toList
  unbroken : '\n' ∉ text.toList

/-- Is a name with its value read as it is written, in one line? -/
structure Plain (a : String × String) : Prop where
  name : Tame a.1
  name_unparted : ' ' ∉ a.1.toList
  value : Tame a.2

/-- Attributes as they are written, each with a blank before it. -/
def written (all : List (String × String)) : List Char :=
  all.flatMap fun a => ' ' :: (Svg.attr a.1 a.2).toList

/-- The names and values of attributes as texts. -/
def texts (all : List (String × String)) : List (List Char × List Char) :=
  all.map fun a => (a.1.toList, a.2.toList)

variable {front rest : List Char} {all : List (String × String)} {a : String × String}

theorem written_append (first others : List (String × String)) :
    written (first ++ others) = written first ++ written others := List.flatMap_append

theorem forall_bne_of_not_mem {c : Char} {text : List Char} (h : c ∉ text) :
    ∀ d ∈ text, (d != c) = true := by
  intro d hd
  have hne : d ≠ c := fun heq => h (heq ▸ hd)
  simpa using hne

/-- What stands after the last of some characters. -/
theorem rtakeWhile_append {c : Char} {last : List Char} (h : c ∉ last) (front : List Char) :
    (front ++ c :: last).rtakeWhile (· != c) = last := by
  have hlast : ∀ d ∈ last.reverse, (d != c) = true :=
    forall_bne_of_not_mem fun hmem => h (List.mem_reverse.1 hmem)
  unfold List.rtakeWhile
  rw [List.reverse_append, List.reverse_cons, List.append_assoc,
    List.takeWhile_append_of_pos hlast, List.singleton_append,
    List.takeWhile_cons_of_neg (by simp), List.append_nil, List.reverse_reverse]

theorem attributeName_append (front : List Char) {name : List Char} (h : ' ' ∉ name) :
    attributeName (front ++ ' ' :: name ++ ['=']) = name := by
  unfold attributeName
  rw [List.dropLast_concat, rtakeWhile_append h]

/-- The first attribute of a tag. -/
theorem attributesOf_attr (hfront : '"' ∉ front) (ha : Plain a) (rest : List Char) :
    attributesOf (front ++ ' ' :: (Svg.attr a.1 a.2).toList ++ rest) =
      (a.1.toList, a.2.toList) :: attributesOf rest := by
  have htext : front ++ ' ' :: (Svg.attr a.1 a.2).toList ++ rest =
      (front ++ ' ' :: a.1.toList ++ ['=']) ++ '"' :: (a.2.toList ++ '"' :: rest) := by
    unfold Svg.attr
    simp
  have hopening : '"' ∉ front ++ ' ' :: a.1.toList ++ ['='] := by
    simp [hfront, ha.name.unquoted]
  rw [htext]
  unfold attributesOf
  rw [List.splitOn_append_cons_self_of_not_mem hopening,
    List.splitOn_append_cons_self_of_not_mem ha.value.unquoted]
  obtain ⟨next, others, hrest⟩ := List.exists_cons_of_ne_nil (List.splitOn_ne_nil '"' rest)
  rw [hrest, pairUp, attributeName_append front ha.name_unparted]

/-- **Attributes are read back**, up to whatever comes after them. -/
theorem attributesOf_tag (hfront : '"' ∉ front) (hne : all ≠ []) (hall : ∀ a ∈ all, Plain a)
    (rest : List Char) :
    attributesOf (front ++ written all ++ rest) = texts all ++ attributesOf rest := by
  induction all generalizing front with
  | nil => exact absurd rfl hne
  | cons a others ih =>
      obtain ⟨ha, hothers⟩ := List.forall_mem_cons.1 hall
      have hcons : front ++ written (a :: others) ++ rest =
          front ++ ' ' :: (Svg.attr a.1 a.2).toList ++ (written others ++ rest) := by
        simp [written]
      rw [hcons, attributesOf_attr hfront ha]
      by_cases hlast : others = []
      · subst hlast
        rfl
      · have htail : attributesOf ([] ++ written others ++ rest) =
            texts others ++ attributesOf rest := ih List.not_mem_nil hlast hothers
        rw [List.nil_append] at htail
        rw [htail]
        rfl

/-- A character is not written if no attribute has it and it does not stand around them. -/
theorem not_mem_written_of_forall {c : Char} (hc : c ∉ [' ', '=', '"'])
    (hall : ∀ a ∈ all, c ∉ a.1.toList ∧ c ∉ a.2.toList) : c ∉ written all := by
  intro h
  obtain ⟨a, ha, hmem⟩ := List.mem_flatMap.1 h
  obtain ⟨hname, hvalue⟩ := hall a ha
  simp only [List.mem_cons, List.not_mem_nil, or_false, not_or] at hc
  unfold Svg.attr at hmem
  simp [hname, hvalue, hc] at hmem

/-- Plain attributes stand in one line. -/
theorem not_mem_written (hall : ∀ a ∈ all, Plain a) : '\n' ∉ written all :=
  not_mem_written_of_forall (by decide) fun a ha =>
    ⟨(hall a ha).name.unbroken, (hall a ha).value.unbroken⟩

/-- Without a quote there is no attribute. -/
theorem attributesOf_of_not_mem (h : '"' ∉ rest) : attributesOf rest = [] := by
  unfold attributesOf
  rw [List.splitOn_eq_singleton h]
  rfl

/-- Names are looked up in texts as they are in strings. -/
theorem lookup_texts (name : String) (all : List (String × String)) :
    (texts all).lookup name.toList = (all.lookup name).map String.toList := by
  induction all with
  | nil => rfl
  | cons a others ih =>
      have hcons : texts (a :: others) = (a.1.toList, a.2.toList) :: texts others := rfl
      have hname : (name.toList == a.1.toList) = (name == a.1) := by
        rw [Bool.eq_iff_iff, beq_iff_eq, beq_iff_eq, String.toList_inj]
      rw [hcons, List.lookup_cons, List.lookup_cons, hname, ih]
      cases name == a.1 <;> rfl

/-- Attributes with blanks between them are written with a blank before each. -/
theorem toList_attributes (a : String × String) (others : List (String × String)) :
    ' ' :: (Svg.attributes ((a :: others).map fun a => Svg.attr a.1 a.2)).toList =
      written (a :: others) := by
  induction others generalizing a with
  | nil => simp [Svg.attributes, written]
  | cons b others ih =>
      have hcons : Svg.attributes ((a :: b :: others).map fun a => Svg.attr a.1 a.2) =
          Svg.attr a.1 a.2 ++ " " ++ Svg.attributes ((b :: others).map fun a => Svg.attr a.1 a.2) :=
        String.intercalate_cons_cons
      have hwritten : written (a :: b :: others) =
          ' ' :: (Svg.attr a.1 a.2).toList ++ written (b :: others) := rfl
      rw [hcons, hwritten, ← ih]
      simp

/-! ## Lines -/

/-- The lines of a text that is put together from pieces with a line feed after each. -/
theorem splitOn_lines (all : List String) :
    (String.join (all.map (· ++ "\n"))).toList.splitOn '\n' =
      all.flatMap (fun line => line.toList.splitOn '\n') ++ [[]] := by
  induction all with
  | nil => rfl
  | cons line others ih =>
      have hcons : (String.join ((line :: others).map (· ++ "\n"))).toList =
          line.toList ++ '\n' :: (String.join (others.map (· ++ "\n"))).toList := by
        simp [String.join_cons]
      rw [hcons, List.splitOn_append_cons_self, ih, List.flatMap_cons, List.append_assoc]

/-- A part of a text between line feeds stands in the text. -/
theorem isInfix_of_mem_splitOn {c : Char} {piece text : List Char} (h : piece ∈ text.splitOn c) :
    piece <:+: text := by
  obtain ⟨i, hi⟩ := List.mem_iff_getElem?.1 h
  have hat : (List.intersperse [c] (text.splitOn c))[2 * i]? = some piece :=
    List.getElem?_intersperse_two_mul.trans hi
  have hmem : piece ∈ List.intersperse [c] (text.splitOn c) := List.mem_of_getElem? hat
  have htext : (List.intersperse [c] (text.splitOn c)).flatten = text :=
    List.intercalate_splitOn c
  rw [← htext]
  exact List.infix_of_mem_flatten hmem

end Markup

end TurtleGrammar
