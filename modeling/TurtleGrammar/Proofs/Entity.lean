import Mathlib.Data.List.TakeWhile
import TurtleGrammar.Proofs.Markup

/-!
# `TurtleGrammar.Proofs.Entity` — entities undone

An entity begins with an ampersand and stands for one character. A text is undone in one pass from
the left, so that what an entity stands for is not read again. A text in which every ampersand
starts an entity becomes shorter if it has an ampersand at all. Where the ampersand has an entity of
its own, a text that is written with entities is undone to what it was.

## Contents
- `Entity`, `Entity.predefined`: the entities that every document may use; `Entity.betweenTags`:
  those that are written between tags.
- `undo`: a text with its entities undone; `AmpersandsStart`: no ampersand stands for itself.
- `undo_of_not_mem`, `length_undo_lt`: texts without an ampersand and with one.
- `KeepsText`, `keepsText_quoted_iff`: the texts that are read back from between quotes.
- `encode`, `foldl_replace`: entities written, all at once and one kind after the other.
- `IsCode`, `undo_flatMap_encode`: what is written with entities is undone.
-/

namespace TurtleGrammar

/-- A text that stands for a character in a document. -/
structure Entity where
  text : List Char
  char : Char

/-- The entities that every document may use. -/
def Entity.predefined : List Entity :=
  [⟨"&amp;".toList, '&'⟩, ⟨"&lt;".toList, '<'⟩, ⟨"&gt;".toList, '>'⟩, ⟨"&quot;".toList, '"'⟩,
    ⟨"&apos;".toList, '\''⟩]

/-- The entities that are written between tags. -/
def Entity.betweenTags : List Entity :=
  [⟨"&amp;".toList, '&'⟩, ⟨"&lt;".toList, '<'⟩, ⟨"&gt;".toList, '>'⟩]

/-- A text in which an entity has taken the place of its character throughout. -/
def Entity.replace (e : Entity) (text : List Char) : List Char :=
  text.flatMap fun c => if c = e.char then e.text else [c]

namespace Markup

/-- The entity with which a text begins. -/
def entityAt? (table : List Entity) (text : List Char) : Option Entity :=
  table.find? fun e => e.text.isPrefixOf text

/-- A text with its entities undone, from the left in one pass. The characters to be skipped belong
    to an entity that has been undone. -/
def undo (table : List Entity) : Nat → List Char → List Char
  | _, [] => []
  | skip + 1, _ :: rest => undo table skip rest
  | 0, c :: rest =>
    match entityAt? table (c :: rest) with
    | some e => e.char :: undo table (e.text.length - 1) rest
    | none => c :: undo table 0 rest

/-- Does every ampersand of a text start an entity? -/
def AmpersandsStart (table : List Entity) (text : List Char) : Prop :=
  ∀ front rest, text = front ++ '&' :: rest → (entityAt? table ('&' :: rest)).isSome = true

/-- Are the texts of the entities ampersands with something after them? -/
structure IsTable (table : List Entity) : Prop where
  begins : ∀ e ∈ table, e.text.head? = some '&'
  longer : ∀ e ∈ table, 2 ≤ e.text.length

theorem isTable_predefined : IsTable Entity.predefined := ⟨by decide, by decide⟩

variable {table : List Entity} {text front : List Char} {c : Char}

/-! ## One pass -/

theorem mem_of_entityAt? {e : Entity} (h : entityAt? table text = some e) :
    e ∈ table ∧ e.text <+: text := by
  have hprefix := List.find?_some (p := fun e : Entity => e.text.isPrefixOf text) h
  exact ⟨List.mem_of_find?_eq_some h, List.isPrefixOf_iff_prefix.1 hprefix⟩

/-- Only an ampersand begins an entity. -/
theorem entityAt?_cons_of_ne (htable : IsTable table) (h : c ≠ '&') (rest : List Char) :
    entityAt? table (c :: rest) = none := by
  cases hat : entityAt? table (c :: rest) with
  | none => rfl
  | some e =>
      obtain ⟨hentity, others, htext⟩ := mem_of_entityAt? hat
      have hhead : e.text.head? = some '&' := htable.begins e hentity
      cases hentityText : e.text with
      | nil =>
          rw [hentityText] at hhead
          cases hhead
      | cons d more =>
          rw [hentityText] at hhead htext
          obtain rfl : d = '&' := Option.some.inj hhead
          exact absurd (List.cons.inj htext).1.symm h

/-- What stands before the first ampersand stays. -/
theorem undo_append_of_not_mem (htable : IsTable table) (h : '&' ∉ front) (rest : List Char) :
    undo table 0 (front ++ rest) = front ++ undo table 0 rest := by
  induction front with
  | nil => rfl
  | cons c others ih =>
      obtain ⟨hc, hothers⟩ := not_or.1 (fun hmem => h (List.mem_cons.2 hmem))
      rw [List.cons_append, undo, entityAt?_cons_of_ne htable (Ne.symm hc), ih hothers]
      rfl

/-- A text without an ampersand stays. -/
theorem undo_of_not_mem (htable : IsTable table) (h : '&' ∉ text) : undo table 0 text = text := by
  have happend := undo_append_of_not_mem htable h []
  rw [List.append_nil] at happend
  rw [happend]
  exact List.append_nil text

/-- What is undone is not longer than what is left to read. -/
theorem length_undo_le (table : List Entity) (skip : Nat) (text : List Char) :
    (undo table skip text).length ≤ text.length - skip := by
  induction skip, text using undo.induct table with
  | case1 skip => exact Nat.zero_le _
  | case2 skip c rest ih =>
      rw [undo, List.length_cons]
      omega
  | case3 c rest e he ih =>
      rw [undo, he]
      simp only [List.length_cons]
      omega
  | case4 c rest hnone ih =>
      rw [undo, hnone]
      simp only [List.length_cons]
      omega

/-- A text with an ampersand becomes shorter if every one starts an entity. -/
theorem length_undo_lt (htable : IsTable table) (hmem : '&' ∈ text)
    (hstart : AmpersandsStart table text) : (undo table 0 text).length < text.length := by
  obtain ⟨front, rest, rfl, hfront⟩ := List.eq_append_cons_of_mem hmem
  obtain ⟨e, he⟩ := Option.isSome_iff_exists.1 (hstart front rest rfl)
  obtain ⟨hentity, hprefix⟩ := mem_of_entityAt? he
  have hlonger : 2 ≤ e.text.length := htable.longer e hentity
  have hlength := hprefix.length_le
  have hrest := length_undo_le table (e.text.length - 1) rest
  rw [undo_append_of_not_mem htable hfront, undo, he]
  simp only [List.length_append, List.length_cons] at hlength ⊢
  omega

/-! ## Texts between quotes -/

/-- A text up to its next double quote. -/
def quoted (text : List Char) : List Char := text.takeWhile (· != '"')

/-- Is a text read back from a value, which has no less-than sign and in which every ampersand
    starts an entity? -/
structure KeepsText (table : List Entity) (value given : List Char) : Prop where
  undone : undo table 0 value = given
  unopened : '<' ∉ value
  started : AmpersandsStart table value

/-- The next quote after a text that is written before a quote is not beyond it. -/
theorem quoted_append (text rest : List Char) : quoted (text ++ '"' :: rest) = quoted text := by
  unfold quoted
  rw [List.takeWhile_append]
  split
  · next hlength =>
    have hwhole := (List.takeWhile_prefix (fun c : Char => c != '"')).eq_of_length hlength
    rw [List.takeWhile_cons_of_neg (by decide), List.append_nil, hwhole]
  · rfl

theorem quoted_eq_self_iff : quoted text = text ↔ '"' ∉ text := by
  unfold quoted
  rw [List.takeWhile_eq_self_iff]
  constructor
  · intro hall hmem
    exact absurd (hall _ hmem) (by decide)
  · exact forall_bne_of_not_mem

/-- **Texts read back from between quotes.** A text that is written as it is between double quotes
    is kept exactly if it has no double quote, no less-than sign and no ampersand. -/
theorem keepsText_quoted_iff (htable : IsTable table) (rest : List Char) :
    KeepsText table (quoted (text ++ '"' :: rest)) text ↔
      '"' ∉ text ∧ '<' ∉ text ∧ '&' ∉ text := by
  rw [quoted_append]
  constructor
  · rintro ⟨hundone, hunopened, hstarted⟩
    -- an entity that is undone leaves less than was read, and no more is read than was written
    have hplain : '&' ∉ quoted text := by
      intro hmem
      have hless := length_undo_lt htable hmem hstarted
      have hle : (quoted text).length ≤ text.length :=
        (List.takeWhile_prefix (fun c : Char => c != '"')).length_le
      rw [hundone] at hless
      omega
    have hwhole : quoted text = text := (undo_of_not_mem htable hplain).symm.trans hundone
    rw [hwhole] at hplain hunopened
    exact ⟨quoted_eq_self_iff.1 hwhole, hunopened, hplain⟩
  · rintro ⟨hunquoted, hunopened, hplain⟩
    rw [quoted_eq_self_iff.2 hunquoted]
    refine ⟨undo_of_not_mem htable hplain, hunopened, ?_⟩
    rintro front rest rfl
    exact absurd (List.mem_append_right front List.mem_cons_self) hplain

/-! ## Entities written -/

/-- How a character is written: as its entity if it has one. -/
def encode (table : List Entity) (c : Char) : List Char :=
  match table.find? fun e => e.char == c with
  | some e => e.text
  | none => [c]

theorem encode_cons (e : Entity) (table : List Entity) (c : Char) :
    encode (e :: table) c = if c = e.char then e.text else encode table c := by
  unfold encode
  by_cases hc : c = e.char
  · rw [List.find?_cons_of_pos (by simp [hc]), if_pos hc]
  · rw [List.find?_cons_of_neg (by simp [Ne.symm hc]), if_neg hc]

/-- A character is written as an entity that stands for it, or stands for itself. -/
theorem encode_cases (table : List Entity) (c : Char) :
    (∃ e ∈ table, e.char = c ∧ encode table c = e.text) ∨
      (∀ e ∈ table, e.char ≠ c) ∧ encode table c = [c] := by
  unfold encode
  cases hfind : table.find? fun e => e.char == c with
  | some e =>
      have hchar := List.find?_some hfind
      exact .inl ⟨e, List.mem_of_find?_eq_some hfind, by simpa using hchar, rfl⟩
  | none =>
      refine .inr ⟨fun e he => ?_, rfl⟩
      have hchar := List.find?_eq_none.1 hfind e he
      simpa using hchar

/-- Between tags a character is written as its entity. -/
theorem escapeChar_eq_encode (c : Char) : Svg.escapeChar c = encode Entity.betweenTags c := by
  unfold Svg.escapeChar Entity.betweenTags
  rw [encode_cons, encode_cons, encode_cons]
  rfl

theorem toList_escape (text : String) :
    (Svg.escape text).toList = text.toList.flatMap (encode Entity.betweenTags) := by
  unfold Svg.escape
  rw [String.toList_ofList, funext escapeChar_eq_encode]

/-- A character with an entity of its own stays nowhere if the entities do without it. -/
theorem not_mem_flatMap_encode (hown : ∃ e ∈ table, e.char = c) (hout : ∀ e ∈ table, c ∉ e.text)
    (text : List Char) : c ∉ text.flatMap (encode table) := by
  intro hmem
  obtain ⟨d, _, hd⟩ := List.mem_flatMap.1 hmem
  rcases encode_cases table d with ⟨e, he, _, hencode⟩ | ⟨hplain, hencode⟩
  · rw [hencode] at hd
    exact hout e he hd
  · rw [hencode] at hd
    obtain ⟨e, he, hchar⟩ := hown
    exact hplain e he (hchar.trans (List.mem_singleton.1 hd))

/-- Characters without entities stay. -/
theorem flatMap_encode_of_forall (h : ∀ e ∈ table, e.char ∉ text) :
    text.flatMap (encode table) = text := by
  induction text with
  | nil => rfl
  | cons c rest ih =>
      rcases encode_cases table c with ⟨e, he, hchar, _⟩ | ⟨_, hencode⟩
      · exact absurd (hchar ▸ List.mem_cons_self) (h e he)
      · rw [List.flatMap_cons, hencode, ih fun e he hmem => h e he (List.mem_cons_of_mem c hmem)]
        rfl

/-- **Replacing one after the other is replacing at once**, if no entity that is written has a
    character that is replaced later. So the ampersand comes first: replaced last, it would be
    replaced in the entities of the other characters too. -/
theorem foldl_replace (hlater : table.Pairwise fun e later => later.char ∉ e.text)
    (text : List Char) :
    table.foldl (fun shown e => e.replace shown) text = text.flatMap (encode table) := by
  induction table generalizing text with
  | nil => exact (List.flatMap_singleton' text).symm
  | cons e others ih =>
      obtain ⟨hkept, hothers⟩ := List.pairwise_cons.1 hlater
      rw [List.foldl_cons, ih hothers, Entity.replace, List.flatMap_assoc]
      congr 1
      funext c
      rw [encode_cons]
      split
      · exact flatMap_encode_of_forall hkept
      · exact List.flatMap_singleton _ c

/-! ## Entities undone -/

/-- Are entities told apart in what is written with them? The ampersand has an entity of its own, no
    entity has a second one, and none begins another. -/
structure IsCode (table : List Entity) : Prop extends IsTable table where
  ampersand : ∃ e ∈ table, e.char = '&'
  single : ∀ e ∈ table, '&' ∉ e.text.tail
  apart : ∀ e ∈ table, ∀ other ∈ table, other.text <+: e.text → other = e

theorem isCode_betweenTags : IsCode Entity.betweenTags where
  begins := by decide
  longer := by decide
  ampersand := ⟨_, List.mem_cons_self, rfl⟩
  single := by decide
  apart := by
    intro e he other hother hprefix
    simp only [Entity.betweenTags, List.mem_cons, List.not_mem_nil, or_false] at he hother
    rcases he with rfl | rfl | rfl <;> rcases hother with rfl | rfl | rfl <;>
      first | rfl | exact absurd hprefix (by decide)

/-- What is written for a character: an entity whose one ampersand begins it, or a character that is
    no ampersand. -/
theorem IsCode.encode_eq (hcode : IsCode table) (c : Char) :
    (∃ e ∈ table, ∃ body, e.text = '&' :: body ∧ '&' ∉ body ∧ e.char = c ∧
        encode table c = e.text) ∨
      '&' ∉ [c] ∧ encode table c = [c] := by
  rcases encode_cases table c with ⟨e, he, hchar, hencode⟩ | ⟨hplain, hencode⟩
  · have hbody : e.text = '&' :: e.text.tail := (List.cons_head?_tail (hcode.begins e he)).symm
    exact .inl ⟨e, he, e.text.tail, hbody, hcode.single e he, hchar, hencode⟩
  · obtain ⟨e, he, hampersand⟩ := hcode.ampersand
    refine .inr ⟨fun hmem => ?_, hencode⟩
    exact hplain e he (hampersand.trans (List.mem_singleton.1 hmem))

/-- An entity is found where it is written. -/
theorem IsCode.entityAt?_append (hcode : IsCode table) {e : Entity} (he : e ∈ table)
    (rest : List Char) : entityAt? table (e.text ++ rest) = some e := by
  have hself : e.text.isPrefixOf (e.text ++ rest) = true :=
    List.isPrefixOf_iff_prefix.2 (List.prefix_append e.text rest)
  cases hat : entityAt? table (e.text ++ rest) with
  | none => exact absurd hself (List.find?_eq_none.1 hat e he)
  | some other =>
      obtain ⟨hother, hprefix⟩ := mem_of_entityAt? hat
      rcases List.prefix_or_prefix_of_prefix hprefix (List.prefix_append e.text rest) with h | h
      · rw [hcode.apart e he other hother h]
      · rw [hcode.apart other hother e he h]

/-- The rest of an entity that has been undone is skipped. -/
theorem undo_skip (table : List Entity) (front rest : List Char) :
    undo table front.length (front ++ rest) = undo table 0 rest := by
  induction front with
  | nil => rfl
  | cons c others ih => exact ih

/-- A character that is written is undone, whatever comes after it. -/
theorem IsCode.undo_encode (hcode : IsCode table) (c : Char) (rest : List Char) :
    undo table 0 (encode table c ++ rest) = c :: undo table 0 rest := by
  rcases hcode.encode_eq c with ⟨e, he, body, hbody, _, hchar, hencode⟩ | ⟨hc, hencode⟩
  · have hat := hcode.entityAt?_append he rest
    rw [hencode]
    rw [hbody, List.cons_append] at hat ⊢
    have hlength : e.text.length - 1 = body.length := by
      rw [hbody]
      rfl
    have hstep : undo table 0 ('&' :: (body ++ rest)) =
        e.char :: undo table (e.text.length - 1) (body ++ rest) := by
      rw [undo, hat]
    rw [hstep, hlength, undo_skip, hchar]
  · rw [hencode, undo_append_of_not_mem hcode.toIsTable hc]
    rfl

/-- **What is written with entities is undone.** -/
theorem IsCode.undo_flatMap_encode (hcode : IsCode table) (text : List Char) :
    undo table 0 (text.flatMap (encode table)) = text := by
  induction text with
  | nil => rfl
  | cons c rest ih => rw [List.flatMap_cons, hcode.undo_encode, ih]

theorem ampersandsStart_cons {rest : List Char} : AmpersandsStart table (c :: rest) ↔
    (c = '&' → (entityAt? table (c :: rest)).isSome = true) ∧ AmpersandsStart table rest := by
  constructor
  · intro h
    refine ⟨?_, fun front more heq => h (c :: front) more (by rw [heq]; rfl)⟩
    rintro rfl
    exact h [] rest rfl
  · rintro ⟨hfirst, hrest⟩ front more heq
    cases front with
    | nil =>
        obtain ⟨rfl, rfl⟩ := List.cons.inj heq
        exact hfirst rfl
    | cons d others => exact hrest others more (List.cons.inj heq).2

theorem ampersandsStart_append {rest : List Char} (h : '&' ∉ front) :
    AmpersandsStart table (front ++ rest) ↔ AmpersandsStart table rest := by
  induction front with
  | nil => rfl
  | cons c others ih =>
      obtain ⟨hc, hothers⟩ := not_or.1 (fun hmem => h (List.mem_cons.2 hmem))
      rw [List.cons_append, ampersandsStart_cons, ih hothers]
      exact and_iff_right fun heq => absurd heq.symm hc

/-- The ampersands of a text that is written with entities are those of its entities. -/
theorem IsCode.ampersandsStart_flatMap_encode (hcode : IsCode table) (text : List Char) :
    AmpersandsStart table (text.flatMap (encode table)) := by
  induction text with
  | nil =>
      intro front rest heq
      exact absurd heq (by simp)
  | cons c rest ih =>
      rw [List.flatMap_cons]
      rcases hcode.encode_eq c with ⟨e, he, body, hbody, hsingle, _, hencode⟩ | ⟨hc, hencode⟩
      · have hat := hcode.entityAt?_append he (rest.flatMap (encode table))
        rw [hencode]
        rw [hbody, List.cons_append] at hat ⊢
        refine ampersandsStart_cons.2 ⟨fun _ => ?_, (ampersandsStart_append hsingle).2 ih⟩
        rw [hat]
        rfl
      · rw [hencode]
        exact (ampersandsStart_append hc).2 ih

end Markup

end TurtleGrammar
