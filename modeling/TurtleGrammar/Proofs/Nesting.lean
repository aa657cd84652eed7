import TurtleGrammar.Proofs.Requirement
import TurtleGrammar.Proofs.Scan

/-!
# `TurtleGrammar.Proofs.Nesting` — what is read stands in its text

A value that was read is carried by the characters it was read from: an array or an object that
stands some levels deep in it, and an integer with some digits, are where a scan of those characters
gets as deep and behind as many digits. What the reader gives is thus bounded by what its text
shows, whatever the text is.

## Contents
- `Json.Nested`, `Json.opens`, `Json.width`: the values in a value, and how deep they are.
- `Json.Carries`: characters that values stand in.
- `Json.value_items_members_carried`: what the readers take carries what they give.
- `Json.exists_carries_of_read`: a text carries the value that is read from it.
-/

namespace TurtleGrammar

namespace Json

/-! ## Values in a value -/

/-- Does a value stand in another one, so many levels deep? -/
inductive Nested (w : Json) : Nat → Json → Prop where
  | self : Nested w 0 w
  | item {items : List Json} {value : Json} {n : Nat} (hmem : value ∈ items)
      (h : Nested w n value) : Nested w (n + 1) (.array items)
  | member {members : List (String × Json)} {m : String × Json} {n : Nat} (hmem : m ∈ members)
      (h : Nested w n m.2) : Nested w (n + 1) (.object members)

/-- The brackets that a value opens itself. -/
def opens : Json → Nat
  | .array _ => 1
  | .object _ => 1
  | _ => 0

/-- The digits of an integer. -/
def width : Json → Nat
  | .integer n => digitCount n.natAbs
  | _ => 0

variable {value w : Json} {values first later : List Json} {n : Nat}

theorem Nested.of_leaf (hopens : value.opens = 0) (h : Nested w n value) : n = 0 ∧ w = value := by
  cases h with
  | self => exact ⟨rfl, rfl⟩
  | item => cases hopens
  | member => cases hopens

theorem Nested.of_array {items : List Json} (h : Nested w n (.array items)) :
    (n = 0 ∧ w = .array items) ∨ ∃ m, n = m + 1 ∧ ∃ item ∈ items, Nested w m item := by
  cases h with
  | self => exact .inl ⟨rfl, rfl⟩
  | item hmem h => exact .inr ⟨_, rfl, _, hmem, h⟩

theorem Nested.of_object {members : List (String × Json)} (h : Nested w n (.object members)) :
    (n = 0 ∧ w = .object members) ∨
      ∃ m, n = m + 1 ∧ ∃ value ∈ members.map Prod.snd, Nested w m value := by
  cases h with
  | self => exact .inl ⟨rfl, rfl⟩
  | member hmem h => exact .inr ⟨_, rfl, _, List.mem_map_of_mem hmem, h⟩

/-! ## Characters that carry values -/

/-- Do the characters bring a scan back, and does it pass in them all that stands in some values? -/
structure Carries (used : List Char) (values : List Json) : Prop where
  closed : Closed used
  passes : ∀ value ∈ values, ∀ w n, Nested w n value → Passes used (n + w.opens) w.width

variable {used before after u v : List Char}

theorem carries_leaf (hclosed : Closed used) (hopens : value.opens = 0)
    (hwidth : Passes used 0 value.width) : Carries used [value] := by
  refine ⟨hclosed, ?_⟩
  intro value' hvalue w n h
  obtain rfl := List.mem_singleton.1 hvalue
  obtain ⟨rfl, rfl⟩ := h.of_leaf hopens
  rw [hopens]
  exact hwidth

theorem carries_nil (h : Closed used) : Carries used [] :=
  ⟨h, fun _ hvalue => absurd hvalue List.not_mem_nil⟩

theorem Carries.append (hfirst : Carries u first) (hlater : Carries v later) :
    Carries (u ++ v) (first ++ later) := by
  refine ⟨hfirst.closed.append hlater.closed, ?_⟩
  intro value hvalue w n hw
  rcases List.mem_append.1 hvalue with hvalue | hvalue
  · exact (hfirst.passes value hvalue w n hw).between closed_nil v
  · have hpasses := (hlater.passes value hvalue w n hw).between hfirst.closed []
    rwa [List.append_nil] at hpasses

theorem Carries.behind (h : Carries used values) (hbefore : Closed before) :
    Carries (before ++ used) values :=
  (carries_nil hbefore).append h

theorem Carries.between (h : Carries used values) (hbefore : Closed before)
    (hafter : Closed after) : Carries (before ++ used ++ after) values := by
  have hall := (h.behind hbefore).append (carries_nil hafter)
  rwa [List.append_nil] at hall

theorem Carries.of_subset (h : Carries used values) (hsub : first ⊆ values) :
    Carries used first :=
  ⟨h.closed, fun value hvalue => h.passes value (hsub hvalue)⟩

/-- Brackets around the characters of some values carry a value that these stand in, one level
    deeper. -/
theorem Carries.enclosed {opening closing : Char} (h : Carries used values)
    (hopening : opening = '[' ∨ opening = '{') (hclosing : closing = ']' ∨ closing = '}')
    (hopens : value.opens = 1) (hwidth : value.width = 0)
    (hinside : ∀ w n, Nested w n value →
      (n = 0 ∧ w = value) ∨ ∃ m, n = m + 1 ∧ ∃ v ∈ values, Nested w m v) :
    Carries (opening :: (used ++ [closing])) [value] := by
  constructor
  · intro s hs
    obtain ⟨hout, hdepth⟩ := hs.step_open hopening
    obtain ⟨hout', hdepth'⟩ := h.closed _ hout
    obtain ⟨hout'', hdepth''⟩ := hout'.step_close hclosing
    rw [Scan.run_cons, Scan.run_append, Scan.run_cons, Scan.run_nil]
    refine ⟨hout'', ?_⟩
    rw [hdepth'', hdepth', hdepth]
    exact Nat.add_sub_cancel ..
  · intro value' hvalue w n hw
    obtain rfl := List.mem_singleton.1 hvalue
    rcases hinside w n hw with ⟨rfl, rfl⟩ | ⟨m, rfl, v, hv, hw'⟩
    · -- the value itself is one level in, right behind its own bracket
      refine ⟨[opening], ⟨used ++ [closing], rfl⟩, ?_⟩
      intro s hs
      obtain ⟨_, hdepth⟩ := hs.step_open hopening
      rw [hopens, hwidth]
      exact ⟨Nat.le_of_eq hdepth.symm, Nat.zero_le _⟩
    · obtain ⟨front, hfront, hrun⟩ := h.passes v hv w m hw'
      refine ⟨opening :: front, ?_, ?_⟩
      · exact List.cons_prefix_cons.2 ⟨rfl, hfront.trans (List.prefix_append _ _)⟩
      · intro s hs
        obtain ⟨hout, hdepth⟩ := hs.step_open hopening
        obtain ⟨hle, hdigits⟩ := hrun _ hout
        rw [Scan.run_cons]
        exact ⟨by omega, hdigits⟩

/-! ## Numbers and words -/

/-- The characters of a number carry it. -/
theorem exists_carries_of_readNumber {s rest : List Char} {hlt : rest.length < s.length}
    (h : readNumber s = .ok (value, ⟨rest, hlt⟩)) :
    ∃ used, s = used ++ rest ∧ Carries used [value] := by
  obtain ⟨sign, whole, later, hs, hsign, hne, hwhole, hlater, hvalue⟩ :=
    exists_parts_of_readNumber h
  have hdigits : Closed whole := closed_of_plain fun c hc => isPlain_of_isDigit (hwhole c hc)
  have hclosed : Closed (sign ++ whole ++ later) :=
    ((closed_of_plain hsign).append hdigits).append (closed_of_plain hlater)
  refine ⟨sign ++ whole ++ later, hs, ?_⟩
  rcases hvalue with ⟨x, rfl⟩ | ⟨n, rfl, hn⟩
  · exact carries_leaf hclosed rfl (passes_nothing _)
  · exact carries_leaf hclosed rfl (passes_digits hsign hne hwhole hn later)

/-- A word has no brackets, and stands for a value without any. -/
theorem plain_of_mem_literals {l : List Char × Json} (h : l ∈ literals) :
    (∀ c ∈ l.1, isPlain c = true) ∧ l.2.opens = 0 ∧ l.2.width = 0 := by
  have hall : literals.all
      (fun l => l.1.all isPlain && l.2.opens == 0 && l.2.width == 0) = true := rfl
  have hl := List.all_eq_true.1 hall l h
  simp only [Bool.and_eq_true, beq_iff_eq] at hl
  obtain ⟨⟨hplain, hopens⟩, hwidth⟩ := hl
  exact ⟨List.all_eq_true.1 hplain, hopens, hwidth⟩

theorem exists_carries_of_readScalar {s rest : List Char} {hlt : rest.length < s.length}
    (h : readScalar s = .ok (value, ⟨rest, hlt⟩)) :
    ∃ used, s = used ++ rest ∧ Carries used [value] := by
  unfold readScalar at h
  split at h
  · next word value' hfind =>
    split at h
    · obtain ⟨rfl, hrest⟩ := eq_of_reading h
      obtain ⟨hplain, hopens, hwidth⟩ := plain_of_mem_literals (List.mem_of_find?_eq_some hfind)
      have hstarts := List.find?_some hfind
      have hword : word = s.take word.length :=
        List.prefix_iff_eq_take.1 (List.isPrefixOf_iff_prefix.1 hstarts)
      refine ⟨word, ?_, ?_⟩
      · calc s = s.take word.length ++ s.drop word.length := (List.take_append_drop ..).symm
          _ = word ++ rest := by rw [← hword, hrest]
      · refine carries_leaf (closed_of_plain hplain) hopens ?_
        rw [hwidth]
        exact passes_nothing word
    · cases h
  · exact exists_carries_of_readNumber h

/-! ## Arrays and objects -/

/-- Do the characters that the reader of values takes here carry what it gives? -/
def ValueCarried (s : List Char) : Prop :=
  ∀ value rest hlt, readValue s = .ok (value, ⟨rest, hlt⟩) →
    ∃ used, s = used ++ rest ∧ Carries used [value]

/-- Do the characters that the reader of items takes here, up to the bracket, carry the items? -/
def ItemsCarried (s : List Char) : Prop :=
  ∀ items rest hlt, readItems s = .ok (items, ⟨rest, hlt⟩) →
    ∃ used, s = used ++ ']' :: rest ∧ Carries used items

/-- Do the characters that the reader of members takes here, up to the brace, carry their values? -/
def MembersCarried (s : List Char) : Prop :=
  ∀ members rest hlt, readMembers s = .ok (members, ⟨rest, hlt⟩) →
    ∃ used, s = used ++ '}' :: rest ∧ Carries used (members.map Prod.snd)

/-- A separator, with white space around it. -/
theorem closed_separator {separator : Char} (h : isPlain separator = true)
    (hbefore : Closed before) (hafter : Closed after) :
    Closed (before ++ separator :: after) :=
  hbefore.append ((closed_of_plain (List.forall_mem_singleton.2 h)).append hafter)

/-- What a reader takes between brackets, behind white space, carries the value with them. -/
theorem Carries.exists_enclosed {opening closing : Char} {s t rest : List Char}
    (h : Carries used values) (hopening : opening = '[' ∨ opening = '{')
    (hclosing : closing = ']' ∨ closing = '}') (hopens : value.opens = 1) (hwidth : value.width = 0)
    (hinside : ∀ w n, Nested w n value →
      (n = 0 ∧ w = value) ∨ ∃ m, n = m + 1 ∧ ∃ v ∈ values, Nested w m v)
    (hbefore : Closed before) (hs : s = before ++ t) (ht : t = used ++ closing :: rest) :
    ∃ used, opening :: s = used ++ rest ∧ Carries used [value] := by
  refine ⟨opening :: (before ++ used ++ [closing]), ?_,
    (h.behind hbefore).enclosed hopening hclosing hopens hwidth hinside⟩
  rw [hs, ht, List.cons_append, List.append_assoc, List.append_assoc, List.singleton_append]

theorem valueCarried_of {s : List Char} (hitems : ∀ t, t.length < s.length → ItemsCarried t)
    (hmembers : ∀ t, t.length < s.length → MembersCarried t) : ValueCarried s := by
  intro value rest hlt h
  unfold readValue at h
  split at h
  case h_1 => cases h
  case h_2 t =>
    split at h
    · cases h
    next text rest' hlt' hread =>
    obtain ⟨rfl, rfl⟩ := eq_of_reading h
    obtain ⟨used, ht, hclosed⟩ := closed_of_readString hread
    refine ⟨'"' :: used, ?_, carries_leaf hclosed rfl (passes_nothing _)⟩
    rw [List.cons_append, ← ht]
  case h_3 t =>
    obtain ⟨blanks, hblanks, hclosed⟩ := exists_skipBlanks t
    extract_lets hle at h
    split at h
    · next rest' hend =>
      obtain ⟨rfl, rfl⟩ := eq_of_reading h
      exact (carries_nil closed_nil).exists_enclosed (.inl rfl) (.inl rfl) rfl rfl
        (fun w n hw => hw.of_array) hclosed hblanks hend
    · split at h
      · cases h
      next items rest' hlt' hread =>
      obtain ⟨rfl, rfl⟩ := eq_of_reading h
      obtain ⟨used, hused, hcarries⟩ := hitems _ (Nat.lt_succ_of_le hle) _ _ _ hread
      exact hcarries.exists_enclosed (.inl rfl) (.inl rfl) rfl rfl
        (fun w n hw => hw.of_array) hclosed hblanks hused
  case h_4 t =>
    obtain ⟨blanks, hblanks, hclosed⟩ := exists_skipBlanks t
    extract_lets hle at h
    split at h
    · next rest' hend =>
      obtain ⟨rfl, rfl⟩ := eq_of_reading h
      exact (carries_nil closed_nil).exists_enclosed (.inr rfl) (.inr rfl) rfl rfl
        (fun w n hw => hw.of_object) hclosed hblanks hend
    · split at h
      · cases h
      next members rest' hlt' hread =>
      obtain ⟨rfl, rfl⟩ := eq_of_reading h
      obtain ⟨used, hused, hcarries⟩ := hmembers _ (Nat.lt_succ_of_le hle) _ _ _ hread
      -- the table keeps some of the members that were read
      have hkept : (Table.ofList members).entries.map Prod.snd ⊆ members.map Prod.snd := by
        intro w hw
        obtain ⟨m, hm, rfl⟩ := List.mem_map.1 hw
        exact List.mem_map_of_mem (Table.mem_of_mem_ofList hm)
      exact (hcarries.of_subset hkept).exists_enclosed (.inr rfl) (.inr rfl) rfl rfl
        (fun w n hw => hw.of_object) hclosed hblanks hused
  case h_5 => exact exists_carries_of_readScalar h

theorem itemsCarried_of {s : List Char} (hvalue : ValueCarried s)
    (hitems : ∀ t, t.length < s.length → ItemsCarried t) : ItemsCarried s := by
  intro items rest hlt h
  unfold readItems at h
  split at h
  · cases h
  next value t ht hread =>
  obtain ⟨used, hs, hcarries⟩ := hvalue _ _ _ hread
  obtain ⟨blanks, hblanks, hclosed⟩ := exists_skipBlanks t
  extract_lets hle at h
  split at h
  · next rest' hend =>
    obtain ⟨rfl, rfl⟩ := eq_of_reading h
    refine ⟨used ++ blanks, ?_, hcarries.between closed_nil hclosed⟩
    rw [List.append_assoc, ← hend, ← hblanks, ← hs]
  · next u hcomma =>
    extract_lets hle' at h
    split at h
    · cases h
    next items' rest' hlt' hread' =>
    obtain ⟨rfl, rfl⟩ := eq_of_reading h
    obtain ⟨blanks', hblanks', hclosed'⟩ := exists_skipBlanks u
    have hshort : (skipBlanks u).length < s.length := by
      rw [hcomma, List.length_cons] at hle
      omega
    obtain ⟨more, hmore, hcarries'⟩ := hitems _ hshort _ _ _ hread'
    refine ⟨used ++ (blanks ++ ',' :: blanks') ++ more, ?_,
      (hcarries.between closed_nil (closed_separator rfl hclosed hclosed')).append hcarries'⟩
    calc s = used ++ (blanks ++ ',' :: (blanks' ++ skipBlanks u)) := by
          rw [← hblanks', ← hcomma, ← hblanks, ← hs]
      _ = _ := by rw [hmore]; simp only [List.append_assoc, List.cons_append]
  · cases h

theorem membersCarried_of {s : List Char} (hvalue : ∀ t, t.length < s.length → ValueCarried t)
    (hmembers : ∀ t, t.length < s.length → MembersCarried t) : MembersCarried s := by
  intro members rest hlt h
  unfold readMembers at h
  split at h
  case h_2 => cases h
  case h_1 t =>
    split at h
    · cases h
    next name a ha hname =>
    obtain ⟨used, ht, hquoted⟩ := closed_of_readString hname
    obtain ⟨blanks, hblanks, hclosed⟩ := exists_skipBlanks a
    extract_lets hla at h
    split at h
    case h_2 => cases h
    case h_1 b hcolon =>
      obtain ⟨blanks', hblanks', hclosed'⟩ := exists_skipBlanks b
      extract_lets hlb at h
      split at h
      · cases h
      next value c hc hread =>
      have hshort : (skipBlanks b).length < ('"' :: t).length := by
        rw [hcolon, List.length_cons] at hla
        rw [List.length_cons]
        omega
      obtain ⟨body, hbody, hcarries⟩ := hvalue _ hshort _ _ _ hread
      obtain ⟨blanks'', hblanks'', hclosed''⟩ := exists_skipBlanks c
      have hfront : Closed ('"' :: used ++ (blanks ++ ':' :: blanks')) :=
        hquoted.append (closed_separator rfl hclosed hclosed')
      have hstart : '"' :: t = '"' :: used ++ (blanks ++ ':' :: blanks') ++ body ++
          (blanks'' ++ skipBlanks c) := by
        rw [← hblanks'', List.append_assoc _ body c, ← hbody, List.append_assoc, List.append_assoc,
          List.cons_append, List.cons_append, ← hblanks', ← hcolon, ← hblanks, ← ht]
      extract_lets hlc at h
      split at h
      · next rest' hend =>
        obtain ⟨rfl, rfl⟩ := eq_of_reading h
        refine ⟨_, ?_, hcarries.between hfront hclosed''⟩
        rw [hstart, hend, List.append_assoc _ blanks'']
      · next d hcomma =>
        obtain ⟨last, hlast, hclosedLast⟩ := exists_skipBlanks d
        extract_lets hld at h
        split at h
        · cases h
        next members' rest' hlt' hread' =>
        obtain ⟨rfl, rfl⟩ := eq_of_reading h
        have hshort' : (skipBlanks d).length < ('"' :: t).length := by
          rw [hcolon, List.length_cons] at hla
          rw [hcomma, List.length_cons] at hlc
          rw [List.length_cons]
          omega
        obtain ⟨more, hmore, hcarries'⟩ := hmembers _ hshort' _ _ _ hread'
        have hcomma' : Closed (blanks'' ++ ',' :: last) :=
          closed_separator rfl hclosed'' hclosedLast
        refine ⟨_, ?_, (hcarries.between hfront hcomma').append hcarries'⟩
        rw [hstart, hcomma, hlast, hmore]
        simp only [List.append_assoc, List.cons_append]
      · cases h

/-- **Readers.** What each of the three readers takes carries what it gives: the induction is on
    what is left of the text, as each calls the others on less of it. -/
theorem value_items_members_carried (s : List Char) :
    ValueCarried s ∧ ItemsCarried s ∧ MembersCarried s := by
  induction hn : s.length using Nat.strongRecOn generalizing s with
  | ind n ih =>
      subst hn
      have hvalues : ∀ t, t.length < s.length → ValueCarried t := fun t ht => (ih _ ht t rfl).1
      have hitems : ∀ t, t.length < s.length → ItemsCarried t := fun t ht => (ih _ ht t rfl).2.1
      have hmembers : ∀ t, t.length < s.length → MembersCarried t :=
        fun t ht => (ih _ ht t rfl).2.2
      have hvalue : ValueCarried s := valueCarried_of hitems hmembers
      exact ⟨hvalue, itemsCarried_of hvalue hitems, membersCarried_of hvalues hmembers⟩

/-- **What is read stands in the text.** The value of a text is carried by some of its characters,
    and a scan comes to them at the depth it started from. -/
theorem exists_carries_of_read {text : List Char} (h : read text = .ok value) :
    ∃ before used after, text = before ++ used ++ after ∧ Closed before ∧ Carries used [value] := by
  unfold read at h
  split at h
  case h_2 => cases h
  case h_1 value' hall =>
    obtain rfl := Except.ok.inj h
    unfold readAll at hall
    split at hall
    · cases hall
    split at hall
    · cases hall
    next value' rest hlt hread =>
    obtain ⟨blanks, hblanks, hclosed⟩ := exists_skipBlanks text
    obtain ⟨used, hused, hcarries⟩ := (value_items_members_carried _).1 _ _ _ hread
    split at hall
    · obtain rfl := Except.ok.inj hall
      refine ⟨blanks, used, rest, ?_, hclosed, hcarries⟩
      rw [List.append_assoc, ← hused, ← hblanks]
    · cases hall

/-- How deep and how wide the value of a text is, a scan shows at some place in the text. -/
theorem exists_scan_of_read {text : List Char} (h : read text = .ok value)
    (hw : Nested w n value) :
    ∃ front, front <+: text ∧ n + w.opens ≤ (scan front).depth ∧ w.width ≤ (scan front).digits := by
  obtain ⟨before, used, after, rfl, hclosed, hcarries⟩ := exists_carries_of_read h
  have hpasses := hcarries.passes value (List.mem_singleton_self value) w n hw
  obtain ⟨front, hfront, hrun⟩ := hpasses.between hclosed after
  obtain ⟨hdepth, hdigits⟩ := hrun .start Scan.isOutside_start
  exact ⟨front, hfront, Nat.le_trans (Nat.le_add_left _ _) hdepth, hdigits⟩

end Json

end TurtleGrammar
