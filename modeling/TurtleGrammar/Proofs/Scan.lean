import TurtleGrammar.Json.Reader

/-!
# `TurtleGrammar.Proofs.Scan` — scans of texts that hold values

How deep a place in a text is nested is seen by a scan of its characters, which needs to know only
whether it is inside a string: there a bracket is text. What the readers of strings, numbers and
words take brings a scan back to the depth it had, and an integer ends behind all of its digits.

## Contents
- `Json.Scan`, `Json.Scan.step`, `Json.scan`: what is open at a place in a text.
- `Json.scan_le_length`: a scan of few characters has seen few of anything.
- `Json.Closed`: characters over which a scan comes back to its depth.
- `Json.Passes`: how deep a scan gets in some characters, and behind how many digits.
- `Json.closed_of_readString`, `Json.exists_parts_of_readNumber`: what a reader of a leaf takes.
-/

namespace TurtleGrammar

namespace Json

/-! ## Scans -/

/-- A place in a text: whether it is inside a string, and there after a backslash, how many arrays
    and objects are open, and how many digits stand right before it. -/
structure Scan where
  quoted : Bool
  escaped : Bool
  depth : Nat
  digits : Nat

namespace Scan

/-- The place before the first character. -/
def start : Scan := ⟨false, false, 0, 0⟩

/-- The place after one more character of a string. -/
def stepQuoted (s : Scan) (c : Char) : Scan := { s with quoted := c != '"', escaped := c == '\\' }

/-- The place after one more character outside strings. -/
def stepOutside (s : Scan) (c : Char) : Scan :=
  if c.isDigit then { s with digits := s.digits + 1 }
  else
    match c with
    | '"' => { s with quoted := true, digits := 0 }
    | '[' | '{' => { s with depth := s.depth + 1, digits := 0 }
    | ']' | '}' => { s with depth := s.depth - 1, digits := 0 }
    | _ => { s with digits := 0 }

/-- The place after one more character. -/
def step (s : Scan) (c : Char) : Scan :=
  if s.escaped then { s with escaped := false }
  else if s.quoted then s.stepQuoted c
  else s.stepOutside c

/-- The place after some more characters. -/
def run (s : Scan) (text : List Char) : Scan := text.foldl step s

variable {s : Scan} {c : Char} {used : List Char}

@[simp] theorem run_nil (s : Scan) : s.run [] = s := rfl

@[simp] theorem run_cons (s : Scan) (c : Char) (text : List Char) :
    s.run (c :: text) = (s.step c).run text := rfl

@[simp] theorem run_append (s : Scan) (u v : List Char) : s.run (u ++ v) = (s.run u).run v :=
  List.foldl_append

theorem stepOutside_le (s : Scan) (c : Char) :
    (s.stepOutside c).depth ≤ s.depth + 1 ∧ (s.stepOutside c).digits ≤ s.digits + 1 := by
  unfold stepOutside
  split
  · simp
  · split <;> simp <;> omega

/-- One character opens at most one value and is at most one digit. -/
theorem step_le (s : Scan) (c : Char) :
    (s.step c).depth ≤ s.depth + 1 ∧ (s.step c).digits ≤ s.digits + 1 := by
  unfold step
  split
  · exact ⟨Nat.le_succ _, Nat.le_succ _⟩
  · split
    · exact ⟨Nat.le_succ _, Nat.le_succ _⟩
    · exact s.stepOutside_le c

theorem run_le (s : Scan) (text : List Char) :
    (s.run text).depth ≤ s.depth + text.length ∧
      (s.run text).digits ≤ s.digits + text.length := by
  induction text generalizing s with
  | nil => exact ⟨Nat.le_refl _, Nat.le_refl _⟩
  | cons c rest ih =>
      obtain ⟨hdepth, hdigits⟩ := s.step_le c
      obtain ⟨hdepths, hdigitss⟩ := ih (s.step c)
      rw [run_cons, List.length_cons]
      omega

/-! ### Inside and outside strings -/

/-- Is a place outside strings? -/
structure IsOutside (s : Scan) : Prop where
  quoted : s.quoted = false
  escaped : s.escaped = false

/-- Is a place in a string, but not after a backslash? -/
structure IsQuoted (s : Scan) : Prop where
  quoted : s.quoted = true
  escaped : s.escaped = false

theorem isOutside_start : start.IsOutside := ⟨rfl, rfl⟩

theorem IsOutside.step_eq (h : s.IsOutside) (c : Char) : s.step c = s.stepOutside c := by
  unfold step
  rw [h.escaped, h.quoted]
  rfl

theorem IsQuoted.step_eq (h : s.IsQuoted) (c : Char) : s.step c = s.stepQuoted c := by
  unfold step
  rw [h.escaped, h.quoted]
  rfl

/-- A quote begins a string. -/
theorem IsOutside.step_quote (h : s.IsOutside) :
    (s.step '"').IsQuoted ∧ (s.step '"').depth = s.depth := by
  rw [h.step_eq]
  exact ⟨⟨rfl, h.escaped⟩, rfl⟩

/-- A bracket that opens is one level deeper. -/
theorem IsOutside.step_open (h : s.IsOutside) (hc : c = '[' ∨ c = '{') :
    (s.step c).IsOutside ∧ (s.step c).depth = s.depth + 1 := by
  rw [h.step_eq]
  rcases hc with rfl | rfl
  · exact ⟨⟨h.quoted, h.escaped⟩, rfl⟩
  · exact ⟨⟨h.quoted, h.escaped⟩, rfl⟩

/-- A bracket that closes is one level up. -/
theorem IsOutside.step_close (h : s.IsOutside) (hc : c = ']' ∨ c = '}') :
    (s.step c).IsOutside ∧ (s.step c).depth = s.depth - 1 := by
  rw [h.step_eq]
  rcases hc with rfl | rfl
  · exact ⟨⟨h.quoted, h.escaped⟩, rfl⟩
  · exact ⟨⟨h.quoted, h.escaped⟩, rfl⟩

theorem IsOutside.step_digit (h : s.IsOutside) (hc : c.isDigit = true) :
    (s.step c).IsOutside ∧ (s.step c).digits = s.digits + 1 := by
  rw [h.step_eq]
  unfold stepOutside
  rw [if_pos hc]
  exact ⟨⟨h.quoted, h.escaped⟩, rfl⟩

/-- A quote ends a string. -/
theorem IsQuoted.step_quote (h : s.IsQuoted) :
    (s.step '"').IsOutside ∧ (s.step '"').depth = s.depth := by
  rw [h.step_eq]
  exact ⟨⟨rfl, rfl⟩, rfl⟩

theorem IsQuoted.step_text (h : s.IsQuoted) (hquote : c ≠ '"') (hslash : c ≠ '\\') :
    s.step c = s := by
  rw [h.step_eq]
  obtain ⟨hquoted, hescaped⟩ := h
  cases s
  simp_all [stepQuoted]

/-- What comes after a backslash is passed over. -/
theorem IsQuoted.step_escape (h : s.IsQuoted) (c : Char) : (s.step '\\').step c = s := by
  rw [h.step_eq]
  obtain ⟨hquoted, hescaped⟩ := h
  cases s
  simp_all [stepQuoted, step]

theorem IsQuoted.run_text (h : s.IsQuoted) (htext : ∀ c ∈ used, c ≠ '"' ∧ c ≠ '\\') :
    s.run used = s := by
  induction used with
  | nil => rfl
  | cons c rest ih =>
      obtain ⟨⟨hquote, hslash⟩, hrest⟩ := List.forall_mem_cons.1 htext
      rw [run_cons, h.step_text hquote hslash]
      exact ih hrest

theorem IsOutside.length_le_digits (h : s.IsOutside) (hused : ∀ c ∈ used, c.isDigit = true) :
    s.digits + used.length ≤ (s.run used).digits := by
  induction used generalizing s with
  | nil => exact Nat.le_refl _
  | cons c rest ih =>
      obtain ⟨hc, hrest⟩ := List.forall_mem_cons.1 hused
      obtain ⟨hout, hdigits⟩ := h.step_digit hc
      have hle := ih hout hrest
      rw [run_cons, List.length_cons]
      omega

end Scan

/-- The place after a text. -/
def scan (text : List Char) : Scan := Scan.start.run text

theorem scan_le_length (text : List Char) :
    (scan text).depth ≤ text.length ∧ (scan text).digits ≤ text.length := by
  obtain ⟨hdepth, hdigits⟩ := Scan.start.run_le text
  exact ⟨Nat.zero_add text.length ▸ hdepth, Nat.zero_add text.length ▸ hdigits⟩

/-! ## Characters that a scan comes back from -/

/-- Does a scan come back to its depth over these characters, outside strings before and after? -/
def Closed (used : List Char) : Prop :=
  ∀ s : Scan, s.IsOutside → (s.run used).IsOutside ∧ (s.run used).depth = s.depth

/-- Does a scan get so much deeper at a place in these characters, and is it behind so many digits
    there? -/
def Passes (used : List Char) (depth digits : Nat) : Prop :=
  ∃ front, front <+: used ∧ ∀ s : Scan, s.IsOutside →
    s.depth + depth ≤ (s.run front).depth ∧ digits ≤ (s.run front).digits

/-- Is a character neither a quote nor a bracket? -/
def isPlain (c : Char) : Bool := !("\"[]\x7b\x7d".toList.contains c)

variable {u v used before after : List Char} {s : Scan} {c : Char} {depth digits : Nat}

theorem closed_nil : Closed [] := fun _ hs => ⟨hs, rfl⟩

theorem Closed.append (hu : Closed u) (hv : Closed v) : Closed (u ++ v) := by
  intro s hs
  obtain ⟨hout, hdepth⟩ := hu s hs
  obtain ⟨hout', hdepth'⟩ := hv (s.run u) hout
  rw [Scan.run_append]
  exact ⟨hout', hdepth'.trans hdepth⟩

theorem Scan.IsOutside.step_plain (h : s.IsOutside) (hc : isPlain c = true) :
    (s.step c).IsOutside ∧ (s.step c).depth = s.depth := by
  rw [h.step_eq]
  unfold stepOutside
  split
  · exact ⟨⟨h.quoted, h.escaped⟩, rfl⟩
  · split
    case h_6 => exact ⟨⟨h.quoted, h.escaped⟩, rfl⟩
    all_goals cases hc

theorem closed_of_plain (h : ∀ c ∈ used, isPlain c = true) : Closed used := by
  induction used with
  | nil => exact closed_nil
  | cons c rest ih =>
      obtain ⟨hc, hrest⟩ := List.forall_mem_cons.1 h
      intro s hs
      obtain ⟨hout, hdepth⟩ := hs.step_plain hc
      obtain ⟨hout', hdepth'⟩ := ih hrest _ hout
      exact ⟨hout', hdepth'.trans hdepth⟩

theorem isPlain_of_isDigit (h : c.isDigit = true) : isPlain c = true := by
  have hmarks : "\"[]\x7b\x7d".toList.all (fun d => !d.isDigit) = true := rfl
  unfold isPlain
  rw [Bool.not_eq_true', Bool.eq_false_iff]
  intro hmark
  have hno := List.all_eq_true.1 hmarks c (List.contains_iff_mem.1 hmark)
  rw [h] at hno
  cases hno

theorem passes_nothing (used : List Char) : Passes used 0 0 := by
  refine ⟨[], List.nil_prefix, ?_⟩
  intro s _
  exact ⟨Nat.le_refl _, Nat.zero_le _⟩

/-- What is passed in some characters is passed at the same depth among more of them. -/
theorem Passes.between (h : Passes used depth digits) (hbefore : Closed before)
    (after : List Char) : Passes (before ++ used ++ after) depth digits := by
  obtain ⟨front, hfront, hrun⟩ := h
  refine ⟨before ++ front, ?_, ?_⟩
  · rw [List.append_assoc]
    exact (List.prefix_append_right_inj before).2 (hfront.trans (List.prefix_append used after))
  · intro s hs
    obtain ⟨hout, hdepth⟩ := hbefore s hs
    rw [Scan.run_append, ← hdepth]
    exact hrun _ hout

/-- White space in front of a text. -/
theorem exists_skipBlanks (t : List Char) :
    ∃ blanks, t = blanks ++ skipBlanks t ∧ Closed blanks := by
  refine ⟨t.takeWhile isBlank, List.takeWhile_append_dropWhile.symm, closed_of_plain ?_⟩
  intro c hc
  have hblank := List.all_eq_true.1 List.all_takeWhile c hc
  unfold isBlank at hblank
  simp only [Bool.or_eq_true, beq_iff_eq] at hblank
  rcases hblank with ((rfl | rfl) | rfl) | rfl <;> rfl

/-- What a reader gave is one value with one rest. -/
theorem eq_of_reading {α : Type} {s rest rest' : List Char} {value value' : α}
    {hlt : rest.length < s.length} {hlt' : rest'.length < s.length}
    (h : (.ok (value, ⟨rest, hlt⟩) : Reading α s) = .ok (value', ⟨rest', hlt'⟩)) :
    value = value' ∧ rest = rest' :=
  ⟨congrArg Prod.fst (Except.ok.inj h), congrArg (fun r => r.2.1) (Except.ok.inj h)⟩

/-! ## Strings -/

theorem ne_of_hexValue? {n : Nat} (h : hexValue? c = some n) : c ≠ '"' ∧ c ≠ '\\' := by
  constructor
  · rintro rfl
    cases h
  · rintro rfl
    cases h

theorem ne_of_hexQuad? {t : List Char} {unit : Nat} (h : hexQuad? t = some unit) :
    ∀ c ∈ t.take 4, c ≠ '"' ∧ c ≠ '\\' := by
  unfold hexQuad? at h
  split at h
  · next a b c d htake =>
    simp only [Option.bind_eq_bind, Option.bind_eq_some_iff] at h
    obtain ⟨_, ha, _, hb, _, hc, _, hd, _⟩ := h
    rw [htake]
    simp only [List.forall_mem_cons]
    exact ⟨ne_of_hexValue? ha, ne_of_hexValue? hb, ne_of_hexValue? hc, ne_of_hexValue? hd, nofun⟩
  · cases h

/-- The second half of a pair is an escape of its own. -/
theorem take_of_secondUnit? {t : List Char} {unit : Nat}
    (h : secondUnit? (t.drop 4) = some (.ok unit)) :
    ∃ more, t.take 10 = t.take 4 ++ '\\' :: 'u' :: more ∧
      ∀ c ∈ more, c ≠ '"' ∧ c ≠ '\\' := by
  unfold secondUnit? at h
  split at h
  · next more hdrop =>
    split at h
    · cases h
    split at h
    · next unit' hquad =>
      refine ⟨more.take 4, ?_, ne_of_hexQuad? hquad⟩
      rw [show (10 : Nat) = 4 + 6 from rfl, List.take_add, hdrop]
      rfl
    · cases h
  · cases h

/-- The escape of a code unit has neither a quote in it nor an end of its string. -/
theorem run_of_readCodeUnit {t : List Char} {n : Nat} (h : readCodeUnit t = .ok (c, n))
    (hs : s.IsQuoted) : s.run (t.take n) = s := by
  unfold readCodeUnit at h
  split at h
  · cases h
  split at h
  · cases h
  next unit hunit =>
  have hfirst := hs.run_text (ne_of_hexQuad? hunit)
  split at h
  · split at h
    · obtain rfl := (Prod.mk.inj (Except.ok.inj h)).2
      exact hfirst
    · cases h
    · next second hsecond =>
      obtain ⟨more, htake, hmore⟩ := take_of_secondUnit? hsecond
      split at h
      · obtain rfl := (Prod.mk.inj (Except.ok.inj h)).2
        rw [htake, Scan.run_append, hfirst, Scan.run_cons, Scan.run_cons, hs.step_escape]
        exact hs.run_text hmore
      · obtain rfl := (Prod.mk.inj (Except.ok.inj h)).2
        exact hfirst
  · obtain rfl := (Prod.mk.inj (Except.ok.inj h)).2
    exact hfirst

/-- The rest of a string ends behind its quote. -/
theorem run_of_readString {opening seen t rest : List Char} {text : String}
    {hlt : rest.length < t.length} :
    readString opening seen t = .ok (text, ⟨rest, hlt⟩) →
    ∃ used, t = used ++ rest ∧ ∀ s : Scan, s.IsQuoted →
      (s.run used).IsOutside ∧ (s.run used).depth = s.depth := by
  fun_induction readString opening seen t with
  | case1 | case3 | case4 | case5 | case7 | case8 | case10 | case11 => exact nofun
  | case2 seen rest' =>
      intro h
      cases h
      exact ⟨['"'], rfl, fun s hs => hs.step_quote⟩
  | case6 seen t c n hunit text' rest' hlt heq ih =>
      intro h
      cases h
      obtain ⟨used, ht, hrun⟩ := ih heq
      refine ⟨'\\' :: 'u' :: (t.take n ++ used), ?_, ?_⟩
      · rw [List.cons_append, List.cons_append, List.append_assoc, ← ht, List.take_append_drop]
      · intro s hs
        rw [Scan.run_cons, Scan.run_cons, hs.step_escape, Scan.run_append,
          run_of_readCodeUnit hunit hs]
        exact hrun s hs
  | case9 seen letter t _ c _ text' rest' hlt heq ih =>
      intro h
      cases h
      obtain ⟨used, ht, hrun⟩ := ih heq
      refine ⟨'\\' :: letter :: used, ?_, ?_⟩
      · rw [List.cons_append, List.cons_append, ← ht]
      · intro s hs
        rw [Scan.run_cons, Scan.run_cons, hs.step_escape]
        exact hrun s hs
  | case12 seen c t hquote hend _ hescape _ text' rest' hlt heq ih =>
      intro h
      cases h
      obtain ⟨used, ht, hrun⟩ := ih heq
      have hslash : c ≠ '\\' := by
        intro hc
        cases t with
        | nil => exact hend hc rfl
        | cons letter t => exact hescape letter t hc rfl
      refine ⟨c :: used, ?_, ?_⟩
      · rw [List.cons_append, ← ht]
      · intro s hs
        rw [Scan.run_cons, hs.step_text hquote hslash]
        exact hrun s hs

/-- **Strings.** A string with its quotes brings a scan back. -/
theorem closed_of_readString {opening t rest : List Char} {text : String}
    {hlt : rest.length < t.length} (h : readString opening [] t = .ok (text, ⟨rest, hlt⟩)) :
    ∃ used, t = used ++ rest ∧ Closed ('"' :: used) := by
  obtain ⟨used, ht, hrun⟩ := run_of_readString h
  refine ⟨used, ht, ?_⟩
  intro s hs
  obtain ⟨hquoted, hdepth⟩ := hs.step_quote
  obtain ⟨hout, hdepth'⟩ := hrun _ hquoted
  exact ⟨hout, hdepth'.trans hdepth⟩

/-! ## Numbers -/

/-- A run at the start of a text is given by its length. -/
theorem take_takeWhile (p : Char → Bool) (t : List Char) :
    t.take (t.takeWhile p).length = t.takeWhile p :=
  (List.prefix_iff_eq_take.1 (List.takeWhile_prefix p)).symm

theorem isDigit_of_mem_takeWhile {t : List Char} (h : c ∈ t.takeWhile Char.isDigit) :
    c.isDigit = true :=
  List.all_eq_true.1 List.all_takeWhile c h

/-- A sign at the start of a text is given by its length. -/
theorem take_sign (p : Char → Bool) (t : List Char) :
    t.take ((t.take 1).filter p).length = (t.take 1).filter p := by
  cases t with
  | nil => rfl
  | cons c rest =>
      by_cases hc : p c = true
      · simp [hc]
      · simp [hc]

theorem take_wholeDigits (t : List Char) : t.take (wholeDigits t).length = wholeDigits t := by
  unfold wholeDigits
  split
  · rfl
  · exact take_takeWhile _ _

theorem isDigit_of_mem_wholeDigits {t : List Char} (h : c ∈ wholeDigits t) :
    c.isDigit = true := by
  unfold wholeDigits at h
  split at h
  · obtain rfl := List.mem_singleton.1 h
    rfl
  · exact isDigit_of_mem_takeWhile h

theorem isPlain_of_mem_fraction {t : List Char}
    (h : c ∈ t.take (if (fractionDigits t).isEmpty then 0 else (fractionDigits t).length + 1)) :
    isPlain c = true := by
  unfold fractionDigits at h
  split at h
  · next t' =>
    split at h
    · cases h
    · rw [List.take_succ_cons, take_takeWhile] at h
      rcases List.mem_cons.1 h with rfl | h
      · rfl
      · exact isPlain_of_isDigit (isDigit_of_mem_takeWhile h)
  · cases h

theorem isPlain_of_mem_exponent {t : List Char} {exponent : Int} {n : Nat}
    (hexponent : exponentPart? t = some (exponent, n)) (h : c ∈ t.take n) : isPlain c = true := by
  unfold exponentPart? at hexponent
  split at hexponent
  · next letter t =>
    split at hexponent
    · next hletter =>
      extract_lets signs ds at hexponent
      split at hexponent
      · cases hexponent
      · obtain rfl := (Prod.mk.inj (Option.some.inj hexponent)).2
        rw [Nat.add_assoc, Nat.add_comm 1, List.take_succ_cons, List.take_add, take_sign,
          take_takeWhile, List.mem_cons, List.mem_append] at h
        rcases h with rfl | hsign | hdigit
        · simp only [Bool.or_eq_true, decide_eq_true_eq] at hletter
          rcases hletter with rfl | rfl <;> rfl
        · have hmark := (List.mem_filter.1 hsign).2
          simp only [Bool.or_eq_true, decide_eq_true_eq] at hmark
          rcases hmark with rfl | rfl <;> rfl
        · exact isPlain_of_isDigit (isDigit_of_mem_takeWhile hdigit)
    · cases hexponent
  · cases hexponent

/-- **Numbers.** A number is a sign, its whole digits and what comes after them, all of it plain. An
    integer is given by its whole digits. -/
theorem exists_parts_of_readNumber {t rest : List Char} {value : Json}
    {hlt : rest.length < t.length} (h : readNumber t = .ok (value, ⟨rest, hlt⟩)) :
    ∃ sign whole later, t = sign ++ whole ++ later ++ rest ∧
      (∀ c ∈ sign, isPlain c = true) ∧ whole ≠ [] ∧ (∀ c ∈ whole, c.isDigit = true) ∧
      (∀ c ∈ later, isPlain c = true) ∧
      ((∃ x, value = .float x) ∨ ∃ n, value = .integer n ∧ n.natAbs = ofDigits whole) := by
  unfold readNumber at h
  extract_lets sign whole afterWhole fraction afterFraction negative at h
  split at h
  · cases h
  next hne =>
  split at h
  next value' n hpart =>
  obtain ⟨rfl, hrest⟩ := eq_of_reading h
  have hfront : t.take (sign.length + whole.length) = sign ++ whole := by
    rw [List.take_add, take_sign, take_wholeDigits]
  -- the exponent is empty unless it has digits, and an integer has neither fraction nor exponent
  have hexponent : (∀ c ∈ afterFraction.take n, isPlain c = true) ∧
      ((∃ x, value' = .float x) ∨
        ∃ n, value' = .integer n ∧ n.natAbs = ofDigits whole) := by
    split at hpart
    · next exponent m hexponent =>
      obtain ⟨rfl, rfl⟩ := Prod.mk.inj hpart
      exact ⟨fun c hc => isPlain_of_mem_exponent hexponent hc, .inl ⟨_, rfl⟩⟩
    · split at hpart
      · obtain ⟨rfl, rfl⟩ := Prod.mk.inj hpart
        refine ⟨fun c hc => absurd hc List.not_mem_nil, .inr ⟨_, rfl, ?_⟩⟩
        split
        · exact Int.natAbs_neg _
        · rfl
      · obtain ⟨rfl, rfl⟩ := Prod.mk.inj hpart
        exact ⟨fun c hc => absurd hc List.not_mem_nil, .inl ⟨_, rfl⟩⟩
  let pointed := afterWhole.take (if fraction.isEmpty then 0 else fraction.length + 1)
  refine ⟨sign, whole, pointed ++ afterFraction.take n, ?_, ?_, hne, ?_, ?_, hexponent.2⟩
  · calc t = sign ++ whole ++ afterWhole := by
          rw [← hfront]
          exact (List.take_append_drop ..).symm
      _ = sign ++ whole ++ (pointed ++ afterFraction) :=
          congrArg _ (List.take_append_drop ..).symm
      _ = sign ++ whole ++ (pointed ++ (afterFraction.take n ++ rest)) := by
          rw [← hrest, List.take_append_drop n afterFraction]
      _ = _ := by simp only [List.append_assoc]
  · intro c hc
    obtain rfl := of_decide_eq_true (List.mem_filter.1 hc).2
    rfl
  · exact fun c hc => isDigit_of_mem_wholeDigits hc
  · intro c hc
    rcases List.mem_append.1 hc with hc | hc
    · exact isPlain_of_mem_fraction hc
    · exact hexponent.1 c hc

/-! ### Digits of integers -/

theorem digitCount_le {n k : Nat} (hk : 0 < k) (h : n < powerOfTen k) : digitCount n ≤ k := by
  fun_induction digitCount n generalizing k with
  | case1 n hsmall => exact hk
  | case2 n hlarge ih =>
      obtain ⟨k, rfl⟩ : ∃ j, k = j + 1 := ⟨k - 1, by omega⟩
      rw [powerOfTen_succ] at h
      have hpos : 0 < k := by
        rcases Nat.eq_zero_or_pos k with rfl | hpos
        · exact absurd h hlarge
        · exact hpos
      exact Nat.succ_le_succ (ih hpos ((Nat.div_lt_iff_lt_mul (by decide)).2 h))

theorem toNat_sub_lt_of_isDigit (h : c.isDigit = true) : c.toNat - '0'.toNat < 10 := by
  unfold Char.isDigit at h
  simp only [Bool.and_eq_true, decide_eq_true_eq] at h
  have hnine : c.toNat ≤ 57 := h.2
  have hzero : '0'.toNat = 48 := rfl
  omega

/-- A run of digits denotes a number with no more digits. -/
theorem ofDigits_lt {ds : List Char} (h : ∀ c ∈ ds, c.isDigit = true) :
    ofDigits ds < powerOfTen ds.length := by
  -- the induction is on the digits that are left, for any number in front of them
  suffices hrun : ∀ n, Nat.ofDigitChars 10 ds n < (n + 1) * powerOfTen ds.length by
    have hstart := hrun 0
    rwa [Nat.zero_add, Nat.one_mul] at hstart
  induction ds with
  | nil => exact fun n => Nat.lt_of_lt_of_eq (Nat.lt_succ_self n) (Nat.mul_one _).symm
  | cons c rest ih =>
      intro n
      obtain ⟨hc, hrest⟩ := List.forall_mem_cons.1 h
      have hdigit := toNat_sub_lt_of_isDigit hc
      have hle : 10 * n + (c.toNat - '0'.toNat) + 1 ≤ (n + 1) * 10 := by omega
      rw [Nat.ofDigitChars_cons, List.length_cons, powerOfTen_succ]
      calc _ < (10 * n + (c.toNat - '0'.toNat) + 1) * powerOfTen rest.length := ih hrest _
        _ ≤ (n + 1) * 10 * powerOfTen rest.length := Nat.mul_le_mul_right _ hle
        _ = _ := by rw [Nat.mul_assoc, Nat.mul_comm 10]

/-- After the digits of an integer a scan is behind all of them. -/
theorem passes_digits {sign whole : List Char} {n : Nat} (hsign : ∀ c ∈ sign, isPlain c = true)
    (hne : whole ≠ []) (hwhole : ∀ c ∈ whole, c.isDigit = true) (hn : n = ofDigits whole)
    (after : List Char) : Passes (sign ++ whole ++ after) 0 (digitCount n) := by
  have hcount : digitCount n ≤ whole.length := by
    rw [hn]
    exact digitCount_le (List.length_pos_iff.2 hne) (ofDigits_lt hwhole)
  have hplain : ∀ c ∈ whole, isPlain c = true := fun c hc => isPlain_of_isDigit (hwhole c hc)
  refine ⟨sign ++ whole, List.prefix_append _ _, ?_⟩
  intro s hs
  obtain ⟨hout, hdepth⟩ := closed_of_plain hsign s hs
  obtain ⟨_, hdepth'⟩ := closed_of_plain hplain _ hout
  have hdigits := hout.length_le_digits hwhole
  rw [Scan.run_append]
  omega

end Json

end TurtleGrammar
