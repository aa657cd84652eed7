import TurtleGrammar.Proofs.Rebuild

/-!
# `TurtleGrammar.Proofs.Replacement` — what a symbol is replaced with

A table holds each key once, so that a look-up finds whatever entry the table has for a key, in
whichever place. A symbol is therefore replaced with the word of the one rule that it names, or with
itself. Rules that several symbols name, or none, replace nothing.

## Contents
- `Table.find?_eq_some_iff`, `Table.find?_eq_none_iff`: a look-up by the entries of a table.
- `Rules.replacement_cases`, `Rules.replacement_congr`: the replacement of a symbol by the rules.
- `replacementIn`, `Rules.replacement_ofNamed`: the same by the texts that name the rules.
-/

namespace TurtleGrammar

namespace Table

variable {κ α : Type} [DecidableEq κ] {s t : Table κ α} {key : κ} {value : α}

/-- Among entries with distinct keys the first one with a key is the only one. -/
theorem find?_of_mem {entries : List (κ × α)} (hnodup : (entries.map Prod.fst).Nodup)
    (hmem : (key, value) ∈ entries) : entries.find? (fun e => e.1 = key) = some (key, value) := by
  induction entries with
  | nil => exact absurd hmem List.not_mem_nil
  | cons e rest ih =>
      rw [List.map_cons, List.nodup_cons] at hnodup
      rcases List.mem_cons.1 hmem with rfl | hrest
      · simp
      · have hne : ¬ e.1 = key := fun heq => hnodup.1 (heq ▸ List.mem_map_of_mem hrest)
        rw [List.find?_cons_of_neg (by simpa using hne)]
        exact ih hnodup.2 hrest

/-- A look-up finds the entry of a key. -/
theorem find?_eq_some_iff : t.find? key = some value ↔ (key, value) ∈ t.entries := by
  unfold find?
  constructor
  · intro h
    obtain ⟨e, hfound, rfl⟩ := Option.map_eq_some_iff.1 h
    have hkey : e.1 = key := by simpa using List.find?_some hfound
    subst hkey
    exact List.mem_of_find?_eq_some hfound
  · intro hmem
    rw [find?_of_mem t.keys_nodup hmem]
    rfl

theorem find?_eq_none_iff : t.find? key = none ↔ ∀ e ∈ t.entries, e.1 ≠ key := by
  constructor
  · intro h e he heq
    subst heq
    rw [find?_eq_some_iff.2 he] at h
    cases h
  · intro h
    cases hfound : t.find? key with
    | none => rfl
    | some value => exact absurd rfl (h _ (find?_eq_some_iff.1 hfound))

/-- The order of the entries does not matter to a look-up. -/
theorem find?_congr (h : s.entries.Perm t.entries) (key : κ) : s.find? key = t.find? key := by
  refine Option.ext fun value => ?_
  rw [find?_eq_some_iff, find?_eq_some_iff, h.mem_iff]

end Table

namespace Rules

variable {rules other : Rules} {c : Char}

/-- A symbol is replaced with itself, or with the word of a rule. -/
theorem replacement_cases (rules : Rules) (c : Char) :
    ((∀ e ∈ rules.entries, e.1 ≠ c) ∧ rules.replacement c = [c]) ∨
      (c, rules.replacement c) ∈ rules.entries := by
  unfold replacement
  cases h : rules.find? c with
  | none => exact Or.inl ⟨Table.find?_eq_none_iff.1 h, rfl⟩
  | some word => exact Or.inr (Table.find?_eq_some_iff.1 h)

/-- A symbol that names no rule stays. -/
theorem replacement_of_ne (h : ∀ e ∈ rules.entries, e.1 ≠ c) : rules.replacement c = [c] := by
  unfold replacement
  rw [Table.find?_eq_none_iff.2 h]
  rfl

/-- The order of the rules does not matter to a replacement. -/
theorem replacement_congr (h : other.entries.Perm rules.entries) (c : Char) :
    other.replacement c = rules.replacement c := by
  unfold replacement
  rw [Table.find?_congr h]

end Rules

/-! ## Rules by name -/

/-- What named replacements put in the place of a symbol: the text of its own name, or the symbol
    itself. -/
def replacementIn (named : Table String String) (c : Char) : Word :=
  ((named.find? (String.singleton c)).map String.toList).getD [c]

/-- A named replacement as a rule, unless its name is longer than one symbol or empty. -/
def ruleOfNamed? (e : String × String) : Option (Char × Word) :=
  match e.1.toList with
  | [symbol] => some (symbol, e.2.toList)
  | _ => none

theorem ruleOfNamed?_eq_some_iff {e : String × String} {c : Char} {word : Word} :
    ruleOfNamed? e = some (c, word) ↔ e.1 = String.singleton c ∧ e.2.toList = word := by
  have hname : e.1.toList = [c] ↔ e.1 = String.singleton c := by
    rw [← String.toList_singleton, String.toList_inj]
  rw [← hname]
  unfold ruleOfNamed?
  split
  · next symbol hsymbol => simp [hsymbol]
  · next hother =>
    refine iff_of_false (by simp) fun h => hother c h.1

namespace Rules

/-- Distinct names give distinct symbols. -/
theorem nodup_filterMap_ruleOfNamed? {entries : List (String × String)}
    (h : (entries.map Prod.fst).Nodup) :
    ((entries.filterMap ruleOfNamed?).map Prod.fst).Nodup := by
  induction entries with
  | nil => exact List.nodup_nil
  | cons e rest ih =>
      rw [List.map_cons, List.nodup_cons] at h
      rw [List.filterMap_cons]
      cases hrule : ruleOfNamed? e with
      | none => exact ih h.2
      | some rule =>
          refine List.nodup_cons.2 ⟨fun hmem => h.1 ?_, ih h.2⟩
          obtain ⟨other, hother, hsymbol⟩ := List.mem_map.1 hmem
          obtain ⟨e', he', hrule'⟩ := List.mem_filterMap.1 hother
          have hname : e'.1 = e.1 := by
            rw [(ruleOfNamed?_eq_some_iff.1 hrule').1, (ruleOfNamed?_eq_some_iff.1 hrule).1,
              hsymbol]
          exact hname ▸ List.mem_map_of_mem he'

theorem ofNamed_entries (named : Table String String) :
    (ofNamed named).entries = named.entries.filterMap ruleOfNamed? := by
  have hnodup := nodup_filterMap_ruleOfNamed? named.keys_nodup
  exact Table.entries_foldl_insert .empty hnodup

/-- A symbol is replaced with the text of its own name. Names of another length match nothing. -/
theorem replacement_ofNamed (named : Table String String) (c : Char) :
    (ofNamed named).replacement c = replacementIn named c := by
  unfold replacement replacementIn
  congr 1
  refine Option.ext fun word => ?_
  rw [Table.find?_eq_some_iff, ofNamed_entries, List.mem_filterMap, Option.map_eq_some_iff]
  constructor
  · rintro ⟨e, he, hrule⟩
    obtain ⟨hname, hword⟩ := ruleOfNamed?_eq_some_iff.1 hrule
    exact ⟨e.2, Table.find?_eq_some_iff.2 (hname ▸ he), hword⟩
  · rintro ⟨text, hfound, hword⟩
    exact ⟨(String.singleton c, text), Table.find?_eq_some_iff.1 hfound,
      ruleOfNamed?_eq_some_iff.2 ⟨rfl, hword⟩⟩

end Rules

end TurtleGrammar
