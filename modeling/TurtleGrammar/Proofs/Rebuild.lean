import TurtleGrammar.Grammar

/-!
# `TurtleGrammar.Proofs.Rebuild` — grammars built again from their parts

A grammar carries the conditions under which it was built. Its word, its rules by their names and
its number of generations pass every check once more, and the same grammar arises.

## Contents
- `Table.ofList_entries`: a table from its own entries; `mapM_map_of_ok`: items as they were written.
- `Grammar.named`: the rules of a grammar as named replacements.
- `Grammar.build_parts`: a grammar from its own parts.
-/

namespace TurtleGrammar

namespace Table

variable {κ α : Type} [DecidableEq κ] {key : κ} {entries : List (κ × α)}

/-- A new key goes last. -/
theorem setEntry_of_not_mem (value : α) (h : key ∉ entries.map Prod.fst) :
    setEntry key value entries = entries ++ [(key, value)] := by
  induction entries with
  | nil => rfl
  | cons e rest ih =>
      rw [List.map_cons, List.mem_cons, not_or] at h
      rw [setEntry, if_neg (Ne.symm h.1), ih h.2, List.cons_append]

theorem entries_foldl_insert (t : Table κ α)
    (h : ((t.entries ++ entries).map Prod.fst).Nodup) :
    (entries.foldl (fun t e => t.insert e.1 e.2) t).entries = t.entries ++ entries := by
  induction entries generalizing t with
  | nil => exact (List.append_nil _).symm
  | cons e rest ih =>
      -- no two keys are the same, so that each goes behind the others
      have hfresh : e.1 ∉ t.entries.map Prod.fst := by
        rw [List.map_append, List.nodup_append] at h
        intro hmem
        exact h.2.2 _ hmem _ List.mem_cons_self rfl
      have hinsert : (t.insert e.1 e.2).entries = t.entries ++ [e] :=
        setEntry_of_not_mem e.2 hfresh
      have hrest := ih (t.insert e.1 e.2) (by rwa [hinsert, List.append_assoc])
      rw [List.foldl_cons, hrest, hinsert, List.append_assoc, List.singleton_append]

/-- Setting the keys of a table one after the other gives the table again. -/
theorem ofList_entries (t : Table κ α) : ofList t.entries = t :=
  ext (entries_foldl_insert empty t.keys_nodup)

end Table

/-- Items are read one by one as they were written. -/
theorem mapM_map_of_ok {α β γ : Type} {write : α → β} {read : β → Except Fault γ} {value : α → γ}
    (h : ∀ x, read (write x) = .ok (value x)) (items : List α) :
    (items.map write).mapM read = .ok (items.map value) := by
  induction items with
  | nil => rfl
  | cons x rest ih =>
      rw [List.map_cons, List.mapM_cons, h, ih]
      rfl

namespace Grammar

/-- The rules of a grammar as named replacements. -/
def named (g : Grammar) : Table String (Option String) where
  entries := g.rules.entries.map fun e => (String.singleton e.1, some (String.ofList e.2))
  keys_nodup := by
    have hkeys : (g.rules.entries.map Prod.fst).map String.singleton =
        (g.rules.entries.map fun e => (String.singleton e.1, some (String.ofList e.2))).map
          Prod.fst := by
      rw [List.map_map, List.map_map]
      rfl
    rw [← hkeys]
    refine List.Pairwise.map String.singleton (fun a b hne heq => hne ?_) g.rules.keys_nodup
    have hlist := congrArg String.toList heq
    rw [String.toList_singleton, String.toList_singleton] at hlist
    exact List.singleton_inj.1 hlist

theorem start?_ofList {word : Word} (h : word ≠ []) :
    start? (some (String.ofList word)) = .ok ⟨word, h⟩ := by
  have hlist : (String.ofList word).toList = word := String.toList_ofList
  unfold start?
  simp only [hlist, dif_pos h]

theorem generations?_iterations (g : Grammar) :
    Rules.generations? g.iterations = .ok g.iterations := by
  have hpos : 1 ≤ (g.iterations : Int) := Int.ofNat_le.2 g.iterations_pos
  unfold Rules.generations?
  rw [if_pos hpos, Int.toNat_natCast]

theorem named?_singleton (e : Char × Word) :
    Rules.named? (String.singleton e.1, some (String.ofList e.2)) = .ok e := by
  unfold Rules.named?
  simp only [String.toList_singleton, String.toList_ofList]

theorem mapM_named? (entries : List (Char × Word)) :
    (entries.map fun e => (String.singleton e.1, some (String.ofList e.2))).mapM Rules.named? =
      .ok entries :=
  (mapM_map_of_ok named?_singleton entries).trans (congrArg Except.ok (List.map_id entries))

theorem ofNamed?_named (g : Grammar) : Rules.ofNamed? g.named = .ok g.rules := by
  unfold Rules.ofNamed? named
  rw [mapM_named?]
  exact congrArg Except.ok (Table.ofList_entries g.rules)

/-- **Grammars can be built again.** The parts of a grammar are accepted, and give it again. -/
theorem build_parts (g : Grammar) :
    build (some (String.ofList g.start)) g.named g.iterations = .ok g := by
  unfold build
  rw [start?_ofList g.start_ne_nil, generations?_iterations, ofNamed?_named]
  exact dif_pos g.iterations_pos

end Grammar

end TurtleGrammar
