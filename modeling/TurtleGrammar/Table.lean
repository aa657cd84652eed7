/-!
# `TurtleGrammar.Table` — tables that keep the order of their keys

A `Table` holds each key once, in the order in which the keys came. Setting a key that is present
keeps its place and changes its value; a key that was erased and is set again goes last.

## Contents
- `Table` with its view `entries`, and `empty`, `find?`, `insert`, `erase`, `ofList`.
- `find?_insert`: what a look-up sees after an insertion.
-/

namespace TurtleGrammar

/-- Keys with their values, each key once, in the order of their first insertion. -/
structure Table (κ α : Type) where
  entries : List (κ × α)
  keys_nodup : (entries.map Prod.fst).Nodup

namespace Table

variable {κ α : Type} [DecidableEq κ]

omit [DecidableEq κ] in
@[ext] theorem ext {s t : Table κ α} (h : s.entries = t.entries) : s = t := by
  cases s
  cases t
  simp_all

/-- The table without keys. -/
def empty : Table κ α := ⟨[], List.nodup_nil⟩

instance : Inhabited (Table κ α) := ⟨empty⟩

def size (t : Table κ α) : Nat := t.entries.length

def keys (t : Table κ α) : List κ := t.entries.map Prod.fst

/-- The value of a key. -/
def find? (t : Table κ α) (key : κ) : Option α :=
  (t.entries.find? (fun e => e.1 = key)).map Prod.snd

/-- The entries after a key is set: in its place if it is present, at the end otherwise. -/
def setEntry (key : κ) (value : α) : List (κ × α) → List (κ × α)
  | [] => [(key, value)]
  | e :: rest => if e.1 = key then (key, value) :: rest else e :: setEntry key value rest

/-- The keys after one is set: the same keys, with the new one last. -/
theorem map_fst_setEntry (key : κ) (value : α) (entries : List (κ × α)) :
    (setEntry key value entries).map Prod.fst =
      if key ∈ entries.map Prod.fst then entries.map Prod.fst
      else entries.map Prod.fst ++ [key] := by
  induction entries with
  | nil => simp [setEntry]
  | cons e rest ih =>
    rw [setEntry]
    split <;> grind

/-- Setting a key keeps the keys distinct. -/
theorem nodup_setEntry {key : κ} {value : α} {entries : List (κ × α)}
    (h : (entries.map Prod.fst).Nodup) : ((setEntry key value entries).map Prod.fst).Nodup := by
  rw [map_fst_setEntry]
  split
  · exact h
  · next hnot =>
    rw [List.nodup_append]
    grind

/-- Set the value of a key. -/
def insert (t : Table κ α) (key : κ) (value : α) : Table κ α :=
  ⟨setEntry key value t.entries, nodup_setEntry t.keys_nodup⟩

/-- Remove a key with its value. -/
def erase (t : Table κ α) (key : κ) : Table κ α :=
  ⟨t.entries.filter (fun e => e.1 ≠ key),
    t.keys_nodup.sublist (List.filter_sublist.map Prod.fst)⟩

/-- The table that arises by setting the keys of a list one after the other. -/
def ofList (entries : List (κ × α)) : Table κ α :=
  entries.foldl (fun t e => t.insert e.1 e.2) empty

/-! ## Look-up -/

@[simp] theorem find?_empty (key : κ) : (empty : Table κ α).find? key = none := rfl

/-- **Look-up after an insertion.** The key that was set has its value, the others keep theirs. -/
theorem find?_insert (t : Table κ α) (key other : κ) (value : α) :
    (t.insert key value).find? other = if other = key then some value else t.find? other := by
  simp only [find?, insert]
  generalize t.entries = entries
  induction entries with
  | nil =>
    by_cases h : key = other <;> simp [setEntry, h, eq_comm]
  | cons e rest ih =>
    rw [setEntry]
    by_cases he : e.1 = key
    · by_cases h : key = other <;> simp [he, h, eq_comm]
    · by_cases h : e.1 = other
      · have hne : other ≠ key := fun hk => he (h.trans hk)
        simp [h, hne]
      · simp [he, h, ih]

end Table

end TurtleGrammar
