import TurtleGrammar.Disk

/-!
# `TurtleGrammar.Proofs.Disk` — what the operations of a disk leave alone

A path text leads, if it leads anywhere, to the path that it denotes when points and double points
are taken away. Making folders changes no file, and writing a file changes the one at its path, so
that a delivery changes the file that its path denotes or none.

## Contents
- `Disk.path_of_walk`, `Disk.place_eq_ok`: where path texts lead.
- `Disk.content?_put`, `Disk.files_makeFolders`: the files after each operation.
- `Disk.content?_deliver_of_error`, `Disk.content?_deliver`: the files after a delivery.
- `Disk.read_eq_nullCharacter_iff`, `Disk.null_of_deliver`: texts that are no paths.
-/

namespace TurtleGrammar

namespace Disk

/-- The path of what the last component leads to. -/
def Spot.path : Spot → Path
  | .folder p => p
  | .file p => p
  | .free p => p

variable {d after : Disk} {p : Path} {path : String} {content : Content} {fault : DiskFault}

/-! ## Where path texts lead -/

/-- A walk ends at the path to which the components lead one after the other. -/
theorem path_of_walk {names : List String} {spot : Spot} (h : d.walk p names = .ok spot) :
    spot.path = names.foldl Path.enter p := by
  induction names generalizing p with
  | nil =>
      cases h
      rfl
  | cons name rest ih =>
      rw [List.foldl_cons]
      unfold walk at h
      split at h
      · exact ih h
      · rename_i hname
        have henter : p.enter name = p ++ [name] := by
          rw [Bool.or_eq_true, decide_eq_true_iff, decide_eq_true_iff, not_or] at hname
          unfold Path.enter
          rw [if_neg hname.1, if_neg hname.2]
        rw [henter]
        split at h
        · cases h
        · dsimp only at h
          split at h
          · exact ih h
          · -- only the last component leads to a file or to a free name
            cases rest with
            | nil =>
                split at h
                · cases h
                  rfl
                · cases h
                  rfl
            | cons other more =>
                split at h
                · cases h
                · cases h

theorem path_of_locate {spot : Spot} (h : d.locate path = .ok spot) :
    spot.path = Path.normal d.home path := by
  unfold locate follow at h
  split at h
  · cases h
  · split at h
    · cases h
    · split at h
      · cases h
      · cases hwalk : d.walk (if path.startsWith "/" then [] else d.home) (Path.components path) with
        | error cause =>
            rw [hwalk] at h
            cases h
        | ok found =>
            rw [hwalk] at h
            cases h
            exact path_of_walk hwalk

/-- A file is placed where its path text leads. -/
theorem place_eq_ok (h : d.place path = .ok p) : p = Path.normal d.home path := by
  unfold place at h
  split at h
  · cases hfollow : d.follow path (Path.components path).dropLast with
    | error fault =>
        rw [hfollow] at h
        cases h
    | ok spot =>
        rw [hfollow] at h
        cases spot <;> cases h
  · cases hlocate : d.locate path with
    | error fault =>
        rw [hlocate] at h
        cases h
    | ok spot =>
        rw [hlocate] at h
        rw [← path_of_locate hlocate]
        cases spot with
        | folder q => cases h
        | file q =>
            cases h
            rfl
        | free q =>
            cases h
            rfl

/-! ## Files after an operation -/

theorem lookup_cons (q : Path) (f : Path × Content) (rest : List (Path × Content)) :
    (f :: rest).lookup q = if q = f.1 then some f.2 else rest.lookup q := by
  rw [List.lookup_cons]
  by_cases h : q = f.1
  · rw [if_pos h, beq_iff_eq.2 h]
  · rw [if_neg h, beq_eq_false_iff_ne.2 h]

theorem lookup_setFile (p q : Path) (content : Content) (files : List (Path × Content)) :
    (setFile p content files).lookup q = if q = p then some content else files.lookup q := by
  induction files with
  | nil => exact lookup_cons q (p, content) []
  | cons f rest ih =>
      unfold setFile
      rw [lookup_cons q f]
      by_cases hf : f.1 = p
      · rw [if_pos hf, lookup_cons, hf]
        by_cases h : q = p
        · rw [if_pos h, if_pos h]
        · rw [if_neg h, if_neg h, if_neg h]
      · rw [if_neg hf, lookup_cons, ih]
        by_cases h : q = f.1
        · rw [if_pos h, if_pos h, if_neg (h ▸ hf)]
        · rw [if_neg h, if_neg h]

/-- The file that is put has the content, every other one keeps its own. -/
theorem content?_put (d : Disk) (p q : Path) (content : Content) :
    (d.put p content).content? q = if q = p then some content else d.content? q :=
  lookup_setFile p q content d.files

/-- Making folders changes neither the files nor the working folder. -/
theorem files_makeFolders (d : Disk) (root : String) (p : Path) (names : List String) :
    (d.makeFolders root p names).1.files = d.files ∧
      (d.makeFolders root p names).1.home = d.home := by
  induction names generalizing d p with
  | nil => exact ⟨rfl, rfl⟩
  | cons name rest ih =>
      unfold makeFolders
      dsimp only
      split
      · exact ⟨rfl, rfl⟩
      · split
        · exact ih d _
        · split
          · split
            · exact ⟨rfl, rfl⟩
            · exact ih d _
          · exact ih { d with folders := d.folders ++ [p ++ [name]] } _

theorem content?_makeParent (d : Disk) (path : String) (q : Path) :
    (d.makeParent path).1.content? q = d.content? q := by
  unfold content? makeParent
  rw [(files_makeFolders d _ _ _).1]

/-! ## Files after a delivery -/

/-- A refused delivery changes no file. -/
theorem content?_deliver_of_error (h : d.deliver path content = (after, .error fault)) (q : Path) :
    after.content? q = d.content? q := by
  have hparent := d.content?_makeParent path q
  unfold deliver at h
  cases hmade : d.makeParent path with
  | mk made outcome =>
      rw [hmade] at h hparent
      cases outcome with
      | error cause =>
          cases h
          exact hparent
      | ok _ =>
          dsimp only at h
          split at h
          · cases h
            exact hparent
          · cases h

/-- A delivery sets the file that its path denotes and leaves the others alone. -/
theorem content?_deliver (h : d.deliver path content = (after, .ok ())) (q : Path) :
    after.content? q = if q = Path.normal d.home path then some content else d.content? q := by
  have hparent := d.content?_makeParent path q
  have hhome : (d.makeParent path).1.home = d.home := (files_makeFolders d _ _ _).2
  unfold deliver at h
  cases hmade : d.makeParent path with
  | mk made outcome =>
      rw [hmade] at h hparent hhome
      cases outcome with
      | error cause => cases h
      | ok _ =>
          dsimp only at h
          split at h
          · cases h
          · rename_i written hwrite
            cases h
            unfold write at hwrite
            cases hplace : made.place path with
            | error cause =>
                rw [hplace] at hwrite
                cases hwrite
            | ok p =>
                rw [hplace] at hwrite
                cases hwrite
                rw [content?_put, hparent, place_eq_ok hplace, hhome]

/-! ## Texts that are no paths -/

/-- A text without the null character is not refused for it. -/
theorem follow_ne_nullCharacter {names : List String} (h : hasNull path = false) :
    d.follow path names ≠ .error .nullCharacter := by
  intro herror
  unfold follow at herror
  rw [h] at herror
  simp only [Bool.false_eq_true, if_false] at herror
  split at herror
  · cases herror
  · split at herror
    · cases herror
    · cases hwalk : d.walk (if path.startsWith "/" then [] else d.home) names with
      | error cause =>
          rw [hwalk] at herror
          cases herror
      | ok spot =>
          rw [hwalk] at herror
          cases herror

theorem bind_ne_error {ε α β : Type} {first : Except ε α} {next : α → Except ε β} {error : ε}
    (h : first ≠ .error error) (hnext : ∀ value, next value ≠ .error error) :
    (first >>= next) ≠ .error error := by
  cases first with
  | error other => exact fun heq => h (congrArg Except.error (Except.error.inj heq))
  | ok value => exact hnext value

/-- Exactly the texts with the null character cannot be read for it. -/
theorem read_eq_nullCharacter_iff : d.read path = .error .nullCharacter ↔ hasNull path = true := by
  constructor
  · intro h
    by_cases hnull : hasNull path = true
    · exact hnull
    · refine absurd h (bind_ne_error (follow_ne_nullCharacter (Bool.eq_false_iff.2 hnull)) ?_)
      intro spot
      cases spot with
      | folder p => exact nofun
      | free p => exact nofun
      | file p =>
          dsimp only
          split
          · exact nofun
          · split
            · exact nofun
            · exact nofun
  · intro h
    unfold read locate follow
    rw [if_pos h]
    rfl

theorem place_ne_nullCharacter (h : hasNull path = false) :
    d.place path ≠ .error .nullCharacter := by
  unfold place
  split
  · apply bind_ne_error (follow_ne_nullCharacter h)
    intro spot
    cases spot <;> exact nofun
  · apply bind_ne_error (follow_ne_nullCharacter h)
    intro spot
    cases spot <;> exact nofun

/-- Folders are refused for the null character only if it stands in one of their names. -/
theorem null_of_makeFolders {root : String} {names : List String}
    (h : (d.makeFolders root p names).2 = .error .nullCharacter) :
    ∃ name ∈ names, hasNull name = true := by
  induction names generalizing d p with
  | nil => cases h
  | cons name rest ih =>
      by_cases hname : hasNull name = true
      · exact ⟨name, List.mem_cons_self, hname⟩
      · have hrest : ∀ {other : Disk} {q : Path},
            (other.makeFolders root q rest).2 = .error .nullCharacter →
            ∃ found ∈ name :: rest, hasNull found = true := by
          intro other q hother
          obtain ⟨found, hmem, hnull⟩ := ih hother
          exact ⟨found, List.mem_cons_of_mem name hmem, hnull⟩
        unfold makeFolders at h
        dsimp only at h
        split at h
        · -- a name without the null character is refused for another reason
          rename_i fault hfault
          unfold folderFault? at hfault
          rw [if_neg hname] at hfault
          cases h
          split at hfault
          · cases hfault
          · split at hfault
            · cases hfault
            · split at hfault
              · cases hfault
              · cases hfault
        · split at h
          · exact hrest h
          · split at h
            · split at h
              · cases h
              · exact hrest h
            · exact hrest h

/-- A delivery is refused for the null character only if it stands in the path. -/
theorem null_of_deliver (h : d.deliver path content = (after, .error .nullCharacter)) :
    hasNull path = true ∨ ∃ name ∈ Path.normal d.home path, hasNull name = true := by
  by_cases hpath : hasNull path = true
  · exact Or.inl hpath
  · right
    unfold deliver at h
    cases hmade : d.makeParent path with
    | mk made outcome =>
        rw [hmade] at h
        cases outcome with
        | error cause =>
            cases h
            have hfolders : (d.makeParent path).2 = .error .nullCharacter := by rw [hmade]
            obtain ⟨name, hmem, hname⟩ := null_of_makeFolders hfolders
            exact ⟨name, List.dropLast_subset _ hmem, hname⟩
        | ok _ =>
            dsimp only at h
            split at h
            · rename_i cause hwrite
              cases h
              have hplace : after.place path ≠ .error .nullCharacter :=
                place_ne_nullCharacter (Bool.eq_false_iff.2 hpath)
              unfold write at hwrite
              cases hat : after.place path with
              | error cause =>
                  rw [hat] at hwrite hplace
                  exact absurd (congrArg Except.error (Except.error.inj hwrite)) hplace
              | ok p =>
                  rw [hat] at hwrite
                  cases hwrite
            · cases h

end Disk

end TurtleGrammar
