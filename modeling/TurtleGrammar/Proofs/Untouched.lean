import TurtleGrammar.Proofs.Ending

/-!
# `TurtleGrammar.Proofs.Untouched` — what a run leaves alone

The output is written last: nothing is refused any more once its file has been opened. A run that
does not end with status 0 has therefore changed no file, whatever folders it has made, and one that
does has set the file of its output and no other, be it the configuration itself.

## Contents
- `Disk.Untouched`, `Disk.Replaced`: the files of one disk as those of another.
- `Command.execute_cases`: a command leaves the files alone or sets the one of its output.
- `session_files`: the files after a run.
-/

namespace TurtleGrammar

/-- Has every file the content that it had before, and is there no new one? -/
def Disk.Untouched (before after : Disk) : Prop := ∀ p, after.content? p = before.content? p

/-- Has the file that a path text denotes a content, and has every other file the content that it had
    before? -/
def Disk.Replaced (before after : Disk) (path : String) (content : Content) : Prop :=
  ∀ p, after.content? p =
    if p = Path.normal before.home path then some content else before.content? p

/-- No failure closes a report with status 0. -/
theorem Failure.ending_close_ne (failure : Failure) (output errors : String) :
    (failure.close output errors).ending ≠ .status 0 := by
  unfold Failure.close
  split
  · exact nofun
  · exact nofun

namespace Command

/-- **Files after a command.** They are as before, in which case the command has no output or has
    failed, or it has succeeded and the file of its output is set. -/
theorem execute_cases (command : Command) (level : Level) (time : String) (disk : Disk) :
    (disk.Untouched (command.execute level time disk).2 ∧
      ((command.execute level time disk).1.ending = .status 0 → command.target? = none)) ∨
    ((command.execute level time disk).1.ending = .status 0 ∧ ∃ path content,
      command.target? = some path ∧
        disk.Replaced (command.execute level time disk).2 path content) := by
  unfold execute
  cases hread : disk.read command.source with
  | error cause => exact Or.inl ⟨fun _ => rfl, fun h => absurd h (Failure.ending_close_ne _ _ _)⟩
  | ok content =>
      cases hperform : (command.perform content).outcome with
      | error fault =>
          simp only [hperform]
          exact Or.inl ⟨fun _ => rfl, fun h => absurd h (Failure.ending_close_ne _ _ _)⟩
      | ok result =>
          obtain ⟨hpath, hwhole⟩ := delivers_of_perform hperform
          cases result with
          | none =>
              simp only [hperform]
              exact Or.inl ⟨fun _ => rfl, fun _ => hpath.symm⟩
          | some d =>
              simp only [hperform]
              cases hdeliver : disk.deliver d.path d.text.toUTF8.toList with
              | mk after outcome =>
                  cases outcome with
                  | error cause =>
                      exact Or.inl ⟨Disk.content?_deliver_of_error hdeliver,
                        fun h => absurd h (Failure.ending_close_ne _ _ _)⟩
                  | ok _ =>
                      -- the text is whole, so that nothing is refused after the file was written
                      simp only [hwhole d rfl]
                      exact Or.inr ⟨trivial, d.path, _, hpath.symm, Disk.content?_deliver hdeliver⟩

end Command

open CommandLine

/-- **What a run leaves alone.** Arguments that end the run leave the disk as it was. A run that does
    not end with status 0 leaves every file as it was and makes no new one. One that does leaves them
    so as well if its command has no output, and otherwise the file of the output is set and every
    other one is as it was. -/
theorem session_files (time : String) (arguments : List String) (disk : Disk) :
    (∀ stop, Invocation.parse arguments = .error stop → (session time arguments disk).2 = disk) ∧
    ((session time arguments disk).1.ending ≠ .status 0 →
      disk.Untouched (session time arguments disk).2) ∧
    ∀ i, Invocation.parse arguments = .ok i →
      (session time arguments disk).1.ending = .status 0 →
      (i.command.target? = none → disk.Untouched (session time arguments disk).2) ∧
      ∀ path, i.command.target? = some path →
        ∃ content, disk.Replaced (session time arguments disk).2 path content := by
  unfold session
  cases Invocation.parse arguments with
  | error stop => exact ⟨fun _ _ => rfl, fun _ _ => rfl, fun _ => nofun⟩
  | ok i =>
      dsimp only
      unfold Invocation.execute
      cases i.level with
      | none => exact ⟨fun _ => nofun, fun _ _ => rfl, fun _ _ => nofun⟩
      | some level =>
          dsimp only
          refine ⟨fun _ => nofun, ?_, ?_⟩
          · intro hfailed
            rcases i.command.execute_cases level time disk with ⟨hsame, _⟩ | ⟨hended, _⟩
            · exact hsame
            · exact absurd hended hfailed
          · rintro _ ⟨⟩ hended
            rcases i.command.execute_cases level time disk with
              ⟨hsame, hnone⟩ | ⟨_, path, content, hpath, hreplaced⟩
            · refine ⟨fun _ => hsame, fun path hpath => ?_⟩
              rw [hnone hended] at hpath
              cases hpath
            · refine ⟨fun hnone => ?_, fun other hother => ?_⟩
              · rw [hnone] at hpath
                cases hpath
              · rw [hpath] at hother
                obtain rfl := Option.some.inj hother
                exact ⟨content, hreplaced⟩

end TurtleGrammar
