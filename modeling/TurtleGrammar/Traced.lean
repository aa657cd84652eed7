/-!
# `TurtleGrammar.Traced` — computations that leave notes

A traced computation gives a result or an error, and in either case the notes it made on the way, in
their order. Notes made before an error stay.

## Contents
- `Traced` with its monad instance, `note`, `lift`.
- `outcome_bind`/`notes_bind`: what a sequence of two computations gives and leaves.
-/

namespace TurtleGrammar

/-- Notes of type `ν` and the outcome of a computation that may fail with an `ε`. -/
structure Traced (ν ε α : Type) where
  notes : List ν
  outcome : Except ε α

namespace Traced

variable {ν ε α β : Type}

/-- One note and no result. -/
def note (n : ν) : Traced ν ε Unit := ⟨[n], .ok ()⟩

/-- An outcome without notes. -/
def lift (outcome : Except ε α) : Traced ν ε α := ⟨[], outcome⟩

def fail (error : ε) : Traced ν ε α := ⟨[], .error error⟩

/-- One computation after the other; an error of the first is the end. -/
def andThen (first : Traced ν ε α) (next : α → Traced ν ε β) : Traced ν ε β :=
  match first.outcome with
  | .ok value => ⟨first.notes ++ (next value).notes, (next value).outcome⟩
  | .error error => ⟨first.notes, .error error⟩

instance : Monad (Traced ν ε) where
  pure value := ⟨[], .ok value⟩
  bind := andThen

@[simp] theorem outcome_pure (value : α) : (pure value : Traced ν ε α).outcome = .ok value := rfl

@[simp] theorem outcome_note (n : ν) : (note n : Traced ν ε Unit).outcome = .ok () := rfl

@[simp] theorem outcome_lift (outcome : Except ε α) :
    (lift outcome : Traced ν ε α).outcome = outcome := rfl

/-- The outcome of two computations is that of their outcomes; notes play no part in it. -/
@[simp] theorem outcome_bind (first : Traced ν ε α) (next : α → Traced ν ε β) :
    (first >>= next).outcome = first.outcome.bind fun value => (next value).outcome := by
  show (andThen first next).outcome = _
  unfold andThen
  cases first.outcome <;> rfl

/-- The notes of the first computation stay, whether or not the next one runs. -/
theorem notes_bind (first : Traced ν ε α) (next : α → Traced ν ε β) :
    (first >>= next).notes =
      match first.outcome with
      | .ok value => first.notes ++ (next value).notes
      | .error _ => first.notes := by
  show (andThen first next).notes = _
  unfold andThen
  cases first.outcome <;> rfl

end Traced

end TurtleGrammar
