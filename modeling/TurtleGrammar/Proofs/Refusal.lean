import TurtleGrammar.Fault
import TurtleGrammar.Traced

/-!
# `TurtleGrammar.Proofs.Refusal` — what a computation gives, and what it is refused for

A computation that may be refused is read from its first step on: what a step gives is known to the
steps after it, and the fault of any step is the fault of the whole. `Meets` says both at once, so
that one walk through a computation tells what its results are like and which faults it has.

## Contents
- `fault?`: the fault of a computation; `eq_ok_of_toOption`: its result.
- `Meets`: the results and the faults of a computation; `Anything`: any result is good.
- `Meets.bind`, `Meets.outcome_bind`, `Meets.map`, `Meets.mapM`: sequences and lists of
  computations.
-/

namespace TurtleGrammar

variable {α β : Type} {good other : α → Prop} {after : β → Prop} {kind wider : Fault → Prop}
  {result : Except Fault α}

/-- The fault of a computation, if it is refused. -/
def fault? : Except Fault α → Option Fault
  | .ok _ => none
  | .error fault => some fault

theorem fault?_eq_some_iff {fault : Fault} : fault? result = some fault ↔ result = .error fault := by
  cases result with
  | ok value => simp [fault?]
  | error other => simp [fault?]

theorem eq_ok_of_toOption {ε α : Type} {result : Except ε α} {value : α}
    (h : result.toOption = some value) : result = .ok value := by
  cases result with
  | error error => cases h
  | ok found => exact congrArg Except.ok (Option.some.inj h)

/-- **Results and faults.** What the computation gives is good, and a fault of it is of the kind. -/
structure Meets (good : α → Prop) (kind : Fault → Prop) (result : Except Fault α) : Prop where
  of_ok : ∀ value, result = .ok value → good value
  of_error : ∀ fault, result = .error fault → kind fault

/-- Nothing is asked of a result. -/
def Anything {α : Type} (_ : α) : Prop := True

namespace Meets

theorem of_value {value : α} (h : good value) : Meets good kind (.ok value) :=
  ⟨fun _ hok => Except.ok.inj hok ▸ h, fun _ => nofun⟩

theorem of_fault {fault : Fault} (h : kind fault) : Meets good kind (.error fault) :=
  ⟨fun _ => nofun, fun _ herror => Except.error.inj herror ▸ h⟩

/-- Less may be said of a result, and more faults be allowed. -/
theorem mono (h : Meets good kind result) (hgood : ∀ value, good value → other value)
    (hkind : ∀ fault, kind fault → wider fault) : Meets other wider result :=
  ⟨fun value hok => hgood value (h.of_ok value hok),
    fun fault herror => hkind fault (h.of_error fault herror)⟩

/-- What a computation gives is known to the next one, and either may be refused. -/
theorem bind {next : α → Except Fault β} (h : Meets good kind result)
    (hnext : ∀ value, good value → Meets after kind (next value)) :
    Meets after kind (result >>= next) := by
  cases result with
  | ok value => exact hnext value (h.of_ok value rfl)
  | error fault => exact .of_fault (h.of_error fault rfl)

theorem outcome_bind {ν : Type} {first : Traced ν Fault α} {next : α → Traced ν Fault β}
    (h : Meets good kind first.outcome)
    (hnext : ∀ value, good value → Meets after kind (next value).outcome) :
    Meets after kind (first >>= next).outcome := by
  rw [Traced.outcome_bind]
  exact h.bind hnext

theorem map {f : α → β} (h : Meets good kind result) (hf : ∀ value, good value → after (f value)) :
    Meets after kind (result.map f) := by
  cases result with
  | ok value => exact .of_value (hf value (h.of_ok value rfl))
  | error fault => exact .of_fault (h.of_error fault rfl)

/-- What each item gives is known of every item of the result. -/
theorem mapM {next : β → Except Fault α} {items : List β}
    (h : ∀ item ∈ items, Meets good kind (next item)) :
    Meets (fun values => ∀ value ∈ values, good value) kind (items.mapM next) := by
  induction items with
  | nil => exact .of_value fun value hmem => absurd hmem List.not_mem_nil
  | cons item rest ih =>
      rw [List.mapM_cons]
      refine (h item List.mem_cons_self).bind fun first hfirst => ?_
      refine (ih fun item hitem => h item (List.mem_cons_of_mem _ hitem)).bind fun later hlater => ?_
      exact .of_value (List.forall_mem_cons.2 ⟨hfirst, hlater⟩)

end Meets

end TurtleGrammar
