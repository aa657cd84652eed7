import TurtleGrammar.Proofs.Reading

/-!
# `TurtleGrammar.Proofs.Detached` — words read in two parts

What a scale symbol takes can go on in the text that follows. Where it does not, a word may be cut:
its first part is read as if nothing followed, and the second part is read from where the first one
leaves the machine.

## Contents
- `Detached`: words between which no numeral is cut, with conditions for it.
- `Machine.readWord_append`: a word in two detached parts.
- `Machine.runTo`: the machine on its way, after some symbols of a word.
-/

namespace TurtleGrammar

variable {annotate : Bool} {u v word : Word}

theorem cut_of_append {position : Nat} (h : u ++ v = word) (hlength : u.length = position) :
    word.take position = u ∧ word.drop position = v := by
  subst h
  exact ⟨List.take_left' hlength, List.drop_left' hlength⟩

/-- No numeral that a scale symbol of the first word takes goes on in the second one. -/
def Detached : Word → Word → Prop
  | [], _ => True
  | c :: u, v => (c = Instruction.scale.symbol → numeral (u ++ v) = numeral u) ∧ Detached u v

theorem detached_nil (u : Word) : Detached u [] := by
  induction u with
  | nil => trivial
  | cons c u ih => exact ⟨fun _ => by rw [List.append_nil], ih⟩

theorem detached_of_head (hv : ∀ c ∈ v.head?, isNumeralSymbol c = false) : Detached u v := by
  induction u with
  | nil => trivial
  | cons c u ih => exact ⟨fun _ => numeral_append_of_head hv, ih⟩

theorem not_isNumeralSymbol_of_head {i : Instruction} :
    ∀ c ∈ (i.symbol :: v : Word).head?, isNumeralSymbol c = false := by
  intro c hc
  rw [List.head?_cons, Option.mem_some_iff] at hc
  exact hc ▸ Instruction.isNumeralSymbol_symbol i

theorem detached_of_not_mem (h : Instruction.scale.symbol ∉ u) : Detached u v := by
  induction u with
  | nil => trivial
  | cons c u ih =>
      refine ⟨fun hc => ?_, ih fun hmem => h (List.mem_cons_of_mem c hmem)⟩
      exact absurd (hc ▸ List.mem_cons_self) h

/-- Numerals do not reach past a symbol that cannot stand in them, so that only the part from that
    symbol on matters. -/
theorem detached_append_of_mem {x : Word} {c : Char} (hc : c ∈ u)
    (hother : isNumeralSymbol c = false) (h : Detached u v) : Detached (x ++ u) v := by
  induction x with
  | nil => exact h
  | cons d x ih =>
      exact ⟨fun _ => numeral_append_of_mem (List.mem_append_right x hc) hother, ih⟩

namespace Machine

/-- A word in two detached parts is read part by part. -/
theorem readWord_append (h : Detached u v) (m : Machine) :
    readWord annotate (u ++ v) m = (readWord annotate u m).bind (readWord annotate v) := by
  induction u generalizing m with
  | nil => rfl
  | cons c u ih =>
      rw [List.cons_append, readWord, readWord, read, obey_congr_rest h.1, ← read]
      cases m.read annotate c u with
      | error fault => rfl
      | ok next => exact ih h.2 next

theorem readWord_append_eq_ok_iff (h : Detached u v) {m last : Machine} :
    readWord annotate (u ++ v) m = .ok last ↔
      ∃ middle, readWord annotate u m = .ok middle ∧ readWord annotate v middle = .ok last := by
  rw [readWord_append h]
  cases readWord annotate u m with
  | error fault => simp [Except.bind]
  | ok middle => simp [Except.bind]

/-- The machine after some symbols of a word, which it reads with all of the word in view. -/
def runTo (annotate : Bool) : Nat → Word → Machine → Except Fault Machine
  | 0, _, m => .ok m
  | _ + 1, [], m => .ok m
  | count + 1, symbol :: rest, m =>
    match m.step annotate symbol rest with
    | .error fault => .error fault
    | .ok next => runTo annotate count rest next

/-- After all its symbols a word is run. -/
theorem runTo_length (annotate : Bool) (word : Word) (m : Machine) :
    runTo annotate word.length word m = run annotate word m := by
  induction word generalizing m with
  | nil => rfl
  | cons c rest ih =>
      rw [List.length_cons, runTo, run]
      cases m.step annotate c rest with
      | error fault => rfl
      | ok next => exact ih next

/-- On the way through a detached first part the machine is as if nothing followed. -/
theorem runTo_append (h : Detached u v) (m : Machine) :
    runTo annotate u.length (u ++ v) m = run annotate u m := by
  induction u generalizing m with
  | nil => rfl
  | cons c u ih =>
      have hstep : m.step annotate c (u ++ v) = m.step annotate c u := by
        unfold step
        rw [obey_congr_rest h.1]
      rw [List.length_cons, List.cons_append, runTo, run, hstep]
      cases m.step annotate c u with
      | error fault => rfl
      | ok next => exact ih h.2 next

end Machine

end TurtleGrammar
