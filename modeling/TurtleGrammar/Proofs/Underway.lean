import TurtleGrammar.Proofs.Detached

/-!
# `TurtleGrammar.Proofs.Underway` — machines on their way through a word

What holds of a machine at every position of a word is more than what holds at its end, for a word
need not be read to its end. `Machine.runTo` gives the machine after each number of symbols. Each of
these machines arises from the one before by the effect of one symbol, so that an invariant of the
effects holds of all of them.

## Contents
- `Machine.runTo_succ`: one more symbol.
- `Machine.aligned_runTo`, `Machine.reads_of_runTo`: the effect of the next symbol.
- `Machine.runTo_invariant`: what every symbol preserves, every machine on the way has.
-/

namespace TurtleGrammar

variable {word : Word} {count : Nat} {c : Char}

theorem drop_of_getElem? (h : word[count]? = some c) :
    word.drop count = c :: word.drop (count + 1) := by
  obtain ⟨hlt, rfl⟩ := List.getElem?_eq_some_iff.1 h
  exact List.drop_eq_getElem_cons hlt

theorem take_succ_of_getElem? (h : word[count]? = some c) :
    word.take (count + 1) = word.take count ++ [c] := by
  rw [List.take_add_one, h]
  rfl

namespace Machine

variable {annotate : Bool} {setup : Setup} {m next : Machine}

/-- One more symbol: the machine after it comes from the one before it. -/
theorem runTo_succ (h : word[count]? = some c) (first : Machine) :
    runTo annotate (count + 1) word first =
      (runTo annotate count word first).bind (step annotate c (word.drop (count + 1))) := by
  induction count generalizing word first with
  | zero =>
      cases word with
      | nil => cases h
      | cons d rest =>
          obtain rfl := Option.some.inj h
          show runTo annotate 1 (d :: rest) first = first.step annotate d rest
          rw [runTo]
          cases first.step annotate d rest <;> rfl
  | succ count ih =>
      cases word with
      | nil => cases h
      | cons d rest =>
          rw [runTo, runTo, List.drop_succ_cons]
          cases first.step annotate d rest with
          | error fault => rfl
          | ok second => exact ih h second

/-- A machine on its way passes over nothing but the symbols of a numeral. -/
theorem aligned_runTo (hcount : count ≤ word.length)
    (h : runTo annotate count word (.start setup) = .ok m) : m.Aligned (word.drop count) := by
  induction count generalizing m with
  | zero =>
      obtain rfl := Except.ok.inj h
      exact aligned_start setup word
  | succ count ih =>
      have hc : word[count]? = some word[count] := List.getElem?_eq_getElem hcount
      rw [runTo_succ hc] at h
      cases hbefore : runTo annotate count word (.start setup) with
      | error fault =>
          rw [hbefore] at h
          cases h
      | ok before =>
          rw [hbefore] at h
          have haligned := ih (Nat.le_of_succ_le hcount) hbefore
          rw [drop_of_getElem? hc] at haligned
          exact haligned.step h

/-- A machine after a symbol comes from a machine before it by the effect of the symbol. -/
theorem reads_of_runTo (hc : word[count]? = some c)
    (h : runTo annotate (count + 1) word (.start setup) = .ok next) :
    ∃ m, runTo annotate count word (.start setup) = .ok m ∧
      Reads annotate (word.drop (count + 1)) m.settled c next.settled := by
  rw [runTo_succ hc] at h
  cases hm : runTo annotate count word (.start setup) with
  | error fault =>
      rw [hm] at h
      cases h
  | ok m =>
      rw [hm] at h
      have hcount : count ≤ word.length := Nat.le_of_lt (List.getElem?_eq_some_iff.1 hc).1
      have haligned := aligned_runTo hcount hm
      rw [drop_of_getElem? hc] at haligned
      refine ⟨m, rfl, read_eq_ok_iff.1 ?_⟩
      rw [← step_settled haligned]
      exact congrArg (Except.map settled) h

/-- **Invariants on the way.** What holds at the start and is preserved by the effect of every
    symbol holds of every machine on its way through a word. The invariant may speak of the
    machines before. -/
theorem runTo_invariant (Holds : Nat → Machine → Prop) (hstart : Holds 0 (.start setup))
    (hstep : ∀ {count : Nat} {c : Char} {m next : Machine}, word[count]? = some c →
      (∃ before, runTo annotate count word (.start setup) = .ok before ∧ before.settled = m) →
      Reads annotate (word.drop (count + 1)) m c next → Holds count m → Holds (count + 1) next)
    (hcount : count ≤ word.length) (h : runTo annotate count word (.start setup) = .ok m) :
    Holds count m.settled := by
  induction count generalizing m with
  | zero =>
      obtain rfl := Except.ok.inj h
      exact hstart
  | succ count ih =>
      have hc : word[count]? = some word[count] := List.getElem?_eq_getElem hcount
      obtain ⟨before, hbefore, hreads⟩ := reads_of_runTo hc h
      have hholds := ih (Nat.le_of_succ_le hcount) hbefore
      exact hstep hc ⟨before, hbefore, rfl⟩ hreads hholds

end Machine

end TurtleGrammar
