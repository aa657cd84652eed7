import TurtleGrammar.Proofs.Depth
import TurtleGrammar.Proofs.Drawn
import TurtleGrammar.Proofs.Heading

/-!
# `TurtleGrammar.Proofs.Outcome` — the outcome of a word, read off its symbols

Three kinds of position can stop a turtle: a closing bracket without an open branch, a scale symbol
without a numeral, and, if the heading at the start is infinite, a line before the turtle has
turned. Which positions these are can be said of the word alone. The first of them decides the
outcome, and a word without any is drawn.

The heading at a position is the one at the start exactly if no turn stands before it outside the
branches that are completed there. `withoutBranches` deletes these branches, and `Tracks` relates
what it keeps to the headings of the turtle and of the saved frames.

## Contents
- `withoutBranches`, `Unturned`: the symbols that bear on the heading at the end of a word.
- `Offends`: the positions of a word at which it cannot be drawn.
- `Machine.At`: the machine at a position of a word; preserved by every symbol that is obeyed.
- `Machine.readWord_outcome`, `interpret_outcome`: the first offending position decides.
-/

namespace TurtleGrammar

/-! ## Positions that offend -/

/-- Add a symbol to the kept ones (latest first). A closing bracket completes the branch that was
    opened last, if one is open, and deletes all of it. -/
def keepOpen (kept : Word) (c : Char) : Word :=
  if c = Instruction.pop.symbol then
    match kept.dropWhile (· != Instruction.push.symbol) with
    | [] => c :: kept
    | _ :: outer => outer
  else c :: kept

/-- A word without its completed branches, the latest symbol first. -/
def openSymbols (word : Word) : Word := word.foldl keepOpen []

/-- A word without its completed branches. -/
def withoutBranches (word : Word) : Word := (openSymbols word).reverse

/-- Does nothing in a word turn the turtle? -/
def Unturned (word : Word) : Prop :=
  Instruction.turnPositive.symbol ∉ word ∧ Instruction.turnNegative.symbol ∉ word

instance (word : Word) : Decidable (Unturned word) := inferInstanceAs (Decidable (_ ∧ _))

/-- A position of a word at which it cannot be drawn, and the fault there; `unbounded` says that the
    heading at the start is infinite. -/
inductive Offends (unbounded : Bool) (word : Word) (position : Nat) : Fault → Prop where
  /-- A closing bracket, with more closing than opening brackets up to it. -/
  | noOpenBranch (hc : word[position]? = some Instruction.pop.symbol)
      (h : Instruction.push.count (word.take (position + 1)) <
        Instruction.pop.count (word.take (position + 1))) :
      Offends unbounded word position (.noOpenBranch position)
  /-- A scale symbol, followed neither by a digit nor by a point and a digit. -/
  | noNumeral (hc : word[position]? = some Instruction.scale.symbol)
      (h : startsNumeral (word.drop (position + 1)) = false) :
      Offends unbounded word position (.noNumeral position)
  /-- A symbol that draws, with no turn before it outside the branches that are completed there. -/
  | headingUnbounded (hc : word[position]? = some Instruction.draw.symbol)
      (hu : unbounded = true) (h : Unturned (withoutBranches (word.take position))) :
      Offends unbounded word position .headingUnbounded

variable {annotate unbounded : Bool} {c : Char} {done rest word : Word} {position : Nat}
  {fault other : Fault}

/-- A position has one fault at most. -/
theorem Offends.unique (h : Offends unbounded word position fault)
    (hother : Offends unbounded word position other) : fault = other := by
  -- the symbol at the position tells the three kinds apart
  have hsymbol : ∀ {i j : Instruction}, word[position]? = some i.symbol →
      word[position]? = some j.symbol → i.symbol = j.symbol := by
    intro i j hi hj
    exact Option.some.inj (hi.symm.trans hj)
  cases h with
  | noOpenBranch hc =>
      cases hother with
      | noOpenBranch => rfl
      | noNumeral hc' | headingUnbounded hc' => exact absurd (hsymbol hc hc') (by decide)
  | noNumeral hc =>
      cases hother with
      | noNumeral => rfl
      | noOpenBranch hc' | headingUnbounded hc' => exact absurd (hsymbol hc hc') (by decide)
  | headingUnbounded hc =>
      cases hother with
      | headingUnbounded => rfl
      | noOpenBranch hc' | noNumeral hc' => exact absurd (hsymbol hc hc') (by decide)

theorem Offends.lt_length (h : Offends unbounded word position fault) : position < word.length := by
  cases h with
  | noOpenBranch hc | noNumeral hc | headingUnbounded hc =>
      exact (List.getElem?_eq_some_iff.1 hc).1

/-! ## Headings and the symbols that bear on them -/

theorem openSymbols_append_singleton (word : Word) (c : Char) :
    openSymbols (word ++ [c]) = keepOpen (openSymbols word) c := List.foldl_append

theorem keepOpen_of_ne (h : c ≠ Instruction.pop.symbol) (kept : Word) :
    keepOpen kept c = c :: kept := if_neg h

theorem unturned_withoutBranches :
    Unturned (withoutBranches word) ↔ Unturned (openSymbols word) := by
  unfold Unturned withoutBranches
  rw [List.mem_reverse, List.mem_reverse]

theorem unturned_cons (hpositive : c ≠ Instruction.turnPositive.symbol)
    (hnegative : c ≠ Instruction.turnNegative.symbol) (kept : Word) :
    Unturned (c :: kept) ↔ Unturned kept := by
  unfold Unturned
  simp [hpositive.symm, hnegative.symm]

/-- Is the heading infinite exactly if the kept symbols leave it as at an infinite start? -/
def Faces (unbounded : Bool) (heading : Binary64) (kept : Word) : Prop :=
  heading.isInfinite = true ↔ unbounded = true ∧ Unturned kept

/-- The kept symbols tell which of the headings are infinite: the turtle's from all of them, that of
    each frame from those before the opening bracket of its branch. -/
def Tracks (unbounded : Bool) : Binary64 → List Frame → Word → Prop
  | heading, [], kept => Faces unbounded heading kept ∧ Instruction.push.symbol ∉ kept
  | heading, f :: outer, kept => Faces unbounded heading kept ∧
      ∃ below, kept.dropWhile (· != Instruction.push.symbol) = Instruction.push.symbol :: below ∧
        Tracks unbounded f.heading outer below

namespace Tracks

variable {heading turned : Binary64} {f : Frame} {stack outer : List Frame} {kept : Word}

theorem faces (h : Tracks unbounded heading stack kept) : Faces unbounded heading kept := by
  cases stack with
  | nil => exact h.1
  | cons f outer => exact h.1

/-- A symbol that is no bracket may change the heading, and no frame. -/
theorem cons (h : Tracks unbounded heading stack kept) (hc : c ≠ Instruction.push.symbol)
    (hfaces : Faces unbounded turned (c :: kept)) : Tracks unbounded turned stack (c :: kept) := by
  cases stack with
  | nil => exact ⟨hfaces, List.not_mem_cons_of_ne_of_not_mem hc.symm h.2⟩
  | cons f outer =>
      obtain ⟨_, below, hbelow, houter⟩ := h
      refine ⟨hfaces, below, ?_, houter⟩
      rwa [List.dropWhile_cons_of_pos (by simpa using hc)]

/-- An opening bracket saves the heading. -/
theorem push (h : Tracks unbounded heading stack kept) (hf : f.heading = heading) :
    Tracks unbounded heading (f :: stack) (Instruction.push.symbol :: kept) := by
  refine ⟨(h.faces).trans (and_congr_right fun _ => ?_), kept, rfl, hf ▸ h⟩
  exact (unturned_cons (by decide) (by decide) kept).symm

/-- A closing bracket restores the heading and deletes what was kept of the branch. -/
theorem pop (h : Tracks unbounded heading (f :: outer) kept) :
    Tracks unbounded f.heading outer (keepOpen kept Instruction.pop.symbol) := by
  obtain ⟨_, below, hbelow, houter⟩ := h
  unfold keepOpen
  rw [if_pos rfl, hbelow]
  exact houter

end Tracks

/-! ## The machine at a position -/

namespace Machine

variable {m after last : Machine}

/-- The machine behind a part of a word: its cursor, its stack and its headings, as the symbols of
    that part tell them. -/
structure At (unbounded : Bool) (done : Word) (m : Machine) : Prop where
  cursor_eq : m.cursor = done.length
  length_eq : (m.stack.length : Int) = level done
  tracks : Tracks unbounded m.turtle.heading m.stack (openSymbols done)

theorem at_start (setup : Setup) : (start setup).At setup.heading.isInfinite [] := by
  refine ⟨rfl, rfl, ?_, List.not_mem_nil⟩
  show setup.heading.isInfinite = true ↔ _
  exact ⟨fun h => ⟨h, List.not_mem_nil, List.not_mem_nil⟩, fun h => h.1⟩

theorem Reads.tracks {kept : Word} (h : Reads annotate rest m c after)
    (hm : Tracks unbounded m.turtle.heading m.stack kept) :
    Tracks unbounded after.turtle.heading after.stack (keepOpen kept c) := by
  -- a symbol that neither turns the turtle nor is a bracket is kept for nothing
  have hquiet : ∀ d : Char, d ≠ Instruction.push.symbol → d ≠ Instruction.pop.symbol →
      d ≠ Instruction.turnPositive.symbol → d ≠ Instruction.turnNegative.symbol →
      Tracks unbounded m.turtle.heading m.stack (keepOpen kept d) := by
    intro d hpush hpop hpositive hnegative
    rw [keepOpen_of_ne hpop]
    refine hm.cons hpush (hm.faces.trans (and_congr_right fun _ => ?_))
    exact (unturned_cons hpositive hnegative kept).symm
  cases h with
  | ignore h =>
      have hne := Instruction.ne_symbol_of_none h
      exact hquiet c (hne _) (hne _) (hne _) (hne _)
  | draw | scale | flip => exact hquiet _ (by decide) (by decide) (by decide) (by decide)
  | turnPositive =>
      rw [keepOpen_of_ne (by decide)]
      refine hm.cons (by decide) (iff_of_false ?_ fun hu => hu.2.1 List.mem_cons_self)
      exact Bool.eq_false_iff.1 (Angle.turn_isInfinite _ _)
  | turnNegative =>
      rw [keepOpen_of_ne (by decide)]
      refine hm.cons (by decide) (iff_of_false ?_ fun hu => hu.2.2 List.mem_cons_self)
      exact Bool.eq_false_iff.1 (Angle.turn_isInfinite _ _)
  | push =>
      rw [keepOpen_of_ne (by decide)]
      exact hm.push rfl
  | @pop f outer h =>
      rw [h] at hm
      exact hm.pop

/-- **One symbol** takes the machine to the next position. -/
theorem At.next (hm : m.At unbounded done) (h : Reads annotate rest m c after) :
    after.At unbounded (done ++ [c]) := by
  refine ⟨?_, ?_, ?_⟩
  · rw [h.cursor_eq, hm.cursor_eq, List.length_append]
    rfl
  · rw [h.length_eq, hm.length_eq, level_append]
  · rw [openSymbols_append_singleton]
    exact h.tracks hm.tracks

/-- What the position between two parts of a word shows. -/
theorem position_append (done : Word) (c : Char) (rest : Word) :
    (done ++ c :: rest)[done.length]? = some c ∧ (done ++ c :: rest).take done.length = done ∧
      (done ++ c :: rest).take (done.length + 1) = done ++ [c] ∧
      (done ++ c :: rest).drop (done.length + 1) = rest := by
  have hword : (done ++ [c]) ++ rest = done ++ c :: rest := List.append_assoc done [c] rest
  exact ⟨by simp, List.take_left, cut_of_append hword List.length_append⟩

/-- No branch is open exactly if a closing bracket would be one too many. -/
theorem At.stack_eq_nil_iff (hm : m.At unbounded done) :
    m.stack = [] ↔ Instruction.push.count (done ++ [Instruction.pop.symbol]) <
      Instruction.pop.count (done ++ [Instruction.pop.symbol]) := by
  have hlength := hm.length_eq
  have hpush : Instruction.push.count [Instruction.pop.symbol] = 0 := rfl
  have hpop : Instruction.pop.count [Instruction.pop.symbol] = 1 := rfl
  unfold level at hlength
  rw [Instruction.count_append, Instruction.count_append, hpush, hpop, ← List.length_eq_zero_iff]
  omega

/-- **A position offends exactly if its symbol is refused**, and for the same reason. -/
theorem At.offends_iff (hm : m.At unbounded done) :
    Offends unbounded (done ++ c :: rest) done.length fault ↔ Refuses rest m c fault := by
  obtain ⟨hc, htake, hupto, hdrop⟩ := position_append done c rest
  constructor
  · intro h
    cases h with
    | noOpenBranch hpop hcount =>
        obtain rfl := Option.some.inj (hc.symm.trans hpop)
        rw [hupto] at hcount
        exact hm.cursor_eq ▸ .pop (hm.stack_eq_nil_iff.2 hcount)
    | noNumeral hscale hnumeral =>
        obtain rfl := Option.some.inj (hc.symm.trans hscale)
        rw [hdrop] at hnumeral
        exact hm.cursor_eq ▸ .scale ((numeral_eq_nil_iff rest).2 hnumeral)
    | headingUnbounded hdraw hu hturned =>
        obtain rfl := Option.some.inj (hc.symm.trans hdraw)
        rw [htake] at hturned
        exact .draw (hm.tracks.faces.2 ⟨hu, unturned_withoutBranches.1 hturned⟩)
  · intro h
    cases h with
    | draw h =>
        obtain ⟨hu, hturned⟩ := hm.tracks.faces.1 h
        exact .headingUnbounded hc hu (htake.symm ▸ unturned_withoutBranches.2 hturned)
    | pop h =>
        rw [hm.cursor_eq]
        exact .noOpenBranch hc (hupto.symm ▸ hm.stack_eq_nil_iff.1 h)
    | scale h =>
        rw [hm.cursor_eq]
        exact .noNumeral hc (hdrop.symm ▸ (numeral_eq_nil_iff rest).1 h)

/-! ## The first offending position -/

/-- **The first offending position.** From a position on, a word is read to its end if no position
    offends any more, and otherwise up to the first one that does, with its fault. -/
theorem readWord_outcome (annotate : Bool) (rest : Word) (hm : m.At unbounded done) :
    (∃ last, readWord annotate rest m = .ok last ∧
      ∀ p fault, done.length ≤ p → ¬ Offends unbounded (done ++ rest) p fault) ∨
    (∃ p fault, readWord annotate rest m = .error fault ∧ done.length ≤ p ∧
      Offends unbounded (done ++ rest) p fault ∧
      ∀ q other, done.length ≤ q → q < p → ¬ Offends unbounded (done ++ rest) q other) := by
  induction rest generalizing done m with
  | nil =>
      refine Or.inl ⟨m, rfl, fun p fault hp h => ?_⟩
      have hlt := h.lt_length
      rw [List.append_nil] at hlt
      omega
  | cons c rest ih =>
      rcases read_cases annotate c rest m with ⟨after, hread, hreads⟩ | ⟨fault, hread, hrefuses⟩
      · -- the symbol is obeyed: its own position does not offend, and the rest is by induction
        have hhere : ∀ fault, ¬ Offends unbounded (done ++ c :: rest) done.length fault := by
          intro fault h
          have herror : m.read annotate c rest = .error fault := (hm.offends_iff.1 h).read_eq
          rw [hread] at herror
          cases herror
        have hrest := ih (hm.next hreads)
        rw [List.append_assoc, List.singleton_append, List.length_append] at hrest
        rw [hreads.readWord_cons]
        rcases hrest with ⟨last, hlast, hfree⟩ | ⟨p, fault, herror, hp, hoffends, hfirst⟩
        · refine Or.inl ⟨last, hlast, fun p fault hp h => ?_⟩
          rcases Nat.eq_or_lt_of_le hp with rfl | hlt
          · exact hhere fault h
          · exact hfree p fault hlt h
        · refine Or.inr ⟨p, fault, herror, Nat.le_of_succ_le hp, hoffends, ?_⟩
          intro q other hq hlt h
          rcases Nat.eq_or_lt_of_le hq with rfl | hlt'
          · exact hhere other h
          · exact hfirst q other hlt' hlt h
      · refine Or.inr ⟨done.length, fault, ?_, Nat.le_refl _, hm.offends_iff.2 hrefuses, ?_⟩
        · rw [readWord, hread]
        · intro q other hq hlt
          exact absurd hlt (Nat.not_lt.2 hq)

end Machine

/-- **The outcome of a word.** The step length is looked at first, then whether any symbol draws. A
    word that may be drawn is refused with the fault of its first offending position, and if no
    position offends it is drawn, with one segment for each symbol that draws. -/
theorem interpret_outcome (setup : Setup) (annotate : Bool) (word : Word) :
    (setup.step.isPositive = false →
      interpret setup annotate word = .error (.argument (.step setup.step))) ∧
    (setup.step.isPositive = true → Instruction.draw.symbol ∉ word →
      interpret setup annotate word = .error .nothingDrawn) ∧
    (setup.step.isPositive = true → Instruction.draw.symbol ∈ word →
      ((∀ p fault, ¬ Offends setup.heading.isInfinite word p fault) →
        ∃ segments, interpret setup annotate word = .ok segments ∧
          segments.length = Instruction.draw.count word) ∧
      (∀ p fault, Offends setup.heading.isInfinite word p fault →
        (∀ q < p, ∀ other, ¬ Offends setup.heading.isInfinite word q other) →
        interpret setup annotate word = .error fault)) := by
  refine ⟨interpret_of_not_positive, interpret_of_not_draws, fun hstep hdraw => ?_⟩
  rcases Machine.readWord_outcome annotate word (Machine.at_start setup) with
    ⟨last, hread, hfree⟩ | ⟨first, fault, hread, _, hoffends, hfirst⟩
  · have hok : interpret setup annotate word = .ok last.segments :=
      interpret_eq_ok_iff.2 ⟨hstep, hdraw, last, hread, rfl⟩
    refine ⟨fun _ => ⟨last.segments, hok, length_of_interpret hok⟩, fun p fault h => ?_⟩
    exact absurd h (hfree p fault (Nat.zero_le p))
  · have herror := (interpret_eq_error_iff hstep hdraw).2 hread
    refine ⟨fun hfree => absurd hoffends (hfree first fault), fun p other h hbefore => ?_⟩
    -- neither of the two positions comes before the other, so that they and their faults are one
    rcases Nat.lt_trichotomy p first with hlt | rfl | hlt
    · exact absurd h (hfirst p other (Nat.zero_le p) hlt)
    · rwa [h.unique hoffends]
    · exact absurd hoffends (hbefore first hlt fault)

/-- The turn inside the branch lets its line be drawn, but the branch is completed before the
    next. -/
theorem interpret_outcome_unturned :
    interpret ⟨.zero, .infinity false, .one⟩ true ['[', '+', 'F', ']', 'F', ']'] =
      .error .headingUnbounded := by
  refine ((interpret_outcome ⟨.zero, .infinity false, .one⟩ true ['[', '+', 'F', ']', 'F', ']']).2.2
    (by decide +kernel) (by decide)).2 4 .headingUnbounded
    (.headingUnbounded rfl rfl (by decide)) fun q hq other h => ?_
  have hpop : ∀ q < 4, ['[', '+', 'F', ']', 'F', ']'][q]? = some Instruction.pop.symbol →
      ¬ Instruction.push.count (['[', '+', 'F', ']', 'F', ']'].take (q + 1)) <
        Instruction.pop.count (['[', '+', 'F', ']', 'F', ']'].take (q + 1)) := by decide
  have hscale : ∀ q < 4, ['[', '+', 'F', ']', 'F', ']'][q]? ≠ some Instruction.scale.symbol := by
    decide
  have hdraw : ∀ q < 4, ['[', '+', 'F', ']', 'F', ']'][q]? = some Instruction.draw.symbol →
      ¬ Unturned (withoutBranches (['[', '+', 'F', ']', 'F', ']'].take q)) := by decide
  cases h with
  | noOpenBranch hc hcount => exact hpop q hq hc hcount
  | noNumeral hc => exact hscale q hq hc
  | headingUnbounded hc _ hturned => exact hdraw q hq hc hturned

end TurtleGrammar
