import TurtleGrammar.Proofs.Detached

/-!
# `TurtleGrammar.Proofs.Depth` — open branches

How many branches are open is a matter of the brackets alone: each opening bracket adds a frame to
the stack and one to the turtle's depth, each closing bracket takes them away again. A word that
never closes a branch that it has not opened leaves the frames below its own untouched.

## Contents
- `level`: how many more branches a word opens than it closes.
- `Machine.Reads.stack_cases`: what a symbol does to the frames.
- `Machine.depth_of_readWord`: the depth after a word.
- `Machine.stack_of_readWord`: the frames after a word.
- `Machine.level_nonneg_of_readWord`: a word that is read never closes more than is open.
-/

namespace TurtleGrammar

/-- How many more branches a word opens than it closes. -/
def level (word : Word) : Int := Instruction.push.count word - Instruction.pop.count word

@[simp] theorem level_nil : level [] = 0 := rfl

@[simp] theorem level_append (u v : Word) : level (u ++ v) = level u + level v := by
  unfold level
  rw [Instruction.count_append, Instruction.count_append]
  omega

theorem level_singleton_of_none {c : Char} (h : Instruction.ofSymbol? c = none) :
    level [c] = 0 := by
  unfold level
  rw [Instruction.count_singleton_of_none h, Instruction.count_singleton_of_none h]
  rfl

namespace Machine

variable {annotate : Bool} {c : Char} {rest word : Word} {m next last : Machine}
  {inner base : List Frame}

theorem Reads.depth_eq (h : Reads annotate rest m c next) :
    next.turtle.depth = m.turtle.depth + level [c] := by
  cases h with
  | ignore h => rw [level_singleton_of_none h, Int.add_zero]
  | draw | turnPositive | turnNegative | scale | flip => exact (Int.add_zero _).symm
  | push => rfl
  | pop => rfl

/-- What a symbol does to the frames. -/
theorem Reads.stack_cases (h : Reads annotate rest m c next) :
    (next.stack = m.stack ∧ level [c] = 0) ∨
    (next.stack = m.turtle.frame :: m.stack ∧ c = Instruction.push.symbol) ∨
    (∃ f, m.stack = f :: next.stack) ∧ c = Instruction.pop.symbol := by
  cases h with
  | ignore h => exact Or.inl ⟨rfl, level_singleton_of_none h⟩
  | draw | turnPositive | turnNegative | scale | flip => exact Or.inl ⟨rfl, rfl⟩
  | push => exact Or.inr (Or.inl ⟨rfl, rfl⟩)
  | @pop f _ h => exact Or.inr (Or.inr ⟨⟨f, h⟩, rfl⟩)

/-- The stack grows and shrinks as the depth does. -/
theorem Reads.length_eq (h : Reads annotate rest m c next) :
    (next.stack.length : Int) = m.stack.length + level [c] := by
  rcases h.stack_cases with ⟨hstack, hlevel⟩ | ⟨hstack, rfl⟩ | ⟨⟨f, hstack⟩, rfl⟩
  · rw [hstack, hlevel, Int.add_zero]
  · rw [hstack]
    rfl
  · have hpop : level [Instruction.pop.symbol] = -1 := rfl
    rw [hpop, hstack, List.length_cons]
    omega

/-- Frames below those of the branches that a word opens stay where they are, unless it closes a
    branch of theirs. -/
theorem Reads.stack_eq (h : Reads annotate rest m c next) (hstack : m.stack = inner ++ base)
    (hlevel : 0 ≤ inner.length + level [c]) : ∃ inner', next.stack = inner' ++ base := by
  rcases h.stack_cases with ⟨hnext, _⟩ | ⟨hnext, rfl⟩ | ⟨⟨f, hframe⟩, rfl⟩
  · exact ⟨inner, hnext.trans hstack⟩
  · rw [hstack] at hnext
    exact ⟨m.turtle.frame :: inner, hnext⟩
  · cases inner with
    | nil => exact absurd hlevel (by decide)
    | cons g inner =>
        rw [hframe] at hstack
        exact ⟨inner, (List.cons.inj hstack).2⟩

/-- The depth after a word: each branch that it opens adds one, each that it closes takes one. -/
theorem depth_of_readWord (h : readWord annotate word m = .ok last) :
    last.turtle.depth = m.turtle.depth + level word := by
  refine readWord_invariant (fun done now => now.turtle.depth = m.turtle.depth + level done) ?_
    (Int.add_zero _).symm h
  intro done rest c now next hreads hnow
  rw [hreads.depth_eq, hnow, level_append, Int.add_assoc]

/-- **Frames.** A word that closes at most the branches of `inner` beside its own leaves the frames
    below them as they were. -/
theorem stack_of_readWord (h : readWord annotate word m = .ok last) (inner : List Frame)
    (hstack : m.stack = inner ++ base)
    (hlevel : ∀ p, p <+: word → 0 ≤ inner.length + level p) :
    ∃ inner', last.stack = inner' ++ base ∧ (inner'.length : Int) = inner.length + level word := by
  -- the condition on prefixes is part of the invariant: it is used up symbol by symbol
  refine readWord_invariant
    (fun done now => (∀ p, p <+: done → 0 ≤ inner.length + level p) →
      ∃ inner', now.stack = inner' ++ base ∧ (inner'.length : Int) = inner.length + level done)
    ?_ (fun _ => ⟨inner, hstack, (Int.add_zero _).symm⟩) h hlevel
  intro done rest c now next hreads hnow hdone
  obtain ⟨inner', hstack', hlength⟩ := hnow fun p hp => hdone p (hp.trans ⟨[c], rfl⟩)
  have hall := hdone (done ++ [c]) (List.prefix_refl _)
  rw [level_append] at hall ⊢
  obtain ⟨inner'', hstack''⟩ := hreads.stack_eq hstack' (by omega)
  have hgrowth := hreads.length_eq
  rw [hstack'', hstack', List.length_append, List.length_append] at hgrowth
  exact ⟨inner'', hstack'', by omega⟩

/-- No part of a word that is read closes more branches than are open. -/
theorem level_nonneg_of_readWord (h : readWord annotate word m = .ok last)
    (hm : m.turtle.depth = m.stack.length) : ∀ p, p <+: word → 0 ≤ m.turtle.depth + level p := by
  rw [hm]
  -- what keeps the level from falling below zero is the stack, which has a length
  suffices hlast : (last.stack.length : Int) = m.stack.length + level word ∧
      ∀ p, p <+: word → 0 ≤ (m.stack.length : Int) + level p from hlast.2
  refine readWord_invariant (fun done now => (now.stack.length : Int) =
    m.stack.length + level done ∧ ∀ p, p <+: done → 0 ≤ (m.stack.length : Int) + level p) ?_ ?_ h
  · rintro done rest c now next hreads ⟨hlength, hprefix⟩
    have hlength' : (next.stack.length : Int) = m.stack.length + level (done ++ [c]) := by
      rw [hreads.length_eq, hlength, level_append, Int.add_assoc]
    refine ⟨hlength', fun p hp => ?_⟩
    rcases List.prefix_concat_iff.1 hp with rfl | hp
    · omega
    · exact hprefix p hp
  · refine ⟨(Int.add_zero _).symm, fun p hp => ?_⟩
    rw [List.prefix_nil.1 hp, level_nil]
    omega

end Machine

end TurtleGrammar
