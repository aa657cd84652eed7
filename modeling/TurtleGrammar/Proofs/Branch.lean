import Mathlib.Data.List.Infix
import TurtleGrammar.Proofs.Depth
import TurtleGrammar.Proofs.Drawn

/-!
# `TurtleGrammar.Proofs.Branch` — a completed branch leaves no trace

A branch saves all that its symbols can change, and its end restores all of it: position, heading,
step length, turn increment and depth, and the branches that were open around it. What follows a
completed branch is therefore drawn as if the branch were not there.

## Contents
- `Balanced`: words that complete each branch they open; `branch`: a word as a branch.
- `Machine.readWord_branch`: the machine after a completed branch.
- `interpret_branch`: the segments of a word with a completed branch in it.
-/

namespace TurtleGrammar

/-- A word that never closes a branch it has not opened, and closes each that it opens. -/
structure Balanced (word : Word) : Prop where
  nonneg : ∀ p, p <+: word → 0 ≤ level p
  level_eq : level word = 0

instance (word : Word) : Decidable (Balanced word) :=
  decidable_of_iff ((∀ p ∈ word.inits, 0 ≤ level p) ∧ level word = 0)
    ⟨fun h => ⟨fun p hp => h.1 p ((List.mem_inits p word).2 hp), h.2⟩,
      fun h => ⟨fun p hp => h.nonneg p ((List.mem_inits p word).1 hp), h.level_eq⟩⟩

/-- A word as a branch. -/
def branch (word : Word) : Word :=
  Instruction.push.symbol :: (word ++ [Instruction.pop.symbol])

variable {annotate : Bool} {u v word : Word}

/-- The closing bracket ends every numeral of a branch. -/
theorem detached_branch (word v : Word) : Detached (branch word) v := by
  refine detached_append_of_mem (x := Instruction.push.symbol :: word) List.mem_cons_self
    (Instruction.isNumeralSymbol_symbol .pop) ?_
  exact detached_of_not_mem (by decide)

theorem draw_count_branch (word : Word) :
    Instruction.draw.count (branch word) = Instruction.draw.count word := by
  unfold branch
  rw [Instruction.count_cons, Instruction.count_append]
  exact Nat.zero_add _

namespace Machine

variable {m last : Machine}

/-- **A completed branch restores the turtle** and the branches that were open around it. -/
theorem readWord_branch (hword : Balanced word) (h : readWord annotate (branch word) m = .ok last) :
    last.turtle = m.turtle ∧ last.stack = m.stack := by
  unfold branch at h
  rw [Reads.push.readWord_cons,
    readWord_append_eq_ok_iff (detached_of_head not_isNumeralSymbol_of_head)] at h
  obtain ⟨inside, hinside, hclose⟩ := h
  -- at the end of the branch its own frame lies on top, and the depth is its depth
  obtain ⟨inner, hstack, hlength⟩ :=
    stack_of_readWord hinside [] rfl fun p hp => by simpa using hword.nonneg p hp
  have hinner : inner = [] := by
    rw [hword.level_eq] at hlength
    exact List.length_eq_zero_iff.1 (by simpa using hlength)
  have hdepth : inside.turtle.depth = m.turtle.depth + 1 := by
    rw [depth_of_readWord hinside, hword.level_eq]
    exact Int.add_zero _
  have hpop : inside.stack = m.turtle.frame :: m.stack := by rw [hstack, hinner, List.nil_append]
  rw [(Reads.pop hpop).readWord_cons] at hclose
  obtain rfl := Except.ok.inj hclose
  have hturtle : inside.turtle.restore m.turtle.frame = m.turtle := by
    unfold Turtle.restore
    rw [hdepth, Int.add_sub_cancel]
    rfl
  exact ⟨hturtle, rfl⟩

end Machine

variable {setup : Setup} {segments : List Segment}

/-- **A completed branch leaves no trace on what follows it.** In a word with a completed branch
    that is drawn, the segments are those of the part before the branch, of the branch and of the
    part after it, one for each symbol that draws; without the branch the word draws the first and
    the last ones. The part after the branch must not go on with a numeral. -/
theorem interpret_branch (hword : Balanced word) (hv : ∀ c ∈ v.head?, isNumeralSymbol c = false)
    (h : interpret setup annotate (u ++ branch word ++ v) = .ok segments) :
    ∃ before inside after, segments = before ++ inside ++ after ∧
      before.length = Instruction.draw.count u ∧
      inside.length = Instruction.draw.count word ∧
      after.length = Instruction.draw.count v ∧
      (Instruction.draw.symbol ∈ u ++ v →
        interpret setup annotate (u ++ v) = .ok (before ++ after)) := by
  obtain ⟨hstep, _, last, hread, rfl⟩ := interpret_eq_ok_iff.1 h
  rw [List.append_assoc] at hread
  have hopening : Detached u (branch word ++ v) := detached_of_head not_isNumeralSymbol_of_head
  obtain ⟨atBranch, hu, hread⟩ := (Machine.readWord_append_eq_ok_iff hopening).1 hread
  obtain ⟨behind, hbranch, hrest⟩ :=
    (Machine.readWord_append_eq_ok_iff (detached_branch word v)).1 hread
  -- behind the branch the machine has the turtle and the frames that it had before it
  obtain ⟨hturtle, hstack⟩ := Machine.readWord_branch hword hbranch
  obtain ⟨before, hbefore, hbeforeLength⟩ := Machine.segments_of_readWord hu
  obtain ⟨inside, hinside, hinsideLength⟩ := Machine.segments_of_readWord hbranch
  obtain ⟨after, last', hafter, hafterLength, hlast', _, _, hafter'⟩ :=
    Machine.readWord_transfer hrest hturtle.symm hstack.symm
  have hstart : (Machine.start setup).segments = [] := rfl
  rw [hstart, List.nil_append] at hbefore
  refine ⟨before, inside, after, ?_, hbeforeLength, ?_, hafterLength, fun hdraw => ?_⟩
  · rw [hafter, hinside, hbefore]
  · rw [hinsideLength, draw_count_branch]
  · have hwithout : Machine.readWord annotate (u ++ v) (.start setup) = .ok last' :=
      (Machine.readWord_append_eq_ok_iff (detached_of_head hv)).2 ⟨atBranch, hu, hlast'⟩
    exact interpret_eq_ok_iff.2 ⟨hstep, hdraw, last', hwithout, by rw [hafter', hbefore]⟩

/-- The branch changes the step length, the turn increment, the heading and the position, and the
    line behind it is drawn with the old ones. -/
theorem interpret_branch_turned :
    Balanced ['@', '2', '!', '+', 'F', '[', '-', ']'] ∧
    (∀ c ∈ (['+', 'F'] : Word).head?, isNumeralSymbol c = false) ∧
    ∃ segments,
      interpret ⟨Angle.quarterTurn, .zero, .one⟩ true
        (['F'] ++ branch ['@', '2', '!', '+', 'F', '[', '-', ']'] ++ ['+', 'F']) = .ok segments ∧
      ∃ before inside after, segments = before ++ inside ++ after ∧
        before.length = 1 ∧ inside.length = 1 ∧ after.length = 1 ∧
        (Instruction.draw.symbol ∈ (['F'] ++ ['+', 'F'] : Word) →
          interpret ⟨Angle.quarterTurn, .zero, .one⟩ true (['F'] ++ ['+', 'F']) =
            .ok (before ++ after)) := by
  have hword : Balanced ['@', '2', '!', '+', 'F', '[', '-', ']'] := by decide
  have hv : ∀ c ∈ (['+', 'F'] : Word).head?, isNumeralSymbol c = false := by
    intro c hc
    obtain rfl := Option.some.inj hc
    decide
  have hok : (interpret ⟨Angle.quarterTurn, .zero, .one⟩ true
      (['F'] ++ branch ['@', '2', '!', '+', 'F', '[', '-', ']'] ++ ['+', 'F'])).isOk = true := by
    decide +kernel
  cases h : interpret ⟨Angle.quarterTurn, .zero, .one⟩ true
      (['F'] ++ branch ['@', '2', '!', '+', 'F', '[', '-', ']'] ++ ['+', 'F']) with
  | error fault =>
      rw [h] at hok
      exact absurd hok Bool.false_ne_true
  | ok segments => exact ⟨hword, hv, segments, rfl, interpret_branch hword hv h⟩

end TurtleGrammar
