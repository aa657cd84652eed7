import TurtleGrammar.Proofs.Detached

/-!
# `TurtleGrammar.Proofs.Drawn` — what a word adds to a drawing

What a word draws depends on the turtle and on the open branches, not on what was drawn before or
where in a longer word it stands. One segment is added for each symbol that draws, behind those that
were drawn before.

## Contents
- `Machine.added`: what a symbol adds to the segments.
- `Machine.readWord_transfer`: the same word on another machine with the same turtle and branches.
- `length_of_interpret`: one segment for each symbol that draws.
- `interpret_append_of_error`, `interpret_of_append`: a word and its detached first part.
-/

namespace TurtleGrammar

variable {annotate : Bool} {c : Char} {u v rest word : Word}

namespace Machine

variable {m n next last : Machine}

/-- What a symbol adds to the segments. -/
def added (annotate : Bool) (m : Machine) (c : Char) : List Segment :=
  if c = Instruction.draw.symbol then [m.turtle.lineTo annotate m.turtle.ahead] else []

theorem length_added (annotate : Bool) (m : Machine) (c : Char) :
    (m.added annotate c).length = Instruction.draw.count [c] := by
  unfold added
  by_cases hc : c = Instruction.draw.symbol
  · subst hc
    rfl
  · rw [if_neg hc]
    refine (List.count_eq_zero.2 fun hmem => hc ?_).symm
    exact (List.mem_singleton.1 hmem).symm

theorem added_congr (h : n.turtle = m.turtle) : n.added annotate c = m.added annotate c := by
  unfold added
  rw [h]

theorem Reads.segments_eq (h : Reads annotate rest m c next) :
    next.segments = m.segments ++ m.added annotate c := by
  cases h with
  | ignore h =>
      unfold added
      rw [if_neg (Instruction.ne_symbol_of_none h _)]
      exact (List.append_nil _).symm
  | draw => exact List.reverse_cons
  | turnPositive | turnNegative | push | pop | scale | flip => exact (List.append_nil _).symm

/-- The effect of a symbol on the turtle and on the open branches is decided by them alone. -/
theorem Reads.onto (h : Reads annotate rest m c next) (hturtle : n.turtle = m.turtle)
    (hstack : n.stack = m.stack) :
    ∃ next', Reads annotate rest n c next' ∧ next'.turtle = next.turtle ∧
      next'.stack = next.stack := by
  obtain ⟨t, s, d, p, k⟩ := n
  simp only at hturtle hstack
  subst hturtle hstack
  cases h with
  | ignore h => exact ⟨_, .ignore h, rfl, rfl⟩
  | draw h => exact ⟨_, .draw h, rfl, rfl⟩
  | turnPositive => exact ⟨_, .turnPositive, rfl, rfl⟩
  | turnNegative => exact ⟨_, .turnNegative, rfl, rfl⟩
  | push => exact ⟨_, .push, rfl, rfl⟩
  | pop h => exact ⟨_, .pop h, rfl, rfl⟩
  | scale h => exact ⟨_, .scale h, rfl, rfl⟩
  | flip => exact ⟨_, .flip, rfl, rfl⟩

/-- **Readings transfer.** A word adds the same segments on every machine with the same turtle and
    the same open branches, and leaves them with the same turtle and branches again. -/
theorem readWord_transfer (h : readWord annotate word m = .ok last) (hturtle : n.turtle = m.turtle)
    (hstack : n.stack = m.stack) :
    ∃ added last', last.segments = m.segments ++ added ∧
      added.length = Instruction.draw.count word ∧ readWord annotate word n = .ok last' ∧
      last'.turtle = last.turtle ∧ last'.stack = last.stack ∧
      last'.segments = n.segments ++ added := by
  induction word generalizing m n with
  | nil =>
      cases h
      exact ⟨[], n, (List.append_nil _).symm, rfl, rfl, hturtle, hstack, (List.append_nil _).symm⟩
  | cons c rest ih =>
      obtain ⟨next, hreads, hrest⟩ := readWord_cons_eq_ok_iff.1 h
      obtain ⟨next', hreads', hturtle', hstack'⟩ := hreads.onto hturtle hstack
      obtain ⟨later, last', hlater, hcount, hrest', hturtle'', hstack'', hlater'⟩ :=
        ih hrest hturtle' hstack'
      -- both machines add the same, for it is the turtle that draws
      refine ⟨m.added annotate c ++ later, last', ?_, ?_,
        readWord_cons_eq_ok_iff.2 ⟨next', hreads', hrest'⟩, hturtle'', hstack'', ?_⟩
      · rw [hlater, hreads.segments_eq, List.append_assoc]
      · rw [List.length_append, length_added, hcount, ← Instruction.count_cons]
      · rw [hlater', hreads'.segments_eq, added_congr hturtle, List.append_assoc]

/-- A word adds one segment for each symbol that draws, behind those that were drawn before. -/
theorem segments_of_readWord (h : readWord annotate word m = .ok last) :
    ∃ added, last.segments = m.segments ++ added ∧
      added.length = Instruction.draw.count word := by
  obtain ⟨added, _, hadded, hlength, _⟩ := readWord_transfer h rfl rfl
  exact ⟨added, hadded, hlength⟩

end Machine

variable {setup : Setup} {fault : Fault} {segments : List Segment}

theorem length_of_interpret (h : interpret setup annotate word = .ok segments) :
    segments.length = Instruction.draw.count word := by
  obtain ⟨_, _, last, hread, rfl⟩ := interpret_eq_ok_iff.1 h
  obtain ⟨added, hadded, hlength⟩ := Machine.segments_of_readWord hread
  rw [hadded, List.length_append, hlength]
  exact Nat.zero_add _

/-- What stops a detached first part that draws stops the whole word. -/
theorem interpret_append_of_error (hdetached : Detached u v)
    (hdraw : Instruction.draw.symbol ∈ u) (h : interpret setup annotate u = .error fault) :
    interpret setup annotate (u ++ v) = .error fault := by
  by_cases hstep : setup.step.isPositive = true
  · rw [interpret_eq_error_iff hstep hdraw] at h
    rw [interpret_eq_error_iff hstep (List.mem_append_left v hdraw),
      Machine.readWord_append hdetached, h]
    rfl
  · have hneg : setup.step.isPositive = false := by simpa using hstep
    rw [interpret_of_not_positive hneg] at h ⊢
    exact h

/-- If a word is drawn, so is a detached first part that draws, and its segments come first. -/
theorem interpret_of_append (hdetached : Detached u v) (hdraw : Instruction.draw.symbol ∈ u)
    (h : interpret setup annotate (u ++ v) = .ok segments) :
    ∃ first, interpret setup annotate u = .ok first ∧ first <+: segments := by
  obtain ⟨hstep, _, last, hread, rfl⟩ := interpret_eq_ok_iff.1 h
  obtain ⟨middle, hfirst, hlater⟩ := (Machine.readWord_append_eq_ok_iff hdetached).1 hread
  obtain ⟨added, hadded, _⟩ := Machine.segments_of_readWord hlater
  exact ⟨middle.segments, interpret_eq_ok_iff.2 ⟨hstep, hdraw, middle, hfirst, rfl⟩,
    added, hadded.symm⟩

end TurtleGrammar
