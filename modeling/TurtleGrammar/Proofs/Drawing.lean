import TurtleGrammar.Drawing
import TurtleGrammar.Proofs.Distinct
import TurtleGrammar.Proofs.Drawn

/-!
# `TurtleGrammar.Proofs.Drawing` — what a drawing gives

A drawing makes one word of its grammar and lets the turtle follow it. Notes are left on the way and
change nothing. Without a turn increment nothing is drawn; with one, the drawing is refused as its
word is, and otherwise gives all the segments of the word or the distinct ones among them.

## Contents
- `Drawing.word`, `Drawing.setup`, `Drawing.kept`: what is drawn, from where, and what is kept of it.
- `Drawing.outcome_allSegments`, `Drawing.outcome_segments`: the outcome of a drawing.
- `Drawing.outcome_segments_eq_ok_iff`: what a drawing gives.
-/

namespace TurtleGrammar

theorem outcome_interpretTraced (setup : Setup) (annotate : Bool) (word : Word) :
    (interpretTraced setup annotate word).outcome = interpret setup annotate word := by
  unfold interpretTraced
  rw [Traced.outcome_bind, Traced.outcome_lift]
  cases interpret setup annotate word <;> rfl

/-- A word that is drawn has a segment, for it has a symbol that draws. -/
theorem segments_ne_nil {setup : Setup} {annotate : Bool} {word : Word} {segments : List Segment}
    (h : interpret setup annotate word = .ok segments) : segments ≠ [] := by
  obtain ⟨_, hdraw, _⟩ := interpret_eq_ok_iff.1 h
  rintro rfl
  have hlength := length_of_interpret h
  exact absurd (List.count_eq_zero.1 hlength.symm) (not_not.2 hdraw)

namespace Drawing

/-- The word that a drawing lets the turtle follow. -/
def word (d : Drawing) : Word := resolveAliases d.aliases d.grammar.expansion

/-- The turtle at the start of a drawing with the given turn increment. -/
def setup (d : Drawing) (angle : Binary64) : Setup := ⟨angle, d.heading, d.step⟩

/-- What a drawing keeps of its segments. -/
def kept (d : Drawing) (all : List Segment) : List Segment :=
  if d.distinct then TurtleGrammar.distinct all else all

variable {d : Drawing} {angle : Binary64} {segments all : List Segment}

theorem outcome_instructions (d : Drawing) : d.instructions.outcome = .ok d.word := rfl

theorem outcome_allSegments (h : d.angle = some angle) :
    d.allSegments.outcome = interpret (d.setup angle) d.annotate d.word := by
  unfold allSegments
  rw [Traced.outcome_bind, outcome_instructions, h]
  exact outcome_interpretTraced (d.setup angle) d.annotate d.word

theorem outcome_allSegments_of_none (h : d.angle = none) :
    d.allSegments.outcome = .error (.argument .angleAbsent) := by
  unfold allSegments
  rw [Traced.outcome_bind, outcome_instructions, h]
  rfl

theorem outcome_segments_eq_map (d : Drawing) :
    d.segments.outcome = d.allSegments.outcome.map d.kept := by
  unfold segments
  rw [Traced.outcome_bind]
  cases d.allSegments.outcome with
  | error fault => rfl
  | ok all =>
      show Traced.outcome (if d.distinct then _ else _) = .ok (d.kept all)
      unfold kept
      cases d.distinct <;> rfl

theorem outcome_segments (h : d.angle = some angle) :
    d.segments.outcome = (interpret (d.setup angle) d.annotate d.word).map d.kept := by
  rw [outcome_segments_eq_map, outcome_allSegments h]

/-- A drawing that gives segments has a turn increment and keeps what its word draws. -/
theorem outcome_segments_eq_ok_iff :
    d.segments.outcome = .ok segments ↔ ∃ angle all, d.angle = some angle ∧
      interpret (d.setup angle) d.annotate d.word = .ok all ∧ d.kept all = segments := by
  constructor
  · intro h
    rw [outcome_segments_eq_map, map_eq_ok_iff] at h
    obtain ⟨all, hall, hkept⟩ := h
    cases hangle : d.angle with
    | none =>
        rw [outcome_allSegments_of_none hangle] at hall
        cases hall
    | some angle => exact ⟨angle, all, rfl, outcome_allSegments hangle ▸ hall, hkept⟩
  · rintro ⟨angle, all, hangle, hall, rfl⟩
    rw [outcome_segments hangle, hall]
    rfl

theorem length_kept_le (d : Drawing) (all : List Segment) : (d.kept all).length ≤ all.length := by
  unfold kept
  split
  · exact (distinct_sublist all).length_le
  · exact Nat.le_refl _

theorem kept_ne_nil (d : Drawing) (h : all ≠ []) : d.kept all ≠ [] := by
  unfold kept
  split
  · exact distinct_ne_nil h
  · exact h

end Drawing

end TurtleGrammar
