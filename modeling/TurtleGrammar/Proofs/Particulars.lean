import Mathlib.Order.Bounds.Basic
import TurtleGrammar.Proofs.Depth
import TurtleGrammar.Proofs.Drawn

/-!
# `TurtleGrammar.Proofs.Particulars` — length, heading and depth of segments

Segments may carry particulars, which nothing reads while a word is drawn: without them the same
segments are drawn, and the same words are refused for the same reasons. The recorded depths are
those of the brackets around the symbols that draw.

## Contents
- `interpret_erase`: what a word draws without particulars.
- `drawPositions`: the positions of the symbols that draw.
- `depths_of_interpret`: the depths that are recorded, position by position.
-/

namespace TurtleGrammar

variable {annotate : Bool} {c : Char} {rest word : Word}

theorem erase_lineTo (annotate : Bool) (stop : Point) (t : Turtle) :
    (t.lineTo annotate stop).erase = t.lineTo false stop := by
  cases annotate <;> rfl

/-! ## Without particulars -/

namespace Machine

variable {m next last : Machine} {fault : Fault}

/-- The machine as if the segments had been drawn without particulars. -/
def erased (m : Machine) : Machine := { m with drawn := m.drawn.map Segment.erase }

theorem Reads.erased (h : Reads annotate rest m c next) :
    Reads false rest m.erased c next.erased := by
  cases h with
  | ignore h => exact .ignore h
  | draw h =>
      have hline := erase_lineTo annotate m.turtle.ahead m.turtle
      unfold Machine.erased
      rw [List.map_cons, hline]
      exact .draw h
  | turnPositive => exact .turnPositive
  | turnNegative => exact .turnNegative
  | push => exact .push
  | pop h => exact .pop h
  | scale h => exact .scale h
  | flip => exact .flip

theorem Refuses.erased (h : Refuses rest m c fault) : Refuses rest m.erased c fault := by
  cases h with
  | draw h => exact .draw h
  | pop h => exact .pop h
  | scale h => exact .scale h

theorem readWord_erased (annotate : Bool) (word : Word) (m : Machine) :
    readWord false word m.erased = (readWord annotate word m).map erased := by
  have hread : readWord false (word.map id) m.erased =
      ((readWord annotate word m).map erased).mapError id := by
    apply readWord_map
    · intro rest c m next h
      rw [List.map_id]
      exact h.erased
    · intro rest c m fault h
      rw [List.map_id]
      exact h.erased
  rw [List.map_id] at hread
  rw [hread]
  cases readWord annotate word m <;> rfl

end Machine

variable {setup : Setup} {fault : Fault} {segments : List Segment}

/-- **Particulars do not matter.** A word draws the same segments with and without them, or is
    refused for the same reason. -/
theorem interpret_erase (setup : Setup) (annotate : Bool) (word : Word) :
    (interpret setup annotate word).map (List.map Segment.erase) = interpret setup false word := by
  have hread := Machine.readWord_erased annotate word (.start setup)
  have herased : interpret setup false word =
      ((interpret setup annotate word).map (List.map Segment.erase)).mapError id := by
    refine interpret_map Segment.erase id rfl Iff.rfl (fun _ => rfl) rfl ?_
    show (Machine.readWord false word (Machine.start setup).erased).map _ = _
    rw [hread]
    cases Machine.readWord annotate word (.start setup) with
    | error fault => rfl
    | ok last => exact congrArg Except.ok (List.map_reverse ..).symm
  rw [herased]
  cases interpret setup annotate word <;> rfl

theorem interpret_erase_eq_error_iff :
    interpret setup annotate word = .error fault ↔ interpret setup false word = .error fault := by
  rw [← interpret_erase setup annotate word]
  exact map_eq_error_iff.symm

/-- A word that is drawn is drawn with and without particulars, with as many segments. -/
theorem exists_interpret_of_ok (h : interpret setup annotate word = .ok segments) (other : Bool) :
    ∃ others, interpret setup other word = .ok others ∧ others.length = segments.length := by
  cases hother : interpret setup other word with
  | error fault =>
      rw [interpret_erase_eq_error_iff, ← interpret_erase setup annotate word, h] at hother
      cases hother
  | ok others =>
      exact ⟨others, rfl, (length_of_interpret hother).trans (length_of_interpret h).symm⟩

/-! ## Recorded depths -/

/-- The positions of the symbols that draw. -/
def drawPositions (word : Word) : List Nat :=
  (List.range word.length).filter fun p => word[p]? = some Instruction.draw.symbol

theorem mem_drawPositions {p : Nat} :
    p ∈ drawPositions word ↔ word[p]? = some Instruction.draw.symbol := by
  unfold drawPositions
  rw [List.mem_filter, List.mem_range, decide_eq_true_iff]
  exact and_iff_right_of_imp fun h => (List.getElem?_eq_some_iff.1 h).1

theorem drawPositions_append_singleton (word : Word) (c : Char) :
    drawPositions (word ++ [c]) =
      drawPositions word ++ if c = Instruction.draw.symbol then [word.length] else [] := by
  unfold drawPositions
  rw [List.length_append, List.length_singleton, List.range_succ, List.filter_append]
  congr 1
  · refine List.filter_congr fun p hp => ?_
    rw [List.getElem?_append_left (List.mem_range.1 hp)]
  · by_cases hc : c = Instruction.draw.symbol <;> simp [hc]

namespace Machine

variable {m next last : Machine}

theorem Reads.depths_eq (h : Reads true rest m c next) :
    next.segments.map Segment.depth = m.segments.map Segment.depth ++
      if c = Instruction.draw.symbol then [some m.turtle.depth] else [] := by
  rw [h.segments_eq, List.map_append]
  unfold added
  by_cases hc : c = Instruction.draw.symbol
  · rw [if_pos hc, if_pos hc]
    rfl
  · rw [if_neg hc, if_neg hc]
    rfl

/-- Segments are annotated with the number of branches that are open where they are drawn. -/
theorem depths_of_readWord (hm : m.segments = []) (h : readWord true word m = .ok last) :
    last.segments.map Segment.depth =
      (drawPositions word).map fun p => some (m.turtle.depth + level (word.take p)) := by
  -- a new segment bears the depth of the turtle, which is therefore part of the invariant
  suffices hlast : last.turtle.depth = m.turtle.depth + level word ∧
      last.segments.map Segment.depth =
        (drawPositions word).map fun p => some (m.turtle.depth + level (word.take p)) from hlast.2
  refine readWord_invariant (fun done now => now.turtle.depth = m.turtle.depth + level done ∧
    now.segments.map Segment.depth =
      (drawPositions done).map fun p => some (m.turtle.depth + level (done.take p))) ?_ ?_ h
  · rintro done rest c now next hreads ⟨hdepth, hdepths⟩
    constructor
    · rw [hreads.depth_eq, hdepth, level_append, Int.add_assoc]
    · rw [hreads.depths_eq, hdepths, drawPositions_append_singleton, List.map_append]
      congr 1
      · -- the symbols before an earlier position are those before it in the longer word
        refine List.map_congr_left fun p hp => ?_
        have hlt : p < done.length :=
          (List.getElem?_eq_some_iff.1 (mem_drawPositions.1 hp)).1
        rw [List.take_append_of_le_length hlt.le]
      · by_cases hc : c = Instruction.draw.symbol
        · rw [if_pos hc, if_pos hc, List.map_singleton, List.take_left', hdepth]
          rfl
        · rw [if_neg hc, if_neg hc, List.map_nil]
  · constructor
    · exact (Int.add_zero _).symm
    · rw [hm]
      rfl

end Machine

/-- **Recorded depths.** Each segment bears the number of branches that are open at its symbol. -/
theorem depths_of_interpret (h : interpret setup true word = .ok segments) :
    segments.map Segment.depth = (drawPositions word).map fun p => some (level (word.take p)) := by
  obtain ⟨_, _, last, hread, rfl⟩ := interpret_eq_ok_iff.1 h
  have hdepths := Machine.depths_of_readWord (m := .start setup) rfl hread
  rw [hdepths]
  exact List.map_congr_left fun p _ => congrArg some (Int.zero_add _)

end TurtleGrammar
