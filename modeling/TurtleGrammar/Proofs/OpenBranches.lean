import TurtleGrammar.Proofs.Particulars
import TurtleGrammar.Proofs.Underway

/-!
# `TurtleGrammar.Proofs.OpenBranches` — the branches that are open at a position

At every position of a word the turtle's depth, the saved frames and the brackets that were read
tell the same number of open branches. The frames belong to these branches one by one: each of them
is what the turtle was when the opening bracket of its branch was read.

## Contents
- `OpenAt`: the brackets of a word whose branches are open at its end.
- `Machine.SavedAt`: the frame of an open branch; preserved by every symbol.
- `open_branches`: depth, frames and brackets at every position, and the recorded depths.
-/

namespace TurtleGrammar

variable {word : Word} {position : Nat} {c : Char}

/-- Does the bracket at a position open a branch that is still open at the end of the word? Behind
    such a bracket the level does not fall back to what it was before it. -/
structure OpenAt (word : Word) (position : Nat) : Prop where
  bracket : word[position]? = some Instruction.push.symbol
  above : ∀ q, position < q → q ≤ word.length → level (word.take position) < level (word.take q)

theorem OpenAt.lt_length (h : OpenAt word position) : position < word.length :=
  (List.getElem?_eq_some_iff.1 h.bracket).1

theorem take_append_singleton_of_lt {q : Nat} (h : word.length < q) :
    (word ++ [c]).take q = word ++ [c] := by
  apply List.take_of_length_le
  rw [List.length_append]
  exact h

/-- A branch stays open unless the level falls back. -/
theorem OpenAt.append_singleton (h : OpenAt word position)
    (hlevel : level (word.take position) < level (word ++ [c])) :
    OpenAt (word ++ [c]) position := by
  have hlt := h.lt_length
  have htake : ∀ q, q ≤ word.length → (word ++ [c]).take q = word.take q := by
    intro q hq
    exact List.take_append_of_le_length hq
  -- no position of the longer word is new but its end
  refine ⟨?_, fun q hq hlength => ?_⟩
  · rw [List.getElem?_append_left hlt]
    exact h.bracket
  · rw [htake position hlt.le]
    rcases Nat.lt_or_ge word.length q with hend | hinside
    · rwa [take_append_singleton_of_lt hend]
    · rw [htake q hinside]
      exact h.above q hq hinside

/-- An opening bracket at the end of a word opens a branch there. -/
theorem openAt_append_push (word : Word) :
    OpenAt (word ++ [Instruction.push.symbol]) word.length := by
  refine ⟨by simp, fun q hq hlength => ?_⟩
  have hpush : level [Instruction.push.symbol] = 1 := rfl
  rw [take_append_singleton_of_lt hq, List.take_left, level_append, hpush]
  omega

/-- Numerals hold no brackets. -/
theorem level_eq_zero_of_numeral (h : ∀ c ∈ word, isNumeralSymbol c = true) : level word = 0 := by
  induction word with
  | nil => rfl
  | cons c word ih =>
      have hnone := Instruction.ofSymbol?_of_isNumeralSymbol (h c List.mem_cons_self)
      have hword := ih fun d hd => h d (List.mem_cons_of_mem c hd)
      have happend : level (c :: word) = level [c] + level word := level_append [c] word
      rw [happend, level_singleton_of_none hnone, hword]
      rfl

namespace Machine

variable {annotate : Bool} {setup : Setup} {rest : Word} {count inner : Nat} {f : Frame}
  {m next : Machine}

/-- Was the frame saved at the opening bracket of a branch that is open after so many symbols, with
    `inner` more branches open inside it? -/
def SavedAt (setup : Setup) (annotate : Bool) (word : Word) (count inner : Nat) (f : Frame) :
    Prop :=
  ∃ position before, OpenAt (word.take count) position ∧
    level (word.take position) + inner + 1 = level (word.take count) ∧
    runTo annotate position word (.start setup) = .ok before ∧ f = before.turtle.frame

/-- A symbol leaves a frame where it is as long as its branch stays open. -/
theorem SavedAt.succ {inner' : Nat} (h : SavedAt setup annotate word count inner f)
    (hc : word[count]? = some c) (hinner : (inner' : Int) = inner + level [c]) :
    SavedAt setup annotate word (count + 1) inner' f := by
  obtain ⟨position, before, hopen, hlevel, hbefore, hf⟩ := h
  have hlt := hopen.lt_length
  rw [List.length_take] at hlt
  -- before the bracket nothing changes, so that its branch stays open by the level at the new end
  have htake : (word.take count).take position = word.take position := by
    rw [List.take_take, Nat.min_eq_left (by omega)]
  have hlevel' : level (word.take count ++ [c]) = level (word.take position) + inner' + 1 := by
    rw [level_append]
    omega
  refine ⟨position, before, ?_, ?_, hbefore, hf⟩
  · rw [take_succ_of_getElem? hc]
    apply hopen.append_singleton
    rw [htake]
    omega
  · rw [take_succ_of_getElem? hc, hlevel']

/-- The frame that an opening bracket saves. -/
theorem savedAt_push (hc : word[count]? = some Instruction.push.symbol)
    (h : runTo annotate count word (.start setup) = .ok m) :
    SavedAt setup annotate word (count + 1) 0 m.turtle.frame := by
  have hlt : count < word.length := (List.getElem?_eq_some_iff.1 hc).1
  have hlength : (word.take count).length = count := List.length_take_of_le hlt.le
  have hopen := openAt_append_push (word.take count)
  rw [hlength, ← take_succ_of_getElem? hc] at hopen
  refine ⟨count, m, hopen, ?_, h, rfl⟩
  have hpush : level [Instruction.push.symbol] = 1 := rfl
  rw [take_succ_of_getElem? hc, level_append, hpush]
  omega

/-- **One symbol** leaves every frame with its branch. -/
theorem Reads.savedAt (hreads : Reads annotate rest m c next) (hc : word[count]? = some c)
    (hm : ∃ before, runTo annotate count word (.start setup) = .ok before ∧ before.settled = m)
    (hsaved : ∀ (i : Nat) (f : Frame), m.stack[i]? = some f → SavedAt setup annotate word count i f) :
    ∀ (i : Nat) (f : Frame), next.stack[i]? = some f →
      SavedAt setup annotate word (count + 1) i f := by
  intro i f hf
  rcases hreads.stack_cases with ⟨hstack, hlevel⟩ | ⟨hstack, rfl⟩ | ⟨⟨g, hstack⟩, rfl⟩
  · rw [hstack] at hf
    exact (hsaved i f hf).succ hc (by omega)
  · rw [hstack] at hf
    cases i with
    | zero =>
        obtain ⟨before, hbefore, rfl⟩ := hm
        have hframe : before.turtle.frame = f := Option.some.inj hf
        exact hframe ▸ savedAt_push hc hbefore
    | succ i =>
        have hpush : level [Instruction.push.symbol] = 1 := rfl
        exact (hsaved i f hf).succ hc (by omega)
  · -- below the frame that is taken off, the others have one branch less inside them
    have hold : m.stack[i + 1]? = some f := by
      rw [hstack]
      exact hf
    have hpop : level [Instruction.pop.symbol] = -1 := rfl
    exact (hsaved (i + 1) f hold).succ hc (by omega)

theorem savedAt_of_runTo (hcount : count ≤ word.length)
    (h : runTo annotate count word (.start setup) = .ok m) :
    ∀ (i : Nat) (f : Frame), m.stack[i]? = some f → SavedAt setup annotate word count i f := by
  refine runTo_invariant (fun count now => ∀ (i : Nat) (f : Frame), now.stack[i]? = some f →
    SavedAt setup annotate word count i f) ?_ ?_ hcount h
  · intro i f hf
    cases hf
  · intro count c m next hc hm hreads hsaved
    exact hreads.savedAt hc hm hsaved

/-- The cursor, the depth and the number of frames at every position. -/
theorem counts_of_runTo (hcount : count ≤ word.length)
    (h : runTo annotate count word (.start setup) = .ok m) :
    m.cursor = count ∧ m.turtle.depth = level (word.take count) ∧
      (m.stack.length : Int) = level (word.take count) := by
  refine runTo_invariant (fun count now => now.cursor = count ∧
    now.turtle.depth = level (word.take count) ∧
    (now.stack.length : Int) = level (word.take count)) ⟨rfl, rfl, rfl⟩ ?_ hcount h
  rintro count c m next hc - hreads ⟨hcursor, hdepth, hlength⟩
  rw [take_succ_of_getElem? hc, level_append, hreads.cursor_eq, hreads.depth_eq, hreads.length_eq,
    hcursor, hdepth, hlength]
  exact ⟨rfl, rfl, rfl⟩

end Machine

/-- **Open branches.** Wherever the turtle stands in a word, its depth is the number of saved frames
    and the number of opening brackets less that of closing ones up to there, whether the numeral
    that it is about to pass over is counted with it or not. Each frame is what the turtle was when
    the opening bracket of its branch was read, and each line that is drawn has the depth that the
    brackets before it tell. -/
theorem open_branches (setup : Setup) (word : Word) :
    (∀ (annotate : Bool) (count : Nat) (m : Machine), count ≤ word.length →
      Machine.runTo annotate count word (.start setup) = .ok m →
        m.cursor = count ∧ m.turtle.depth = m.stack.length ∧ 0 ≤ m.turtle.depth ∧
          m.turtle.depth = level (word.take m.cursor) ∧
          m.turtle.depth = level (word.take (m.cursor + m.unread)) ∧
          ∀ (i : Nat) (f : Frame), m.stack[i]? = some f →
            Machine.SavedAt setup annotate word count i f) ∧
    ∀ segments, interpret setup true word = .ok segments →
      segments.map Segment.depth = (drawPositions word).map fun p => some (level (word.take p)) := by
  refine ⟨fun annotate count m hcount h => ?_, fun segments h => depths_of_interpret h⟩
  obtain ⟨hcursor, hdepth, hlength⟩ := Machine.counts_of_runTo hcount h
  have hpassed := level_eq_zero_of_numeral (Machine.aligned_runTo hcount h)
  refine ⟨hcursor, ?_, ?_, ?_, ?_, Machine.savedAt_of_runTo hcount h⟩
  · rw [hdepth, hlength]
  · rw [hdepth, ← hlength]
    exact Int.natCast_nonneg _
  · rw [hcursor, hdepth]
  · rw [hcursor, List.take_add, level_append, hpassed, hdepth, Int.add_zero]

/-- Two branches are open at the first line, one at the second, and the inner one was opened behind
    a numeral. -/
theorem open_branches_nested :
    ∃ inside segments,
      Machine.runTo true 7 ['[', '@', '2', '.', '5', '[', '+', 'F', ']', 'F']
        (.start ⟨Angle.quarterTurn, .zero, .one⟩) = .ok inside ∧
      interpret ⟨Angle.quarterTurn, .zero, .one⟩ true
        ['[', '@', '2', '.', '5', '[', '+', 'F', ']', 'F'] = .ok segments ∧
      inside.turtle.depth = 2 ∧ (inside.stack.length : Int) = 2 ∧
      (∀ (i : Nat) (f : Frame), inside.stack[i]? = some f →
        Machine.SavedAt ⟨Angle.quarterTurn, .zero, .one⟩ true
          ['[', '@', '2', '.', '5', '[', '+', 'F', ']', 'F'] 7 i f) ∧
      segments.map Segment.depth = [some 2, some 1] := by
  obtain ⟨inside, hinside⟩ : ∃ inside,
      Machine.runTo true 7 ['[', '@', '2', '.', '5', '[', '+', 'F', ']', 'F']
        (.start ⟨Angle.quarterTurn, .zero, .one⟩) = .ok inside := exists_of_isOk (by decide +kernel)
  obtain ⟨segments, hsegments⟩ : ∃ segments, interpret ⟨Angle.quarterTurn, .zero, .one⟩ true
      ['[', '@', '2', '.', '5', '[', '+', 'F', ']', 'F'] = .ok segments :=
    exists_of_isOk (by decide +kernel)
  obtain ⟨hruns, hdepths⟩ := open_branches ⟨Angle.quarterTurn, .zero, .one⟩
    ['[', '@', '2', '.', '5', '[', '+', 'F', ']', 'F']
  obtain ⟨hcursor, hlength, _, hlevel, _, hsaved⟩ := hruns true 7 inside (by decide) hinside
  have hdepth : inside.turtle.depth = 2 := by
    rw [hlevel, hcursor]
    rfl
  exact ⟨inside, segments, hinside, hsegments, hdepth, hlength ▸ hdepth, hsaved,
    (hdepths segments hsegments).trans (by decide)⟩

end TurtleGrammar
