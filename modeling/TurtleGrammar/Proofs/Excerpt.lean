import TurtleGrammar.Proofs.Drawn

/-!
# `TurtleGrammar.Proofs.Excerpt` — an excerpt draws what the word draws before the cut

The cut is found by looking back for a scale symbol and testing the symbols after it, while the
machine reads forward and takes each numeral as far as it goes. The two agree: no cut parts a scale
symbol from its numeral, so that the excerpt is detached from the rest of the word.

## Contents
- `lastScale?_cases`: the last scale symbol of a word.
- `detached_excerpt`: the excerpt and the rest of the word.
- `interpret_excerpt`: the outcome of the excerpt beside that of the word.
-/

namespace TurtleGrammar

variable {u v word : Word}

/-! ## The last scale symbol -/

theorem findIdx?_reverse_of_not_mem (h : Instruction.scale.symbol ∉ word) :
    word.reverse.findIdx? (· == Instruction.scale.symbol) = none := by
  rw [List.findIdx?_eq_none_iff]
  intro c hc
  exact beq_false_of_ne fun heq => h (heq ▸ List.mem_reverse.1 hc)

theorem lastScale?_of_not_mem (h : Instruction.scale.symbol ∉ word) : lastScale? word = none := by
  unfold lastScale?
  rw [findIdx?_reverse_of_not_mem h]

theorem lastScale?_append (h : Instruction.scale.symbol ∉ v) :
    lastScale? (u ++ Instruction.scale.symbol :: v) = some u.length := by
  have hfound : (u ++ Instruction.scale.symbol :: v).reverse.findIdx?
      (· == Instruction.scale.symbol) = some v.length := by
    rw [List.reverse_append, List.reverse_cons, List.append_assoc, List.findIdx?_append,
      findIdx?_reverse_of_not_mem h]
    simp [List.findIdx?_cons]
  unfold lastScale?
  rw [hfound]
  simp

/-- A word has no scale symbol, or there is a last one. -/
theorem lastScale?_cases (word : Word) :
    (Instruction.scale.symbol ∉ word ∧ lastScale? word = none) ∨
    ∃ x y, word = x ++ Instruction.scale.symbol :: y ∧ Instruction.scale.symbol ∉ y ∧
      lastScale? word = some x.length := by
  by_cases h : Instruction.scale.symbol ∈ word
  · -- the last scale symbol is the first one from behind
    obtain ⟨back, front, hreverse, hback⟩ := List.eq_append_cons_of_mem (List.mem_reverse.2 h)
    have hword : word = front.reverse ++ Instruction.scale.symbol :: back.reverse := by
      rw [← List.reverse_reverse word, hreverse]
      simp
    have hnot : Instruction.scale.symbol ∉ back.reverse := mt List.mem_reverse.1 hback
    exact Or.inr ⟨front.reverse, back.reverse, hword, hnot, hword ▸ lastScale?_append hnot⟩
  · exact Or.inl ⟨h, lastScale?_of_not_mem h⟩

/-! ## The cut -/

/-- Before a bound there is no scale symbol, or a symbol that ends its numeral stands between the
    last one and the bound, or only symbols of numerals do and the numeral may go on at the bound. -/
theorem openScaleEnd?_cases (word : Word) (bound : Nat) :
    (Instruction.scale.symbol ∉ word.take bound ∧ openScaleEnd? word bound = none) ∨
    ∃ x y, word.take bound = x ++ Instruction.scale.symbol :: y ∧ Instruction.scale.symbol ∉ y ∧
      ((∃ c ∈ y, isNumeralSymbol c = false) ∧ openScaleEnd? word bound = none ∨
       (∀ c ∈ y, isNumeralSymbol c = true) ∧ openScaleEnd? word bound =
         some (x.length + 1 + (numeral (y ++ word.drop bound)).length)) := by
  unfold openScaleEnd?
  rcases lastScale?_cases (word.take bound) with ⟨hnone, hlast⟩ | ⟨x, y, htake, hy, hlast⟩
  · exact Or.inl ⟨hnone, by rw [hlast]⟩
  · have hword : (x ++ [Instruction.scale.symbol]) ++ (y ++ word.drop bound) = word := by
      rw [List.append_assoc, List.singleton_append, ← List.cons_append, ← List.append_assoc,
        ← htake, List.take_append_drop]
    have hbetween : (word.take bound).drop (x.length + 1) = y := by simp [htake]
    have hafter : word.drop (x.length + 1) = y ++ word.drop bound :=
      (cut_of_append hword List.length_append).2
    refine Or.inr ⟨x, y, htake, hy, ?_⟩
    rw [hlast]
    simp only [hbetween, hafter]
    split
    · next hall => exact Or.inr ⟨List.all_eq_true.1 hall, rfl⟩
    · next hall => exact Or.inl ⟨by simpa using hall, rfl⟩

theorem excerpt_append_drop (word : Word) (limit : Nat) :
    excerpt word limit ++ word.drop (cutPosition word limit) = word := List.take_append_drop _ _

theorem excerpt_of_length_le {limit : Nat} (h : word.length ≤ limit) :
    excerpt word limit = word := by
  unfold excerpt cutPosition
  rw [if_pos h, List.take_length]

/-- After its last scale symbol a word is detached if it is so within the numeral of that symbol. -/
theorem detached_append_scale {x y : Word} (hy : Instruction.scale.symbol ∉ y)
    (h : numeral (y ++ v) = numeral y) : Detached (x ++ Instruction.scale.symbol :: y) v :=
  detached_append_of_mem List.mem_cons_self (Instruction.isNumeralSymbol_symbol _)
    ⟨fun _ => h, detached_of_not_mem hy⟩

/-- **No numeral is cut.** The excerpt of a word is detached from the rest of it. -/
theorem detached_excerpt (word : Word) (limit : Nat) :
    Detached (excerpt word limit) (word.drop (cutPosition word limit)) := by
  unfold excerpt cutPosition
  split
  · -- the word is not cut
    rw [List.drop_length]
    exact detached_nil _
  · rcases openScaleEnd?_cases word limit with
      ⟨hnone, hend⟩ | ⟨x, y, htake, hy, ⟨⟨c, hc, hother⟩, hend⟩ | ⟨_, hend⟩⟩
    · rw [hend]
      exact detached_of_not_mem hnone
    · -- the cut is at the limit, and a symbol before it ends the numeral
      rw [hend, Option.getD_none, htake]
      exact detached_append_scale hy (numeral_append_of_mem hc hother)
    · -- the cut is at the end of the numeral, which is read as before when it stands alone
      obtain ⟨rest, hrest⟩ := numeral_isPrefix (y ++ word.drop limit)
      have hrun : Instruction.scale.symbol ∉ numeral (y ++ word.drop limit) := by
        intro hmem
        have hscale := isNumeralSymbol_of_mem_numeral hmem
        rw [Instruction.isNumeralSymbol_symbol] at hscale
        exact absurd hscale (by decide)
      have hword : (x ++ Instruction.scale.symbol :: numeral (y ++ word.drop limit)) ++ rest =
          word := by
        rw [List.append_assoc, List.cons_append, hrest, ← List.cons_append, ← List.append_assoc,
          ← htake, List.take_append_drop]
      have hlength : (x ++ Instruction.scale.symbol :: numeral (y ++ word.drop limit)).length =
          x.length + 1 + (numeral (y ++ word.drop limit)).length := by
        rw [List.length_append, List.length_cons]
        omega
      obtain ⟨htaken, hdropped⟩ := cut_of_append hword hlength
      rw [hend, Option.getD_some, htaken, hdropped]
      refine detached_append_scale hrun ?_
      rw [hrest, numeral_numeral]

/-! ## What the excerpt draws -/

/-- What stops an excerpt stops the whole word, unless the excerpt is cut before the first symbol
    that draws. -/
theorem interpret_of_excerpt_error {setup : Setup} {annotate : Bool} {limit : Nat} {fault : Fault}
    (hdraw : word.length ≤ limit ∨ Instruction.draw.symbol ∈ excerpt word limit)
    (h : interpret setup annotate (excerpt word limit) = .error fault) :
    interpret setup annotate word = .error fault := by
  rcases hdraw with hlimit | hdraw
  · rwa [excerpt_of_length_le hlimit] at h
  · have hwhole := interpret_append_of_error (detached_excerpt word limit) hdraw h
    rwa [excerpt_append_drop] at hwhole

/-- **An excerpt draws what the word draws before the cut.** What stops an excerpt that draws stops
    the whole word. The segments of the excerpt are those that the machine has drawn on its way
    through the whole word when it reaches the cut, one for each symbol that draws. If the whole
    word is drawn, so is the excerpt, and its segments come first. -/
theorem interpret_excerpt (setup : Setup) (annotate : Bool) (word : Word) (limit : Nat)
    (hdraw : Instruction.draw.symbol ∈ excerpt word limit) :
    (∀ fault, interpret setup annotate (excerpt word limit) = .error fault →
      interpret setup annotate word = .error fault) ∧
    (∀ segments, interpret setup annotate (excerpt word limit) = .ok segments →
      segments.length = Instruction.draw.count (excerpt word limit) ∧
      ∃ m, Machine.runTo annotate (excerpt word limit).length word (.start setup) = .ok m ∧
        m.segments = segments) ∧
    (∀ segments, interpret setup annotate word = .ok segments →
      ∃ first, interpret setup annotate (excerpt word limit) = .ok first ∧ first <+: segments) := by
  have hdetached := detached_excerpt word limit
  have hword := excerpt_append_drop word limit
  refine ⟨fun fault h => ?_, fun segments h => ⟨length_of_interpret h, ?_⟩, fun segments h => ?_⟩
  · exact interpret_of_excerpt_error (Or.inr hdraw) h
  · obtain ⟨m, hrun, hsegments⟩ := run_of_interpret h
    have hway := (Machine.runTo_append hdetached (.start setup)).trans hrun
    rw [hword] at hway
    exact ⟨m, hway, hsegments⟩
  · rw [← hword] at h
    exact interpret_of_append hdetached hdraw h

/-- The limit lies behind the second point, and the cut before it. -/
theorem interpret_excerpt_before_point :
    Instruction.draw.symbol ∈ excerpt ['F', '@', '1', '.', '5', '.', 'F', ']'] 6 ∧
    excerpt ['F', '@', '1', '.', '5', '.', 'F', ']'] 6 = ['F', '@', '1', '.', '5'] ∧
    ∀ segments,
      interpret ⟨.zero, .zero, .one⟩ true (excerpt ['F', '@', '1', '.', '5', '.', 'F', ']'] 6) =
        .ok segments →
      segments.length = 1 ∧
      ∃ m, Machine.runTo true 5 ['F', '@', '1', '.', '5', '.', 'F', ']']
          (.start ⟨.zero, .zero, .one⟩) = .ok m ∧ m.segments = segments :=
  ⟨by decide, by decide, (interpret_excerpt ⟨.zero, .zero, .one⟩ true
    ['F', '@', '1', '.', '5', '.', 'F', ']'] 6 (by decide)).2.1⟩

end TurtleGrammar
