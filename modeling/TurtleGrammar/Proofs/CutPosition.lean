import TurtleGrammar.Proofs.Excerpt
import TurtleGrammar.Proofs.NumeralGrammar

/-!
# `TurtleGrammar.Proofs.CutPosition` — words are cut between tokens, near the limit

A word is cut at the limit, or at the end of the numeral of the last scale symbol before it. That
end may lie on either side of the limit: before it if a second point ends the numeral, behind it if
the numeral goes on. In between stand only digits and points, so that no instruction comes to lie on
the other side of the cut. The numerals of all scale symbols before the cut end before it too; only
the last one could reach the limit, since no numeral goes past a scale symbol.

## Contents
- `cutPosition_cases`: where a word is cut; `cutPosition_le`: never past its end.
- `isNumeralSymbol_of_between`: what stands between the cut and the limit.
- `Detached.numeral_drop`: numerals that are not cut.
- `Instruction.count_take`: instructions before two positions.
- `cutPosition_between_tokens`: all laws of the cut.
-/

namespace TurtleGrammar

variable {u v word : Word} {limit position : Nat} {c : Char}

/-! ## Where the cut is -/

/-- A word is not cut, or it is cut at the limit, or at the end of a numeral that begins before the
    limit and on whose symbols and others like them the limit lies. -/
theorem cutPosition_cases (word : Word) (limit : Nat) :
    (word.length ≤ limit ∧ cutPosition word limit = word.length) ∨
    (limit < word.length ∧ cutPosition word limit = limit) ∨
    (limit < word.length ∧ ∃ front run, word.take limit = front ++ run ∧
      (∀ c ∈ run, isNumeralSymbol c = true) ∧
      cutPosition word limit = front.length + (numeral (run ++ word.drop limit)).length) := by
  unfold cutPosition
  by_cases hlimit : word.length ≤ limit
  · rw [if_pos hlimit]
    exact Or.inl ⟨hlimit, rfl⟩
  · rw [if_neg hlimit]
    have hlt := Nat.lt_of_not_le hlimit
    rcases openScaleEnd?_cases word limit with
      ⟨_, hend⟩ | ⟨x, y, htake, _, ⟨_, hend⟩ | ⟨hsymbols, hend⟩⟩
    · rw [hend]
      exact Or.inr (Or.inl ⟨hlt, rfl⟩)
    · rw [hend]
      exact Or.inr (Or.inl ⟨hlt, rfl⟩)
    · have hfront : word.take limit = (x ++ [Instruction.scale.symbol]) ++ y := by
        rw [htake, List.append_assoc, List.singleton_append]
      rw [hend]
      refine Or.inr (Or.inr ⟨hlt, _, y, hfront, hsymbols, ?_⟩)
      rw [List.length_append, List.length_singleton]
      rfl

theorem cutPosition_of_length_le (h : word.length ≤ limit) :
    cutPosition word limit = word.length := if_pos h

/-- No cut is past the end. -/
theorem cutPosition_le (word : Word) (limit : Nat) : cutPosition word limit ≤ word.length := by
  rcases cutPosition_cases word limit with ⟨_, hcut⟩ | ⟨hlt, hcut⟩ | ⟨_, front, run, htake, _, hcut⟩
  · exact Nat.le_of_eq hcut
  · omega
  · have hword : word = front ++ (run ++ word.drop limit) := by
      rw [← List.append_assoc, ← htake, List.take_append_drop]
    have hlength := congrArg List.length hword
    have hnumeral := (numeral_isPrefix (run ++ word.drop limit)).length_le
    rw [List.length_append] at hlength
    omega

/-- A symbol of a longer word at a position within its first part is one of that part. -/
theorem mem_of_isPrefix (h : u <+: v) (hlt : position < u.length) (hc : v[position]? = some c) :
    c ∈ u := by
  obtain ⟨rest, rfl⟩ := h
  rw [List.getElem?_append_left hlt] at hc
  exact List.mem_of_getElem? hc

/-- Between the cut and the limit, whichever comes first, stand digits and points. -/
theorem isNumeralSymbol_of_between (hlow : min (cutPosition word limit) limit ≤ position)
    (hhigh : position < max (cutPosition word limit) limit) (hc : word[position]? = some c) :
    isNumeralSymbol c = true := by
  have hposition : position < word.length := (List.getElem?_eq_some_iff.1 hc).1
  rcases cutPosition_cases word limit with
    ⟨hle, hcut⟩ | ⟨_, hcut⟩ | ⟨hlt, front, run, htake, hrun, hcut⟩
  · omega
  · omega
  · have hword : word = front ++ (run ++ word.drop limit) := by
      rw [← List.append_assoc, ← htake, List.take_append_drop]
    have hlimit : limit = front.length + run.length := by
      have hlength := congrArg List.length htake
      rw [List.length_take, List.length_append] at hlength
      omega
    have hafter : (run ++ word.drop limit)[position - front.length]? = some c := by
      rw [hword, List.getElem?_append_right (by omega)] at hc
      exact hc
    -- the run and the numeral both begin where the symbol after the scale symbol stands
    by_cases hwithin : position - front.length < run.length
    · exact hrun c (mem_of_isPrefix (List.prefix_append _ _) hwithin hafter)
    · have hnumeral : position - front.length < (numeral (run ++ word.drop limit)).length := by
        omega
      exact isNumeralSymbol_of_mem_numeral (mem_of_isPrefix (numeral_isPrefix _) hnumeral hafter)

/-! ## Numerals before the cut -/

/-- The numeral of a scale symbol is the same in a word and in its first part if they are
    detached. -/
theorem Detached.numeral_drop (h : Detached u v)
    (hscale : u[position]? = some Instruction.scale.symbol) :
    numeral ((u ++ v).drop (position + 1)) = numeral (u.drop (position + 1)) := by
  induction u generalizing position with
  | nil => cases hscale
  | cons d u ih =>
      cases position with
      | zero => exact h.1 (Option.some.inj hscale)
      | succ position => exact ih h.2 hscale

/-- A scale symbol before the cut takes the same numeral with and without what is cut off. -/
theorem numeral_excerpt (hlt : position < cutPosition word limit)
    (hscale : word[position]? = some Instruction.scale.symbol) :
    numeral ((excerpt word limit).drop (position + 1)) = numeral (word.drop (position + 1)) := by
  have hscale' : (excerpt word limit)[position]? = some Instruction.scale.symbol := by
    unfold excerpt
    rw [List.getElem?_take_of_lt hlt, hscale]
  have hnumeral := (detached_excerpt word limit).numeral_drop hscale'
  rw [excerpt_append_drop] at hnumeral
  exact hnumeral.symm

theorem scanNumeralAt_congr (h : numeral (u.drop position) = numeral (v.drop position)) :
    scanNumeralAt u position = scanNumeralAt v position := by
  rw [scanNumeralAt_ofNat, scanNumeralAt_ofNat]
  unfold scanNumeral
  rw [h]

/-- No numeral of a scale symbol before the cut goes past it. -/
theorem length_le_cutPosition {text : List Char} {q : ℚ} (hlt : position < cutPosition word limit)
    (hscale : word[position]? = some Instruction.scale.symbol) (htext : Numeral text q)
    (hpart : text <+: word.drop (position + 1)) :
    position + 1 + text.length ≤ cutPosition word limit := by
  have hwithin : text <+: (excerpt word limit).drop (position + 1) := by
    have hnumeral := isPrefix_numeral htext.isNumeral hpart
    rw [← numeral_excerpt hlt hscale] at hnumeral
    exact hnumeral.trans (numeral_isPrefix _)
  have hlength := hwithin.length_le
  have hcut : (excerpt word limit).length = cutPosition word limit :=
    List.length_take_of_le (cutPosition_le word limit)
  rw [List.length_drop, hcut] at hlength
  omega

/-! ## Instructions before the cut -/

/-- Digits and points between two positions are no instructions, so that there are as many before
    the one as before the other. -/
theorem Instruction.count_take (i : Instruction) {first last : Nat} (hle : first ≤ last)
    (h : ∀ position c, first ≤ position → position < last → word[position]? = some c →
      isNumeralSymbol c = true) :
    i.count (word.take last) = i.count (word.take first) := by
  have hsplit : word.take first ++ (word.take last).drop first = word.take last := by
    have hfirst : (word.take last).take first = word.take first := by
      rw [List.take_take, Nat.min_eq_left hle]
    rw [← hfirst, List.take_append_drop]
  have hbetween : i.count ((word.take last).drop first) = 0 := by
    refine List.count_eq_zero.2 fun hmem => ?_
    obtain ⟨k, hk⟩ := List.mem_iff_getElem?.1 hmem
    rw [List.getElem?_drop] at hk
    have hlast : first + k < last := by
      have hlength := (List.getElem?_eq_some_iff.1 hk).1
      rw [List.length_take] at hlength
      omega
    rw [List.getElem?_take_of_lt hlast] at hk
    have hsymbol := h _ _ (Nat.le_add_right first k) hlast hk
    rw [isNumeralSymbol_symbol] at hsymbol
    cases hsymbol
  rw [← hsplit, count_append, hbetween, Nat.add_zero]

/-- The excerpt has the instructions that stand before the limit. -/
theorem count_excerpt (word : Word) (limit : Nat) (i : Instruction) :
    i.count (excerpt word limit) = i.count (word.take limit) := by
  unfold excerpt
  rcases Nat.le_total (cutPosition word limit) limit with hle | hge
  · refine (i.count_take hle fun position c hlow hhigh hc => ?_).symm
    exact @isNumeralSymbol_of_between word limit position c (by omega) (by omega) hc
  · refine i.count_take hge fun position c hlow hhigh hc => ?_
    exact @isNumeralSymbol_of_between word limit position c (by omega) (by omega) hc

/-- **Words are cut between tokens, near the limit.** The cut is in the word, and at its end if the
    limit is not before it. A scale symbol before the cut has all of its numerals before the cut,
    and the scanner finds there what it finds in the whole word. Between the cut and the limit,
    whichever comes first, stand only digits and points, and each instruction is given as often
    before the cut as before the limit. -/
theorem cutPosition_between_tokens (word : Word) (limit : Nat) :
    cutPosition word limit ≤ word.length ∧
    (word.length ≤ limit → cutPosition word limit = word.length) ∧
    (∀ position : Nat, position < cutPosition word limit →
      word[position]? = some Instruction.scale.symbol →
      (∀ text q, Numeral text q → text <+: word.drop (position + 1) →
        position + 1 + text.length ≤ cutPosition word limit) ∧
      scanNumeralAt (word.take (cutPosition word limit)) (position + 1 : Nat) =
        scanNumeralAt word (position + 1 : Nat)) ∧
    (∀ position c, min (cutPosition word limit) limit ≤ position →
      position < max (cutPosition word limit) limit → word[position]? = some c →
      isNumeralSymbol c = true) ∧
    ∀ i : Instruction,
      i.count (word.take (cutPosition word limit)) = i.count (word.take limit) := by
  refine ⟨cutPosition_le word limit, cutPosition_of_length_le, ?_, ?_, count_excerpt word limit⟩
  · intro position hlt hscale
    refine ⟨fun text q htext hpart => ?_, ?_⟩
    · exact length_le_cutPosition hlt hscale htext hpart
    · exact scanNumeralAt_congr (numeral_excerpt hlt hscale)
  · intro position c hlow hhigh hc
    exact isNumeralSymbol_of_between hlow hhigh hc

/-- The numeral begins before the limit and goes on behind it; the cut is at its end. -/
theorem cutPosition_between_tokens_behind :
    cutPosition ['F', '@', '1', '2', '.', '5', 'F'] 3 = 6 ∧
    ['1', '2', '.', '5'] <+: ['1', '2', '.', '5', 'F'] ∧
    1 + 1 + ['1', '2', '.', '5'].length ≤ 6 ∧
    scanNumeralAt ['F', '@', '1', '2', '.', '5'] 2 =
      scanNumeralAt ['F', '@', '1', '2', '.', '5', 'F'] 2 ∧
    isNumeralSymbol '.' = true ∧
    Instruction.draw.count ['F', '@', '1', '2', '.', '5'] =
      Instruction.draw.count ['F', '@', '1'] := by
  have hcut : cutPosition ['F', '@', '1', '2', '.', '5', 'F'] 3 = 6 := by decide
  have hpart : ['1', '2', '.', '5'] <+: ['1', '2', '.', '5', 'F'] := ⟨['F'], rfl⟩
  obtain ⟨_, _, hscale, hbetween, hcount⟩ :=
    cutPosition_between_tokens ['F', '@', '1', '2', '.', '5', 'F'] 3
  rw [hcut] at hscale hbetween hcount
  obtain ⟨hwithin, hscan⟩ := hscale 1 (by decide) rfl
  have hwhole : ∀ c ∈ ['1', '2'], c.isDigit = true := List.all_eq_true.1 rfl
  have hfraction : ∀ c ∈ ['5'], c.isDigit = true := List.all_eq_true.1 rfl
  have hnumeral := Numeral.pointed (List.cons_ne_nil _ _) hwhole hfraction
  exact ⟨hcut, hpart, hwithin _ _ hnumeral hpart, hscan,
    hbetween 4 '.' (by decide) (by decide) rfl, hcount .draw⟩

end TurtleGrammar
