import Mathlib.Algebra.BigOperators.Group.Finset.Piecewise
import TurtleGrammar.Proofs.Drawing
import TurtleGrammar.Proofs.Replacement

/-!
# `TurtleGrammar.Proofs.Population` — how often each symbol stands in a generation

How often the symbols of a word occur decides how often they occur in the next generation: each
occurrence of a symbol leaves the symbols of its replacement behind, wherever it stands. The numbers
of one generation are therefore sums over those of the generation before, and neither the order of
the symbols nor that of the rules bears on them. The turtle draws one segment for each drawing symbol
and each alias of the last generation.

## Contents
- `alphabet`: the symbols of all generations; `population`: the numbers, generation by generation.
- `population_eq_count`, `length_expand`: the numbers are those of the expansion.
- `population_congr`: words and rules in another order.
- `draw_count_resolveAliases`: the symbols that draw.
- `Drawing.segments_population`: the number of segments of a drawing.
-/

namespace TurtleGrammar

open Finset

/-! ## Counting -/

section Counting

variable {α : Type} [DecidableEq α]

/-- The occurrences of the members of a set are the symbols that lie in it. -/
theorem sum_count_eq_countP (s : Finset α) (word : List α) :
    ∑ a ∈ s, word.count a = word.countP (· ∈ s) := by
  induction word with
  | nil => simp
  | cons b rest ih =>
      have hhead : ∑ a ∈ s, (if b = a then 1 else 0) = if b ∈ s then 1 else 0 := sum_ite_eq s b _
      simp only [List.count_cons, List.countP_cons, beq_iff_eq, decide_eq_true_eq]
      rw [sum_add_distrib, ih, hhead]

theorem sum_count_eq_length {s : Finset α} {word : List α} (h : ∀ a ∈ word, a ∈ s) :
    ∑ a ∈ s, word.count a = word.length := by
  rw [sum_count_eq_countP]
  exact List.countP_eq_length.2 fun a ha => decide_eq_true (h a ha)

/-- Where each symbol leaves others behind, these are counted by the symbols that leave them. -/
theorem count_flatMap_eq_sum {s : Finset α} {word : List α} (h : ∀ a ∈ word, a ∈ s)
    (f : α → List α) (b : α) :
    (word.flatMap f).count b = ∑ a ∈ s, word.count a * (f a).count b := by
  rw [List.count_flatMap, sum_list_map_count]
  refine sum_subset (fun a ha => h a (List.mem_toFinset.1 ha)) fun a _ ha => ?_
  rw [List.count_eq_zero_of_not_mem (fun hmem => ha (List.mem_toFinset.2 hmem)), zero_nsmul]

end Counting

/-! ## The numbers of a generation -/

/-- The symbols of a word and of all replacements. -/
def alphabet (rules : Rules) (word : Word) : Finset Char :=
  (word ++ rules.entries.flatMap Prod.snd).toFinset

/-- How often a symbol stands in a generation of a word, reckoned from the generation before. -/
def population (rules : Rules) (word : Word) : Nat → Char → Nat
  | 0, c => word.count c
  | n + 1, c => ∑ d ∈ alphabet rules word, population rules word n d * (rules.replacement d).count c

variable {rules other : Rules} {word shuffled : Word} {c : Char} {n : Nat}

theorem expand_succ (rules : Rules) (n : Nat) (word : Word) :
    rules.expand (n + 1) word = rules.rewrite (rules.expand n word) := by
  rw [Rules.expand_add]
  rfl

/-- No generation has a symbol that is neither in the word nor in a replacement. -/
theorem mem_alphabet_of_mem_expand (h : c ∈ rules.expand n word) : c ∈ alphabet rules word := by
  unfold alphabet
  rw [List.mem_toFinset, List.mem_append]
  induction n generalizing c with
  | zero => exact Or.inl h
  | succ n ih =>
      rw [expand_succ] at h
      obtain ⟨d, hd, hc⟩ := List.mem_flatMap.1 h
      rcases rules.replacement_cases d with ⟨_, hstays⟩ | hrule
      · rw [hstays, List.mem_singleton] at hc
        exact ih (hc ▸ hd)
      · exact Or.inr (List.mem_flatMap.2 ⟨_, hrule, hc⟩)

/-- **The recurrence gives the numbers.** -/
theorem population_eq_count (rules : Rules) (word : Word) (n : Nat) (c : Char) :
    population rules word n c = (rules.expand n word).count c := by
  induction n generalizing c with
  | zero => rfl
  | succ n ih =>
      -- the sum leaves out no symbol of the generation, for they all lie in the alphabet
      have hsymbols : ∀ d ∈ rules.expand n word, d ∈ alphabet rules word :=
        fun d hd => mem_alphabet_of_mem_expand hd
      rw [expand_succ, Rules.rewrite, count_flatMap_eq_sum hsymbols, population]
      exact sum_congr rfl fun d _ => by rw [ih d]

theorem population_eq_zero (h : c ∉ alphabet rules word) (n : Nat) :
    population rules word n c = 0 := by
  rw [population_eq_count]
  exact List.count_eq_zero_of_not_mem fun hmem => h (mem_alphabet_of_mem_expand hmem)

/-- The symbols of a generation are counted one by one. -/
theorem length_expand (rules : Rules) (word : Word) (n : Nat) :
    (rules.expand n word).length = ∑ c ∈ alphabet rules word, population rules word n c := by
  rw [← sum_count_eq_length (fun _ hc => mem_alphabet_of_mem_expand hc)]
  exact sum_congr rfl fun c _ => (population_eq_count rules word n c).symm

/-- **Order does not matter.** Words of the same symbols and the same rules have the same numbers,
    in whichever order they stand. -/
theorem population_congr (hword : shuffled.Perm word) (hrules : other.entries.Perm rules.entries)
    (n : Nat) (c : Char) : population other shuffled n c = population rules word n c := by
  have halphabet : alphabet other shuffled = alphabet rules word :=
    List.toFinset_eq_of_perm _ _ (hword.append (hrules.flatMap_right Prod.snd))
  induction n generalizing c with
  | zero => exact hword.count_eq c
  | succ n ih =>
      rw [population, population, halphabet]
      exact sum_congr rfl fun d _ => by rw [ih d, Rules.replacement_congr hrules d]

/-! ## The symbols that draw -/

/-- The symbols that draw: the draw symbol and its aliases. -/
def drawing (aliases : List Char) : Finset Char :=
  insert Instruction.draw.symbol aliases.toFinset

theorem draw_count_resolveAliases (aliases : List Char) (word : Word) :
    Instruction.draw.count (resolveAliases aliases word) =
      ∑ c ∈ drawing aliases, word.count c := by
  rw [sum_count_eq_countP]
  unfold Instruction.count resolveAliases List.count
  rw [List.countP_map]
  refine List.countP_congr fun c _ => ?_
  by_cases hc : c ∈ aliases <;> simp [drawing, hc]

namespace Drawing

/-- How many segments the turtle draws for a drawing: one for each drawing symbol and each alias of
    the last generation. -/
def lineCount (d : Drawing) : Nat :=
  ∑ c ∈ TurtleGrammar.drawing d.aliases,
    population d.grammar.rules d.grammar.start d.grammar.iterations c

theorem length_of_interpret_word {d : Drawing} {angle : Binary64} {all : List Segment}
    (h : interpret (d.setup angle) d.annotate d.word = .ok all) : all.length = d.lineCount := by
  rw [length_of_interpret h, word, draw_count_resolveAliases]
  exact sum_congr rfl fun c _ => (population_eq_count ..).symm

/-- **The number of segments.** A drawing that gives segments gives at least one, and at most one
    for each symbol of the last generation that draws; if it keeps them all, it gives exactly so
    many. The numbers of all symbols add up to the length of the expansion; symbols outside the
    alphabet are in no generation. Neither the order of the symbols nor that of the rules has an
    influence on any of these numbers. -/
theorem segments_population (d : Drawing) :
    (∀ segments, d.segments.outcome = .ok segments →
      (d.distinct = false → segments.length = d.lineCount) ∧
      segments.length ≤ d.lineCount ∧ 1 ≤ segments.length) ∧
    d.grammar.expansion.length = ∑ c ∈ alphabet d.grammar.rules d.grammar.start,
      population d.grammar.rules d.grammar.start d.grammar.iterations c ∧
    (∀ c ∉ alphabet d.grammar.rules d.grammar.start, ∀ n,
      population d.grammar.rules d.grammar.start n c = 0) ∧
    (∀ other : Grammar, other.start.Perm d.grammar.start →
      other.rules.entries.Perm d.grammar.rules.entries →
      ∀ n c, population other.rules other.start n c =
        population d.grammar.rules d.grammar.start n c) := by
  refine ⟨?_, length_expand .., fun c hc n => population_eq_zero hc n, ?_⟩
  · intro segments h
    obtain ⟨angle, all, _, hall, rfl⟩ := outcome_segments_eq_ok_iff.1 h
    have hlength : all.length = d.lineCount := length_of_interpret_word hall
    have hne : d.kept all ≠ [] := d.kept_ne_nil (segments_ne_nil hall)
    refine ⟨fun hdistinct => ?_, hlength ▸ d.length_kept_le all, List.length_pos_iff.2 hne⟩
    have hkept : d.kept all = all := by
      unfold kept
      rw [hdistinct]
      rfl
    rw [hkept, hlength]
  · intro other hword hrules n c
    exact population_congr hword hrules n c

/-- Lines in three directions, two thirds of them drawn by an alias. -/
def gasket : Drawing where
  grammar := ⟨['F', '-', 'G', '-', 'G'],
    .ofList [('F', ['F', '-', 'G', '+', 'F', '+', 'G', '-', 'F']), ('G', ['G', 'G'])], 1,
    List.cons_ne_nil _ _, by decide⟩
  aliases := ['G']
  angle := some .zero
  heading := .zero
  step := .one
  annotate := false
  distinct := false

theorem segments_population_gasket :
    ∃ segments, gasket.segments.outcome = .ok segments ∧ segments.length = gasket.lineCount ∧
      gasket.lineCount = 9 ∧ gasket.grammar.expansion.length = 15 := by
  have hok : gasket.segments.outcome.isOk = true := by decide +kernel
  obtain ⟨hsegments, hexpansion, _⟩ := segments_population gasket
  cases h : gasket.segments.outcome with
  | error fault =>
      rw [h] at hok
      exact absurd hok Bool.false_ne_true
  | ok segments =>
      exact ⟨segments, rfl, (hsegments segments h).1 rfl, by decide +kernel,
        hexpansion.trans (by decide +kernel)⟩

end Drawing

end TurtleGrammar
