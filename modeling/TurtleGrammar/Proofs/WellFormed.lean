import TurtleGrammar.Proofs.Branch
import TurtleGrammar.Proofs.Drawing
import TurtleGrammar.Proofs.Outcome
import TurtleGrammar.Proofs.Replacement

/-!
# `TurtleGrammar.Proofs.WellFormed` — grammars whose words can always be drawn

A word is well-formed if its branches are completed in it and each of its scale symbols has its
numeral in it. Put in the place of a symbol of another word, such a word can neither unbalance that
word nor part a scale symbol from its numeral, as long as the brackets, the scale symbols and the
symbols of numerals stay where they are. All generations of a well-formed grammar are therefore
well-formed, and so are they without aliases; the turtle follows them to their ends.

## Contents
- `Supplied`, `WellFormed`: words that are complete in themselves.
- `Respects`, `WellFormed.flatMap`: substitutions that keep them so.
- `Grammar.WellFormed`, `Grammar.WellFormed.expansion`: the words of well-formed grammars.
- `Machine.run_wellFormed`: the run over a well-formed word.
- `Drawing.outcome_of_wellFormed`: drawings by well-formed grammars.
-/

namespace TurtleGrammar

variable {c : Char} {u v word : Word} {f : Char → Word}

/-! ## Words that are complete in themselves -/

/-- Each scale symbol of the word is followed by a numeral of the word. -/
def Supplied (word : Word) : Prop :=
  ∀ p, word[p]? = some Instruction.scale.symbol → startsNumeral (word.drop (p + 1)) = true

instance (word : Word) : Decidable (Supplied word) :=
  decidable_of_iff (∀ p < word.length, word[p]? = some Instruction.scale.symbol →
      startsNumeral (word.drop (p + 1)) = true)
    ⟨fun h p hp => h p (List.getElem?_eq_some_iff.1 hp).1 hp, fun h p _ => h p⟩

/-- A word with all that its brackets and its scale symbols need. -/
structure WellFormed (word : Word) : Prop where
  balanced : Balanced word
  supplied : Supplied word

instance (word : Word) : Decidable (WellFormed word) :=
  decidable_of_iff (Balanced word ∧ Supplied word)
    ⟨fun h => ⟨h.1, h.2⟩, fun h => ⟨h.balanced, h.supplied⟩⟩

/-- The symbols on which the form of a word hangs: brackets, scale symbols, symbols of numerals. -/
def isPunctuation (c : Char) : Bool :=
  c == Instruction.push.symbol || c == Instruction.pop.symbol || c == Instruction.scale.symbol ||
    isNumeralSymbol c

theorem ne_of_not_isPunctuation (h : isPunctuation c = false) :
    c ≠ Instruction.push.symbol ∧ c ≠ Instruction.pop.symbol ∧ c ≠ Instruction.scale.symbol := by
  simp only [isPunctuation, Bool.or_eq_false_iff, beq_eq_false_iff_ne] at h
  exact ⟨h.1.1.1, h.1.1.2, h.1.2⟩

theorem supplied_nil : Supplied [] := by
  intro p hp
  cases hp

theorem supplied_cons :
    Supplied (c :: word) ↔
      (c = Instruction.scale.symbol → startsNumeral word = true) ∧ Supplied word := by
  constructor
  · intro h
    exact ⟨fun hc => h 0 (by rw [hc]; rfl), fun p hp => h (p + 1) hp⟩
  · rintro ⟨hhead, hrest⟩ p hp
    cases p with
    | zero => exact hhead (Option.some.inj hp)
    | succ p => exact hrest p hp

theorem startsNumeral_append (h : startsNumeral u = true) : startsNumeral (u ++ v) = true := by
  cases u with
  | nil => cases h
  | cons c u =>
      simp only [startsNumeral, List.cons_append, Bool.or_eq_true, Bool.and_eq_true] at h ⊢
      refine h.imp id fun hpoint => ⟨hpoint.1, ?_⟩
      cases u with
      | nil => cases hpoint.2
      | cons d u => exact hpoint.2

theorem Supplied.append (hu : Supplied u) (hv : Supplied v) : Supplied (u ++ v) := by
  induction u with
  | nil => exact hv
  | cons c u ih =>
      obtain ⟨hhead, hrest⟩ := supplied_cons.1 hu
      exact supplied_cons.2 ⟨fun hc => startsNumeral_append (hhead hc), ih hrest⟩

theorem level_singleton_of_ne (hpush : c ≠ Instruction.push.symbol)
    (hpop : c ≠ Instruction.pop.symbol) : level [c] = 0 := by
  have hpush' : Instruction.push.count [c] = 0 :=
    List.count_eq_zero.2 fun hmem => hpush (List.mem_singleton.1 hmem).symm
  have hpop' : Instruction.pop.count [c] = 0 :=
    List.count_eq_zero.2 fun hmem => hpop (List.mem_singleton.1 hmem).symm
  unfold level
  rw [hpush', hpop']
  rfl

theorem prefix_singleton {p : Word} (h : p <+: [c]) : p = [] ∨ p = [c] := by
  rcases List.prefix_cons_iff.1 h with rfl | ⟨rest, rfl, hrest⟩
  · exact Or.inl rfl
  · exact Or.inr (by rw [List.prefix_nil.1 hrest])

/-- A symbol on which no form hangs is well-formed by itself. -/
theorem wellFormed_singleton (h : isPunctuation c = false) : WellFormed [c] := by
  obtain ⟨hpush, hpop, hscale⟩ := ne_of_not_isPunctuation h
  have hlevel : level [c] = 0 := level_singleton_of_ne hpush hpop
  refine ⟨⟨fun p hp => ?_, hlevel⟩, supplied_cons.2 ⟨fun hc => absurd hc hscale, supplied_nil⟩⟩
  rcases prefix_singleton hp with rfl | rfl
  · exact Int.le_refl 0
  · exact Int.le_of_eq hlevel.symm

/-! ## Substitutions -/

/-- A substitution that leaves the form of words alone: it keeps the symbols on which that hangs and
    puts well-formed words in the place of the others. -/
structure Respects (f : Char → Word) : Prop where
  kept : ∀ c, isPunctuation c = true → f c = [c]
  wellFormed : ∀ c, isPunctuation c = false → WellFormed (f c)

namespace Respects

theorem numeralSymbol (hf : Respects f) (h : isNumeralSymbol c = true) : f c = [c] :=
  hf.kept c (by simp [isPunctuation, h])

theorem startsNumeral_flatMap (hf : Respects f) (h : startsNumeral word = true) :
    startsNumeral (word.flatMap f) = true := by
  cases word with
  | nil => cases h
  | cons c rest =>
      rcases numeralSymbol_cases c with hc | rfl | hc
      · rw [List.flatMap_cons, hf.numeralSymbol (isNumeralSymbol_of_isDigit hc)]
        simp [startsNumeral, hc]
      · -- the digit after the point stays behind it
        cases rest with
        | nil => cases h
        | cons d rest =>
            have hd : d.isDigit = true := h
            rw [List.flatMap_cons, List.flatMap_cons, hf.numeralSymbol rfl,
              hf.numeralSymbol (isNumeralSymbol_of_isDigit hd)]
            exact hd
      · obtain ⟨hdigit, hpoint⟩ := isDigit_of_not_isNumeralSymbol hc
        simp [startsNumeral, hdigit, hpoint] at h

theorem supplied_flatMap (hf : Respects f) (h : Supplied word) : Supplied (word.flatMap f) := by
  induction word with
  | nil => exact supplied_nil
  | cons c rest ih =>
      obtain ⟨hhead, hrest⟩ := supplied_cons.1 h
      rw [List.flatMap_cons]
      cases hc : isPunctuation c with
      | true =>
          rw [hf.kept c hc]
          exact supplied_cons.2 ⟨fun heq => hf.startsNumeral_flatMap (hhead heq), ih hrest⟩
      | false => exact (hf.wellFormed c hc).supplied.append (ih hrest)

/-- What stands in the place of a symbol opens and closes as many branches as the symbol. -/
theorem level_eq (hf : Respects f) (c : Char) : level (f c) = level [c] := by
  cases hc : isPunctuation c with
  | true => rw [hf.kept c hc]
  | false =>
      obtain ⟨hpush, hpop, _⟩ := ne_of_not_isPunctuation hc
      rw [(hf.wellFormed c hc).balanced.level_eq, level_singleton_of_ne hpush hpop]

theorem level_flatMap (hf : Respects f) (word : Word) : level (word.flatMap f) = level word := by
  induction word with
  | nil => rfl
  | cons c rest ih =>
      rw [List.flatMap_cons, level_append, hf.level_eq, ih, ← level_append]
      rfl

/-- Within what stands in the place of a symbol the level does not fall below where it is before the
    symbol and behind it. -/
theorem level_prefix (hf : Respects f) {p : Word} (hp : p <+: f c) :
    0 ≤ level p ∨ level [c] ≤ level p := by
  cases hc : isPunctuation c with
  | true =>
      rw [hf.kept c hc] at hp
      rcases prefix_singleton hp with rfl | rfl
      · exact Or.inl (Int.le_refl 0)
      · exact Or.inr (Int.le_refl _)
  | false => exact Or.inl ((hf.wellFormed c hc).balanced.nonneg p hp)

theorem nonneg_flatMap (hf : Respects f) (base : Int)
    (h : ∀ p, p <+: word → 0 ≤ base + level p) :
    ∀ q, q <+: word.flatMap f → 0 ≤ base + level q := by
  -- the base is the level of what stands before the word
  induction word generalizing base with
  | nil =>
      intro q hq
      rw [List.flatMap_nil, List.prefix_nil] at hq
      exact hq ▸ h [] List.nil_prefix
  | cons c rest ih =>
      intro q hq
      have hbefore : 0 ≤ base + level [] := h [] List.nil_prefix
      have hbehind : 0 ≤ base + level [c] := h [c] (List.prefix_append [c] rest)
      have hrest : ∀ p, p <+: rest → 0 ≤ (base + level [c]) + level p := by
        intro p hp
        have hlonger := h (c :: p) ((List.prefix_cons_inj c).2 hp)
        have hcons : level (c :: p) = level [c] + level p := level_append [c] p
        omega
      rw [List.flatMap_cons] at hq
      rw [level_nil] at hbefore
      rcases List.prefix_or_prefix_of_prefix hq (List.prefix_append (f c) _) with hq' | ⟨q', rfl⟩
      · rcases hf.level_prefix hq' with hlevel | hlevel <;> omega
      · have hlater := ih (base + level [c]) hrest q' ((List.prefix_append_right_inj _).1 hq)
        rw [level_append, hf.level_eq]
        omega

end Respects

/-- **Substitution.** A well-formed word in whose place-holders well-formed words are put is
    well-formed. -/
theorem WellFormed.flatMap (h : WellFormed word) (hf : Respects f) : WellFormed (word.flatMap f) where
  balanced := by
    refine ⟨fun q hq => ?_, (hf.level_flatMap word).trans h.balanced.level_eq⟩
    have hbase := hf.nonneg_flatMap 0 (fun p hp => by simpa using h.balanced.nonneg p hp) q hq
    omega
  supplied := hf.supplied_flatMap h.supplied

/-! ## Well-formed grammars -/

/-- A grammar of well-formed words whose rules and aliases name no symbol on which their form
    hangs. -/
structure Grammar.WellFormed (g : Grammar) (aliases : List Char) : Prop where
  start : TurtleGrammar.WellFormed g.start
  replacements : ∀ e ∈ g.rules.entries, TurtleGrammar.WellFormed e.2
  names : ∀ e ∈ g.rules.entries, isPunctuation e.1 = false
  aliases : ∀ c ∈ aliases, isPunctuation c = false

namespace Grammar.WellFormed

variable {g : Grammar} {aliases : List Char}

theorem respects_replacement (h : g.WellFormed aliases) : Respects g.rules.replacement where
  kept := by
    intro c hc
    refine Rules.replacement_of_ne fun e he heq => ?_
    have hname := h.names e he
    rw [heq, hc] at hname
    cases hname
  wellFormed := by
    intro c hc
    rcases g.rules.replacement_cases c with ⟨_, hstays⟩ | hrule
    · rw [hstays]
      exact wellFormed_singleton hc
    · exact h.replacements _ hrule

theorem respects_alias (h : g.WellFormed aliases) :
    Respects fun c => [if aliases.contains c then Instruction.draw.symbol else c] where
  kept := by
    intro c hc
    have hnot : aliases.contains c = false := by
      rw [← Bool.not_eq_true, List.contains_iff_mem]
      intro hmem
      have halias := h.aliases c hmem
      rw [hc] at halias
      cases halias
    simp only [hnot, Bool.false_eq_true, if_false]
  wellFormed := by
    intro c hc
    refine wellFormed_singleton ?_
    split
    · decide
    · exact hc

/-- Every generation of a well-formed grammar is well-formed. -/
theorem expand (h : g.WellFormed aliases) (n : Nat) {word : Word}
    (hword : TurtleGrammar.WellFormed word) : TurtleGrammar.WellFormed (g.rules.expand n word) := by
  induction n generalizing word with
  | zero => exact hword
  | succ n ih => exact ih (hword.flatMap h.respects_replacement)

/-- The expansion of a well-formed grammar is well-formed without its aliases, too. -/
theorem expansion (h : g.WellFormed aliases) :
    TurtleGrammar.WellFormed (resolveAliases aliases g.expansion) := by
  unfold resolveAliases
  rw [List.map_eq_flatMap]
  exact (h.expand g.iterations h.start).flatMap h.respects_alias

end Grammar.WellFormed

instance (g : Grammar) (aliases : List Char) : Decidable (g.WellFormed aliases) :=
  decidable_of_iff (WellFormed g.start ∧ (∀ e ∈ g.rules.entries, WellFormed e.2) ∧
      (∀ e ∈ g.rules.entries, isPunctuation e.1 = false) ∧ aliases.any isPunctuation = false)
    ⟨fun h => ⟨h.1, h.2.1, h.2.2.1, by simpa using h.2.2.2⟩,
      fun h => ⟨h.start, h.replacements, h.names, by simpa using h.aliases⟩⟩

/-! ## Runs over well-formed words -/

namespace Machine

variable {setup : Setup}

/-- No position of a well-formed word offends, unless it is the heading that is infinite. -/
theorem not_offends_of_wellFormed (h : WellFormed word) (p : Nat) (fault : Fault) :
    ¬ Offends false word p fault := by
  intro hoffends
  cases hoffends with
  | noOpenBranch _ hcount =>
      have hlevel := h.balanced.nonneg _ (List.take_prefix (p + 1) word)
      unfold level at hlevel
      omega
  | noNumeral hc hnumeral =>
      rw [h.supplied p hc] at hnumeral
      cases hnumeral
  | headingUnbounded _ hunbounded => cases hunbounded

theorem readWord_wellFormed (annotate : Bool) (h : WellFormed word)
    (hheading : setup.heading.isInfinite = false) :
    ∃ last, readWord annotate word (.start setup) = .ok last ∧ last.stack = [] := by
  have hstart : (start setup).At false [] := hheading ▸ at_start setup
  rcases readWord_outcome annotate word hstart with ⟨last, hread, _⟩ | ⟨p, fault, _, _, hoffends, _⟩
  · refine ⟨last, hread, ?_⟩
    -- as many branches are closed as were opened, so that no frame is left
    obtain ⟨inner, hstack, hlength⟩ :=
      stack_of_readWord hread [] rfl fun p hp => by simpa using h.balanced.nonneg p hp
    rw [h.balanced.level_eq] at hlength
    have hinner : inner = [] := List.length_eq_zero_iff.1 (by simpa using hlength)
    rw [hstack, hinner]
    rfl
  · exact absurd hoffends (not_offends_of_wellFormed h p fault)

/-- **The run over a well-formed word** comes to its end, and no branch is open there. -/
theorem run_wellFormed (annotate : Bool) (h : WellFormed word)
    (hheading : setup.heading.isInfinite = false) :
    ∃ last, run annotate word (.start setup) = .ok last ∧ last.stack = [] := by
  obtain ⟨atEnd, hread, hstack⟩ := readWord_wellFormed annotate h hheading
  have hrun : (run annotate word (start setup)).map settled = .ok atEnd :=
    (run_settled (aligned_start setup word)).trans hread
  rw [map_eq_ok_iff] at hrun
  obtain ⟨last, hlast, rfl⟩ := hrun
  exact ⟨last, hlast, hstack⟩

end Machine

/-! ## Drawings by well-formed grammars -/

namespace Drawing

variable {d : Drawing} {angle : Binary64}

/-- **Well-formed grammars do not fail.** A grammar can be built again from its parts. If it is
    well-formed, and whatever the number of its generations, the turtle follows its word to the end
    and closes every branch; the drawing then gives what the turtle has drawn, which is something.
    The only refusal is that of a word without a symbol that draws. -/
theorem outcome_of_wellFormed (hgrammar : d.grammar.WellFormed d.aliases)
    (hangle : d.angle = some angle) (hheading : d.heading.isInfinite = false)
    (hstep : d.step.isPositive = true) :
    Grammar.build (some (String.ofList d.grammar.start)) d.grammar.named d.grammar.iterations =
      .ok d.grammar ∧
    (Instruction.draw.symbol ∉ d.word → d.segments.outcome = .error .nothingDrawn) ∧
    (Instruction.draw.symbol ∈ d.word → ∃ last,
      Machine.run d.annotate d.word (.start (d.setup angle)) = .ok last ∧ last.stack = [] ∧
      d.segments.outcome = .ok (d.kept last.segments) ∧ d.kept last.segments ≠ []) := by
  refine ⟨d.grammar.build_parts, fun hdraw => ?_, fun hdraw => ?_⟩
  · rw [outcome_segments hangle, interpret_of_not_draws hstep hdraw]
    rfl
  · obtain ⟨last, hrun, hstack⟩ :
        ∃ last, Machine.run d.annotate d.word (.start (d.setup angle)) = .ok last ∧
          last.stack = [] :=
      Machine.run_wellFormed d.annotate hgrammar.expansion hheading
    have hok : interpret (d.setup angle) d.annotate d.word = .ok last.segments :=
      interpret_of_run hstep hdraw hrun
    refine ⟨last, hrun, hstack, ?_, d.kept_ne_nil (segments_ne_nil hok)⟩
    rw [outcome_segments hangle, hok]
    rfl

/-- A plant whose leaves are aliases. Its numerals grow where a digit follows them. -/
def plant : Drawing where
  grammar := ⟨['X'],
    .ofList [('X', ['F', '[', '@', '.', '5', '+', 'X', ']', '-', 'X', '5']),
      ('F', ['F', 'F', '@', '1'])], 2, List.cons_ne_nil _ _, Nat.le_succ 1⟩
  aliases := ['X']
  angle := some .zero
  heading := .zero
  step := .one
  annotate := true
  distinct := true

theorem outcome_of_wellFormed_plant :
    plant.grammar.WellFormed plant.aliases ∧ plant.angle = some .zero ∧
    plant.heading.isInfinite = false ∧ plant.step.isPositive = true ∧
    Instruction.draw.symbol ∈ plant.word ∧
    ∃ last, Machine.run true plant.word (.start (plant.setup .zero)) = .ok last ∧
      last.stack = [] ∧ plant.segments.outcome = .ok (plant.kept last.segments) ∧
      plant.kept last.segments ≠ [] := by
  have hgrammar : plant.grammar.WellFormed plant.aliases := by decide +kernel
  have hheading : plant.heading.isInfinite = false := by decide
  have hstep : plant.step.isPositive = true := by decide +kernel
  have hdraw : Instruction.draw.symbol ∈ plant.word := by decide +kernel
  exact ⟨hgrammar, rfl, hheading, hstep, hdraw,
    (outcome_of_wellFormed hgrammar rfl hheading hstep).2.2 hdraw⟩

end Drawing

end TurtleGrammar
