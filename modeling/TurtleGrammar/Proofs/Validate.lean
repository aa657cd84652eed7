import TurtleGrammar.Command
import TurtleGrammar.Proofs.Drawing
import TurtleGrammar.Proofs.Excerpt
import TurtleGrammar.Proofs.Particulars
import TurtleGrammar.Proofs.Rebuild

/-!
# `TurtleGrammar.Proofs.Validate` — checking a drawing and drawing it

A check draws the excerpt of a word, always with particulars and without looking for repetitions;
the drawing itself draws the whole word as the configuration wants it. The check refuses nothing
that is drawn, and up to its limit it refuses whatever is not.

## Contents
- `Config.setup`, `Config.word`: the turtle and the word of a configuration.
- `Command.maxDepth_isGreatest`: the greatest depth of a drawing is that of one of its segments.
- `Command.Skipped`: there is nothing to check.
- `performValidate_agrees`: a check and the drawing.
-/

namespace TurtleGrammar

theorem Traced.isSuffix_bind {ν ε α β : Type} {first : Traced ν ε α} (next : α → Traced ν ε β)
    {value : α} (h : first.outcome = .ok value) :
    (next value).notes <:+ (first >>= next).notes := by
  rw [notes_bind, h]
  exact List.suffix_append _ _

namespace Config

/-- The turtle at the start of a configuration's drawing. -/
def setup (c : Config) : Setup := ⟨Angle.ofDegrees c.angle, Angle.ofDegrees c.heading, c.step⟩

/-- The word that a configuration draws. -/
def word (c : Config) : Word := resolveAliases c.aliases c.grammar.expansion

theorem outcome_allSegments (c : Config) :
    c.drawing.allSegments.outcome = interpret c.setup c.annotate c.word :=
  Drawing.outcome_allSegments rfl

theorem outcome_segments (c : Config) :
    c.drawing.segments.outcome =
      (interpret c.setup c.annotate c.word).map fun all =>
        if c.distinct then TurtleGrammar.distinct all else all :=
  Drawing.outcome_segments rfl

end Config

namespace Command

/-! ## The greatest depth -/

variable {setup : Setup} {word : Word} {segments : List Segment}

/-- Among numbers that are not negative the greatest is found from zero on. -/
theorem foldl_max_isGreatest {depths : List Int} (hne : depths ≠ []) (h : ∀ d ∈ depths, 0 ≤ d) :
    IsGreatest {d | d ∈ depths} (depths.foldl max 0) := by
  have hmax : (0 :: depths).max? = some (depths.foldl max 0) := List.max?_cons'
  obtain ⟨hmem, hupper⟩ := List.max?_eq_some_iff.1 hmax
  refine ⟨?_, fun d hd => hupper d (List.mem_cons_of_mem 0 hd)⟩
  rcases List.mem_cons.1 hmem with hzero | hmem
  · -- only zeros are left to be the greatest
    obtain ⟨d, hd⟩ := List.exists_mem_of_ne_nil depths hne
    have hle := hupper d (List.mem_cons_of_mem 0 hd)
    have hd0 : d = depths.foldl max 0 := by
      have := h d hd
      omega
    exact hd0 ▸ hd
  · exact hmem

/-- Segments with particulars have a depth each. -/
theorem isSome_depth (h : interpret setup true word = .ok segments) :
    ∀ s ∈ segments, s.depth.isSome := by
  intro s hs
  have hmem : s.depth ∈ segments.map Segment.depth := List.mem_map_of_mem hs
  rw [depths_of_interpret h] at hmem
  obtain ⟨p, _, hp⟩ := List.mem_map.1 hmem
  rw [← hp]
  rfl

theorem filterMap_depth (h : interpret setup true word = .ok segments) :
    segments.filterMap Segment.depth = (drawPositions word).map fun p => level (word.take p) := by
  calc segments.filterMap Segment.depth
      = (segments.map Segment.depth).filterMap id := by
        rw [List.filterMap_map]
        rfl
    _ = ((drawPositions word).map fun p => some (level (word.take p))).filterMap id := by
        rw [depths_of_interpret h]
    _ = (drawPositions word).map fun p => level (word.take p) := by
        rw [List.filterMap_map, ← List.filterMap_eq_map]
        rfl

/-- The greatest depth of a drawing is the greatest number of branches around a drawing symbol. -/
theorem maxDepth_isGreatest (h : interpret setup true word = .ok segments) :
    IsGreatest {d | ∃ p, word[p]? = some Instruction.draw.symbol ∧ level (word.take p) = d}
      (maxDepth segments) := by
  obtain ⟨_, hdraw, last, hread, _⟩ := interpret_eq_ok_iff.1 h
  have hne : (drawPositions word).map (fun p => level (word.take p)) ≠ [] := by
    obtain ⟨p, hp⟩ := List.mem_iff_getElem?.1 hdraw
    exact List.ne_nil_of_mem (List.mem_map_of_mem (mem_drawPositions.2 hp))
  have hnonneg : ∀ d ∈ (drawPositions word).map fun p => level (word.take p), 0 ≤ d := by
    intro d hd
    obtain ⟨p, _, rfl⟩ := List.mem_map.1 hd
    have hlevel := Machine.level_nonneg_of_readWord hread rfl _ (List.take_prefix p word)
    rwa [← Int.zero_add (level _)]
  have hset : {d | ∃ p, word[p]? = some Instruction.draw.symbol ∧ level (word.take p) = d} =
      {d | d ∈ (drawPositions word).map fun p => level (word.take p)} := by
    ext d
    simp only [Set.mem_ofPred_eq, List.mem_map, mem_drawPositions]
  rw [hset]
  unfold maxDepth
  rw [filterMap_depth h]
  exact foldl_max_isGreatest hne hnonneg

/-! ## The outcome of a check -/

variable {c : Config} {fault : Fault}

/-- Nothing is checked of a longer word whose excerpt does not draw. -/
def Skipped (word : Word) : Prop :=
  checkLimit < word.length ∧ Instruction.draw.symbol ∉ excerpt word checkLimit

theorem performCheck_of_skipped (h : Skipped word) : (performCheck c word).outcome = .ok () := by
  have hcondition : (decide (checkLimit < word.length) &&
      !(excerpt word checkLimit).contains Instruction.draw.symbol) = true := by
    simp [h.1, h.2]
  unfold performCheck
  rw [Traced.outcome_bind, if_pos hcondition]
  rfl

theorem performCheck_of_not_skipped (h : ¬ Skipped word) :
    (performCheck c word).outcome =
      (interpret c.setup true (excerpt word checkLimit)).map fun _ => () := by
  have hcondition : ¬ (decide (checkLimit < word.length) &&
      !(excerpt word checkLimit).contains Instruction.draw.symbol) = true := by
    simpa [Skipped] using h
  unfold performCheck
  rw [Traced.outcome_bind, if_neg hcondition]
  show Traced.outcome (Run.ofTraced (interpretTraced c.setup true _) >>= _) = _
  rw [Traced.outcome_bind]
  show (interpretTraced c.setup true _).outcome.bind _ = _
  rw [outcome_interpretTraced]
  cases interpret c.setup true (excerpt word checkLimit) with
  | error fault => rfl
  | ok segments => by_cases hcut : checkLimit < word.length <;> simp [hcut] <;> rfl

theorem performCheck_of_length_le (h : word.length ≤ checkLimit) :
    (performCheck c word).outcome = (interpret c.setup true word).map fun _ => () := by
  have hskipped : ¬ Skipped word := fun hskipped => absurd hskipped.1 (not_lt.2 h)
  rw [performCheck_of_not_skipped hskipped, excerpt_of_length_le h]

theorem outcome_performValidate (c : Config) :
    (performValidate c).outcome = (performCheck c c.word).outcome.map fun _ => none := by
  have hbind : (performValidate c).outcome =
      (performCheck c c.word).outcome.bind fun _ => .ok none := by
    unfold performValidate
    simp only [Traced.outcome_bind]
    rfl
  rw [hbind]
  cases (performCheck c c.word).outcome <;> rfl

/-- What a check leaves comes last. -/
theorem notes_performCheck_isSuffix (c : Config) :
    (performCheck c c.word).notes <:+ (performValidate c).notes := by
  have hlast : (performCheck c c.word >>= fun _ => (pure none : Run (Option Delivery))).notes =
      (performCheck c c.word).notes := by
    rw [Traced.notes_bind]
    cases (performCheck c c.word).outcome with
    | error fault => rfl
    | ok _ => exact List.append_nil _
  -- one line after the other is printed before the check
  unfold performValidate
  rw [← hlast]
  refine List.IsSuffix.trans ?_ (Traced.isSuffix_bind _ rfl)
  refine List.IsSuffix.trans ?_ (Traced.isSuffix_bind _ rfl)
  refine List.IsSuffix.trans ?_ (Traced.isSuffix_bind _ rfl)
  refine List.IsSuffix.trans ?_ (Traced.isSuffix_bind _ rfl)
  refine List.IsSuffix.trans ?_ (Traced.isSuffix_bind _ rfl)
  have hword : (Run.ofTraced c.drawing.instructions).outcome = .ok c.word := rfl
  exact Traced.isSuffix_bind (fun word => performCheck c word >>= fun _ => pure none) hword

theorem notes_performCheck (hlimit : word.length ≤ checkLimit)
    (h : interpret c.setup true word = .ok segments) :
    (performCheck c word).notes =
      [.printed ("symbols: " ++ toString word.length ++ "\n"),
        .noted (.interpreted word.length segments.length),
        .printed ("segments: " ++ toString segments.length ++ "\n"),
        .printed ("max depth: " ++ String.ofList (signedDigits (maxDepth segments)) ++ "\n")] := by
  have hcut : ¬ checkLimit < word.length := not_lt.2 hlimit
  have htraced : interpretTraced ⟨Angle.ofDegrees c.angle, Angle.ofDegrees c.heading, c.step⟩ true
      word = ⟨[.interpreted word.length segments.length], .ok segments⟩ := by
    unfold Config.setup at h
    unfold interpretTraced
    rw [h]
    rfl
  unfold performCheck
  simp only [excerpt_of_length_le hlimit, htraced, hcut]
  rfl

theorem notes_performValidate (hlimit : c.word.length ≤ checkLimit)
    (h : interpret c.setup true c.word = .ok segments) :
    [.printed ("segments: " ++ toString segments.length ++ "\n"),
      .printed ("max depth: " ++ String.ofList (signedDigits (maxDepth segments)) ++ "\n")] <:+
        (performValidate c).notes := by
  refine List.IsSuffix.trans ?_ (notes_performCheck_isSuffix c)
  rw [notes_performCheck hlimit h]
  exact List.suffix_append [_, _] _

/-! ## A check and the drawing -/

/-- What a check refuses, the drawing refuses. -/
theorem interpret_of_performCheck (h : (performCheck c word).outcome = .error fault) :
    interpret c.setup c.annotate word = .error fault := by
  by_cases hskipped : Skipped word
  · rw [performCheck_of_skipped hskipped] at h
    cases h
  · have hexcerpt : interpret c.setup true (excerpt word checkLimit) = .error fault := by
      rwa [performCheck_of_not_skipped hskipped, map_eq_error_iff] at h
    have hdraw : word.length ≤ checkLimit ∨
        Instruction.draw.symbol ∈ excerpt word checkLimit := by
      unfold Skipped at hskipped
      by_contra hneither
      exact hskipped ⟨by omega, fun hmem => hneither (Or.inr hmem)⟩
    -- the excerpt and the word are compared without particulars, which only the check wants always
    rw [interpret_erase_eq_error_iff] at hexcerpt ⊢
    exact interpret_of_excerpt_error hdraw hexcerpt

/-- **A check agrees with the drawing.** What a check refuses, the drawing refuses for the same
    reason, so that whatever is drawn passes the check. A check that draws an excerpt has segments,
    each with its depth. Up to the limit the converse holds: what the drawing refuses, the check
    refuses, and a check that passes ends with the number of all segments that are drawn and the
    greatest depth at which a symbol draws. The drawing may build its grammar anew: its parts give
    the same grammar. -/
theorem performValidate_agrees (c : Config) :
    Grammar.build (some (String.ofList c.grammar.start)) c.grammar.named c.grammar.iterations =
      .ok c.grammar ∧
    (∀ fault, (performValidate c).outcome = .error fault →
      c.drawing.segments.outcome = .error fault) ∧
    (∀ segments, c.drawing.segments.outcome = .ok segments →
      (performValidate c).outcome = .ok none) ∧
    (∀ segments, interpret c.setup true (excerpt c.word checkLimit) = .ok segments →
      segments ≠ [] ∧ ∀ s ∈ segments, s.depth.isSome) ∧
    (c.word.length ≤ checkLimit →
      (∀ fault, c.drawing.segments.outcome = .error fault →
        (performValidate c).outcome = .error fault) ∧
      (∀ result, (performValidate c).outcome = .ok result →
        ∃ all depth, c.drawing.allSegments.outcome = .ok all ∧
          IsGreatest
            {d | ∃ p, c.word[p]? = some Instruction.draw.symbol ∧ level (c.word.take p) = d} depth ∧
          [.printed ("segments: " ++ toString all.length ++ "\n"),
            .printed ("max depth: " ++ String.ofList (signedDigits depth) ++ "\n")] <:+
              (performValidate c).notes)) := by
  have hrefused : ∀ fault, (performValidate c).outcome = .error fault →
      c.drawing.segments.outcome = .error fault := by
    intro fault h
    rw [outcome_performValidate, map_eq_error_iff] at h
    rw [c.outcome_segments, map_eq_error_iff]
    exact interpret_of_performCheck h
  refine ⟨c.grammar.build_parts, hrefused, fun segments h => ?_,
    fun segments h => ⟨segments_ne_nil h, isSome_depth h⟩, fun hlimit => ⟨fun fault h => ?_, ?_⟩⟩
  · cases hcheck : (performValidate c).outcome with
    | error fault =>
        rw [hrefused fault hcheck] at h
        cases h
    | ok result =>
        rw [outcome_performValidate, map_eq_ok_iff] at hcheck
        obtain ⟨_, _, rfl⟩ := hcheck
        rfl
  · rw [c.outcome_segments, map_eq_error_iff] at h
    rw [outcome_performValidate, map_eq_error_iff, performCheck_of_length_le hlimit,
      map_eq_error_iff, interpret_erase_eq_error_iff]
    exact interpret_erase_eq_error_iff.1 h
  · intro result h
    rw [outcome_performValidate, performCheck_of_length_le hlimit] at h
    obtain ⟨_, hcheck, _⟩ := map_eq_ok_iff.1 h
    obtain ⟨segments, hsegments, _⟩ := map_eq_ok_iff.1 hcheck
    obtain ⟨all, hall, hlength⟩ := exists_interpret_of_ok hsegments c.annotate
    refine ⟨all, maxDepth segments, c.outcome_allSegments.trans hall,
      maxDepth_isGreatest hsegments, ?_⟩
    rw [hlength]
    exact notes_performValidate hlimit hsegments

end Command

end TurtleGrammar
