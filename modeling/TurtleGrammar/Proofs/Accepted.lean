import TurtleGrammar.Proofs.Outcome
import TurtleGrammar.Proofs.Schema
import TurtleGrammar.Proofs.Validate
import TurtleGrammar.Proofs.Written

/-!
# `TurtleGrammar.Proofs.Accepted` — what is accepted can be drawn

A configuration is looked at when it is read, when its grammar is built anew for the drawing, and
when the drawing starts. The later looks find nothing that the first one let pass: an accepted
configuration has its instructions, and its drawing is refused for its word or its heading only.
Nor do the commands meet any other fault on the way to their output, and what they deliver is whole.

## Contents
- `DrawingFault`, `meets_interpret`: the faults of a word that is drawn with a step above zero.
- `Config.draft`, `Config.drawing?_draft`: the parts of a configuration build its drawing.
- `CommandFault`, `Command.Delivers`: the faults of a command, and what it delivers.
- `Command.meets_perform`: what a command does with an accepted configuration.
- `accepted_draws`: what is accepted can be drawn.
-/

namespace TurtleGrammar

/-! ## The faults of a drawing -/

/-- The faults of a word that is drawn with a step above zero; `unbounded` says that the heading at
    the start is infinite. -/
inductive DrawingFault (unbounded : Bool) : Fault → Prop where
  | nothingDrawn : DrawingFault unbounded .nothingDrawn
  | noNumeral (position : Nat) : DrawingFault unbounded (.noNumeral position)
  | noOpenBranch (position : Nat) : DrawingFault unbounded (.noOpenBranch position)
  | headingUnbounded (h : unbounded = true) : DrawingFault unbounded .headingUnbounded

variable {unbounded : Bool} {word : Word} {position : Nat} {fault : Fault}

theorem Offends.drawingFault (h : Offends unbounded word position fault) :
    DrawingFault unbounded fault := by
  cases h with
  | noOpenBranch => exact .noOpenBranch position
  | noNumeral => exact .noNumeral position
  | headingUnbounded _ hu => exact .headingUnbounded hu

/-- With a step above zero a word draws something or has a fault of drawings. -/
theorem meets_interpret (setup : Setup) (annotate : Bool) (word : Word)
    (hstep : setup.step.isPositive = true) :
    Meets (· ≠ []) (DrawingFault setup.heading.isInfinite) (interpret setup annotate word) := by
  by_cases hdraw : Instruction.draw.symbol ∈ word
  · constructor
    · intro segments h
      exact segments_ne_nil h
    · -- the reading stops at the first position that offends, and its fault is a fault of drawings
      intro fault h
      have hread := (interpret_eq_error_iff hstep hdraw).1 h
      rcases Machine.readWord_outcome annotate word (Machine.at_start setup) with
        ⟨last, hlast, _⟩ | ⟨p, first, hfirst, _, hoffends, _⟩
      · rw [hlast] at hread
        cases hread
      · rw [hfirst] at hread
        exact Except.error.inj hread ▸ hoffends.drawingFault
  · rw [interpret_of_not_draws hstep hdraw]
    exact .of_fault .nothingDrawn

/-! ## The drawing of a configuration -/

namespace Config

variable {c : Config}

/-- The parts of a configuration from which its drawing is built. -/
def draft (c : Config) : Draft where
  start := some (String.ofList c.grammar.start)
  rules := c.grammar.named
  iterations := c.grammar.iterations
  aliases := c.aliases
  angle := some (Angle.ofDegrees c.angle)
  heading := Angle.ofDegrees c.heading
  step := c.step
  annotate := c.annotate
  distinct := c.distinct

/-- Building the grammar anew gives the drawing of the configuration. -/
theorem drawing?_draft (c : Config) : c.draft.drawing? = .ok c.drawing := by
  have hbuild : Grammar.build c.draft.start c.draft.rules c.draft.iterations = .ok c.grammar :=
    c.grammar.build_parts
  unfold Draft.drawing?
  rw [hbuild]
  rfl

theorem instructions_draft (c : Config) : c.draft.instructions = .ok c.word := by
  unfold Draft.instructions
  rw [c.drawing?_draft]
  exact Drawing.outcome_instructions c.drawing

theorem segments_draft (c : Config) : c.draft.segments = c.drawing.segments.outcome := by
  unfold Draft.segments
  rw [c.drawing?_draft]
  rfl

/-- The segments of a valid configuration: there is one, and all of them carry particulars or none
    does. -/
theorem meets_segments (hc : c.Valid) :
    Meets (fun segments => segments ≠ [] ∧ ∀ s ∈ segments, s.isAnnotated = c.annotate)
      (DrawingFault (Angle.ofDegrees c.heading).isInfinite) c.drawing.segments.outcome := by
  have hall : Meets (· ≠ []) (DrawingFault (Angle.ofDegrees c.heading).isInfinite)
      (interpret c.setup c.annotate c.word) := meets_interpret c.setup c.annotate c.word hc.step_pos
  have hmap : c.drawing.segments.outcome =
      (interpret c.setup c.annotate c.word).map c.drawing.kept := Drawing.outcome_segments rfl
  rw [hmap]
  constructor
  · intro segments h
    obtain ⟨all, hok, rfl⟩ := map_eq_ok_iff.1 h
    refine ⟨c.drawing.kept_ne_nil (hall.of_ok all hok), fun s hs => ?_⟩
    -- what is kept is some of what was drawn
    have hmem : s ∈ all := by
      unfold Drawing.kept at hs
      split at hs
      · exact (distinct_sublist all).subset hs
      · exact hs
    exact isAnnotated_of_interpret hok hmem
  · intro fault h
    exact hall.of_error fault (map_eq_error_iff.1 h)

end Config

/-! ## Commands -/

/-- The faults of a command that has an accepted configuration; `unbounded` says that its heading is
    infinite, `pathless` that the command draws a page without a path. -/
inductive CommandFault (unbounded : Bool) (pathless : Prop) : Fault → Prop where
  | drawing {fault : Fault} (h : DrawingFault unbounded fault) :
      CommandFault unbounded pathless fault
  | noExtent : CommandFault unbounded pathless (.setting .noExtent)
  | noPath (h : pathless) : CommandFault unbounded pathless .noPath

namespace Command

variable {c : Config} {pathless : Prop} {target : Option String}

/-- Is a whole file delivered to the path, or nothing without a path? -/
def Delivers (target : Option String) (result : Option Delivery) : Prop :=
  result.map Delivery.path = target ∧ ∀ d ∈ result, d.fault = none

theorem meets_performRender (hc : c.Valid) (target : Option String) :
    Meets (Delivers target) (CommandFault (Angle.ofDegrees c.heading).isInfinite (target = none))
      (performRender c target).outcome := by
  have hplaces : (0 : Int) ≤ c.page.places ∧ c.page.places ≤ maxWrittenPlaces := by
    have hle := hc.places_le
    constructor
    · exact Int.natCast_nonneg c.places
    · exact Int.ofNat_le.2 (hle.trans (by decide))
  unfold performRender
  apply Meets.outcome_bind
  · exact (c.meets_segments hc).mono (fun _ h => h) fun _ h => .drawing h
  · rintro segments ⟨hne, _⟩
    apply Meets.outcome_bind
    · refine (Svg.meets_document hne hplaces.1 hplaces.2).mono (fun _ h => h) ?_
      rintro _ rfl
      exact .noExtent
    · intro text _
      cases target with
      | none => exact .of_fault (.noPath rfl)
      | some path => exact .of_value ⟨rfl, fun d hd => Option.some.inj hd ▸ rfl⟩

theorem meets_performValidate (hc : c.Valid) :
    Meets (Delivers none) (CommandFault (Angle.ofDegrees c.heading).isInfinite pathless)
      (performValidate c).outcome := by
  rw [outcome_performValidate]
  constructor
  · intro result h
    obtain ⟨_, _, rfl⟩ := map_eq_ok_iff.1 h
    exact ⟨rfl, fun d hd => nomatch hd⟩
  · intro fault h
    have hdrawing := interpret_of_performCheck (map_eq_error_iff.1 h)
    exact .drawing ((meets_interpret c.setup c.annotate c.word hc.step_pos).of_error fault hdrawing)

theorem meets_performExpand (raw : Bool) :
    Meets (Delivers none) (CommandFault unbounded pathless) (performExpand c raw).outcome := by
  cases raw with
  | true => exact .of_value ⟨rfl, fun d hd => nomatch hd⟩
  | false => exact .of_value ⟨rfl, fun d hd => nomatch hd⟩

theorem meets_performSegments (hc : c.Valid) (target : Option String) :
    Meets (Delivers target) (CommandFault (Angle.ofDegrees c.heading).isInfinite pathless)
      (performSegments c target).outcome := by
  unfold performSegments
  apply Meets.outcome_bind
  · exact (c.meets_segments hc).mono (fun _ h => h) fun _ h => .drawing h
  · rintro segments ⟨_, hannotated⟩
    have hfault : (Csv.write segments).fault = none := Csv.fault_write hannotated
    dsimp only
    cases target with
    | some path => exact .of_value ⟨rfl, fun d hd => Option.some.inj hd ▸ hfault⟩
    | none =>
        rw [hfault]
        exact .of_value ⟨rfl, fun d hd => nomatch hd⟩

/-- Is the command to draw a page without a path? -/
def Pathless (command : Command) : Prop := ∃ source, command = .render source none

/-- **Commands on a valid configuration.** What is delivered is whole and goes to the path of the
    command. The faults are those of the drawing, a page without extent, and one without a path. -/
theorem meets_performOn (hc : c.Valid) (command : Command) :
    Meets (Delivers command.target?)
      (CommandFault (Angle.ofDegrees c.heading).isInfinite command.Pathless)
      (performOn c command).outcome := by
  cases command with
  | render source target =>
      refine (meets_performRender hc target).mono (fun _ h => h) fun fault h => ?_
      cases h with
      | drawing h => exact .drawing h
      | noExtent => exact .noExtent
      | noPath h => exact .noPath ⟨source, h ▸ rfl⟩
  | validate source => exact meets_performValidate hc
  | expand source raw => exact meets_performExpand raw
  | segments source target => exact meets_performSegments hc target

end Command

/-! ## Accepted configurations -/

/-- A configuration that draws a line along a heading of 2 to the power of 1023 degrees. -/
def steepValue : Json :=
  .object
    [("axiom", .string "F"),
      ("turtle", .object [("angle", .integer 0), ("heading", .integer (Int.ofNat (1 <<< 1023)))])]

/-- The heading is in range as a number of degrees, but not in radians. -/
theorem steepValue_refused :
    ∃ c, Config.ofJson steepValue = .ok c ∧ c.heading.isFinite = true ∧
      c.draft.segments = .error .headingUnbounded := by
  have hcheck : ((Config.ofJson steepValue).toOption.any fun c =>
      c.heading.isFinite && fault? c.draft.segments == some .headingUnbounded) = true := by
    decide +kernel
  cases hread : Config.ofJson steepValue with
  | error fault =>
      rw [hread] at hcheck
      cases hcheck
  | ok c =>
      rw [hread] at hcheck
      simp only [Except.toOption, Option.any_some, Bool.and_eq_true, beq_iff_eq] at hcheck
      exact ⟨c, rfl, hcheck.1, fault?_eq_some_iff.1 hcheck.2⟩

/-- **What is accepted can be drawn.** An accepted configuration builds the drawing that it plans
    and has its instructions. It draws at least one segment, unless it is refused for its word, or
    for a heading that is infinite in radians, as one that is in range in degrees can be. It is
    never refused for an argument or a setting, and a page of it never for having no segments. -/
theorem accepted_draws :
    (∀ value c, Config.ofJson value = .ok c →
      c.draft.drawing? = .ok c.drawing ∧
      c.draft.instructions = .ok (resolveAliases c.aliases c.grammar.expansion) ∧
      (∀ segments, c.draft.segments = .ok segments → segments ≠ []) ∧
      (∀ fault, c.draft.segments = .error fault →
        DrawingFault (Angle.ofDegrees c.heading).isInfinite fault ∧
        (∀ cause, fault ≠ .argument cause) ∧ ∀ cause, fault ≠ .setting cause) ∧
      ∀ target, (Command.performRender c target).outcome ≠ .error .noGeometry) ∧
    ∃ value c, Config.ofJson value = .ok c ∧ c.heading.isFinite = true ∧
      c.draft.segments = .error .headingUnbounded := by
  refine ⟨fun value c h => ?_, steepValue, steepValue_refused⟩
  have hc : c.Valid := Config.valid_of_ofJson h
  have hsegments := c.meets_segments hc
  rw [← c.segments_draft] at hsegments
  refine ⟨c.drawing?_draft, c.instructions_draft, ?_, ?_, ?_⟩
  · intro segments hok
    exact (hsegments.of_ok segments hok).1
  · intro fault herror
    have hfault := hsegments.of_error fault herror
    refine ⟨hfault, ?_, ?_⟩
    · rintro cause rfl
      cases hfault
    · rintro cause rfl
      cases hfault
  · intro target herror
    cases (Command.meets_performRender hc target).of_error _ herror with
    | drawing h => cases h

/-- A configuration that is refused for its heading has one that is infinite in radians. -/
theorem accepted_draws_steep :
    ∃ c, Config.ofJson steepValue = .ok c ∧ (Angle.ofDegrees c.heading).isInfinite = true := by
  obtain ⟨c, hread, _, hrefused⟩ := steepValue_refused
  obtain ⟨hfault, _⟩ :=
    (accepted_draws.1 steepValue c hread).2.2.2.1 .headingUnbounded hrefused
  cases hfault with
  | headingUnbounded h => exact ⟨c, hread, h⟩

end TurtleGrammar
