import TurtleGrammar.Proofs.Drawing

/-!
# `TurtleGrammar.Proofs.Connected` — drawings are connected

The turtle never jumps to a new place: it starts at the origin, goes where a line ends, and returns
to where a branch began. Every line therefore starts at the origin or where an earlier line ends.
When repetitions are dropped, the line that another one hangs on may be among them, but then an
equal one was kept before it, which ends at an equal point.

## Contents
- `Touches`, `Connected`: points and lines that hang on the lines before them.
- `Machine.Rooted`: the turtle and all saved frames stand on the drawing; preserved by every symbol.
- `connected_distinct`: a drawing without its repetitions.
- `segments_connected`: what a word draws, and what is kept of it.
-/

namespace TurtleGrammar

variable {meets : Point → Point → Prop} {segments : List Segment} {p : Point} {s : Segment}

/-- Is the point the origin, or does it meet the end of one of the segments? -/
def Touches (meets : Point → Point → Prop) (segments : List Segment) (p : Point) : Prop :=
  p = .origin ∨ ∃ e ∈ segments, meets p e.stop

/-- Does every segment start at the origin or where a segment before it ends? -/
def Connected (meets : Point → Point → Prop) (segments : List Segment) : Prop :=
  ∀ before s after, segments = before ++ s :: after → Touches meets before s.start

theorem Touches.append (h : Touches meets segments p) (more : List Segment) :
    Touches meets (segments ++ more) p := by
  rcases h with rfl | ⟨e, he, hmeets⟩
  · exact Or.inl rfl
  · exact Or.inr ⟨e, List.mem_append_left more he, hmeets⟩

theorem connected_nil : Connected meets [] := by
  intro before s after h
  exact absurd h.symm (List.append_ne_nil_of_right_ne_nil before (List.cons_ne_nil s after))

theorem Connected.append_singleton (h : Connected meets segments)
    (hs : Touches meets segments s.start) : Connected meets (segments ++ [s]) := by
  intro before t after heq
  -- the segment asked about is the new one, or it has its place among the older ones
  rcases List.append_eq_append_iff.1 heq with ⟨between, hbefore, hnew⟩ | ⟨between, hold, hnew⟩
  · cases between with
    | nil =>
        obtain ⟨rfl, _⟩ := List.cons.inj hnew
        rw [hbefore, List.append_nil]
        exact hs
    | cons d between =>
        have hlength := congrArg List.length hnew
        simp at hlength
  · cases between with
    | nil =>
        obtain ⟨rfl, _⟩ := List.cons.inj hnew
        rw [List.append_nil] at hold
        exact hold ▸ hs
    | cons d between =>
        obtain ⟨rfl, _⟩ := List.cons.inj hnew
        exact h before t between hold

theorem Connected.of_append_singleton (h : Connected meets (segments ++ [s])) :
    Connected meets segments ∧ Touches meets segments s.start := by
  constructor
  · intro before t after heq
    apply h before t (after ++ [s])
    rw [heq, List.append_assoc, List.cons_append]
  · exact h segments s [] rfl

/-- The first of connected segments starts at the origin. -/
theorem Connected.head (h : Connected meets segments) (hne : segments ≠ []) :
    segments.head?.map Segment.start = some .origin := by
  obtain ⟨s, rest, rfl⟩ := List.exists_cons_of_ne_nil hne
  rcases h [] s rest rfl with horigin | ⟨e, he, _⟩
  · exact congrArg some horigin
  · exact absurd he List.not_mem_nil

/-! ## The turtle on its drawing -/

namespace Machine

variable {annotate : Bool} {c : Char} {rest word : Word} {m next last : Machine}

/-- The turtle and all saved frames stand at the origin or where a line ends, and every line starts
    so. -/
structure Rooted (m : Machine) : Prop where
  connected : Connected (· = ·) m.segments
  position : Touches (· = ·) m.segments m.turtle.position
  frames : ∀ f ∈ m.stack, Touches (· = ·) m.segments f.position

theorem rooted_start (setup : Setup) : (start setup).Rooted :=
  ⟨connected_nil, Or.inl rfl, fun _ hf => absurd hf List.not_mem_nil⟩

/-- A new line starts where the turtle stands, and takes it to its own end. -/
theorem Rooted.draw {line : Segment} {after : Machine} (hm : m.Rooted)
    (hsegments : after.segments = m.segments ++ [line]) (hstart : line.start = m.turtle.position)
    (hposition : after.turtle.position = line.stop) (hstack : after.stack = m.stack) :
    after.Rooted := by
  refine ⟨?_, ?_, ?_⟩
  · rw [hsegments]
    exact hm.connected.append_singleton (hstart ▸ hm.position)
  · rw [hsegments, hposition]
    exact Or.inr ⟨line, List.mem_append_right _ List.mem_cons_self, rfl⟩
  · intro f hf
    rw [hsegments]
    exact (hm.frames f (hstack ▸ hf)).append [line]

/-- **One symbol** leaves the turtle on its drawing. -/
theorem Rooted.reads (h : Reads annotate rest m c next) (hm : m.Rooted) : next.Rooted := by
  have hframes := h.forall_frames hm.position hm.frames
  cases h with
  | ignore | turnPositive | turnNegative | push | scale | flip =>
      exact ⟨hm.connected, hm.position, hframes⟩
  | draw =>
      have hstart : (m.turtle.lineTo annotate m.turtle.ahead).start = m.turtle.position := by
        cases annotate <;> rfl
      have hstop : (m.turtle.lineTo annotate m.turtle.ahead).stop = m.turtle.ahead := by
        cases annotate <;> rfl
      exact hm.draw List.reverse_cons hstart hstop.symm rfl
  | @pop f outer hstack =>
      exact ⟨hm.connected, hm.frames f (hstack ▸ List.mem_cons_self), hframes⟩

/-- **A whole word** leaves the turtle on its drawing. -/
theorem rooted_of_readWord (h : readWord annotate word m = .ok last) (hm : m.Rooted) :
    last.Rooted :=
  readWord_invariant (fun _ now => now.Rooted) (fun hreads hnow => hnow.reads hreads) hm h

end Machine

variable {setup : Setup} {annotate : Bool} {word : Word}

theorem connected_of_interpret (h : interpret setup annotate word = .ok segments) :
    Connected (· = ·) segments := by
  obtain ⟨_, _, last, hread, rfl⟩ := interpret_eq_ok_iff.1 h
  exact (Machine.rooted_of_readWord hread (Machine.rooted_start setup)).connected

/-! ## Without repetitions -/

/-- What touches the segments of a list touches those that are left of it. -/
theorem Touches.distinct (h : Touches (· = ·) segments p) :
    Touches Point.Coincides (distinct segments) p := by
  rcases h with rfl | ⟨e, he, rfl⟩
  · exact Or.inl rfl
  · exact Or.inr (exists_coincides_of_mem he)

/-- **Repetitions can be dropped.** Connected segments stay connected without their repetitions. -/
theorem connected_distinct (h : Connected (· = ·) segments) :
    Connected Point.Coincides (distinct segments) := by
  induction segments using List.reverseRecOn with
  | nil => exact connected_nil
  | append_singleton segments s ih =>
      obtain ⟨hearlier, hs⟩ := h.of_append_singleton
      rw [distinct_append_singleton]
      by_cases hany : (distinct segments).any s.equals = true
      · rw [if_pos hany, List.append_nil]
        exact ih hearlier
      · rw [if_neg hany]
        exact (ih hearlier).append_singleton hs.distinct

/-- **Drawings are connected.** The first segment of a word that is drawn starts at the origin, and
    every segment starts at the origin or at the very point at which an earlier one ends. The same
    holds of the segments that a drawing keeps without their repetitions, where the two points may
    be different forms of equal ones. -/
theorem segments_connected :
    (∀ (setup : Setup) (annotate : Bool) (word : Word) (segments : List Segment),
      interpret setup annotate word = .ok segments →
      segments.head?.map Segment.start = some .origin ∧ Connected (· = ·) segments) ∧
    (∀ (d : Drawing) (segments : List Segment), d.distinct = true →
      d.segments.outcome = .ok segments →
      segments.head?.map Segment.start = some .origin ∧
        Connected Point.Coincides segments) := by
  constructor
  · intro setup annotate word segments h
    have hconnected := connected_of_interpret h
    exact ⟨hconnected.head (segments_ne_nil h), hconnected⟩
  · intro d segments hdistinct h
    obtain ⟨angle, all, _, hall, rfl⟩ := Drawing.outcome_segments_eq_ok_iff.1 h
    have hkept : d.kept all = distinct all := if_pos hdistinct
    have hconnected : Connected Point.Coincides (d.kept all) :=
      hkept ▸ connected_distinct (connected_of_interpret hall)
    exact ⟨hconnected.head (d.kept_ne_nil (segments_ne_nil hall)), hconnected⟩

/-- The line inside the branch is drawn once more behind it, and the last line hangs on the second
    of the two. -/
def forked : Drawing where
  grammar := ⟨['F', '[', 'F', ']', 'F', '+', 'F'], .ofList [], 3, List.cons_ne_nil _ _,
    by decide⟩
  aliases := []
  angle := some Angle.quarterTurn
  heading := .zero
  step := .one
  annotate := false
  distinct := true

theorem segments_connected_forked :
    forked.distinct = true ∧ ∃ all segments,
      interpret ⟨Angle.quarterTurn, .zero, .one⟩ false forked.word = .ok all ∧
      all.length = 4 ∧ Connected (· = ·) all ∧
      forked.segments.outcome = .ok segments ∧
      segments.head?.map Segment.start = some .origin ∧ Connected Point.Coincides segments := by
  have hok : (interpret ⟨Angle.quarterTurn, .zero, .one⟩ false forked.word).isOk = true := by
    decide +kernel
  obtain ⟨all, h⟩ := exists_of_isOk hok
  have hlength : all.length = 4 := (length_of_interpret h).trans (by decide +kernel)
  have houtcome : forked.segments.outcome = .ok (forked.kept all) :=
    Drawing.outcome_segments_eq_ok_iff.2 ⟨Angle.quarterTurn, all, rfl, h, rfl⟩
  obtain ⟨hword, hdrawing⟩ := segments_connected
  exact ⟨rfl, all, _, h, hlength, (hword _ _ _ _ h).2, houtcome, hdrawing forked _ rfl houtcome⟩

end TurtleGrammar
