import TurtleGrammar.Proofs.Reading

/-!
# `TurtleGrammar.Proofs.Mirror` — turning the other way

A turtle can be made to turn the other way in three manners: by a flip in front of its word, by the
opposite turn increment, or by exchanging the two turns in the word. Each of them gives the same
segments, or is refused for the same reason. The turtle and every saved frame of one of the runs
have the opposite turn increment of those of another one, and nothing else tells the runs apart but
the place in the word.

## Contents
- `mirrored`: a word with its two turns exchanged; `numeral_mirrored`.
- `Machine.mirror`, `Machine.Reads.mirror`: the machine with the opposite turn increments.
- `Fault.behind`, `Machine.behind`: the machine with a longer part of the word behind it.
- `interpret_mirrored`: the three manners.
-/

namespace TurtleGrammar

/-! ## Exchanged turns -/

/-- The symbol that turns the other way, for a symbol that turns. -/
def mirrorSymbol (c : Char) : Char :=
  if c = Instruction.turnPositive.symbol then Instruction.turnNegative.symbol
  else if c = Instruction.turnNegative.symbol then Instruction.turnPositive.symbol
  else c

/-- A word with its two turns exchanged. -/
def mirrored (word : Word) : Word := word.map mirrorSymbol

variable {annotate : Bool} {c : Char} {rest word : Word}

theorem mirrorSymbol_of_none (h : Instruction.ofSymbol? c = none) : mirrorSymbol c = c := by
  have hne := Instruction.ne_symbol_of_none h
  unfold mirrorSymbol
  rw [if_neg (hne _), if_neg (hne _)]

theorem mirrorSymbol_eq_draw_iff :
    mirrorSymbol c = Instruction.draw.symbol ↔ c = Instruction.draw.symbol := by
  unfold mirrorSymbol
  split
  · next h => simp [h, Instruction.symbol]
  · split
    · next h => simp [h, Instruction.symbol]
    · exact Iff.rfl

theorem draw_mem_mirrored :
    Instruction.draw.symbol ∈ mirrored word ↔ Instruction.draw.symbol ∈ word := by
  unfold mirrored
  rw [List.mem_map]
  constructor
  · rintro ⟨c, hc, h⟩
    exact mirrorSymbol_eq_draw_iff.1 h ▸ hc
  · intro h
    exact ⟨_, h, rfl⟩

theorem mirrorSymbol_of_isNumeralSymbol (h : isNumeralSymbol c = true) : mirrorSymbol c = c :=
  mirrorSymbol_of_none (Instruction.ofSymbol?_of_isNumeralSymbol h)

/-- No symbol becomes part of a numeral. -/
theorem isNumeralSymbol_mirrorSymbol (c : Char) :
    isNumeralSymbol (mirrorSymbol c) = isNumeralSymbol c := by
  unfold mirrorSymbol
  split
  · next h =>
    rw [h, Instruction.isNumeralSymbol_symbol, Instruction.isNumeralSymbol_symbol]
  · split
    · next h =>
      rw [h, Instruction.isNumeralSymbol_symbol, Instruction.isNumeralSymbol_symbol]
    · rfl

theorem takeWhile_isDigit_mirrored (word : Word) :
    (mirrored word).takeWhile Char.isDigit = word.takeWhile Char.isDigit := by
  induction word with
  | nil => rfl
  | cons c rest ih =>
      show (mirrorSymbol c :: mirrored rest).takeWhile Char.isDigit = _
      cases h : isNumeralSymbol c with
      | true =>
          rw [mirrorSymbol_of_isNumeralSymbol h, List.takeWhile_cons, List.takeWhile_cons, ih]
      | false =>
          have hc := (isDigit_of_not_isNumeralSymbol h).1
          have hmirror := (isDigit_of_not_isNumeralSymbol
            ((isNumeralSymbol_mirrorSymbol c).trans h)).1
          simp [hc, hmirror]

theorem numeralRun_mirrored (word : Word) : numeralRun (mirrored word) = numeralRun word := by
  induction word with
  | nil => rfl
  | cons c rest ih =>
      show numeralRun (mirrorSymbol c :: mirrored rest) = _
      rcases numeralSymbol_cases c with h | rfl | h
      · rw [mirrorSymbol_of_isNumeralSymbol (isNumeralSymbol_of_isDigit h), numeralRun_digit h,
          numeralRun_digit h, ih]
      · rw [mirrorSymbol_of_isNumeralSymbol rfl, numeralRun_point, numeralRun_point,
          takeWhile_isDigit_mirrored]
      · have hmirror := (isNumeralSymbol_mirrorSymbol c).trans h
        rw [numeralRun_other h, numeralRun_other hmirror]

/-- Numerals are read as before. -/
theorem numeral_mirrored (word : Word) : numeral (mirrored word) = numeral word :=
  numeral_congr (numeralRun_mirrored word)

/-! ## Opposite turn increments -/

/-- The setup that turns the other way. -/
def Setup.opposite (setup : Setup) : Setup := { setup with angle := -setup.angle }

theorem Setup.opposite_opposite (setup : Setup) : setup.opposite.opposite = setup := by
  cases setup
  simp [opposite]

/-- The frame as if it had been saved with the opposite turn increment. -/
def Frame.mirror (f : Frame) : Frame := { f with angle := -f.angle }

namespace Machine

variable {m next : Machine} {fault : Fault}

/-- The machine with the opposite turn increments, its own and the saved ones. -/
def mirror (m : Machine) : Machine where
  turtle := { m.turtle with angle := -m.turtle.angle }
  stack := m.stack.map Frame.mirror
  drawn := m.drawn
  cursor := m.cursor
  unread := m.unread

theorem mirror_start (setup : Setup) : (start setup).mirror = start setup.opposite := rfl

/-- What a machine does at a symbol, its mirror image does at the mirrored symbol. -/
theorem Reads.mirror (h : Reads annotate rest m c next) :
    Reads annotate (mirrored rest) m.mirror (mirrorSymbol c) next.mirror := by
  cases h with
  | ignore h =>
      rw [mirrorSymbol_of_none h]
      exact .ignore h
  | draw h => cases annotate <;> exact .draw h
  | turnPositive =>
      -- the other turn by the opposite increment is the same turn
      have hturn : Reads annotate (mirrored rest) m.mirror Instruction.turnNegative.symbol _ :=
        .turnNegative
      have hangle : -m.mirror.turtle.angle = m.turtle.angle := Binary64.neg_neg _
      rw [hangle] at hturn
      exact hturn
  | turnNegative => exact .turnPositive
  | push => exact .push
  | @pop f outer h =>
      have hstack : m.mirror.stack = f.mirror :: outer.map Frame.mirror := by
        show m.stack.map Frame.mirror = _
        rw [h]
        rfl
      exact .pop hstack
  | scale h =>
      have hscale : Reads annotate (mirrored rest) m.mirror Instruction.scale.symbol _ :=
        .scale (numeral_mirrored rest ▸ h)
      rw [numeral_mirrored] at hscale
      exact hscale
  | flip => exact .flip

theorem Refuses.mirror (h : Refuses rest m c fault) :
    Refuses (mirrored rest) m.mirror (mirrorSymbol c) fault := by
  cases h with
  | draw h => exact .draw h
  | pop h =>
      have hstack : m.mirror.stack = [] := by
        show m.stack.map Frame.mirror = []
        rw [h]
        rfl
      exact .pop hstack
  | scale h => exact .scale ((numeral_mirrored rest).trans h)

/-- **The mirror image** of a run is the run of the mirror image. -/
theorem readWord_mirror (annotate : Bool) (word : Word) (m : Machine) :
    readWord annotate (mirrored word) m.mirror = (readWord annotate word m).map mirror := by
  have hread : readWord annotate (word.map mirrorSymbol) m.mirror =
      ((readWord annotate word m).map mirror).mapError id :=
    readWord_map mirrorSymbol mirror id (fun h => h.mirror) (fun h => h.mirror) word m
  rw [mirrored, hread]
  cases readWord annotate word m <;> rfl

end Machine

/-! ## Further on in a word -/

/-- The fault with its position that many symbols further on. -/
def Fault.behind (count : Nat) : Fault → Fault
  | .noNumeral position => .noNumeral (position + count)
  | .noOpenBranch position => .noOpenBranch (position + count)
  | fault => fault

namespace Machine

variable {m next : Machine} {fault : Fault} {count : Nat}

/-- The machine with that many more symbols behind it. -/
def behind (count : Nat) (m : Machine) : Machine := { m with cursor := m.cursor + count }

theorem Reads.behind (h : Reads annotate rest m c next) :
    Reads annotate rest (m.behind count) c (next.behind count) := by
  have hcursor : next.cursor + count = m.cursor + count + 1 := by
    rw [h.cursor_eq]
    exact Nat.add_right_comm ..
  unfold Machine.behind
  rw [hcursor]
  cases h with
  | ignore h => exact .ignore h
  | draw h => exact .draw h
  | turnPositive => exact .turnPositive
  | turnNegative => exact .turnNegative
  | push => exact .push
  | pop h => exact .pop h
  | scale h => exact .scale h
  | flip => exact .flip

theorem Refuses.behind (h : Refuses rest m c fault) :
    Refuses rest (m.behind count) c (fault.behind count) := by
  cases h with
  | draw h => exact .draw h
  | pop h => exact .pop h
  | scale h => exact .scale h

/-- A word that is read further on is read as before, and its faults are found further on. -/
theorem readWord_behind (annotate : Bool) (count : Nat) (word : Word) (m : Machine) :
    readWord annotate word (m.behind count) =
      ((readWord annotate word m).map (behind count)).mapError (Fault.behind count) := by
  have hread : readWord annotate (word.map id) (m.behind count) =
      ((readWord annotate word m).map (behind count)).mapError (Fault.behind count) := by
    apply readWord_map
    · intro rest c m next h
      rw [List.map_id]
      exact h.behind
    · intro rest c m fault h
      rw [List.map_id]
      exact h.behind
  rwa [List.map_id] at hread

end Machine

/-! ## Three manners to turn the other way -/

theorem interpret_opposite (setup : Setup) (annotate : Bool) (word : Word) :
    interpret setup annotate (mirrored word) = interpret setup.opposite annotate word := by
  have hread := Machine.readWord_mirror annotate word (.start setup.opposite)
  rw [Machine.mirror_start, setup.opposite_opposite] at hread
  have hmirrored : interpret setup annotate (mirrored word) =
      (interpret setup.opposite annotate word).mapError id := by
    refine interpret_mapError id rfl draw_mem_mirrored (fun _ => rfl) rfl ?_
    rw [hread]
    cases Machine.readWord annotate word (.start setup.opposite) <;> rfl
  rw [hmirrored]
  cases interpret setup.opposite annotate word <;> rfl

theorem interpret_flip (setup : Setup) (annotate : Bool) (word : Word) :
    interpret setup annotate (Instruction.flip.symbol :: word) =
      (interpret setup.opposite annotate word).mapError (Fault.behind 1) := by
  -- behind the flip stands the machine of the opposite setup, one symbol further on
  have hread : Machine.readWord annotate (Instruction.flip.symbol :: word) (.start setup) =
      Machine.readWord annotate word ((Machine.start setup.opposite).behind 1) :=
    Machine.Reads.flip.readWord_cons
  have hdraw : Instruction.draw.symbol ∈ Instruction.flip.symbol :: word ↔
      Instruction.draw.symbol ∈ word := by
    rw [List.mem_cons]
    exact or_iff_right (by decide)
  refine interpret_mapError (Fault.behind 1) rfl hdraw (fun _ => rfl) rfl ?_
  rw [hread, Machine.readWord_behind]
  cases Machine.readWord annotate word (.start setup.opposite) <;> rfl

/-- **Turning the other way.** The opposite turn increment draws what exchanged turns draw, or is
    refused for the same reason at the same position. A flip in front of the word draws the same
    again, or is refused for the same reason one position further on. -/
theorem interpret_mirrored (setup : Setup) (annotate : Bool) (word : Word) :
    interpret setup.opposite annotate word = interpret setup annotate (mirrored word) ∧
    interpret setup annotate (Instruction.flip.symbol :: word) =
      (interpret setup.opposite annotate word).mapError (Fault.behind 1) :=
  ⟨(interpret_opposite setup annotate word).symm, interpret_flip setup annotate word⟩

end TurtleGrammar
