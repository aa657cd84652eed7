import TurtleGrammar.Proofs.Numeral

/-!
# `TurtleGrammar.Proofs.Reading` — words read symbol by symbol

A machine passes over the numeral that a scale symbol has taken. It need not: digits and points
instruct nothing, so obeying them changes nothing. `Machine.readWord` obeys every symbol of a word,
and `Machine.run` agrees with it but for the count of unread symbols. What one symbol can do is said
once, by the relations `Reads` and `Refuses`; every fact about whole words follows from them by an
induction over the word.

## Contents
- `Instruction.count`: how often a word gives an instruction.
- `Machine.read`, `Machine.readWord`, and `run_settled`: the machine's run as a reading.
- `Machine.Reads`, `Machine.Refuses`: the effect of one symbol, and when there is none.
- `readWord_invariant`: what every symbol preserves, a whole word preserves.
- `readWord_map`: what one machine does at every symbol as another one does, it does at whole words.
- `interpret_eq_ok_iff`, `interpret_eq_error_iff`: what a word draws, by its reading.
- `interpret_map`, `interpret_mapError`: what two words draw whose readings agree.
-/

namespace TurtleGrammar

namespace Instruction

theorem ofSymbol?_eq_some_iff {c : Char} {i : Instruction} :
    ofSymbol? c = some i ↔ c = i.symbol := by
  constructor
  · intro h
    unfold ofSymbol? at h
    split at h <;> cases h <;> rfl
  · rintro rfl
    exact ofSymbol?_symbol i

theorem ne_symbol_of_none {c : Char} (h : ofSymbol? c = none) (i : Instruction) : c ≠ i.symbol := by
  rintro rfl
  rw [ofSymbol?_symbol] at h
  cases h

theorem isNumeralSymbol_symbol (i : Instruction) : isNumeralSymbol i.symbol = false := by
  cases i <;> decide

/-- Symbols of numerals instruct nothing. -/
theorem ofSymbol?_of_isNumeralSymbol {c : Char} (h : isNumeralSymbol c = true) :
    ofSymbol? c = none := by
  cases hc : ofSymbol? c with
  | none => rfl
  | some i =>
      rw [ofSymbol?_eq_some_iff.1 hc, isNumeralSymbol_symbol] at h
      exact absurd h (by decide)

/-- How often a word gives an instruction. -/
def count (i : Instruction) (word : Word) : Nat := List.count i.symbol word

@[simp] theorem count_append (i : Instruction) (u v : Word) :
    i.count (u ++ v) = i.count u + i.count v := List.count_append

theorem count_cons (i : Instruction) (c : Char) (word : Word) :
    i.count (c :: word) = i.count [c] + i.count word := i.count_append [c] word

theorem count_singleton_of_none {c : Char} (h : ofSymbol? c = none) (i : Instruction) :
    i.count [c] = 0 := by
  refine List.count_eq_zero.2 fun hmem => ?_
  exact ne_symbol_of_none h i (List.mem_singleton.1 hmem).symm

end Instruction

namespace Machine

/-- The machine with no symbol left that it would pass over. -/
def settled (m : Machine) : Machine := { m with unread := 0 }

/-- Obey one symbol and go on to the next one; `rest` is the word after it. -/
def read (annotate : Bool) (symbol : Char) (rest : Word) (m : Machine) : Except Fault Machine :=
  (m.obey annotate symbol rest).map fun next => next.advance.settled

/-- Obey every symbol of a word, up to the first one that cannot be obeyed. -/
def readWord (annotate : Bool) : Word → Machine → Except Fault Machine
  | [], m => .ok m
  | symbol :: rest, m =>
    match m.read annotate symbol rest with
    | .error fault => .error fault
    | .ok next => readWord annotate rest next

/-! ## What one symbol does -/

/-- The effect of a symbol that is obeyed; `rest` is the word after it. -/
inductive Reads (annotate : Bool) (rest : Word) (m : Machine) : Char → Machine → Prop where
  | ignore {c : Char} (h : Instruction.ofSymbol? c = none) :
      Reads annotate rest m c ⟨m.turtle, m.stack, m.drawn, m.cursor + 1, 0⟩
  | draw (h : m.turtle.heading.isInfinite = false) :
      Reads annotate rest m Instruction.draw.symbol
        ⟨{ m.turtle with position := m.turtle.ahead }, m.stack,
          m.turtle.lineTo annotate m.turtle.ahead :: m.drawn, m.cursor + 1, 0⟩
  | turnPositive :
      Reads annotate rest m Instruction.turnPositive.symbol
        ⟨{ m.turtle with heading := Angle.turn m.turtle.heading m.turtle.angle }, m.stack, m.drawn,
          m.cursor + 1, 0⟩
  | turnNegative :
      Reads annotate rest m Instruction.turnNegative.symbol
        ⟨{ m.turtle with heading := Angle.turn m.turtle.heading (-m.turtle.angle) }, m.stack,
          m.drawn, m.cursor + 1, 0⟩
  | push :
      Reads annotate rest m Instruction.push.symbol
        ⟨{ m.turtle with depth := m.turtle.depth + 1 }, m.turtle.frame :: m.stack, m.drawn,
          m.cursor + 1, 0⟩
  | pop {f : Frame} {outer : List Frame} (h : m.stack = f :: outer) :
      Reads annotate rest m Instruction.pop.symbol
        ⟨m.turtle.restore f, outer, m.drawn, m.cursor + 1, 0⟩
  | scale (h : numeral rest ≠ []) :
      Reads annotate rest m Instruction.scale.symbol
        ⟨{ m.turtle with step := m.turtle.step * numeralValue (numeral rest) }, m.stack, m.drawn,
          m.cursor + 1, 0⟩
  | flip :
      Reads annotate rest m Instruction.flip.symbol
        ⟨{ m.turtle with angle := -m.turtle.angle }, m.stack, m.drawn, m.cursor + 1, 0⟩

/-- Why a symbol is not obeyed. -/
inductive Refuses (rest : Word) (m : Machine) : Char → Fault → Prop where
  | draw (h : m.turtle.heading.isInfinite = true) :
      Refuses rest m Instruction.draw.symbol .headingUnbounded
  | pop (h : m.stack = []) : Refuses rest m Instruction.pop.symbol (.noOpenBranch m.cursor)
  | scale (h : numeral rest = []) : Refuses rest m Instruction.scale.symbol (.noNumeral m.cursor)

variable {annotate : Bool} {c : Char} {u v rest word : Word} {m next last : Machine}
  {fault : Fault}

theorem draw_of_finite (h : m.turtle.heading.isInfinite = false) :
    m.draw annotate = .ok { m with
      turtle := { m.turtle with position := m.turtle.ahead }
      drawn := m.turtle.lineTo annotate m.turtle.ahead :: m.drawn } := by
  unfold Machine.draw
  rw [h]
  rfl

theorem draw_of_infinite (h : m.turtle.heading.isInfinite = true) :
    m.draw annotate = .error .headingUnbounded := by
  unfold Machine.draw
  rw [h]
  rfl

theorem pop_of_nil (h : m.stack = []) : m.pop = .error (.noOpenBranch m.cursor) := by
  unfold Machine.pop
  rw [h]

theorem pop_of_cons {f : Frame} {outer : List Frame} (h : m.stack = f :: outer) :
    m.pop = .ok { m with turtle := m.turtle.restore f, stack := outer } := by
  unfold Machine.pop
  rw [h]

theorem scale_of_nil (h : numeral rest = []) : m.scale rest = .error (.noNumeral m.cursor) := by
  unfold Machine.scale scanNumeral
  rw [h]
  rfl

theorem scale_of_ne_nil (h : numeral rest ≠ []) :
    m.scale rest = .ok { m with
      turtle := { m.turtle with step := m.turtle.step * numeralValue (numeral rest) }
      unread := (numeral rest).length } := by
  unfold Machine.scale scanNumeral
  exact if_neg (mt List.length_eq_zero_iff.1 h)

/-- **One symbol.** It has its effect, or it is refused for its reason. -/
theorem read_cases (annotate : Bool) (c : Char) (rest : Word) (m : Machine) :
    (∃ next, m.read annotate c rest = .ok next ∧ Reads annotate rest m c next) ∨
    (∃ fault, m.read annotate c rest = .error fault ∧ Refuses rest m c fault) := by
  unfold read obey
  cases hc : Instruction.ofSymbol? c with
  | none => exact Or.inl ⟨_, rfl, .ignore hc⟩
  | some i =>
      obtain rfl := Instruction.ofSymbol?_eq_some_iff.1 hc
      cases i with
      | draw =>
          cases h : m.turtle.heading.isInfinite with
          | true => exact Or.inr ⟨_, congrArg _ (draw_of_infinite h), .draw h⟩
          | false => exact Or.inl ⟨_, congrArg _ (draw_of_finite h), .draw h⟩
      | turnPositive => exact Or.inl ⟨_, rfl, .turnPositive⟩
      | turnNegative => exact Or.inl ⟨_, rfl, .turnNegative⟩
      | push => exact Or.inl ⟨_, rfl, .push⟩
      | pop =>
          cases h : m.stack with
          | nil => exact Or.inr ⟨_, congrArg _ (pop_of_nil h), .pop h⟩
          | cons f outer => exact Or.inl ⟨_, congrArg _ (pop_of_cons h), .pop h⟩
      | scale =>
          by_cases h : numeral rest = []
          · exact Or.inr ⟨_, congrArg _ (scale_of_nil h), .scale h⟩
          · exact Or.inl ⟨_, congrArg _ (scale_of_ne_nil h), .scale h⟩
      | flip => exact Or.inl ⟨_, rfl, .flip⟩

theorem Reads.cursor_eq (h : Reads annotate rest m c next) : next.cursor = m.cursor + 1 := by
  cases h <;> rfl

/-- The saved frames after a symbol were saved before it, or are what the turtle was before it. -/
theorem Reads.forall_frames {Holds : Frame → Prop} (h : Reads annotate rest m c next)
    (hturtle : Holds m.turtle.frame) (hframes : ∀ f ∈ m.stack, Holds f) :
    ∀ f ∈ next.stack, Holds f := by
  intro f hf
  cases h with
  | ignore | draw | turnPositive | turnNegative | scale | flip => exact hframes f hf
  | push =>
      rcases List.mem_cons.1 hf with rfl | hf
      · exact hturtle
      · exact hframes f hf
  | @pop g outer hstack => exact hframes f (hstack ▸ List.mem_cons_of_mem g hf)

theorem Reads.read_eq (h : Reads annotate rest m c next) : m.read annotate c rest = .ok next := by
  unfold read obey
  cases h with
  | ignore h => rw [h]; rfl
  | draw h => exact congrArg _ (draw_of_finite h)
  | turnPositive => rfl
  | turnNegative => rfl
  | push => rfl
  | pop h => exact congrArg _ (pop_of_cons h)
  | scale h => exact congrArg _ (scale_of_ne_nil h)
  | flip => rfl

theorem read_eq_ok_iff : m.read annotate c rest = .ok next ↔ Reads annotate rest m c next := by
  constructor
  · intro h
    rcases read_cases annotate c rest m with ⟨next', hok, hreads⟩ | ⟨fault, herror, _⟩
    · rw [hok] at h
      exact Except.ok.inj h ▸ hreads
    · rw [herror] at h
      cases h
  · exact Reads.read_eq

theorem Refuses.read_eq (h : Refuses rest m c fault) : m.read annotate c rest = .error fault := by
  cases h with
  | draw h => exact congrArg _ (draw_of_infinite h)
  | pop h => exact congrArg _ (pop_of_nil h)
  | scale h => exact congrArg _ (scale_of_nil h)

/-- Only a scale symbol looks at the word after it. -/
theorem obey_congr_rest (h : c = Instruction.scale.symbol → numeral u = numeral v) :
    m.obey annotate c u = m.obey annotate c v := by
  unfold obey
  cases hc : Instruction.ofSymbol? c with
  | none => rfl
  | some i =>
      cases i with
      | scale =>
          have hscan : scanNumeral u = scanNumeral v := by
            unfold scanNumeral
            rw [h (Instruction.ofSymbol?_eq_some_iff.1 hc)]
          unfold Machine.scale
          rw [hscan]
      | _ => rfl

/-! ## Whole words -/

theorem Reads.readWord_cons (h : Reads annotate rest m c next) :
    readWord annotate (c :: rest) m = readWord annotate rest next := by
  rw [readWord, h.read_eq]

theorem readWord_cons_eq_ok_iff :
    readWord annotate (c :: rest) m = .ok last ↔
      ∃ next, Reads annotate rest m c next ∧ readWord annotate rest next = .ok last := by
  rw [readWord]
  constructor
  · intro h
    cases hread : m.read annotate c rest with
    | error fault =>
        rw [hread] at h
        cases h
    | ok next =>
        rw [hread] at h
        exact ⟨next, read_eq_ok_iff.1 hread, h⟩
  · rintro ⟨next, hreads, h⟩
    rwa [hreads.read_eq]

/-- **Invariants.** What every symbol that is obeyed preserves, a whole word preserves. The
    invariant may speak of the part of the word that was read. -/
theorem readWord_invariant (Holds : Word → Machine → Prop)
    (hstep : ∀ {done rest : Word} {c : Char} {m next : Machine},
      Reads annotate rest m c next → Holds done m → Holds (done ++ [c]) next)
    (hm : Holds [] m) (h : readWord annotate word m = .ok last) : Holds word last := by
  -- the induction is on what is left of the word, for every part that may have been read before
  suffices hrest : ∀ done : Word, Holds done m → Holds (done ++ word) last from hrest [] hm
  clear hm
  induction word generalizing m with
  | nil =>
      intro done hdone
      cases h
      rwa [List.append_nil]
  | cons c rest ih =>
      intro done hdone
      obtain ⟨next, hreads, hnext⟩ := readWord_cons_eq_ok_iff.1 h
      have hrest := ih hnext (done ++ [c]) (hstep hreads hdone)
      rwa [List.append_assoc, List.singleton_append] at hrest

/-- **Simulations.** If one machine obeys and refuses every symbol as another one does, it reads
    every word as the other one does. The two may read different symbols. -/
theorem readWord_map {other : Bool} (symbol : Char → Char) (image : Machine → Machine)
    (blame : Fault → Fault)
    (hreads : ∀ {rest : Word} {c : Char} {m next : Machine}, Reads annotate rest m c next →
      Reads other (rest.map symbol) (image m) (symbol c) (image next))
    (hrefuses : ∀ {rest : Word} {c : Char} {m : Machine} {fault : Fault}, Refuses rest m c fault →
      Refuses (rest.map symbol) (image m) (symbol c) (blame fault))
    (word : Word) (m : Machine) :
    readWord other (word.map symbol) (image m) =
      ((readWord annotate word m).map image).mapError blame := by
  induction word generalizing m with
  | nil => rfl
  | cons c rest ih =>
      rw [List.map_cons, readWord, readWord]
      rcases read_cases annotate c rest m with ⟨next, hread, h⟩ | ⟨fault, hread, h⟩
      · rw [hread, (hreads h).read_eq]
        exact ih next
      · rw [hread, (hrefuses h).read_eq]
        rfl

/-! ## The run as a reading -/

/-- The symbols that a machine is about to pass over can all stand in a numeral. -/
def Aligned (m : Machine) (word : Word) : Prop := ∀ c ∈ word.take m.unread, isNumeralSymbol c = true

theorem aligned_start (setup : Setup) (word : Word) : (start setup).Aligned word := by
  intro c hc
  exact absurd hc List.not_mem_nil

/-- A symbol that is obeyed leaves only its numeral to be passed over. -/
theorem aligned_obey (hm : m.unread = 0) (h : m.obey annotate c rest = .ok next) :
    next.advance.Aligned rest := by
  unfold Aligned
  -- only a scale symbol sets the count, and it sets it to the length of its numeral
  suffices hunread : next.unread = 0 ∨ rest.take next.unread = numeral rest by
    intro d hd
    rcases hunread with hzero | htake
    · simp [advance, hzero] at hd
    · exact isNumeralSymbol_of_mem_numeral (htake ▸ hd)
  unfold obey at h
  cases hc : Instruction.ofSymbol? c with
  | none =>
      rw [hc] at h
      exact Or.inl (Except.ok.inj h ▸ hm)
  | some i =>
      rw [hc] at h
      cases i with
      | draw =>
          cases hinfinite : m.turtle.heading.isInfinite with
          | true => cases h.symm.trans (draw_of_infinite hinfinite)
          | false =>
              exact Or.inl (Except.ok.inj ((draw_of_finite hinfinite).symm.trans h) ▸ hm)
      | pop =>
          cases hstack : m.stack with
          | nil => cases h.symm.trans (pop_of_nil hstack)
          | cons f outer => exact Or.inl (Except.ok.inj ((pop_of_cons hstack).symm.trans h) ▸ hm)
      | scale =>
          by_cases hnone : numeral rest = []
          · cases h.symm.trans (scale_of_nil hnone)
          · right
            rw [← Except.ok.inj ((scale_of_ne_nil hnone).symm.trans h)]
            exact (List.prefix_iff_eq_take.1 (numeral_isPrefix rest)).symm
      | turnPositive => exact Or.inl (Except.ok.inj h ▸ hm)
      | turnNegative => exact Or.inl (Except.ok.inj h ▸ hm)
      | push => exact Or.inl (Except.ok.inj h ▸ hm)
      | flip => exact Or.inl (Except.ok.inj h ▸ hm)

theorem settled_of_unread (h : m.unread = 0) : m.settled = m := by
  cases m
  cases h
  rfl

/-- A machine that passes over a symbol does as if it obeyed it, for such a symbol instructs
    nothing. -/
theorem step_settled (h : m.Aligned (c :: rest)) :
    (m.step annotate c rest).map settled = m.settled.read annotate c rest := by
  unfold step
  cases hunread : m.unread with
  | succ left =>
      have hc : isNumeralSymbol c = true := h c (by simp [hunread])
      have hread : m.settled.read annotate c rest = .ok m.advance.settled :=
        (Reads.ignore (Instruction.ofSymbol?_of_isNumeralSymbol hc)).read_eq
      rw [hread]
      rfl
  | zero =>
      rw [settled_of_unread hunread, read]
      show ((m.obey annotate c rest).map advance).map settled = _
      cases m.obey annotate c rest <;> rfl

theorem Aligned.step (h : m.Aligned (c :: rest)) (hstep : m.step annotate c rest = .ok next) :
    next.Aligned rest := by
  unfold Machine.step at hstep
  cases hunread : m.unread with
  | succ left =>
      rw [hunread] at hstep
      obtain rfl := Except.ok.inj hstep
      intro d hd
      exact h d (by rw [hunread]; exact List.mem_cons_of_mem c hd)
  | zero =>
      rw [hunread] at hstep
      cases hobey : m.obey annotate c rest with
      | error fault =>
          rw [hobey] at hstep
          cases hstep
      | ok obeyed =>
          rw [hobey] at hstep
          obtain rfl := Except.ok.inj hstep
          exact aligned_obey hunread hobey

/-- **The run as a reading.** Where a machine passes over a symbol, the reading obeys it in vain. -/
theorem run_settled (h : m.Aligned word) :
    (run annotate word m).map settled = readWord annotate word m.settled := by
  induction word generalizing m with
  | nil => rfl
  | cons c rest ih =>
      rw [run, readWord, ← step_settled h]
      cases hstep : m.step annotate c rest with
      | error fault => rfl
      | ok next => exact ih (h.step hstep)

end Machine

/-! ## What a word draws -/

variable {annotate : Bool} {setup : Setup} {word : Word} {fault : Fault} {segments : List Segment}

theorem map_eq_error_iff {α β : Type} {f : α → β} {result : Except Fault α} :
    result.map f = .error fault ↔ result = .error fault := by
  constructor
  · intro h
    cases result with
    | error other => exact congrArg Except.error (Except.error.inj h)
    | ok value => cases h
  · rintro rfl
    rfl

theorem map_eq_ok_iff {α β : Type} {f : α → β} {result : Except Fault α} {b : β} :
    result.map f = .ok b ↔ ∃ a, result = .ok a ∧ f a = b := by
  constructor
  · intro h
    cases result with
    | error other => cases h
    | ok value => exact ⟨value, rfl, Except.ok.inj h⟩
  · rintro ⟨a, rfl, rfl⟩
    rfl

theorem exists_of_isOk {α : Type} {result : Except Fault α} (h : result.isOk = true) :
    ∃ value, result = .ok value := by
  cases result with
  | error fault => cases h
  | ok value => exact ⟨value, rfl⟩

theorem interpret_of_not_positive (h : setup.step.isPositive = false) :
    interpret setup annotate word = .error (.argument (.step setup.step)) := by
  unfold interpret
  rw [h]
  rfl

theorem interpret_of_not_draws (hstep : setup.step.isPositive = true)
    (hdraw : Instruction.draw.symbol ∉ word) :
    interpret setup annotate word = .error .nothingDrawn := by
  have hcontains : word.contains Instruction.draw.symbol = false := by
    rw [← Bool.not_eq_true, List.contains_iff_mem]
    exact hdraw
  unfold interpret
  rw [hstep, hcontains]
  rfl

/-- A word that may be drawn is drawn by reading it. -/
theorem interpret_of_draws (hstep : setup.step.isPositive = true)
    (hdraw : Instruction.draw.symbol ∈ word) :
    interpret setup annotate word =
      (Machine.readWord annotate word (.start setup)).map Machine.segments := by
  have hrun : (Machine.run annotate word (.start setup)).map Machine.settled =
      Machine.readWord annotate word (.start setup) :=
    Machine.run_settled (Machine.aligned_start setup word)
  unfold interpret
  rw [hstep, List.contains_iff_mem.2 hdraw, ← hrun]
  cases Machine.run annotate word (.start setup) with
  | error fault => rfl
  | ok last => rfl

/-- Words whose readings agree are drawn alike, if the same of them may be drawn at all. -/
theorem interpret_map {other : Setup} {otherAnnotate : Bool} {otherWord : Word}
    (image : Segment → Segment) (blame : Fault → Fault) (hstep : other.step = setup.step)
    (hdraw : Instruction.draw.symbol ∈ otherWord ↔ Instruction.draw.symbol ∈ word)
    (hargument : ∀ cause, blame (.argument cause) = .argument cause)
    (hnothing : blame .nothingDrawn = .nothingDrawn)
    (hread : (Machine.readWord otherAnnotate otherWord (.start other)).map Machine.segments =
      ((Machine.readWord annotate word (.start setup)).map
        fun last => last.segments.map image).mapError blame) :
    interpret other otherAnnotate otherWord =
      ((interpret setup annotate word).map (List.map image)).mapError blame := by
  by_cases hpositive : setup.step.isPositive = true
  · have hpositive' : other.step.isPositive = true := hstep ▸ hpositive
    by_cases hmem : Instruction.draw.symbol ∈ word
    · rw [interpret_of_draws hpositive hmem, interpret_of_draws hpositive' (hdraw.2 hmem), hread]
      cases Machine.readWord annotate word (.start setup) <;> rfl
    · rw [interpret_of_not_draws hpositive hmem,
        interpret_of_not_draws hpositive' (mt hdraw.1 hmem)]
      exact congrArg Except.error hnothing.symm
  · have hneg : setup.step.isPositive = false := by simpa using hpositive
    rw [interpret_of_not_positive hneg, interpret_of_not_positive (hstep ▸ hneg), hstep]
    exact congrArg Except.error (hargument _).symm

/-- Words whose readings draw the same and differ in their faults are drawn so. -/
theorem interpret_mapError {other : Setup} {otherWord : Word} (blame : Fault → Fault)
    (hstep : other.step = setup.step)
    (hdraw : Instruction.draw.symbol ∈ otherWord ↔ Instruction.draw.symbol ∈ word)
    (hargument : ∀ cause, blame (.argument cause) = .argument cause)
    (hnothing : blame .nothingDrawn = .nothingDrawn)
    (hread : (Machine.readWord annotate otherWord (.start other)).map Machine.segments =
      ((Machine.readWord annotate word (.start setup)).map Machine.segments).mapError blame) :
    interpret other annotate otherWord = (interpret setup annotate word).mapError blame := by
  have hmap : interpret other annotate otherWord =
      ((interpret setup annotate word).map (List.map id)).mapError blame := by
    refine interpret_map id blame hstep hdraw hargument hnothing (hread.trans ?_)
    simp only [List.map_id_fun, id_eq]
  rw [hmap, List.map_id_fun]
  cases interpret setup annotate word <;> rfl

theorem interpret_eq_ok_iff :
    interpret setup annotate word = .ok segments ↔
      setup.step.isPositive = true ∧ Instruction.draw.symbol ∈ word ∧
        ∃ last, Machine.readWord annotate word (.start setup) = .ok last ∧
          last.segments = segments := by
  by_cases hstep : setup.step.isPositive = true
  · by_cases hdraw : Instruction.draw.symbol ∈ word
    · rw [interpret_of_draws hstep hdraw, map_eq_ok_iff]
      exact ⟨fun h => ⟨hstep, hdraw, h⟩, fun h => h.2.2⟩
    · rw [interpret_of_not_draws hstep hdraw]
      simp [hdraw]
  · rw [interpret_of_not_positive (by simpa using hstep)]
    simp [hstep]

/-- The segments that a word draws are those of the machine at its end. -/
theorem run_of_interpret (h : interpret setup annotate word = .ok segments) :
    ∃ last, Machine.run annotate word (.start setup) = .ok last ∧ last.segments = segments := by
  obtain ⟨_, _, last, hread, rfl⟩ := interpret_eq_ok_iff.1 h
  have hrun : (Machine.run annotate word (.start setup)).map Machine.settled = .ok last :=
    (Machine.run_settled (Machine.aligned_start setup word)).trans hread
  obtain ⟨m, hm, rfl⟩ := map_eq_ok_iff.1 hrun
  exact ⟨m, hm, rfl⟩

/-- A word that may be drawn and is run to its end gives the segments of the machine there. -/
theorem interpret_of_run {last : Machine} (hstep : setup.step.isPositive = true)
    (hdraw : Instruction.draw.symbol ∈ word)
    (h : Machine.run annotate word (.start setup) = .ok last) :
    interpret setup annotate word = .ok last.segments := by
  unfold interpret
  rw [hstep, List.contains_iff_mem.2 hdraw, h]
  rfl

/-- A word that may be drawn is refused as its reading is. -/
theorem interpret_eq_error_iff (hstep : setup.step.isPositive = true)
    (hdraw : Instruction.draw.symbol ∈ word) :
    interpret setup annotate word = .error fault ↔
      Machine.readWord annotate word (.start setup) = .error fault := by
  rw [interpret_of_draws hstep hdraw]
  exact map_eq_error_iff

end TurtleGrammar
