import TurtleGrammar.Proofs.Detached
import TurtleGrammar.Proofs.LongestNumeral

/-!
# `TurtleGrammar.Proofs.Token` — drawing in two phases

A machine reads a word in one pass: it looks for numerals, passes over symbols and moves the turtle
all at once. The same drawing can be made in two phases. The first takes the word apart into tokens,
each scale symbol with the value of the longest numeral after it; the second moves the turtle by the
tokens alone and knows nothing of symbols, numerals and positions. Both give the same segments, or
are stopped by the same kind of fault, so that words with the same tokens draw the same.

## Contents
- `Token`, `tokens`: the first phase, with `tokens_cons` and `tokens_append`.
- `FaultKind`, `Fault.kind`: faults without the positions that they name.
- `Walk`, `Walk.obey`, `Walk.run`, `drawTokens`: the second phase.
- `Machine.Reads.walk`, `Machine.Refuses.walk`, `Machine.readWord_walk`: one symbol, a whole word.
- `interpret_eq_drawTokens`: one pass and two phases.
-/

namespace TurtleGrammar

/-! ## Tokens -/

/-- What a word tells the turtle to do. -/
inductive Token where
  | draw
  | turnPositive
  | turnNegative
  | push
  | pop
  | scale (factor : Binary64)
  /-- A scale symbol without a numeral after it. -/
  | unscaled
  | flip
  deriving DecidableEq

/-- The tokens of a word from left to right. A scale symbol takes the longest numeral after it along;
    symbols that instruct nothing are dropped. -/
def tokens : Word → List Token
  | [] => []
  | c :: rest =>
    match Instruction.ofSymbol? c with
    | none => tokens rest
    | some .draw => .draw :: tokens rest
    | some .turnPositive => .turnPositive :: tokens rest
    | some .turnNegative => .turnNegative :: tokens rest
    | some .push => .push :: tokens rest
    | some .pop => .pop :: tokens rest
    | some .flip => .flip :: tokens rest
    | some .scale =>
      match longestNumeral? rest with
      | some text => .scale (numeralValue text) :: tokens (rest.drop text.length)
      | none => .unscaled :: tokens rest
  termination_by word => word.length
  decreasing_by all_goals (simp only [List.length_cons, List.length_drop]; omega)

/-- The token of a symbol, if it instructs anything; `rest` is the word after it. -/
def Token.of? (c : Char) (rest : Word) : Option Token :=
  (Instruction.ofSymbol? c).map fun
    | .draw => .draw
    | .turnPositive => .turnPositive
    | .turnNegative => .turnNegative
    | .push => .push
    | .pop => .pop
    | .flip => .flip
    | .scale => if numeral rest = [] then .unscaled else .scale (numeralValue (numeral rest))

variable {c : Char} {u v rest word : Word}

theorem Token.of?_scale (rest : Word) : Token.of? Instruction.scale.symbol rest =
    some (if numeral rest = [] then .unscaled else .scale (numeralValue (numeral rest))) := rfl

@[simp] theorem tokens_nil : tokens [] = [] := by
  rw [tokens]

theorem tokens_cons_of_none (h : Instruction.ofSymbol? c = none) :
    tokens (c :: rest) = tokens rest := by
  rw [tokens, h]

/-- Symbols that instruct nothing leave no tokens. -/
theorem tokens_append_of_none (h : ∀ c ∈ u, Instruction.ofSymbol? c = none) :
    tokens (u ++ v) = tokens v := by
  induction u with
  | nil => rfl
  | cons c u ih =>
      rw [List.cons_append, tokens_cons_of_none (h c List.mem_cons_self)]
      exact ih fun d hd => h d (List.mem_cons_of_mem c hd)

/-- The symbols of a numeral leave no tokens, whether they are taken along or not. -/
theorem tokens_drop_numeral (word : Word) :
    tokens (word.drop (numeral word).length) = tokens word := by
  obtain ⟨rest, hrest⟩ := numeral_isPrefix word
  have hdrop : word.drop (numeral word).length = rest := (cut_of_append hrest rfl).2
  have hsilent : ∀ c ∈ numeral word, Instruction.ofSymbol? c = none :=
    fun c hc => Instruction.ofSymbol?_of_isNumeralSymbol (isNumeralSymbol_of_mem_numeral hc)
  calc tokens (word.drop (numeral word).length)
      = tokens rest := by rw [hdrop]
    _ = tokens (numeral word ++ rest) := (tokens_append_of_none hsilent).symm
    _ = tokens word := by rw [hrest]

/-- The tokens of a word are those of its symbols. -/
theorem tokens_cons (c : Char) (rest : Word) :
    tokens (c :: rest) = (Token.of? c rest).toList ++ tokens rest := by
  rw [tokens]
  unfold Token.of?
  cases Instruction.ofSymbol? c with
  | none => rfl
  | some i =>
      cases i with
      | scale =>
          rw [longestNumeral?_eq]
          by_cases h : numeral rest = []
          · rw [if_pos h]
            simp only [Option.map_some, if_pos h]
            rfl
          · -- the symbols of the numeral are gone through once more, and leave nothing
            rw [if_neg h]
            simp only [Option.map_some, if_neg h, tokens_drop_numeral]
            rfl
      | draw | turnPositive | turnNegative | push | pop | flip => rfl

/-- Only a scale symbol looks at the word after it. -/
theorem Token.of?_congr (h : c = Instruction.scale.symbol → numeral u = numeral v) :
    Token.of? c u = Token.of? c v := by
  unfold Token.of?
  cases hc : Instruction.ofSymbol? c with
  | none => rw [Option.map_none, Option.map_none]
  | some i =>
      rw [Option.map_some, Option.map_some]
      cases i with
      | scale =>
          have hnumeral := h (Instruction.ofSymbol?_eq_some_iff.1 hc)
          simp only [hnumeral]
      | draw | turnPositive | turnNegative | push | pop | flip => rfl

/-- A word in two detached parts has the tokens of both. -/
theorem tokens_append (h : Detached u v) : tokens (u ++ v) = tokens u ++ tokens v := by
  induction u with
  | nil => rw [tokens_nil, List.nil_append, List.nil_append]
  | cons c u ih =>
      rw [List.cons_append, tokens_cons, tokens_cons, Token.of?_congr h.1, ih h.2,
        List.append_assoc]

/-- Only the draw symbol gives the token that draws. -/
theorem Token.of?_eq_draw_iff : Token.of? c rest = some .draw ↔ c = Instruction.draw.symbol := by
  rw [← Instruction.ofSymbol?_eq_some_iff]
  unfold Token.of?
  cases Instruction.ofSymbol? c with
  | none => simp
  | some i =>
      rw [Option.map_some]
      cases i with
      | scale => by_cases h : numeral rest = [] <;> simp [h]
      | draw | turnPositive | turnNegative | push | pop | flip => simp

theorem draw_mem_tokens : Token.draw ∈ tokens word ↔ Instruction.draw.symbol ∈ word := by
  induction word with
  | nil => simp
  | cons c rest ih =>
      rw [tokens_cons, List.mem_append, List.mem_cons, ih, Option.mem_toList,
        Token.of?_eq_draw_iff, eq_comm]

/-! ## The turtle by its tokens -/

/-- What a fault says apart from the position that it names. -/
inductive FaultKind where
  | noNumeral
  | noOpenBranch
  /-- A fault that is the same at all positions. -/
  | anywhere (fault : Fault)
  deriving DecidableEq

/-- The kind of a fault. -/
def Fault.kind : Fault → FaultKind
  | .noNumeral _ => .noNumeral
  | .noOpenBranch _ => .noOpenBranch
  | fault => .anywhere fault

/-- A turtle on its way through tokens: the saved frames and the segments drawn so far (latest
    first). -/
structure Walk where
  turtle : Turtle
  stack : List Frame
  drawn : List Segment

namespace Walk

/-- The walk before the first token. -/
def start (setup : Setup) : Walk := ⟨⟨.origin, setup.heading, setup.step, setup.angle, 0⟩, [], []⟩

/-- Do what a token tells the turtle. -/
def obey (annotate : Bool) (w : Walk) : Token → Except FaultKind Walk
  | .draw =>
    if w.turtle.heading.isInfinite then .error (.anywhere .headingUnbounded)
    else .ok ⟨{ w.turtle with position := w.turtle.ahead }, w.stack,
      w.turtle.lineTo annotate w.turtle.ahead :: w.drawn⟩
  | .turnPositive =>
    .ok { w with turtle.heading := Angle.turn w.turtle.heading w.turtle.angle }
  | .turnNegative =>
    .ok { w with turtle.heading := Angle.turn w.turtle.heading (-w.turtle.angle) }
  | .push => .ok ⟨{ w.turtle with depth := w.turtle.depth + 1 }, w.turtle.frame :: w.stack, w.drawn⟩
  | .pop =>
    match w.stack with
    | [] => .error .noOpenBranch
    | f :: outer => .ok ⟨w.turtle.restore f, outer, w.drawn⟩
  | .scale factor => .ok { w with turtle.step := w.turtle.step * factor }
  | .unscaled => .error .noNumeral
  | .flip => .ok { w with turtle.angle := -w.turtle.angle }

/-- Obey tokens up to the first one that cannot be obeyed. -/
def run (annotate : Bool) : List Token → Walk → Except FaultKind Walk
  | [], w => .ok w
  | token :: rest, w => (w.obey annotate token).bind (run annotate rest)

/-- The segments in the order in which they were drawn. -/
def segments (w : Walk) : List Segment := w.drawn.reverse

end Walk

/-- The segments that the turtle draws by tokens. The step length must be above zero, and some token
    must draw. -/
def drawTokens (setup : Setup) (annotate : Bool) (ts : List Token) :
    Except FaultKind (List Segment) :=
  if !setup.step.isPositive then .error (.anywhere (.argument (.step setup.step)))
  else if Token.draw ∉ ts then .error (.anywhere .nothingDrawn)
  else (Walk.run annotate ts (.start setup)).map Walk.segments

/-! ## One pass and two phases -/

namespace Machine

variable {annotate : Bool} {m next : Machine} {fault : Fault}

/-- A machine without its place in the word. -/
def walk (m : Machine) : Walk := ⟨m.turtle, m.stack, m.drawn⟩

/-- What the machine does at a symbol, the turtle does at its token. -/
theorem Reads.walk (h : Reads annotate rest m c next) (ts : List Token) :
    Walk.run annotate ((Token.of? c rest).toList ++ ts) m.walk = Walk.run annotate ts next.walk := by
  cases h with
  | ignore h =>
      unfold Token.of?
      rw [h]
      rfl
  | draw h =>
      show (Walk.obey annotate m.walk .draw).bind _ = _
      simp only [Walk.obey, Machine.walk, h]
      rfl
  | pop h =>
      show (Walk.obey annotate m.walk .pop).bind _ = _
      simp only [Walk.obey, Machine.walk, h]
      rfl
  | scale h =>
      rw [Token.of?_scale, if_neg h]
      rfl
  | turnPositive | turnNegative | push | flip => rfl

/-- Where the machine is stopped, the turtle is stopped by a fault of the same kind. -/
theorem Refuses.walk (h : Refuses rest m c fault) (ts : List Token) :
    Walk.run annotate ((Token.of? c rest).toList ++ ts) m.walk = .error fault.kind := by
  cases h with
  | draw h =>
      show (Walk.obey annotate m.walk .draw).bind _ = _
      simp only [Walk.obey, Machine.walk, h]
      rfl
  | pop h =>
      show (Walk.obey annotate m.walk .pop).bind _ = _
      simp only [Walk.obey, Machine.walk, h]
      rfl
  | scale h =>
      rw [Token.of?_scale, if_pos h]
      rfl

/-- **One pass and two phases.** A machine that reads a word does what the turtle does by its
    tokens. -/
theorem readWord_walk (annotate : Bool) (word : Word) (m : Machine) :
    ((readWord annotate word m).map walk).mapError Fault.kind =
      Walk.run annotate (tokens word) m.walk := by
  induction word generalizing m with
  | nil =>
      rw [tokens_nil]
      rfl
  | cons c rest ih =>
      rw [readWord, tokens_cons]
      rcases read_cases annotate c rest m with ⟨next, hread, hreads⟩ | ⟨fault, hread, hrefuses⟩
      · rw [hread, hreads.walk]
        exact ih next
      · rw [hread, hrefuses.walk]
        rfl

end Machine

/-- Drawing by a word is drawing by its tokens. -/
theorem interpret_kind (setup : Setup) (annotate : Bool) (word : Word) :
    (interpret setup annotate word).mapError Fault.kind =
      drawTokens setup annotate (tokens word) := by
  unfold drawTokens
  -- the step length and the symbols that draw are looked at before the first symbol is read
  by_cases hstep : setup.step.isPositive = true
  · by_cases hdraw : Instruction.draw.symbol ∈ word
    · have hread := Machine.readWord_walk annotate word (.start setup)
      have hstart : (Machine.start setup).walk = .start setup := rfl
      rw [hstart] at hread
      rw [interpret_of_draws hstep hdraw, hstep, Bool.not_true, if_neg Bool.false_ne_true,
        if_neg (not_not.2 (draw_mem_tokens.2 hdraw)), ← hread]
      cases Machine.readWord annotate word (.start setup) <;> rfl
    · rw [interpret_of_not_draws hstep hdraw, hstep, Bool.not_true, if_neg Bool.false_ne_true,
        if_pos (mt draw_mem_tokens.1 hdraw)]
      rfl
  · have hneg : setup.step.isPositive = false := by simpa using hstep
    rw [interpret_of_not_positive hneg, hneg]
    rfl

/-- Symbols that instruct nothing may stand anywhere but within a numeral that is taken along. -/
theorem tokens_insert {silent : Word} (hsilent : ∀ c ∈ silent, Instruction.ofSymbol? c = none)
    (hwith : Detached u (silent ++ v)) (hwithout : Detached u v) :
    tokens (u ++ (silent ++ v)) = tokens (u ++ v) := by
  rw [tokens_append hwith, tokens_append_of_none hsilent, ← tokens_append hwithout]

/-- The token of a scale symbol before a numeral that does not go on. -/
theorem tokens_scale {text : Word} (htext : isNumeral text = true)
    (hv : ∀ c ∈ v.head?, isNumeralSymbol c = false) :
    tokens (Instruction.scale.symbol :: (text ++ v)) =
      .scale (numeralValue text) :: tokens v := by
  have hnumeral : numeral (text ++ v) = text := by
    rw [numeral_append_of_head hv, numeral_of_isNumeral htext]
  have hne : text ≠ [] := by
    rintro rfl
    cases htext
  have htoken : Token.of? Instruction.scale.symbol (text ++ v) =
      some (.scale (numeralValue text)) := by
    rw [Token.of?_scale, hnumeral, if_neg hne]
  have hsilent : ∀ c ∈ text, Instruction.ofSymbol? c = none := fun c hc =>
    Instruction.ofSymbol?_of_isNumeralSymbol ((isNumeral_iff.1 htext).1 c hc)
  rw [tokens_cons, htoken, tokens_append_of_none hsilent]
  rfl

/-- **Drawing in two phases.** A word draws what the turtle draws by its tokens, or is refused with
    the same kind of fault. Words with the same tokens therefore draw the same segments or are
    refused with the same kind of fault. Such are words that differ in symbols that instruct
    nothing, wherever these leave the numerals of scale symbols alone, and words that differ in how
    the numeral of a scale symbol is written, if both numerals have the same value. -/
theorem interpret_eq_drawTokens (setup : Setup) (annotate : Bool) (word : Word) :
    (interpret setup annotate word).mapError Fault.kind =
      drawTokens setup annotate (tokens word) ∧
    (∀ other, tokens other = tokens word →
      (interpret setup annotate other).mapError Fault.kind =
        (interpret setup annotate word).mapError Fault.kind) ∧
    (∀ u silent v, word = u ++ v → (∀ c ∈ silent, Instruction.ofSymbol? c = none) →
      Detached u (silent ++ v) → Detached u v → tokens (u ++ (silent ++ v)) = tokens word) ∧
    (∀ u text other v, word = u ++ Instruction.scale.symbol :: (text ++ v) →
      isNumeral text = true → isNumeral other = true → numeralValue other = numeralValue text →
      (∀ c ∈ v.head?, isNumeralSymbol c = false) →
      tokens (u ++ Instruction.scale.symbol :: (other ++ v)) = tokens word) := by
  refine ⟨interpret_kind setup annotate word, ?_, ?_, ?_⟩
  · intro other hother
    rw [interpret_kind, interpret_kind, hother]
  · rintro u silent v rfl hsilent hwith hwithout
    exact tokens_insert hsilent hwith hwithout
  · rintro u text other v rfl htext hother hvalue hv
    have hscale : ∀ rest : Word, Detached u (Instruction.scale.symbol :: rest) :=
      fun rest => detached_of_head not_isNumeralSymbol_of_head
    rw [tokens_append (hscale _), tokens_append (hscale _), tokens_scale htext hv,
      tokens_scale hother hv, hvalue]

/-- Two spellings of one half, and a symbol that instructs nothing: the closing bracket is refused
    in both words, at different positions. -/
theorem interpret_eq_drawTokens_respelled :
    tokens ['F', '@', '.', '5', '0', 'x', ']'] = tokens ['F', '@', '0', '.', '5', ']'] ∧
    (interpret ⟨.zero, .zero, .one⟩ true ['F', '@', '.', '5', '0', 'x', ']']).mapError Fault.kind =
      (interpret ⟨.zero, .zero, .one⟩ true ['F', '@', '0', '.', '5', ']']).mapError Fault.kind := by
  have htokens : tokens ['F', '@', '.', '5', '0', 'x', ']'] =
      tokens ['F', '@', '0', '.', '5', ']'] := by decide +kernel
  exact ⟨htokens, (interpret_eq_drawTokens ⟨.zero, .zero, .one⟩ true
    ['F', '@', '0', '.', '5', ']']).2.1 _ htokens⟩

end TurtleGrammar
