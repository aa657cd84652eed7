import TurtleGrammar.Fault
import TurtleGrammar.Table

/-!
# `TurtleGrammar.Grammar` — words and their simultaneous rewriting

A grammar rewrites its initial word a number of times. Each time every symbol of the word is
replaced at once, so that a replacement is not rewritten before the next time; a symbol without a
rule stays.

## Contents
- `Word`, `Rules`, `Rules.rewrite`, `Rules.expand` with their append laws.
- `Rules.ofNamed`, `Rules.ofNamed?`: rules whose names may be longer than one symbol.
- `Grammar`, `Grammar.build`, `Grammar.expansion`.
-/

namespace TurtleGrammar

/-- A word over the symbols of a grammar. -/
abbrev Word := List Char

/-- Replacements by symbol. -/
abbrev Rules := Table Char Word

namespace Rules

/-- What a symbol is replaced with: the symbol itself if it has no rule. -/
def replacement (rules : Rules) (symbol : Char) : Word := (rules.find? symbol).getD [symbol]

/-- A word with every symbol replaced. -/
def rewrite (rules : Rules) (word : Word) : Word := word.flatMap rules.replacement

/-- A word after a number of generations. -/
def expand (rules : Rules) : Nat → Word → Word
  | 0, word => word
  | n + 1, word => rules.expand n (rules.rewrite word)

theorem rewrite_append (rules : Rules) (u v : Word) :
    rules.rewrite (u ++ v) = rules.rewrite u ++ rules.rewrite v := List.flatMap_append

/-- The parts of a word grow apart from each other. -/
theorem expand_append (rules : Rules) (n : Nat) (u v : Word) :
    rules.expand n (u ++ v) = rules.expand n u ++ rules.expand n v := by
  induction n generalizing u v with
  | zero => rfl
  | succ n ih => simp only [expand, rewrite_append, ih]

/-- Generations add up: the later ones start from the word of the earlier ones. -/
theorem expand_add (rules : Rules) (m n : Nat) (word : Word) :
    rules.expand (m + n) word = rules.expand n (rules.expand m word) := by
  induction m generalizing word with
  | zero => simp [expand]
  | succ m ih => rw [Nat.succ_add, expand, expand, ih]

/-- The number of generations, if it is at least one. -/
def generations? (count : Int) : Except Fault Nat :=
  if 1 ≤ count then .ok count.toNat else .error (.argument (.iterations count))

/-- A word after the given number of generations, which must be at least one. -/
def expand? (rules : Rules) (count : Int) (word : Word) : Except Fault Word :=
  (generations? count).map fun n => rules.expand n word

/-- The rules among named replacements that one symbol names; the others match no symbol. -/
def ofNamed (named : Table String String) : Rules :=
  .ofList <| named.entries.filterMap fun (name, text) =>
    match name.toList with
    | [symbol] => some (symbol, text.toList)
    | _ => none

/-- A named replacement as a rule. A replacement that is no text is `none`. -/
def named? : String × Option String → Except Fault (Char × Word)
  | (name, text) =>
    match name.toList with
    | [symbol] =>
      match text with
      | some text => .ok (symbol, text.toList)
      | none => .error (.argument (.replacement name))
    | _ => .error (.argument (.ruleName name))

/-- The rules of named replacements, if one symbol names each of them; otherwise the first fault in
    their order. -/
def ofNamed? (named : Table String (Option String)) : Except Fault Rules :=
  (named.entries.mapM named?).map .ofList

end Rules

/-- A grammar: an initial word that is not empty, rules, and a number of generations. -/
structure Grammar where
  start : Word
  rules : Rules
  iterations : Nat
  start_ne_nil : start ≠ []
  iterations_pos : 1 ≤ iterations

namespace Grammar

/-- The initial word, if it is a text and not empty. -/
def start? (start : Option String) : Except Fault { word : Word // word ≠ [] } :=
  match start with
  | none => .error (.argument .word)
  | some text => if h : text.toList ≠ [] then .ok ⟨text.toList, h⟩ else .error (.argument .word)

/-- The grammar of an initial word, named replacements and a count of generations. Of several faults
    the word's comes first, then the count's, then the rules' in their order. -/
def build (start : Option String) (named : Table String (Option String)) (iterations : Int) :
    Except Fault Grammar := do
  let word ← start? start
  let count ← Rules.generations? iterations
  let rules ← Rules.ofNamed? named
  if h : 1 ≤ count then
    return ⟨word.val, rules, count, word.property, h⟩
  else .error (.argument (.iterations iterations))

/-- The word of the last generation. -/
def expansion (g : Grammar) : Word := g.rules.expand g.iterations g.start

end Grammar

end TurtleGrammar
