import Mathlib.Data.List.Basic
import TurtleGrammar.Proofs.Replacement

/-!
# `TurtleGrammar.Proofs.Derivation` — words as the leaves of derivation trees

Rewriting replaces whole generations, one after the other. The same word can be read off the trees
that its symbols grow: the tree of a symbol has the trees of its replacement's symbols below it, and
after the last generation its leaves stand side by side. What one symbol grows into does not depend
on its neighbours, nor on rules for symbols that it never meets.

## Contents
- `leaves`: the leaves of a symbol's tree.
- `Rules.expand_eq_leaves`: generations and leaves.
- `Reaches`: the symbols that a word can meet; `leaves_congr`: rules for the others.
- `Rules.expand?_derivation`: an expansion as the leaves of the trees of its initial word.
-/

namespace TurtleGrammar

/-- The leaves of the tree that a symbol grows in a number of generations, from left to right. -/
def leaves (replace : Char → Word) : Nat → Char → Word
  | 0, c => [c]
  | n + 1, c => (replace c).flatMap (leaves replace n)

/-- The symbols that stand in some generation of a word. -/
inductive Reaches (replace : Char → Word) (word : Word) : Char → Prop where
  | start {c : Char} (h : c ∈ word) : Reaches replace word c
  | replaced {c d : Char} (h : Reaches replace word c) (hd : d ∈ replace c) :
      Reaches replace word d

variable {replace other : Char → Word} {word : Word}

/-- Symbols that grow alike as far as they reach grow the same leaves. -/
theorem leaves_congr (h : ∀ c, Reaches replace word c → other c = replace c) (n : Nat) {c : Char}
    (hc : Reaches replace word c) : leaves other n c = leaves replace n c := by
  induction n generalizing c with
  | zero => rfl
  | succ n ih =>
      rw [leaves, leaves, h c hc]
      exact List.flatMap_congr fun d hd => ih (.replaced hc hd)

namespace Rules

variable {rules : Rules}

/-- **Generations and leaves.** Rewriting whole generations and unfolding one symbol after the other
    give the same word. -/
theorem expand_eq_leaves (rules : Rules) (n : Nat) (word : Word) :
    rules.expand n word = word.flatMap (leaves rules.replacement n) := by
  -- the whole first generation becomes the word, the other generations are unfolded below it
  induction n generalizing word with
  | zero => exact (List.flatMap_singleton' word).symm
  | succ n ih =>
      rw [expand, ih, rewrite, List.flatMap_assoc]
      rfl

theorem expand?_of_le {count : Int} (h : 1 ≤ count) (word : Word) :
    rules.expand? count word = .ok (rules.expand count.toNat word) := by
  unfold expand? generations?
  rw [if_pos h]
  rfl

/-- **An expansion is the yield of its derivation trees.** After at least one generation, the
    expansion by named replacements consists of the leaves of the trees of the initial word's
    symbols, in their order. It is therefore made up of the expansions of the word's parts, and its
    own expansion is that of the word by all the generations together. Rules for symbols that the
    word cannot reach do not matter. The expansion of a grammar is its yield likewise. -/
theorem expand?_derivation (named : Table String String) (word : Word) {n : Int} (hn : 1 ≤ n) :
    (ofNamed named).expand? n word =
      .ok (word.flatMap (leaves (replacementIn named) n.toNat)) ∧
    (∀ u v, word = u ++ v → ∃ first second, (ofNamed named).expand? n u = .ok first ∧
      (ofNamed named).expand? n v = .ok second ∧
      (ofNamed named).expand? n word = .ok (first ++ second)) ∧
    (∀ m, 1 ≤ m → ∃ middle, (ofNamed named).expand? m word = .ok middle ∧
      (ofNamed named).expand? n middle = (ofNamed named).expand? (m + n) word) ∧
    (∀ altered : Table String String,
      (∀ c, Reaches (replacementIn named) word c →
        altered.find? (String.singleton c) = named.find? (String.singleton c)) →
      (ofNamed altered).expand? n word = (ofNamed named).expand? n word) ∧
    (∀ g : Grammar, g.expansion = g.start.flatMap (leaves g.rules.replacement g.iterations)) := by
  have hleaves : ∀ named : Table String String, (ofNamed named).expand? n word =
      .ok (word.flatMap (leaves (replacementIn named) n.toNat)) := by
    intro named
    rw [expand?_of_le hn, expand_eq_leaves, funext (replacement_ofNamed named)]
  refine ⟨hleaves named, ?_, ?_, ?_, fun g => expand_eq_leaves g.rules g.iterations g.start⟩
  · rintro u v rfl
    refine ⟨_, _, expand?_of_le hn u, expand?_of_le hn v, ?_⟩
    rw [expand?_of_le hn, expand_append]
  · intro m hm
    refine ⟨_, expand?_of_le hm word, ?_⟩
    have hsum : (m + n).toNat = m.toNat + n.toNat := Int.toNat_add (by omega) (by omega)
    rw [expand?_of_le hn, expand?_of_le (by omega), hsum, expand_add]
  · intro altered h
    have hreplace : ∀ c, Reaches (replacementIn named) word c →
        replacementIn altered c = replacementIn named c := by
      intro c hc
      unfold replacementIn
      rw [h c hc]
    rw [hleaves altered, hleaves named]
    exact congrArg Except.ok
      (List.flatMap_congr fun c hc => leaves_congr hreplace n.toNat (.start hc))

/-- Two replacements that hold their own and each other's symbols. -/
def algae : Table String String := .ofList [("A", "AB"), ("B", "A")]

theorem expand?_derivation_algae :
    (1 : Int) ≤ 3 ∧
    (ofNamed algae).expand? 3 ['A', 'B'] =
      .ok (['A', 'B'].flatMap (leaves (replacementIn algae) 3)) ∧
    ['A', 'B'].flatMap (leaves (replacementIn algae) 3) =
      ['A', 'B', 'A', 'A', 'B', 'A', 'B', 'A'] ∧
    (ofNamed (algae.insert "X" "F")).expand? 3 ['A', 'B'] =
      (ofNamed algae).expand? 3 ['A', 'B'] := by
  obtain ⟨hyield, _, _, hunreached, _⟩ :=
    expand?_derivation algae ['A', 'B'] (show (1 : Int) ≤ 3 by decide)
  have hreached : ∀ c, Reaches (replacementIn algae) ['A', 'B'] c → c = 'A' ∨ c = 'B' := by
    intro c hc
    induction hc with
    | start h => simpa using h
    | replaced _ hd ih =>
        rcases ih with rfl | rfl
        · have hA : replacementIn algae 'A' = ['A', 'B'] := by decide +kernel
          simpa [hA] using hd
        · have hB : replacementIn algae 'B' = ['A'] := by decide +kernel
          exact Or.inl (by simpa [hB] using hd)
  refine ⟨by decide, hyield, by decide +kernel, hunreached _ fun c hc => ?_⟩
  rw [Table.find?_insert, if_neg]
  rcases hreached c hc with rfl | rfl <;> decide +kernel

end Rules

end TurtleGrammar
