/-!
# `TurtleGrammar.Rounding` — quotients rounded to whole numbers

`roundDiv num den` is the whole number nearest to `num / den`, a half going to the even neighbour.
It is the only rounding in the library: binary numbers round their exact results with it, and
decimal texts with fixed places round the exact value with it.

## Contents
- `roundDiv_mul_left`: an exact quotient is kept.
- `le_roundDiv`/`roundDiv_le`: whole bounds of the quotient are bounds of the rounded quotient.
- `two_mul_le_roundDiv`/`two_mul_roundDiv_le`: the result is within one half of the quotient.
- `even_roundDiv_of_tie`: at one half from the quotient it is even.
-/

namespace TurtleGrammar

/-- The whole number nearest to `num / den`; of two equally near ones the even one. -/
def roundDiv (num den : Nat) : Nat :=
  let below := num / den
  let rest := num % den
  if 2 * rest < den then below
  else if den < 2 * rest then below + 1
  else if below % 2 = 0 then below else below + 1

/-- A quotient is rounded down or up to the next whole number. -/
theorem roundDiv_eq_or (num den : Nat) :
    roundDiv num den = num / den ∨ roundDiv num den = num / den + 1 := by
  simp only [roundDiv]
  grind

theorem roundDiv_mul_left {den : Nat} (hden : 0 < den) (k : Nat) : roundDiv (k * den) den = k := by
  simp [roundDiv, Nat.mul_div_cancel k hden, hden]

/-- A whole number up to the quotient is at most the rounded quotient. -/
theorem le_roundDiv {num den k : Nat} (hden : 0 < den) (h : k * den ≤ num) :
    k ≤ roundDiv num den := by
  have hq : k ≤ num / den := (Nat.le_div_iff_mul_le hden).2 h
  rcases roundDiv_eq_or num den with h | h <;> omega

theorem roundDiv_le {num den k : Nat} (hden : 0 < den) (h : num ≤ k * den) :
    roundDiv num den ≤ k := by
  rcases Nat.lt_or_ge num (k * den) with hlt | hge
  · have hq : num / den < k := (Nat.div_lt_iff_lt_mul hden).2 hlt
    rcases roundDiv_eq_or num den with h | h <;> omega
  · have heq : num = k * den := Nat.le_antisymm h hge
    rw [heq]
    exact Nat.le_of_eq (roundDiv_mul_left hden k)

/-- The quotient is at most one half above what it is rounded to. -/
theorem two_mul_le_roundDiv (num : Nat) {den : Nat} (hden : 0 < den) :
    2 * num ≤ 2 * (den * roundDiv num den) + den := by
  have hdiv := Nat.div_add_mod num den
  have hmod := Nat.mod_lt num hden
  simp only [roundDiv]
  split
  · omega
  · split
    · rw [Nat.mul_add]
      omega
    · split
      · omega
      · rw [Nat.mul_add]
        omega

/-- The quotient is at most one half below what it is rounded to. -/
theorem two_mul_roundDiv_le (num : Nat) {den : Nat} (hden : 0 < den) :
    2 * (den * roundDiv num den) ≤ 2 * num + den := by
  have hdiv := Nat.div_add_mod num den
  have hmod := Nat.mod_lt num hden
  simp only [roundDiv]
  split
  · omega
  · split
    · rw [Nat.mul_add]
      omega
    · split
      · omega
      · rw [Nat.mul_add]
        omega

/-- A result that is one half away from the quotient is even. -/
theorem even_roundDiv_of_tie {num den : Nat} (hden : 0 < den)
    (h : 2 * num = 2 * (den * roundDiv num den) + den ∨
      2 * (den * roundDiv num den) = 2 * num + den) : roundDiv num den % 2 = 0 := by
  have hdiv := Nat.div_add_mod num den
  have hmod := Nat.mod_lt num hden
  have htie : 2 * (num % den) = den := by
    rcases roundDiv_eq_or num den with hround | hround
    · rw [hround] at h
      omega
    · rw [hround, Nat.mul_add] at h
      omega
  simp only [roundDiv]
  rw [htie, if_neg (Nat.lt_irrefl den), if_neg (Nat.lt_irrefl den)]
  split <;> omega

end TurtleGrammar
