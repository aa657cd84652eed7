import TurtleGrammar.Rounding

/-!
# `TurtleGrammar.Binary64.Basic` — binary64 numbers as exact values

A `Magnitude` is a mantissa below `2 ^ 53` times a power of two, counted in units of `2 ^ -1074`,
the smallest positive number of the format. A `Binary64` is a signed magnitude (both zeros are
kept apart), an infinity or a NaN. Every value is exact, so that arithmetic is exact arithmetic on
units followed by one rounding, `Magnitude.ofQuotient?`.

## Contents
- `Magnitude`, its `units`, and `Magnitude.ofQuotient?`: the nearest magnitude, ties to an even
  mantissa, `none` past the largest one.
- `Binary64` with its order `less` and its equality `equals`, in both of which a NaN has no part and
  the two zeros are one number.
- `Binary64.ofUnitQuotient`, `Binary64.ofInt?`: rounding into the format.
-/

namespace TurtleGrammar

theorem shiftLeft_pos {n : Nat} (hn : 0 < n) (k : Nat) : 0 < n <<< k := by
  rw [Nat.shiftLeft_eq]
  exact Nat.mul_pos hn (Nat.two_pow_pos k)

theorem shiftLeft_le_shiftLeft (n : Nat) {j k : Nat} (hjk : j ≤ k) : n <<< j ≤ n <<< k := by
  rw [Nat.shiftLeft_eq, Nat.shiftLeft_eq]
  exact Nat.mul_le_mul_left n (Nat.pow_le_pow_right (by decide) hjk)

theorem one_shiftLeft_add (j k : Nat) : 1 <<< (j + k) = 1 <<< j * 1 <<< k := by
  rw [Nat.shiftLeft_add, Nat.shiftLeft_eq (1 <<< j) k, Nat.shiftLeft_eq 1 k, Nat.one_mul]

/-- A number from `2 ^ k` on has more than `k` binary digits. -/
theorem le_log2_of_shiftLeft_le {n k : Nat} (h : 1 <<< k ≤ n) : k ≤ n.log2 := by
  have hne : n ≠ 0 := Nat.ne_of_gt (Nat.lt_of_lt_of_le (shiftLeft_pos (by decide) k) h)
  rw [Nat.shiftLeft_eq, Nat.one_mul] at h
  exact (Nat.le_log2 hne).2 h

/-- A non-negative finite number of the format: `mantissa * 2 ^ scale` units of `2 ^ -1074`.
    A mantissa below `2 ^ 52` occurs only at the smallest scale, so each number has one form. -/
structure Magnitude where
  mantissa : Nat
  scale : Nat
  mantissa_lt : mantissa < 1 <<< 53
  scale_le : scale ≤ 2045
  normal : 1 <<< 52 ≤ mantissa ∨ scale = 0
  deriving DecidableEq

namespace Magnitude

/-- The number counted in units of `2 ^ -1074`. -/
def units (m : Magnitude) : Nat := m.mantissa <<< m.scale

def zero : Magnitude := ⟨0, 0, by decide, by decide, by decide⟩

/-- Two magnitudes are one if their mantissas and their scales are. -/
theorem ext {m n : Magnitude} (hm : m.mantissa = n.mantissa) (hs : m.scale = n.scale) : m = n := by
  cases m
  cases n
  simp_all

instance : Inhabited Magnitude := ⟨zero⟩

instance : Hashable Magnitude := ⟨fun m => hash (m.mantissa, m.scale)⟩

/-- The power of two by which a quotient of units exceeds 53 binary digits. -/
def excess (num den : Nat) : Nat := (num / den).log2 + 1 - 53

/-- The mantissa of the nearest number, which may still be `2 ^ 53`. -/
def rounded (num den : Nat) : Nat := roundDiv num (den <<< excess num den)

/-- Rounding gives at most the next power of two, for the quotient has 53 digits over its scale. -/
theorem rounded_le (num den : Nat) : rounded num den ≤ 1 <<< 53 := by
  rw [rounded]
  rcases Nat.eq_zero_or_pos den with rfl | hden
  · have h := roundDiv_eq_or num (0 <<< excess num 0)
    simp only [Nat.zero_shiftLeft, Nat.div_zero] at h ⊢
    omega
  · apply roundDiv_le (shiftLeft_pos hden _)
    have hlog : num / den < 2 ^ ((num / den).log2 + 1) := Nat.lt_log2_self
    have hpow : 2 ^ ((num / den).log2 + 1) ≤ 2 ^ (53 + excess num den) :=
      Nat.pow_le_pow_right (by decide) (by simp only [excess]; omega)
    have hlt : num < 2 ^ (53 + excess num den) * den :=
      (Nat.div_lt_iff_lt_mul hden).1 (Nat.lt_of_lt_of_le hlog hpow)
    rw [Nat.pow_add, Nat.mul_assoc, Nat.mul_comm (2 ^ excess num den) den] at hlt
    rw [Nat.shiftLeft_eq, Nat.shiftLeft_eq, Nat.one_mul]
    exact Nat.le_of_lt hlt

/-- What is rounded at a scale above the smallest one fills its mantissa. -/
theorem le_rounded {num den : Nat} (h : excess num den ≠ 0) : 1 <<< 52 ≤ rounded num den := by
  have hlog : (num / den).log2 = 52 + excess num den := by
    simp only [excess] at h ⊢
    omega
  have hden : 0 < den := by
    rcases Nat.eq_zero_or_pos den with rfl | hden
    · simp [excess] at h
    · exact hden
  have hne : num / den ≠ 0 := by
    intro h0
    rw [h0] at hlog
    simp only [Nat.log2_zero] at hlog
    omega
  rw [rounded]
  apply le_roundDiv (shiftLeft_pos hden _)
  have hle : 2 ^ (52 + excess num den) ≤ num / den := hlog ▸ Nat.log2_self_le hne
  have hmul := (Nat.le_div_iff_mul_le hden).1 hle
  rw [Nat.pow_add, Nat.mul_assoc, Nat.mul_comm (2 ^ excess num den) den] at hmul
  rw [Nat.shiftLeft_eq, Nat.shiftLeft_eq, Nat.one_mul]
  exact hmul

/-- The magnitude nearest to `num / den` units, of two equally near ones the one with an even
    mantissa; `none` if that is past the largest magnitude. -/
def ofQuotient? (num den : Nat) : Option Magnitude :=
  let scale := excess num den
  let mantissa := roundDiv num (den <<< scale)
  if hm : mantissa < 1 <<< 53 then
    if hs : scale ≤ 2045 then
      some ⟨mantissa, scale, hm, hs,
        if h : scale = 0 then Or.inr h else Or.inl (le_rounded h)⟩
    else none
  else if hs : scale + 1 ≤ 2045 then
    some ⟨1 <<< 52, scale + 1, by decide, hs, Or.inl (Nat.le_refl _)⟩
  else none

/-- A mantissa that rounding leaves below `2 ^ 53` is the one of the nearest magnitude. -/
theorem ofQuotient?_of_lt {num den : Nat} (hm : rounded num den < 1 <<< 53)
    (hs : excess num den ≤ 2045) :
    ∃ m, ofQuotient? num den = some m ∧ m.mantissa = rounded num den ∧
      m.scale = excess num den := by
  simp only [rounded] at hm ⊢
  simp only [ofQuotient?]
  rw [dif_pos hm, dif_pos hs]
  exact ⟨_, rfl, rfl, rfl⟩

/-- A quotient whose scale is past the largest one has no nearest magnitude. -/
theorem ofQuotient?_eq_none {num den : Nat} (h : 2045 < excess num den) :
    ofQuotient? num den = none := by
  simp only [ofQuotient?]
  split
  · rw [dif_neg (by omega)]
  · rw [dif_neg (by omega)]

end Magnitude

/-- A binary64 number: signed, with two zeros, two infinities and one NaN. -/
inductive Binary64 where
  | nan
  | infinity (negative : Bool)
  | finite (negative : Bool) (size : Magnitude)
  deriving DecidableEq, Hashable

namespace Binary64

def zero : Binary64 := finite false .zero

def one : Binary64 := finite false ⟨1 <<< 52, 1022, by decide, by decide, by decide⟩

instance : Inhabited Binary64 := ⟨zero⟩

/-- A finite number of units with its sign; both zeros give `0`. -/
def signed (negative : Bool) (size : Magnitude) : Int :=
  if negative then -(size.units : Int) else size.units

/-- The number nearest to `num / den` units with the given sign; past the largest magnitude the
    infinity of that sign. A result of zero keeps the sign too. -/
def ofUnitQuotient (negative : Bool) (num den : Nat) : Binary64 :=
  match Magnitude.ofQuotient? num den with
  | some size => finite negative size
  | none => infinity negative

/-- How many units make up the number one. It is irreducible: proofs need its size only through
    `unitsPerOne_eq`, and nothing should try to count that far. -/
@[irreducible] def unitsPerOne : Nat := 1 <<< 1074

theorem unitsPerOne_eq : unitsPerOne = 1 <<< 1074 := by
  unfold unitsPerOne
  exact Eq.refl _

/-- The number one has at most as many units as any power of two from `2 ^ 1074` on. -/
theorem unitsPerOne_le {k : Nat} (hk : 1074 ≤ k) : unitsPerOne ≤ 1 <<< k := by
  rw [unitsPerOne_eq]
  exact shiftLeft_le_shiftLeft 1 hk

theorem unitsPerOne_pos : 0 < unitsPerOne := by
  rw [unitsPerOne_eq]
  exact shiftLeft_pos (by decide) 1074

/-- The number nearest to a whole number, or `none` if that is past the largest magnitude. -/
def ofInt? (n : Int) : Option Binary64 :=
  (Magnitude.ofQuotient? (n.natAbs * unitsPerOne) 1).map (finite (n < 0))

/-- The number nearest to a natural number. -/
def ofNat (n : Nat) : Binary64 := ofUnitQuotient false (n * unitsPerOne) 1

instance (n : Nat) : OfNat Binary64 n := ⟨ofNat n⟩

/-- Is the number strictly below the other? A NaN is below nothing and above nothing. -/
def less : Binary64 → Binary64 → Bool
  | nan, _ => false
  | _, nan => false
  | infinity s, infinity t => s && !t
  | infinity s, finite _ _ => s
  | finite _ _, infinity t => !t
  | finite s a, finite t b => signed s a < signed t b

/-- Numeric equality: the two zeros are equal, a NaN is equal to nothing. -/
def equals : Binary64 → Binary64 → Bool
  | infinity s, infinity t => s == t
  | finite s a, finite t b => signed s a == signed t b
  | _, _ => false

/-- Is the number above zero? A NaN is not. -/
def isPositive (x : Binary64) : Bool := less zero x

def isNaN : Binary64 → Bool
  | nan => true
  | _ => false

def isInfinite : Binary64 → Bool
  | infinity _ => true
  | _ => false

def isFinite : Binary64 → Bool
  | finite _ _ => true
  | _ => false

/-- The same number with `0.0` for `-0.0`, so that numbers other than NaN are equal exactly when
    their forms are. -/
def unsignedZero : Binary64 → Binary64
  | finite true size => finite (size.units != 0) size
  | x => x

/-- The opposite number; the sign of a zero or an infinity turns as well. -/
def neg : Binary64 → Binary64
  | nan => nan
  | infinity s => infinity !s
  | finite s size => finite (!s) size

instance : Neg Binary64 := ⟨neg⟩

/-- The opposite of the opposite is the number, NaN included. -/
@[simp] theorem neg_neg (x : Binary64) : - -x = x := by
  cases x <;> simp [Neg.neg, neg]

end Binary64

end TurtleGrammar
