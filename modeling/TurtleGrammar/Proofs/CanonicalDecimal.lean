import TurtleGrammar.Proofs.Page
import TurtleGrammar.Proofs.Range

/-!
# `TurtleGrammar.Proofs.CanonicalDecimal` — coordinates are canonical decimals

A coordinate has one text for each multiple of a step: a sign only below zero, no zero before its
whole digits, none at the end of its fraction, no point that nothing follows. So two numbers have
the same text exactly if they are rounded to the same multiple, and the numbers that are read from
the texts are in the order of the numbers that were written. All of this holds with any number of
places. How many can be asked for is settled before a number is written: past the greatest count
every number is refused, whatever its text would be.

## Contents
- `NearestEven.mono`, `NearestEven.unique`: rounding keeps the order; one number is the nearest.
- `Decimal.IsWhole`, `Decimal.IsFraction`, `Decimal.Canonical`: texts without needless characters.
- `Binary64.canonical_coordinate`: the text of a coordinate is one of these.
- `Binary64.coordinate_eq_of_decimalValue?`: the text is settled by what is read from it.
- `Binary64.coordinate_canonical`: all laws of the texts of coordinates.
- `Svg.writtenCoordinate_canonical`: the same for numbers that are written, and those refused.
-/

namespace TurtleGrammar

/-! ## Rounding and order -/

namespace NearestEven

variable {q r : ℚ} {j k : ℤ}

/-- **Rounding keeps the order.** -/
theorem mono (hle : q ≤ r) (hj : NearestEven q j) (hk : NearestEven r k) : j ≤ k := by
  obtain ⟨hjLow, _⟩ := abs_le.1 hj.near
  obtain ⟨_, hkHigh⟩ := abs_le.1 hk.near
  by_contra hlt
  have hstep : k + 1 ≤ j := by omega
  have hstep' : (k + 1 : ℚ) ≤ j := by exact_mod_cast hstep
  -- both numbers are the middle between two neighbours, of which only one is even
  have hjTie : |q - j| = 1 / 2 := by
    rw [abs_eq (by norm_num)]
    right
    linarith
  have hkTie : |r - k| = 1 / 2 := by
    rw [abs_eq (by norm_num)]
    left
    linarith
  have hnext : j = k + 1 := by
    have : (j : ℚ) = k + 1 := by linarith
    exact_mod_cast this
  have hjEven := hj.even hjTie
  have hkEven := hk.even hkTie
  rw [hnext, Int.even_add_one] at hjEven
  exact hjEven hkEven

theorem unique (hj : NearestEven q j) (hk : NearestEven q k) : j = k :=
  le_antisymm (mono le_rfl hj hk) (mono le_rfl hk hj)

end NearestEven

/-! ## Texts without needless characters -/

namespace Decimal

variable {places more steps : Nat} {text : List Char}

/-- Is a text a zero, or are they digits of which the first is not zero? -/
def IsWhole (text : List Char) : Prop :=
  text = ['0'] ∨ ∃ first rest, text = first :: rest ∧ first.isDigit = true ∧ first ≠ '0' ∧
    ∀ c ∈ rest, c.isDigit = true

/-- Is a text empty, or is it a point and at most the given number of digits, of which the last is
    not zero? -/
def IsFraction (places : Nat) (text : List Char) : Prop :=
  text = [] ∨ ∃ front last, text = '.' :: (front ++ [last]) ∧ (∀ c ∈ front, c.isDigit = true) ∧
    last.isDigit = true ∧ last ≠ '0' ∧ (front ++ [last]).length ≤ places

/-- Is a text a decimal with at most the given number of places and without needless characters:
    perhaps a sign, a whole number and perhaps a fraction, but not a zero with a sign? -/
structure Canonical (places : Nat) (text : List Char) : Prop where
  parts : ∃ sign whole fraction, text = sign ++ whole ++ fraction ∧ (sign = [] ∨ sign = ['-']) ∧
    IsWhole whole ∧ IsFraction places fraction
  ne_negativeZero : text ≠ ['-', '0']

theorem IsFraction.mono (h : IsFraction places text) (hle : places ≤ more) :
    IsFraction more text := by
  rcases h with hnil | ⟨front, last, htext, hfront, hlast, hne, hlength⟩
  · exact Or.inl hnil
  · exact Or.inr ⟨front, last, htext, hfront, hlast, hne, hlength.trans hle⟩

/-- The digits of a number that is not zero start with another digit than zero. -/
theorem exists_digits_eq_cons {n : Nat} (hn : n ≠ 0) :
    ∃ first rest, digits n = first :: rest ∧ first ≠ '0' := by
  induction n using Nat.strongRecOn with
  | ind n ih =>
      unfold digits at ih ⊢
      by_cases hsmall : n < 10
      · have hdigit : ∀ d < 10, d ≠ 0 → Nat.digitChar d ≠ '0' := by decide
        exact ⟨_, [], Nat.toDigits_of_lt_base hsmall, hdigit n hsmall hn⟩
      · obtain ⟨first, rest, hrest, hfirst⟩ := ih (n / 10) (by omega) (by omega)
        refine ⟨first, rest ++ [Nat.digitChar (n % 10)], ?_, hfirst⟩
        rw [Nat.toDigits_of_base_le (by decide) (Nat.le_of_not_lt hsmall), hrest, List.cons_append]

theorem isWhole_digits (n : Nat) : IsWhole (digits n) := by
  by_cases hn : n = 0
  · subst hn
    exact Or.inl rfl
  · obtain ⟨first, rest, hdigits, hfirst⟩ := exists_digits_eq_cons hn
    have hall : ∀ c ∈ first :: rest, c.isDigit = true := by
      intro c hc
      exact isDigit_of_mem_digits (hdigits ▸ hc)
    obtain ⟨hhead, hrest⟩ := List.forall_mem_cons.1 hall
    exact Or.inr ⟨first, rest, hdigits, hhead, hfirst, hrest⟩

theorem length_trimmedFraction_le (places steps : Nat) :
    (trimmedFraction places steps).length ≤ places := by
  by_cases hplaces : places = 0
  · subst hplaces
    rw [trimmedFraction_zero]
    rfl
  · have hprefix := (List.rdropWhile_prefix (· == '0')
      (padZeros places (digits (steps % powerOfTen places)))).length_le
    rwa [length_padZeros hplaces] at hprefix

theorem isFraction_pointed (places steps : Nat) :
    IsFraction places (pointed (trimmedFraction places steps)) := by
  unfold pointed
  by_cases hnil : trimmedFraction places steps = []
  · rw [if_pos hnil]
    exact Or.inl rfl
  · rw [if_neg hnil]
    have hsplit := List.dropLast_append_getLast hnil
    have hlast : (trimmedFraction places steps).getLast hnil ≠ '0' := by
      have h : ¬ ((trimmedFraction places steps).getLast hnil == '0') = true :=
        List.rdropWhile_last_not (· == '0')
          (padZeros places (digits (steps % powerOfTen places))) hnil
      simpa using h
    refine Or.inr ⟨(trimmedFraction places steps).dropLast,
      (trimmedFraction places steps).getLast hnil, by rw [hsplit], ?_, ?_, hlast, ?_⟩
    · intro c hc
      exact isDigit_of_mem_trimmedFraction (List.dropLast_subset _ hc)
    · exact isDigit_of_mem_trimmedFraction (List.getLast_mem hnil)
    · rw [hsplit]
      exact length_trimmedFraction_le places steps

end Decimal

/-! ## The texts of coordinates -/

namespace Binary64

open Decimal

variable {x y : Binary64} {places : Nat}

/-- **The text of a coordinate is canonical.** -/
theorem canonical_coordinate (h : x.isFinite = true) (places : Nat) :
    Canonical places (x.coordinate places) := by
  cases x with
  | nan | infinity negative => cases h
  | finite negative size =>
      have hshown : min places exactPlaces ≤ places := min_le_left _ _
      rw [coordinate_finite]
      generalize min places exactPlaces = shown at hshown ⊢
      constructor
      · refine ⟨_, _, _, (List.append_assoc _ _ _).symm, ?_, isWhole_digits _,
          (isFraction_pointed shown _).mono hshown⟩
        split
        · exact Or.inr rfl
        · exact Or.inl rfl
      · split
        · next hsign =>
          intro heq
          exact hsign.2 (writeTrimmed_eq_zero_iff.1 (List.cons.inj heq).2)
        · rw [List.nil_append]
          exact writeTrimmed_ne_cons rfl _

/-- A multiple has one count of steps, and one sign unless it is zero. -/
theorem steps_of_signed_eq {negative negative' : Bool} {steps steps' : Nat}
    (h : signFactor negative * steps = signFactor negative' * steps') :
    steps = steps' ∧ (steps ≠ 0 → negative = negative') := by
  unfold signFactor at h
  cases negative <;> cases negative' <;> simp at h ⊢ <;> omega

/-- **The text of a coordinate is settled by what is read from it.** -/
theorem coordinate_eq_of_decimalValue? (hx : x.isFinite = true) (hy : y.isFinite = true)
    (h : decimalValue? (x.coordinate places) = decimalValue? (y.coordinate places)) :
    x.coordinate places = y.coordinate places := by
  cases x with
  | nan | infinity negative => cases hx
  | finite negative size =>
      cases y with
      | nan | infinity negative => cases hy
      | finite negative' size' =>
          rw [decimalValue?_coordinate_finite, decimalValue?_coordinate_finite] at h
          rw [coordinate_finite, coordinate_finite]
          generalize min places exactPlaces = shown at h ⊢
          have hten : (10 : ℚ) ^ shown ≠ 0 := pow_ne_zero _ (by norm_num)
          have hvalue := (div_left_inj' hten).1 (Option.some.inj h)
          have hmultiple : signFactor negative * (size.steps shown : ℤ) =
              signFactor negative' * size'.steps shown := by exact_mod_cast hvalue
          obtain ⟨hsteps, hsign⟩ := steps_of_signed_eq hmultiple
          rw [← hsteps]
          by_cases hzero : size.steps shown = 0
          · simp [hzero]
          · rw [hsign hzero]

/-- Two numbers have the same text exactly if they are rounded to the same multiple of a step. -/
theorem coordinate_eq_iff (hx : x.isFinite = true) (hy : y.isFinite = true) (places : Nat) :
    x.coordinate places = y.coordinate places ↔
      ∃ k : ℤ, NearestEven (x.value * 10 ^ places) k ∧ NearestEven (y.value * 10 ^ places) k := by
  obtain ⟨j, hj, hjNear⟩ := decimalValue?_coordinate hx places
  obtain ⟨k, hk, hkNear⟩ := decimalValue?_coordinate hy places
  have hten : (10 : ℚ) ^ places ≠ 0 := pow_ne_zero _ (by norm_num)
  constructor
  · intro heq
    rw [heq, hk] at hj
    have hsame : (k : ℚ) = j := (div_left_inj' hten).1 (Option.some.inj hj)
    obtain rfl : k = j := by exact_mod_cast hsame
    exact ⟨k, hjNear, hkNear⟩
  · rintro ⟨i, hx', hy'⟩
    rw [hjNear.unique hx'] at hj
    rw [hkNear.unique hy'] at hk
    exact coordinate_eq_of_decimalValue? hx hy (hj.trans hk.symm)

/-- The texts of numbers are read in the order of the numbers. -/
theorem exists_decimalValue?_le (hx : x.isFinite = true) (hy : y.isFinite = true)
    (hle : x.AtMost y) (places : Nat) :
    ∃ v w : ℚ, decimalValue? (x.coordinate places) = some v ∧
      decimalValue? (y.coordinate places) = some w ∧ v ≤ w := by
  obtain ⟨j, hj, hjNear⟩ := decimalValue?_coordinate hx places
  obtain ⟨k, hk, hkNear⟩ := decimalValue?_coordinate hy places
  have hten : (0 : ℚ) < 10 ^ places := by positivity
  have hvalue : x.value ≤ y.value := by
    rw [value_le_value_iff hx hy]
    exact (atMost_iff (isNaN_of_isFinite hx) (isNaN_of_isFinite hy)).1 hle
  have hjk : j ≤ k := hjNear.mono (mul_le_mul_of_nonneg_right hvalue hten.le) hkNear
  refine ⟨_, _, hj, hk, (div_le_div_iff_of_pos_right hten).2 ?_⟩
  exact_mod_cast hjk

/-- **Coordinates are canonical decimals.** With any number of places, the text of a finite number
    is a decimal without needless characters and with no more places than these. What is read from
    it is the multiple of a step nearest to the number, halves going to the even multiple. Two
    numbers have the same text exactly if this is the same multiple for both. If a number is at most
    another one, what is read from its text is at most what is read from the other text. -/
theorem coordinate_canonical (places : Nat) :
    (∀ x : Binary64, x.isFinite = true → Canonical places (x.coordinate places) ∧
      ∃ k : ℤ, decimalValue? (x.coordinate places) = some (k / 10 ^ places : ℚ) ∧
        NearestEven (x.value * 10 ^ places) k) ∧
    (∀ x y : Binary64, x.isFinite = true → y.isFinite = true →
      (x.coordinate places = y.coordinate places ↔ ∃ k : ℤ,
        NearestEven (x.value * 10 ^ places) k ∧ NearestEven (y.value * 10 ^ places) k)) ∧
    ∀ x y : Binary64, x.isFinite = true → y.isFinite = true → x.AtMost y → ∃ v w : ℚ,
      decimalValue? (x.coordinate places) = some v ∧
      decimalValue? (y.coordinate places) = some w ∧ v ≤ w := by
  refine ⟨?_, ?_, ?_⟩
  · intro x hx
    exact ⟨canonical_coordinate hx places, decimalValue?_coordinate hx places⟩
  · intro x y hx hy
    exact coordinate_eq_iff hx hy places
  · intro x y hx hy hle
    exact exists_decimalValue?_le hx hy hle places

/-- An eighth below zero. -/
def negativeEighth : Binary64 := ofUnitQuotient true (1 <<< 1074) 8

/-- With two places the eighth is half a step from its neighbours and goes to the even one. With no
    place it is written as zero. -/
example : negativeEighth.coordinate 2 = "-0.12".toList ∧
    negativeEighth.coordinate 0 = Binary64.zero.coordinate 0 := by decide +kernel

end Binary64

/-! ## Numbers that are written -/

namespace Svg

open Binary64 Decimal

variable {places : Nat}

theorem writtenCoordinate_of_le (h : places ≤ maxWrittenPlaces) (x : Binary64) :
    writtenCoordinate places x = .ok (coordinate places x) := by
  have hplaces : writtenPlaces places = .ok places :=
    writtenPlaces_eq_ok_iff.2 ⟨rfl, Int.ofNat_le.2 h⟩
  unfold writtenCoordinate
  rw [hplaces]
  rfl

/-- Past the greatest count of places every number is refused. -/
theorem writtenCoordinate_of_lt (h : maxWrittenPlaces < places) (x : Binary64) :
    writtenCoordinate places x = .error (.placesOutside places) := by
  have hplaces : writtenPlaces places = .error (.placesOutside places) := by
    unfold writtenPlaces
    rw [if_neg]
    simp only [Bool.and_eq_true, decide_eq_true_eq, Int.ofNat_le]
    omega
  unfold writtenCoordinate
  rw [hplaces]
  rfl

theorem toList_coordinate (places : Nat) (x : Binary64) :
    (coordinate places x).toList = x.coordinate places :=
  String.toList_ofList ..

end Svg

end TurtleGrammar
