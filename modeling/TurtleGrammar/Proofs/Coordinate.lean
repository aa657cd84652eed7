import Mathlib.Algebra.Order.Field.Basic
import Mathlib.Algebra.Order.Field.Rat
import Mathlib.Algebra.Order.Ring.Abs
import Mathlib.Data.List.DropRight
import Mathlib.Tactic.FieldSimp
import Mathlib.Tactic.Linarith
import Mathlib.Tactic.Ring
import TurtleGrammar.Decimal.Fixed

/-!
# `TurtleGrammar.Proofs.Coordinate` — coordinates read back

A coordinate is the decimal text of a count of steps of `10 ^ -places`. Zeros at the end of its
fraction do not count, and neither does the sign of a zero, so that what is read from the text is
that count of steps exactly, and the count is the one nearest to the number. Infinities and NaN have
texts that are no decimals.

## Contents
- `Binary64.value`: the exact value of a number; `NearestEven`: rounding to whole numbers.
- `decimalValue?`: the number that a decimal text denotes.
- `Binary64.coordinate_finite`: the text of a coordinate, sign, whole digits and fraction.
- `Binary64.decimalValue?_coordinate`: what is read from a coordinate.
- `Binary64.decimalValue?_coordinate_eq_none`: what is no decimal.
-/

namespace TurtleGrammar

/-! ## Exact values and their nearest whole numbers -/

/-- The exact value of a finite number; other numbers have none, and zero stands for it. -/
def Binary64.value : Binary64 → ℚ
  | finite s size => signed s size / unitsPerOne
  | _ => 0

/-- Is a whole number the one nearest to a number, of two equally near ones the even one? -/
structure NearestEven (q : ℚ) (k : ℤ) : Prop where
  near : |q - k| ≤ 1 / 2
  even : |q - k| = 1 / 2 → Even k

namespace NearestEven

variable {q : ℚ} {k : ℤ}

theorem intCast (k : ℤ) : NearestEven k k := by
  constructor
  · rw [sub_self, abs_zero]
    norm_num
  · intro h
    rw [sub_self, abs_zero] at h
    norm_num at h

theorem neg (h : NearestEven q k) : NearestEven (-q) (-k) := by
  have habs : |-q - ((-k : ℤ) : ℚ)| = |q - k| := by
    rw [Int.cast_neg, ← abs_neg]
    congr 1
    ring
  constructor
  · rw [habs]
    exact h.near
  · intro hhalf
    rw [habs] at hhalf
    exact (h.even hhalf).neg

/-- The nearest whole number is above zero exactly past one half. -/
theorem pos_iff (h : NearestEven q k) : 0 < k ↔ 1 < 2 * q := by
  obtain ⟨hlow, hhigh⟩ := abs_le.1 h.near
  constructor
  · intro hk
    have hone : (1 : ℚ) ≤ k := by exact_mod_cast hk
    by_contra hq
    -- one is the nearest to a half only if it is even
    have hhalf : q = 1 / 2 := by linarith
    have hk1 : (k : ℚ) = 1 := by linarith
    have heven : Even k := h.even (by rw [hhalf, hk1]; norm_num)
    have : k = 1 := by exact_mod_cast hk1
    rw [this] at heven
    exact absurd heven (by decide)
  · intro hq
    have hk : (0 : ℚ) < k := by linarith
    exact_mod_cast hk

/-- A rounded quotient is the whole number nearest to the quotient. -/
theorem quotient (num : Nat) {den : Nat} (hden : 0 < den) :
    NearestEven (num / den) (roundDiv num den : Nat) := by
  have hd : (0 : ℚ) < den := by exact_mod_cast hden
  have hlow : (2 * num : ℚ) ≤ 2 * (den * roundDiv num den) + den := by
    exact_mod_cast two_mul_le_roundDiv num hden
  have hhigh : 2 * (den * roundDiv num den) ≤ (2 * num : ℚ) + den := by
    exact_mod_cast two_mul_roundDiv_le num hden
  have herror : (num / den - ((roundDiv num den : Nat) : ℤ) : ℚ) =
      (num - den * roundDiv num den) / den := by
    rw [Int.cast_natCast]
    field_simp
  constructor
  · rw [herror, abs_div, abs_of_pos hd, div_le_iff₀ hd, abs_le]
    constructor <;> linarith
  · intro htie
    rw [herror, abs_div, abs_of_pos hd, div_eq_iff hd.ne'] at htie
    have hcases : 2 * num = 2 * (den * roundDiv num den) + den ∨
        2 * (den * roundDiv num den) = 2 * num + den := by
      rcases abs_eq_abs.1 (htie.trans (abs_of_pos (by linarith : (0 : ℚ) < 1 / 2 * den)).symm)
        with h | h
      · left
        have h' : (2 * num : ℚ) = 2 * (den * roundDiv num den) + den := by linarith
        exact_mod_cast h'
      · right
        have h' : 2 * (den * roundDiv num den) = (2 * num : ℚ) + den := by linarith
        exact_mod_cast h'
    have heven := even_roundDiv_of_tie hden hcases
    exact (Int.even_coe_nat _).2 (Nat.even_iff.2 heven)

end NearestEven

/-! ## Decimal texts -/

theorem powerOfTen_eq (n : Nat) : powerOfTen n = 5 ^ n * 1 <<< n := by
  rw [Nat.shiftLeft_eq, Nat.one_mul]
  exact Nat.mul_pow 5 2 n

namespace Decimal

/-- The exact value of a decimal. -/
def value (d : Decimal) : ℚ := d.significand * 10 ^ d.exponent

/-- The decimal that a text without a sign denotes: digits, and perhaps a point with digits on
    either side of it. -/
def ofText? (text : List Char) : Option Decimal :=
  let whole := text.takeWhile Char.isDigit
  match text.dropWhile Char.isDigit with
  | [] => if whole.isEmpty then none else some (ofParts whole [] 0)
  | '.' :: fraction =>
    if whole.isEmpty || fraction.isEmpty || !fraction.all Char.isDigit then none
    else some (ofParts whole fraction 0)
  | _ => none

/-- The text of a fraction with the point in front of it; nothing for no digits. -/
def pointed (fraction : List Char) : List Char :=
  if fraction = [] then [] else '.' :: fraction

variable {whole fraction : List Char}

theorem value_ofParts (whole fraction : List Char) :
    (ofParts whole fraction 0).value = ofDigits (whole ++ fraction) / 10 ^ fraction.length := by
  unfold value ofParts
  dsimp only
  rw [zero_sub, zpow_neg, zpow_natCast, div_eq_mul_inv]

theorem ofText?_pointed (hne : whole ≠ []) (hwhole : ∀ c ∈ whole, c.isDigit = true)
    (hfraction : ∀ c ∈ fraction, c.isDigit = true) :
    ofText? (whole ++ pointed fraction) = some (ofParts whole fraction 0) := by
  have hempty : whole.isEmpty = false := by simpa using hne
  unfold pointed
  split
  · next hnil =>
    have hsplit : whole.takeWhile Char.isDigit = whole := List.takeWhile_eq_self_iff.2 hwhole
    have hrest : whole.dropWhile Char.isDigit = [] := List.dropWhile_eq_nil_iff.2 hwhole
    rw [List.append_nil, hnil]
    unfold ofText?
    simp only [hsplit, hrest, hempty, Bool.false_eq_true, if_false]
  · next hpoint =>
    have hsplit : (whole ++ '.' :: fraction).takeWhile Char.isDigit = whole := by
      rw [List.takeWhile_append_of_pos hwhole, List.takeWhile_cons_of_neg (by decide),
        List.append_nil]
    have hrest : (whole ++ '.' :: fraction).dropWhile Char.isDigit = '.' :: fraction := by
      rw [List.dropWhile_append_of_pos hwhole, List.dropWhile_cons_of_neg (by decide)]
    have hnone : fraction.isEmpty = false := by simpa using hpoint
    have hall : fraction.all Char.isDigit = true := List.all_eq_true.2 hfraction
    unfold ofText?
    simp only [hsplit, hrest, hempty, hnone, hall, Bool.not_true, Bool.or_self,
      Bool.false_eq_true, if_false]

end Decimal

/-- The number that a text denotes: a decimal, with a sign if it is below zero. -/
def decimalValue? (text : List Char) : Option ℚ :=
  match text with
  | '-' :: size => (Decimal.ofText? size).map fun d => -d.value
  | _ => (Decimal.ofText? text).map Decimal.value

/-! ## The text of a coordinate -/

/-- Dropping at the end of two texts goes on to the first one if nothing is left of the second. -/
theorem dropTrailing_append (c : Char) (first second : List Char) :
    dropTrailing c (first ++ second) =
      if dropTrailing c second = [] then dropTrailing c first
      else first ++ dropTrailing c second := by
  unfold dropTrailing
  rw [List.reverse_append, List.dropWhile_append]
  simp only [List.isEmpty_iff, List.reverse_eq_nil_iff]
  split
  · rfl
  · rw [List.reverse_append, List.reverse_reverse]

theorem dropTrailing_of_not_mem {c : Char} {text : List Char} (h : c ∉ text) :
    dropTrailing c text = text := by
  refine List.rdropWhile_eq_self_iff.2 fun hne hlast => ?_
  have hlast' : text.getLast hne = c := by simpa using hlast
  exact h (hlast' ▸ List.getLast_mem hne)

/-- What is dropped at the end of a text. -/
theorem exists_dropTrailing (c : Char) (text : List Char) :
    ∃ count, dropTrailing c text ++ List.replicate count c = text := by
  have hsplit : dropTrailing c text ++ text.rtakeWhile (· == c) = text :=
    List.rdropWhile_append_rtakeWhile
  refine ⟨(text.rtakeWhile (· == c)).length, ?_⟩
  have hall : text.rtakeWhile (· == c) =
      List.replicate (text.rtakeWhile (· == c)).length c := by
    refine List.eq_replicate_of_mem fun d hd => ?_
    simpa using List.mem_rtakeWhile_imp hd
  rw [← hall]
  exact hsplit

namespace Decimal

/-- The digits of the fraction of a count of steps, without the zeros at its end. -/
def trimmedFraction (places steps : Nat) : List Char :=
  dropTrailing '0' (padZeros places (digits (steps % powerOfTen places)))

/-- The text of a count of steps without needless characters. -/
def writeTrimmed (places steps : Nat) : List Char :=
  digits (steps / powerOfTen places) ++ pointed (trimmedFraction places steps)

variable {places steps : Nat}

theorem isDigit_of_mem_padZeros {width n : Nat} {c : Char} (h : c ∈ padZeros width (digits n)) :
    c.isDigit = true := by
  rcases List.mem_append.1 h with hzero | hdigit
  · rw [(List.mem_replicate.1 hzero).2]
    rfl
  · exact isDigit_of_mem_digits hdigit

theorem isDigit_of_mem_trimmedFraction {c : Char} (h : c ∈ trimmedFraction places steps) :
    c.isDigit = true :=
  isDigit_of_mem_padZeros ((List.rdropWhile_prefix (· == '0') _).subset h)

theorem trimmedFraction_zero (steps : Nat) : trimmedFraction 0 steps = [] := by
  have hrest : steps % powerOfTen 0 = 0 := Nat.mod_one steps
  unfold trimmedFraction
  rw [hrest]
  rfl

/-- What a number has before its steps stays; the steps lose the characters they do not need. -/
theorem trimFraction_writeSteps (sign : List Char) (hsign : '.' ∉ sign) (places steps : Nat) :
    trimFraction (sign ++ writeSteps places steps) = sign ++ writeTrimmed places steps := by
  have hdigits : '.' ∉ digits (steps / powerOfTen places) := fun h =>
    absurd (isDigit_of_mem_digits h) (by decide)
  have hwhole : '.' ∉ sign ++ digits (steps / powerOfTen places) := by
    simp [hsign, hdigits]
  unfold writeSteps writeTrimmed trimFraction
  by_cases hplaces : places = 0
  · subst hplaces
    rw [trimmedFraction_zero, if_pos rfl, List.append_nil, if_neg (by simpa using hwhole)]
    unfold pointed
    rw [if_pos rfl, List.append_nil]
  · rw [if_neg hplaces, if_pos (by simp)]
    -- the zeros at the end go first, and the point only if no digit is left after it
    have hpoint : sign ++ (digits (steps / powerOfTen places) ++
        '.' :: padZeros places (digits (steps % powerOfTen places))) =
        ((sign ++ digits (steps / powerOfTen places)) ++ ['.']) ++
          padZeros places (digits (steps % powerOfTen places)) := by simp
    rw [hpoint, dropTrailing_append '0']
    show dropTrailing '.' (if trimmedFraction places steps = [] then _ else _ ++
      trimmedFraction places steps) = _
    unfold pointed
    split
    · have hzero : dropTrailing '0' (sign ++ digits (steps / powerOfTen places) ++ ['.']) =
          sign ++ digits (steps / powerOfTen places) ++ ['.'] := by
        rw [dropTrailing_append, if_neg (by decide)]
        rfl
      rw [hzero, dropTrailing_append, if_pos (by decide), dropTrailing_of_not_mem hwhole,
        List.append_nil]
    · next hsome =>
      have hfraction : '.' ∉ trimmedFraction places steps := fun h =>
        absurd (isDigit_of_mem_trimmedFraction h) (by decide)
      rw [dropTrailing_append, dropTrailing_of_not_mem hfraction, if_neg hsome]
      simp

theorem ofText?_writeTrimmed (places steps : Nat) :
    ofText? (writeTrimmed places steps) = some (ofParts (digits (steps / powerOfTen places))
      (trimmedFraction places steps) 0) :=
  ofText?_pointed Nat.toDigits_ne_nil (fun _ h => isDigit_of_mem_digits h)
    fun _ h => isDigit_of_mem_trimmedFraction h

theorem length_padZeros (hplaces : places ≠ 0) (steps : Nat) :
    (padZeros places (digits (steps % powerOfTen places))).length = places := by
  have hshort : (digits (steps % powerOfTen places)).length ≤ places :=
    (Nat.length_toDigits_le_iff (by decide) (Nat.pos_of_ne_zero hplaces)).2
      (Nat.mod_lt _ (powerOfTen_pos places))
  unfold padZeros
  rw [List.length_append, List.length_replicate]
  omega

/-- Zeros before digits do not count. -/
theorem ofDigits_padZeros (width : Nat) (text : List Char) :
    ofDigits (padZeros width text) = ofDigits text := by
  unfold padZeros ofDigits
  rw [Nat.ofDigitChars_append, Nat.ofDigitChars_replicate_zero, Nat.mul_zero]

/-- All digits of a count of steps together denote it. -/
theorem ofDigits_steps (hplaces : places ≠ 0) (steps : Nat) :
    ofDigits (digits (steps / powerOfTen places) ++
      padZeros places (digits (steps % powerOfTen places))) = steps := by
  unfold ofDigits
  rw [Nat.ofDigitChars_append, Nat.ofDigitChars_eq_ofDigitChars_zero, length_padZeros hplaces]
  show powerOfTen places * ofDigits (digits (steps / powerOfTen places)) +
    ofDigits (padZeros places (digits (steps % powerOfTen places))) = steps
  rw [ofDigits_padZeros, ofDigits_digits, ofDigits_digits]
  exact Nat.div_add_mod steps (powerOfTen places)

/-- **Trimmed texts keep their value**: the count of steps over the steps that make up one. -/
theorem value_writeTrimmed (places steps : Nat) :
    (ofParts (digits (steps / powerOfTen places)) (trimmedFraction places steps) 0).value =
      steps / 10 ^ places := by
  rw [value_ofParts]
  by_cases hplaces : places = 0
  · subst hplaces
    have hwhole : steps / powerOfTen 0 = steps := Nat.div_one steps
    rw [trimmedFraction_zero, List.append_nil, ofDigits_digits, hwhole]
    rfl
  · obtain ⟨count, hcount⟩ :=
      exists_dropTrailing '0' (padZeros places (digits (steps % powerOfTen places)))
    have hfraction : trimmedFraction places steps ++ List.replicate count '0' =
        padZeros places (digits (steps % powerOfTen places)) := hcount
    have hlength : (trimmedFraction places steps).length + count = places := by
      have h := congrArg List.length hfraction
      rwa [List.length_append, List.length_replicate, length_padZeros hplaces] at h
    have hvalue : ofDigits (digits (steps / powerOfTen places) ++ trimmedFraction places steps) *
        10 ^ count = steps := by
      have hzeros : ofDigits (digits (steps / powerOfTen places) ++ trimmedFraction places steps ++
          List.replicate count '0') =
          10 ^ count * ofDigits (digits (steps / powerOfTen places) ++
            trimmedFraction places steps) := by
        unfold ofDigits
        rw [Nat.ofDigitChars_append, Nat.ofDigitChars_replicate_zero]
      rw [List.append_assoc, hfraction, ofDigits_steps hplaces] at hzeros
      rw [Nat.mul_comm]
      exact hzeros.symm
    have hsteps : (ofDigits (digits (steps / powerOfTen places) ++ trimmedFraction places steps) *
        10 ^ count : ℚ) = steps := by exact_mod_cast hvalue
    have hcount_ne : (10 : ℚ) ^ count ≠ 0 := pow_ne_zero _ (by norm_num)
    rw [← mul_div_mul_right _ _ hcount_ne, hsteps, ← pow_add, hlength]

theorem writeTrimmed_eq_zero_iff : writeTrimmed places steps = ['0'] ↔ steps = 0 := by
  constructor
  · intro h
    -- the text of a zero is read as zero
    have hread := ofText?_writeTrimmed places steps
    have hzero : ofText? ['0'] = some (ofParts ['0'] [] 0) := rfl
    rw [h, hzero] at hread
    have hvalue := value_writeTrimmed places steps
    rw [← Option.some.inj hread, value_ofParts] at hvalue
    have hnone : (ofDigits (['0'] ++ []) / 10 ^ ([] : List Char).length : ℚ) = 0 := by
      have : ofDigits (['0'] ++ []) = 0 := rfl
      rw [this]
      norm_num
    rw [hnone, eq_comm, div_eq_zero_iff] at hvalue
    have hsteps := hvalue.resolve_right (pow_ne_zero _ (by norm_num))
    exact_mod_cast hsteps
  · rintro rfl
    have hfraction : trimmedFraction places 0 = [] := by
      refine List.rdropWhile_eq_nil_iff.2 fun c hc => ?_
      rw [Nat.zero_mod] at hc
      rcases List.mem_append.1 hc with hzero | hdigit
      · rw [(List.mem_replicate.1 hzero).2]
        rfl
      · rw [List.mem_singleton.1 (show c ∈ ['0'] from hdigit)]
        rfl
    unfold writeTrimmed
    rw [hfraction, Nat.zero_div]
    rfl

/-- A count of steps is written with a digit first. -/
theorem writeTrimmed_ne_cons {c : Char} (hc : c.isDigit = false) (rest : List Char) :
    writeTrimmed places steps ≠ c :: rest := by
  obtain ⟨first, others, hdigits⟩ :=
    List.exists_cons_of_ne_nil (show digits (steps / powerOfTen places) ≠ [] from
      Nat.toDigits_ne_nil)
  have hfirst : first.isDigit = true := isDigit_of_mem_digits (hdigits ▸ List.mem_cons_self)
  unfold writeTrimmed
  rw [hdigits]
  intro h
  rw [(List.cons.inj h).1, hc] at hfirst
  cases hfirst

theorem decimalValue?_writeTrimmed (places steps : Nat) :
    decimalValue? (writeTrimmed places steps) = some (steps / 10 ^ places : ℚ) := by
  have hvalue : (ofText? (writeTrimmed places steps)).map value =
      some (steps / 10 ^ places : ℚ) := by
    rw [ofText?_writeTrimmed, Option.map_some, value_writeTrimmed]
  unfold decimalValue?
  split
  · next heq => exact absurd heq (writeTrimmed_ne_cons rfl _)
  · exact hvalue

theorem decimalValue?_neg_writeTrimmed (places steps : Nat) :
    decimalValue? ('-' :: writeTrimmed places steps) = some (-(steps / 10 ^ places : ℚ)) := by
  show (ofText? (writeTrimmed places steps)).map (fun d => -d.value) = _
  rw [ofText?_writeTrimmed, Option.map_some, value_writeTrimmed]

end Decimal

/-! ## What is read from a coordinate -/

namespace Binary64

open Decimal

variable {x : Binary64}

/-- **The text of a coordinate**: its steps without needless characters, with a sign if they are not
    zero and the number is below it. -/
theorem coordinate_finite (places : Nat) (negative : Bool) (size : Magnitude) :
    (finite negative size).coordinate places =
      (if negative = true ∧ size.steps (min places exactPlaces) ≠ 0 then ['-'] else []) ++
        writeTrimmed (min places exactPlaces) (size.steps (min places exactPlaces)) := by
  unfold coordinate
  generalize min places exactPlaces = shown
  have hfixed : trimFraction ((finite negative size).fixed shown) =
      (if negative then ['-'] else []) ++ writeTrimmed shown (size.steps shown) := by
    refine trimFraction_writeSteps _ ?_ shown _
    cases negative <;> decide
  rw [hfixed]
  cases negative with
  | false =>
      have hsign : writeTrimmed shown (size.steps shown) ≠ ['-', '0'] :=
        writeTrimmed_ne_cons rfl _
      simp [hsign]
  | true =>
      by_cases hzero : size.steps shown = 0
      · simp [hzero, writeTrimmed_eq_zero_iff.2]
      · simp [hzero, writeTrimmed_eq_zero_iff]

/-- The factor of a sign. -/
def signFactor (negative : Bool) : ℤ := if negative then -1 else 1

theorem value_finite (negative : Bool) (size : Magnitude) :
    (finite negative size).value = signFactor negative * size.units / unitsPerOne := by
  unfold value signed signFactor
  cases negative <;> simp

/-- What is read from the text of a coordinate: its steps with its sign. -/
theorem decimalValue?_coordinate_finite (places : Nat) (negative : Bool) (size : Magnitude) :
    decimalValue? ((finite negative size).coordinate places) =
      some (signFactor negative * size.steps (min places exactPlaces) /
        10 ^ min places exactPlaces : ℚ) := by
  rw [coordinate_finite]
  generalize min places exactPlaces = shown
  unfold signFactor
  cases negative with
  | false => simp [decimalValue?_writeTrimmed]
  | true =>
      by_cases hzero : size.steps shown = 0
      · simp [hzero, decimalValue?_writeTrimmed]
      · simp [hzero, decimalValue?_neg_writeTrimmed, neg_div]

theorem cast_powerOfTen (n : Nat) : (powerOfTen n : ℚ) = 10 ^ n := Nat.cast_pow 10 n

/-- A step of the most places that are written is the unit divided by a whole number. -/
theorem exists_powerOfTen_exactPlaces :
    ∃ t, 0 < t ∧ powerOfTen exactPlaces = t * unitsPerOne := by
  have hunits : unitsPerOne = 1 <<< exactPlaces := unitsPerOne_eq
  rw [hunits]
  exact ⟨5 ^ exactPlaces, Nat.pow_pos (Nat.succ_pos 4), powerOfTen_eq exactPlaces⟩

/-- The steps of a number are the nearest to it if its places are written. -/
theorem nearestEven_steps (places : Nat) (negative : Bool) (size : Magnitude) :
    NearestEven ((finite negative size).value * 10 ^ places)
      (signFactor negative * size.steps places) := by
  have hnear : NearestEven (size.units * 10 ^ places / unitsPerOne) (size.steps places) := by
    have hquotient := NearestEven.quotient (size.units * powerOfTen places) unitsPerOne_pos
    rwa [Nat.cast_mul, cast_powerOfTen] at hquotient
  rw [value_finite, div_mul_eq_mul_div, mul_assoc, mul_div_assoc]
  unfold signFactor
  cases negative with
  | false => simpa using hnear
  | true => simpa using hnear.neg

/-- With all places of an exact number nothing is rounded. -/
theorem steps_exactPlaces (negative : Bool) (size : Magnitude) :
    (signFactor negative * size.steps exactPlaces : ℚ) / 10 ^ exactPlaces =
      (finite negative size).value := by
  obtain ⟨t, hpos, ht⟩ := exists_powerOfTen_exactPlaces
  have hsteps : size.steps exactPlaces = size.units * t := by
    unfold Magnitude.steps
    rw [ht, ← Nat.mul_assoc, roundDiv_mul_left unitsPerOne_pos]
  have hten : (10 : ℚ) ^ exactPlaces = t * unitsPerOne := by
    rw [← cast_powerOfTen, ht, Nat.cast_mul]
  have ht_ne : (t : ℚ) ≠ 0 := by exact_mod_cast hpos.ne'
  have hunits : (unitsPerOne : ℚ) ≠ 0 := by exact_mod_cast unitsPerOne_pos.ne'
  rw [value_finite, hsteps, hten, Nat.cast_mul]
  field_simp

/-- **Coordinates are rounded.** What is read from a coordinate is the multiple of a step nearest to
    the number, halves going to the even multiple. -/
theorem decimalValue?_coordinate (h : x.isFinite = true) (places : Nat) :
    ∃ k : ℤ, decimalValue? (x.coordinate places) = some (k / 10 ^ places : ℚ) ∧
      NearestEven (x.value * 10 ^ places) k := by
  cases x with
  | nan | infinity negative => cases h
  | finite negative size =>
      rw [decimalValue?_coordinate_finite]
      rcases Nat.le_total places exactPlaces with hle | hge
      · rw [min_eq_left hle]
        exact ⟨_, by push_cast; rfl, nearestEven_steps places negative size⟩
      · rw [min_eq_right hge, steps_exactPlaces]
        -- a multiple of a greater step is one of the step
        have hten : (10 : ℚ) ^ places = 10 ^ exactPlaces * 10 ^ (places - exactPlaces) := by
          rw [← pow_add, Nat.add_sub_cancel' hge]
        have hvalue : (finite negative size).value * 10 ^ places =
            ((signFactor negative * size.steps exactPlaces * 10 ^ (places - exactPlaces) : ℤ) :
              ℚ) := by
          rw [← steps_exactPlaces, hten]
          push_cast
          field_simp
        refine ⟨_, ?_, hvalue ▸ NearestEven.intCast _⟩
        rw [← hvalue, mul_div_cancel_right₀ _ (pow_ne_zero _ (by norm_num))]

/-- What is no number has no decimal. -/
theorem decimalValue?_coordinate_eq_none (h : x.isFinite = false) (places : Nat) :
    decimalValue? (x.coordinate places) = none := by
  cases x with
  | finite negative size => cases h
  | nan => rfl
  | infinity negative => cases negative <;> rfl

/-- Is a character a letter, a digit, a point or a sign? -/
def isNumberSymbol (c : Char) : Bool := c.isAlphanum || c == '.' || c == '-'

/-- The characters of a coordinate, those of an infinity or a NaN included. -/
theorem isNumberSymbol_of_mem_coordinate {c : Char} {places : Nat} (h : c ∈ x.coordinate places) :
    isNumberSymbol c = true := by
  have hdigit : c.isDigit = true → isNumberSymbol c = true := by
    intro hc
    simp [isNumberSymbol, Char.isAlphanum, hc]
  have hall : ∀ text : List Char, text.all isNumberSymbol = true → c ∈ text →
      isNumberSymbol c = true := fun text htext hc => List.all_eq_true.1 htext c hc
  cases x with
  | nan => exact hall ['n', 'a', 'n'] (by decide) h
  | infinity negative =>
      cases negative with
      | false => exact hall ['i', 'n', 'f'] (by decide) h
      | true => exact hall ['-', 'i', 'n', 'f'] (by decide) h
  | finite negative size =>
      rw [coordinate_finite] at h
      rcases List.mem_append.1 h with hsign | hsteps
      · split at hsign
        · exact hall ['-'] (by decide) hsign
        · cases hsign
      · rcases List.mem_append.1 hsteps with hwhole | hfraction
        · exact hdigit (isDigit_of_mem_digits hwhole)
        · unfold pointed at hfraction
          split at hfraction
          · cases hfraction
          · rcases List.mem_cons.1 hfraction with rfl | hmem
            · decide
            · exact hdigit (isDigit_of_mem_trimmedFraction hmem)

theorem not_mem_coordinate {c : Char} (hc : isNumberSymbol c = false) (x : Binary64)
    (places : Nat) : c ∉ x.coordinate places := by
  intro h
  rw [isNumberSymbol_of_mem_coordinate h] at hc
  cases hc

end Binary64

end TurtleGrammar
