import TurtleGrammar.Decimal.Literal
import TurtleGrammar.Proofs.Coordinate
import TurtleGrammar.Proofs.Magnitude

/-!
# `TurtleGrammar.Proofs.ReadBack` — written numbers are read back

A number is written with digits that denote a decimal nearest to no other number. The reader finds
the same digits around the point and the same exponent whatever layout was chosen, and rounds the
decimal that they denote to the number itself. So the text of a number, with its sign and with the
special values, tells which number was written.

## Contents
- `Magnitude.ofQuotient?_congr`, `Magnitude.ofQuotient?_units`: equal quotients are rounded alike, and
  what is a magnitude is not rounded.
- `Decimal.nearest_shortest`: the decimal that is written denotes the number.
- `Decimal.Spells`, `Binary64.readUnsigned?_spells`: the texts of decimals are read.
- `Decimal.denotes_write`: every layout of a decimal is a text of it.
- `Binary64.read?_write`: the text of a number is read as the number.
- `Binary64.isTextSymbol_of_mem_write`: the characters that numbers are written with.
-/

namespace TurtleGrammar

/-! ## Quotients that are equal -/

theorem roundDiv_mul_mul {k : Nat} (hk : 0 < k) (num den : Nat) :
    roundDiv (k * num) (k * den) = roundDiv num den := by
  have hquotient : k * num / (k * den) = num / den := Nat.mul_div_mul_left num den hk
  have hrest : k * num % (k * den) = k * (num % den) := Nat.mul_mod_mul_left k num den
  have hbelow : 2 * (k * (num % den)) < k * den ↔ 2 * (num % den) < den := by
    rw [Nat.mul_left_comm, Nat.mul_lt_mul_left hk]
  have habove : k * den < 2 * (k * (num % den)) ↔ den < 2 * (num % den) := by
    rw [Nat.mul_left_comm, Nat.mul_lt_mul_left hk]
  unfold roundDiv
  simp only [hquotient, hrest, hbelow, habove]

namespace Magnitude

open Binary64 (unitsPerOne)

theorem ofQuotient?_mul_mul {k : Nat} (hk : 0 < k) (num den : Nat) :
    ofQuotient? (k * num) (k * den) = ofQuotient? num den := by
  have hexcess : excess (k * num) (k * den) = excess num den := by
    unfold excess
    rw [Nat.mul_div_mul_left num den hk]
  have hrounded : roundDiv (k * num) ((k * den) <<< excess num den) =
      roundDiv num (den <<< excess num den) := by
    rw [shiftLeft_eq_mul, Nat.mul_assoc, ← shiftLeft_eq_mul, roundDiv_mul_mul hk]
  unfold ofQuotient?
  simp only [hexcess, hrounded]

/-- **Equal quotients** are rounded to the same magnitude. -/
theorem ofQuotient?_congr {num den num' den' : Nat} (hden : 0 < den) (hden' : 0 < den')
    (h : num * den' = num' * den) : ofQuotient? num den = ofQuotient? num' den' := by
  calc ofQuotient? num den
      = ofQuotient? (den' * num) (den' * den) := (ofQuotient?_mul_mul hden' num den).symm
    _ = ofQuotient? (den * num') (den * den') := by
        rw [Nat.mul_comm den' num, h, Nat.mul_comm num', Nat.mul_comm den']
    _ = ofQuotient? num' den' := ofQuotient?_mul_mul hden num' den'

/-- A whole number of units that is a magnitude exceeds the mantissa by its scale. -/
theorem excess_units (size : Magnitude) : excess size.units 1 = size.scale := by
  have hlt : size.units < 2 ^ (53 + size.scale) := by
    have h := size.units_lt
    rwa [Nat.shiftLeft_eq, Nat.one_mul] at h
  unfold excess
  rw [Nat.div_one]
  by_cases hscale : size.scale = 0
  · rcases Nat.eq_zero_or_pos size.units with hzero | hpos
    · rw [hzero, Nat.log2_zero, hscale]
    · have hlog : size.units.log2 < 53 + size.scale :=
        (Nat.log2_lt (Nat.ne_of_gt hpos)).2 hlt
      omega
  · have hlog : 52 + size.scale ≤ size.units.log2 := le_log2_of_shiftLeft_le (le_units hscale)
    have hpos : size.units ≠ 0 := by
      intro hzero
      rw [hzero, Nat.log2_zero] at hlog
      omega
    have hlog' : size.units.log2 < 53 + size.scale := (Nat.log2_lt hpos).2 hlt
    omega

/-- **Magnitudes are not rounded**, as quotients over whatever denominator. -/
theorem ofQuotient?_units (size : Magnitude) {den : Nat} (hden : 0 < den) :
    ofQuotient? (size.units * den) den = some size := by
  have hone : ofQuotient? (size.units * den) den = ofQuotient? size.units 1 :=
    ofQuotient?_congr hden Nat.one_pos (Nat.mul_one _)
  have hrounded : rounded size.units 1 = size.mantissa := by
    unfold rounded
    rw [excess_units]
    unfold units
    rw [shiftLeft_eq_mul]
    exact roundDiv_mul_left (shiftLeft_pos Nat.one_pos _) size.mantissa
  obtain ⟨found, hfound, hmantissa, hscale⟩ := ofQuotient?_of_lt
    (hrounded ▸ size.mantissa_lt) (excess_units size ▸ size.scale_le)
  rw [hone, hfound]
  exact congrArg some (ext (hmantissa.trans hrounded) (hscale.trans (excess_units size)))

end Magnitude

namespace Binary64

theorem ofUnitQuotient_of_some {num den : Nat} {size : Magnitude}
    (h : Magnitude.ofQuotient? num den = some size) (negative : Bool) :
    ofUnitQuotient negative num den = finite negative size := by
  unfold ofUnitQuotient
  rw [h]

theorem ofUnitQuotient_congr {num den num' den' : Nat} (hden : 0 < den) (hden' : 0 < den')
    (h : num * den' = num' * den) (negative : Bool) :
    ofUnitQuotient negative num den = ofUnitQuotient negative num' den' := by
  unfold ofUnitQuotient
  rw [Magnitude.ofQuotient?_congr hden hden' h]

/-- A quotient is rounded to a magnitude whatever its sign is. -/
theorem ofUnitQuotient_sign {num den : Nat} {size : Magnitude}
    (h : ofUnitQuotient false num den = finite false size) (negative : Bool) :
    ofUnitQuotient negative num den = finite negative size := by
  unfold ofUnitQuotient at h ⊢
  cases hsize : Magnitude.ofQuotient? num den with
  | none => simp [hsize] at h
  | some found =>
      simp only [hsize, finite.injEq] at h ⊢
      exact ⟨trivial, h.2⟩

end Binary64

namespace Decimal

variable {d : Decimal} {size : Magnitude}

theorem nearest_sign (h : d.nearest false = .finite false size) (negative : Bool) :
    d.nearest negative = .finite negative size := by
  unfold nearest at h ⊢
  split
  · next hexponent =>
    rw [if_pos hexponent] at h
    exact Binary64.ofUnitQuotient_sign h negative
  · next hexponent =>
    rw [if_neg hexponent] at h
    exact Binary64.ofUnitQuotient_sign h negative

/-- Units that are multiplied up to decimal places denote the number itself. -/
theorem nearest_units (size : Magnitude) (places : Nat) {factor : Nat} {exponent : Int}
    (hplaces : 0 < places) (hexponent : exponent = -places)
    (h : powerOfTen places = factor * Binary64.unitsPerOne) :
    nearest false ⟨size.units * factor, exponent⟩ = .finite false size := by
  have hneg : ¬ 0 ≤ exponent := by omega
  unfold nearest
  dsimp only
  rw [if_neg hneg, hexponent, Int.neg_neg, Int.toNat_natCast, Nat.mul_assoc, ← h]
  exact Binary64.ofUnitQuotient_of_some
    (Magnitude.ofQuotient?_units size (powerOfTen_pos places)) false

/-- The exact decimal of a number is nearest to it. -/
theorem nearest_exactDecimal (size : Magnitude) :
    size.exactDecimal.nearest false = .finite false size := by
  have hunits := Binary64.unitsPerOne_eq
  unfold Magnitude.exactDecimal
  -- the power of five is not to be evaluated
  generalize hplaces : 1074 = places at hunits ⊢
  refine nearest_units size places ?_ ?_ ?_
  · omega
  · omega
  · rw [hunits]
    exact powerOfTen_eq places

/-- **The decimal that is written** for a number is nearest to it. -/
theorem nearest_shortest (size : Magnitude) (negative : Bool) :
    (shortest size).nearest negative = .finite negative size := by
  refine nearest_sign ?_ negative
  unfold shortest
  cases h : firstHit? size 17 1 with
  | none => exact nearest_exactDecimal size
  | some d => exact nearest_of_firstHit? h

/-- Zeros put after the digits, and one more after a point, do not change what they denote. -/
theorem nearest_zeros (significand zeros : Nat) (negative : Bool) :
    nearest negative ⟨significand * powerOfTen (zeros + 1), -1⟩ =
      nearest negative ⟨significand, zeros⟩ := by
  have hpoint : ¬ (0 : Int) ≤ -1 := by decide
  have hwhole : (0 : Int) ≤ zeros := Int.natCast_nonneg zeros
  unfold nearest
  dsimp only
  rw [if_neg hpoint, if_pos hwhole, Int.toNat_natCast]
  refine Binary64.ofUnitQuotient_congr (powerOfTen_pos 1) Nat.one_pos ?_ negative
  rw [powerOfTen_succ, Nat.mul_one, ← Nat.mul_assoc, Nat.mul_right_comm]
  rfl

/-! ## Texts of decimals -/

/-- The sign before the digits of an exponent. -/
def exponentSign (negative : Bool) : Char := if negative then '-' else '+'

/-- A whole number with the given sign. -/
def signedNat (negative : Bool) (n : Nat) : Int := if negative then -n else n

/-- A text that denotes a decimal: digits, a point and digits unless there are none after it, and
    perhaps an exponent with its sign. -/
inductive Spells : List Char → Decimal → Prop where
  | positional {whole fraction : List Char} (hne : whole ≠ [])
      (hwhole : ∀ c ∈ whole, c.isDigit = true) (hfraction : ∀ c ∈ fraction, c.isDigit = true) :
      Spells (whole ++ pointed fraction) (ofParts whole fraction 0)
  | exponential {whole fraction ds : List Char} (negative : Bool) (hne : whole ≠ [])
      (hwhole : ∀ c ∈ whole, c.isDigit = true) (hfraction : ∀ c ∈ fraction, c.isDigit = true)
      (hds_ne : ds ≠ []) (hds : ∀ c ∈ ds, c.isDigit = true) :
      Spells (whole ++ pointed fraction ++ 'e' :: exponentSign negative :: ds)
        (ofParts whole fraction (signedNat negative (ofDigits ds)))

variable {text whole fraction rest ds : List Char}

/-- A text that denotes a decimal starts with a digit. -/
theorem Spells.exists_cons (h : Spells text d) :
    ∃ first others, text = first :: others ∧ first.isDigit = true := by
  have hcons : ∀ {whole : List Char}, whole ≠ [] → (∀ c ∈ whole, c.isDigit = true) →
      ∀ rest, ∃ first others, whole ++ rest = first :: others ∧ first.isDigit = true := by
    intro whole hne hwhole rest
    obtain ⟨first, others, rfl⟩ := List.exists_cons_of_ne_nil hne
    exact ⟨first, others ++ rest, rfl, hwhole first List.mem_cons_self⟩
  cases h with
  | positional hne hwhole hfraction => exact hcons hne hwhole _
  | exponential negative hne hwhole hfraction hds_ne hds =>
      rw [List.append_assoc]
      exact hcons hne hwhole _

end Decimal

namespace Binary64

open Decimal

variable {text whole fraction rest ds : List Char} {d : Decimal} {negative : Bool}

theorem takeWhile_isDigit_of_head (h : ∀ c ∈ rest.head?, c.isDigit = false)
    (hwhole : ∀ c ∈ whole, c.isDigit = true) : (whole ++ rest).takeWhile Char.isDigit = whole := by
  rw [List.takeWhile_append_of_pos hwhole]
  cases rest with
  | nil => exact List.append_nil whole
  | cons c rest => rw [List.takeWhile_cons_of_neg (by simp [h c rfl]), List.append_nil]

/-- Is a text no continuation of the digits and the point before it? -/
def EndsDigits (rest : List Char) : Prop := ∀ c ∈ rest.head?, c.isDigit = false ∧ c ≠ '.'

/-- The digits after the point are found, and what comes after them. -/
theorem fractionDigits_pointed (hfraction : ∀ c ∈ fraction, c.isDigit = true)
    (hrest : EndsDigits rest) :
    fractionDigits (pointed fraction ++ rest) = fraction ∧
      (pointed fraction ++ rest).drop
        (if (pointed fraction ++ rest).head? = some '.' then fraction.length + 1 else 0) = rest := by
  unfold pointed
  split
  · next hnil =>
    subst hnil
    cases rest with
    | nil => exact ⟨rfl, rfl⟩
    | cons c rest =>
        have hpoint : c ≠ '.' := (hrest c rfl).2
        simp [fractionDigits, hpoint]
  · have htake := takeWhile_isDigit_of_head (fun c hc => (hrest c hc).1) hfraction
    simp [fractionDigits, htake]

/-- The digits before the point are found. -/
theorem takeWhile_pointed (hwhole : ∀ c ∈ whole, c.isDigit = true) (hrest : EndsDigits rest) :
    (whole ++ (pointed fraction ++ rest)).takeWhile Char.isDigit = whole := by
  refine takeWhile_isDigit_of_head ?_ hwhole
  unfold pointed
  split
  · exact fun c hc => (hrest c hc).1
  · intro c hc
    obtain rfl := Option.some.inj hc
    rfl

theorem exponentPart?_sign (negative : Bool) (hne : ds ≠ [])
    (hds : ∀ c ∈ ds, c.isDigit = true) :
    exponentPart? ('e' :: exponentSign negative :: ds) =
      some (signedNat negative (ofDigits ds), ds.length + 2) := by
  have hall : ds.takeWhile Char.isDigit = ds := List.takeWhile_eq_self_iff.2 hds
  have hempty : ds.isEmpty = false := by simpa using hne
  have hlength : 1 + 1 + ds.length = ds.length + 2 := by omega
  unfold exponentPart? exponentSign signedNat
  cases negative with
  | false => simp [hall, hempty, hlength]
  | true => simp [hall, hempty, hlength]

/-- **Texts of decimals are read**: as the number nearest to the decimal. -/
theorem readUnsigned?_spells (h : Spells text d) (negative : Bool) :
    readUnsigned? negative text = some (d.nearest negative) := by
  rw [← toBinary64_eq_nearest]
  cases h with
  | @positional whole fraction hne hwhole hfraction =>
      have hrest : EndsDigits [] := fun c => nofun
      have hempty : whole.isEmpty = false := by simpa using hne
      have hdigits := @takeWhile_pointed whole fraction [] hwhole hrest
      obtain ⟨hfound, hafter⟩ := fractionDigits_pointed hfraction hrest
      rw [← List.append_nil (pointed fraction)]
      unfold readUnsigned?
      simp only [hdigits, List.drop_left, hfound, hafter, hempty, Bool.false_and,
        Bool.false_eq_true, if_false, List.isEmpty_nil, if_true]
  | @exponential whole fraction ds minus hne hwhole hfraction hds_ne hds =>
      have hrest : EndsDigits ('e' :: exponentSign minus :: ds) := by
        intro c hc
        obtain rfl := Option.some.inj hc
        decide
      have hempty : whole.isEmpty = false := by simpa using hne
      have hdigits := @takeWhile_pointed whole fraction _ hwhole hrest
      obtain ⟨hfound, hafter⟩ := fractionDigits_pointed hfraction hrest
      rw [List.append_assoc]
      unfold readUnsigned?
      simp only [hdigits, List.drop_left, hfound, hafter, hempty, Bool.false_and,
        Bool.false_eq_true, if_false, List.isEmpty_cons, exponentPart?_sign minus hds_ne hds,
        List.length_cons, if_true]

end Binary64

/-! ## Layouts -/

namespace Decimal

variable {ds : List Char}

/-- Is the text one of a decimal that is rounded like the given one? -/
def Denotes (text : List Char) (d : Decimal) : Prop :=
  ∃ shown, Spells text shown ∧ ∀ negative, shown.nearest negative = d.nearest negative

theorem ofDigits_append_zeros (ds : List Char) (zeros : Nat) :
    ofDigits (ds ++ List.replicate zeros '0') = ofDigits ds * powerOfTen zeros := by
  unfold ofDigits
  rw [Nat.ofDigitChars_append, Nat.ofDigitChars_replicate_zero, Nat.mul_comm]
  rfl

theorem isDigit_of_mem_zeros {zeros : Nat} {c : Char} (h : c ∈ List.replicate zeros '0') :
    c.isDigit = true := by
  rw [(List.mem_replicate.1 h).2]
  rfl

theorem isDigit_of_mem_zero : ∀ c ∈ ['0'], c.isDigit = true :=
  fun _ h => @isDigit_of_mem_zeros 1 _ h

theorem isDigit_of_mem_append_zeros (hds : ∀ c ∈ ds, c.isDigit = true) (zeros : Nat) :
    ∀ c ∈ ds ++ List.replicate zeros '0', c.isDigit = true := by
  intro c hc
  rcases List.mem_append.1 hc with hmem | hzero
  · exact hds c hmem
  · exact isDigit_of_mem_zeros hzero

theorem pointed_of_ne_nil {fraction : List Char} (h : fraction ≠ []) :
    pointed fraction = '.' :: fraction := by
  unfold pointed
  rw [if_neg h]

/-- Zeros stand between the point and the digits. -/
theorem denotes_behindPoint (hne : ds ≠ []) (hds : ∀ c ∈ ds, c.isDigit = true) (zeros : Nat) :
    Denotes (['0', '.'] ++ List.replicate zeros '0' ++ ds) ⟨ofDigits ds, -zeros - ds.length⟩ := by
  have hfraction : ∀ c ∈ List.replicate zeros '0' ++ ds, c.isDigit = true := by
    intro c hc
    rcases List.mem_append.1 hc with hzero | hmem
    · exact isDigit_of_mem_zeros hzero
    · exact hds c hmem
  have hfraction_ne : List.replicate zeros '0' ++ ds ≠ [] := by simp [hne]
  have hspells := Spells.positional (List.cons_ne_nil '0' []) isDigit_of_mem_zero hfraction
  have hzeros : ['0'] ++ (List.replicate zeros '0' ++ ds) = padZeros (zeros + 1 + ds.length) ds := by
    unfold padZeros
    rw [Nat.add_sub_cancel, List.replicate_succ]
    rfl
  have hexponent : (0 : Int) - (List.replicate zeros '0' ++ ds).length = -zeros - ds.length := by
    rw [List.length_append, List.length_replicate]
    omega
  have hshown : ofParts ['0'] (List.replicate zeros '0' ++ ds) 0 =
      ⟨ofDigits ds, -zeros - ds.length⟩ := by
    unfold ofParts
    rw [hzeros, ofDigits_padZeros, hexponent]
  rw [pointed_of_ne_nil hfraction_ne, hshown] at hspells
  exact ⟨_, hspells, fun _ => rfl⟩

/-- Zeros stand between the digits and the point. -/
theorem denotes_beforePoint (hne : ds ≠ []) (hds : ∀ c ∈ ds, c.isDigit = true) (zeros : Nat) :
    Denotes (ds ++ List.replicate zeros '0' ++ ['.', '0']) ⟨ofDigits ds, zeros⟩ := by
  have hspells := @Spells.positional (ds ++ List.replicate zeros '0') ['0'] (by simp [hne])
    (isDigit_of_mem_append_zeros hds zeros) isDigit_of_mem_zero
  have hvalue : ofDigits (ds ++ List.replicate zeros '0' ++ ['0']) =
      ofDigits ds * powerOfTen (zeros + 1) := by
    rw [← ofDigits_append_zeros, List.replicate_succ', List.append_assoc]
  refine ⟨_, hspells, fun negative => ?_⟩
  unfold ofParts
  rw [hvalue]
  exact nearest_zeros _ zeros negative

/-- The point parts the digits. -/
theorem denotes_amongDigits {whole fraction : List Char} (hwhole_ne : whole ≠ [])
    (hfraction_ne : fraction ≠ []) (hds : ∀ c ∈ whole ++ fraction, c.isDigit = true) :
    Denotes (whole ++ ['.'] ++ fraction) ⟨ofDigits (whole ++ fraction), -fraction.length⟩ := by
  have hspells := Spells.positional hwhole_ne (fun c hc => hds c (List.mem_append_left _ hc))
    fun c hc => hds c (List.mem_append_right _ hc)
  have hshown : ofParts whole fraction 0 = ⟨ofDigits (whole ++ fraction), -fraction.length⟩ := by
    unfold ofParts
    rw [Int.zero_sub]
  rw [pointed_of_ne_nil hfraction_ne, hshown] at hspells
  rw [List.append_assoc]
  exact ⟨_, hspells, fun _ => rfl⟩

/-- Wherever the point stands among the digits or the zeros around them, the number is the same. -/
theorem denotes_placePoint (hne : ds ≠ []) (hds : ∀ c ∈ ds, c.isDigit = true) (position : Int) :
    Denotes (placePoint position ds) ⟨ofDigits ds, position - ds.length⟩ := by
  have hpos : 0 < ds.length := List.length_pos_iff.2 hne
  unfold placePoint
  by_cases hbefore : position ≤ 0
  · have hposition : position = -((-position).toNat : Int) := by omega
    have h := denotes_behindPoint hne hds (-position).toNat
    rw [← hposition] at h
    rw [if_pos hbefore]
    exact h
  · rw [if_neg hbefore]
    by_cases hafter : ds.length ≤ position.toNat
    · have hexponent : ((position.toNat - ds.length : Nat) : Int) = position - ds.length := by omega
      have h := denotes_beforePoint hne hds (position.toNat - ds.length)
      rw [hexponent] at h
      rw [if_pos hafter]
      exact h
    · have hsplit : ds.take position.toNat ++ ds.drop position.toNat = ds :=
        List.take_append_drop position.toNat ds
      have hwhole_ne : ds.take position.toNat ≠ [] := by
        simp [hne]
        omega
      have hfraction_ne : ds.drop position.toNat ≠ [] := by
        rw [Ne, List.drop_eq_nil_iff]
        exact hafter
      have hexponent : -((ds.drop position.toNat).length : Int) = position - ds.length := by
        rw [List.length_drop]
        omega
      have h := denotes_amongDigits hwhole_ne hfraction_ne (hsplit.symm ▸ hds)
      rw [hsplit, hexponent] at h
      rw [if_neg hafter]
      exact h

/-- One digit stands before the point, and the exponent says where the point belongs. -/
theorem denotes_placeExponent (layout : Layout) (hne : ds ≠ []) (hds : ∀ c ∈ ds, c.isDigit = true)
    (exponent : Int) :
    Denotes (placeExponent layout exponent ds) ⟨ofDigits ds, exponent + 1 - ds.length⟩ := by
  obtain ⟨first, others, rfl⟩ := List.exists_cons_of_ne_nil hne
  obtain ⟨hfirst, hothers⟩ := List.forall_mem_cons.1 hds
  have hpadded : padZeros layout.exponentWidth (digits exponent.natAbs) ≠ [] := by
    unfold padZeros
    simp [digits, Nat.toDigits_ne_nil]
  have hspells := @Spells.exponential [first] others
    (padZeros layout.exponentWidth (digits exponent.natAbs)) (exponent < 0)
    (List.cons_ne_nil _ _) (by simpa using hfirst) hothers hpadded
    (fun c hc => isDigit_of_mem_padZeros hc)
  have hsigned : signedNat (exponent < 0) (ofDigits (padZeros layout.exponentWidth
      (digits exponent.natAbs))) = exponent := by
    rw [ofDigits_padZeros, ofDigits_digits]
    unfold signedNat
    simp only [decide_eq_true_eq]
    split <;> omega
  have hshown : ofParts [first] others exponent =
      ⟨ofDigits (first :: others), exponent + 1 - (first :: others).length⟩ := by
    have hexponent : exponent - others.length = exponent + 1 - (first :: others).length := by
      rw [List.length_cons]
      omega
    unfold ofParts
    rw [hexponent]
    rfl
  have htext : placeExponent layout exponent (first :: others) = [first] ++ pointed others ++
      'e' :: exponentSign (exponent < 0) ::
        padZeros layout.exponentWidth (digits exponent.natAbs) := by
    unfold placeExponent pointed exponentSign
    cases others <;> simp
  rw [hsigned, hshown] at hspells
  rw [htext]
  exact ⟨_, hspells, fun _ => rfl⟩

/-- **Written decimals** denote themselves in every layout. -/
theorem denotes_write (layout : Layout) (d : Decimal) : Denotes (d.write layout) d := by
  have hne : digits d.significand ≠ [] := Nat.toDigits_ne_nil
  have hds : ∀ c ∈ digits d.significand, c.isDigit = true := fun _ h => isDigit_of_mem_digits h
  unfold write
  dsimp only
  split
  · have h := denotes_placePoint hne hds (d.exponent + (digits d.significand).length)
    rwa [ofDigits_digits, Int.add_sub_cancel] at h
  · have h := denotes_placeExponent layout hne hds (d.exponent + (digits d.significand).length - 1)
    rwa [ofDigits_digits, Int.sub_add_cancel, Int.add_sub_cancel] at h

end Decimal

/-! ## Texts of numbers -/

namespace Binary64

open Decimal

/-- The characters of a number without its sign, if it is finite. -/
def writeSize (size : Magnitude) : List Char :=
  if size.units = 0 then "0.0".toList else (shortest size).write .standard

theorem spells_writeSize (size : Magnitude) : ∃ d, Spells (writeSize size) d ∧
    ∀ negative, d.nearest negative = finite negative size := by
  unfold writeSize
  split
  · next hzero =>
    have hsize : size = Magnitude.zero := Magnitude.units_inj.1 hzero
    have hspells := @Spells.positional ['0'] ['0'] (List.cons_ne_nil '0' []) isDigit_of_mem_zero
      isDigit_of_mem_zero
    refine ⟨_, hspells, fun negative => ?_⟩
    rw [hsize, ← toBinary64_eq_nearest]
    rfl
  · obtain ⟨d, hspells, hnearest⟩ := denotes_write .standard (shortest size)
    exact ⟨d, hspells, fun negative => (hnearest negative).trans (nearest_shortest size negative)⟩

/-- **Numbers are read back**: the text of a number is read as that number. -/
theorem read?_write (x : Binary64) : read? x.write = some x := by
  cases x with
  | nan => rfl
  | infinity negative => cases negative <;> rfl
  | finite negative size =>
      obtain ⟨d, hspells, hnearest⟩ := spells_writeSize size
      obtain ⟨first, others, htext, hfirst⟩ := hspells.exists_cons
      have hread := readUnsigned?_spells hspells negative
      rw [hnearest, htext] at hread
      have hwrite : (finite negative size).write =
          (if negative then ['-'] else []) ++ first :: others := by
        rw [← htext]
        rfl
      -- a digit is no sign and no letter
      have hne : ∀ c : Char, c.isDigit = false → first ≠ c := by
        rintro c hc rfl
        rw [hfirst] at hc
        cases hc
      have hminus := hne '-' rfl
      have hplus := hne '+' rfl
      have hn := hne 'n' rfl
      have hi := hne 'i' rfl
      rw [hwrite]
      unfold read?
      cases negative <;> simp [hminus, hplus, hn, hi, hread]

/-- Is a character one of those that numbers are written with? -/
def isTextSymbol (c : Char) : Bool := isNumberSymbol c || c == '+'

theorem isTextSymbol_of_isDigit {c : Char} (h : c.isDigit = true) : isTextSymbol c = true := by
  simp [isTextSymbol, isNumberSymbol, Char.isAlphanum, h]

theorem isTextSymbol_of_spells {text : List Char} {d : Decimal} (h : Spells text d) {c : Char}
    (hc : c ∈ text) : isTextSymbol c = true := by
  have hpointed : ∀ {fraction : List Char}, (∀ c ∈ fraction, c.isDigit = true) →
      c ∈ pointed fraction → isTextSymbol c = true := by
    intro fraction hfraction hc
    unfold pointed at hc
    split at hc
    · cases hc
    · rcases List.mem_cons.1 hc with rfl | hmem
      · decide
      · exact isTextSymbol_of_isDigit (hfraction c hmem)
  cases h with
  | positional hne hwhole hfraction =>
      rcases List.mem_append.1 hc with hmem | hmem
      · exact isTextSymbol_of_isDigit (hwhole c hmem)
      · exact hpointed hfraction hmem
  | exponential negative hne hwhole hfraction hds_ne hds =>
      rcases List.mem_append.1 hc with hmem | hmem
      · rcases List.mem_append.1 hmem with hmem | hmem
        · exact isTextSymbol_of_isDigit (hwhole c hmem)
        · exact hpointed hfraction hmem
      · rcases List.mem_cons.1 hmem with rfl | hmem
        · decide
        · rcases List.mem_cons.1 hmem with rfl | hmem
          · cases negative <;> decide
          · exact isTextSymbol_of_isDigit (hds c hmem)

theorem isTextSymbol_of_mem_write {x : Binary64} {c : Char} (h : c ∈ x.write) :
    isTextSymbol c = true := by
  have hall : ∀ text : List Char, text.all isTextSymbol = true → c ∈ text →
      isTextSymbol c = true := fun text htext hc => List.all_eq_true.1 htext c hc
  cases x with
  | nan => exact hall ['n', 'a', 'n'] (by decide) h
  | infinity negative =>
      cases negative with
      | false => exact hall ['i', 'n', 'f'] (by decide) h
      | true => exact hall ['-', 'i', 'n', 'f'] (by decide) h
  | finite negative size =>
      obtain ⟨d, hspells, _⟩ := spells_writeSize size
      rcases List.mem_append.1 h with hsign | hsize
      · split at hsign
        · exact hall ['-'] (by decide) hsign
        · cases hsign
      · exact isTextSymbol_of_spells hspells hsize

end Binary64

end TurtleGrammar
