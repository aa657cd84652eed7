import Mathlib.Algebra.Order.Floor.Div
import Mathlib.Order.Interval.Finset.Nat
import TurtleGrammar.Proofs.Written

/-!
# `TurtleGrammar.Proofs.Palette` — palette colours are spread evenly

The lines that take one colour of a palette follow one another. They begin where the colours before
it have had their share of the lines, and a share that is no whole number is rounded up. So no two
colours differ by more than one line, and with at least as many lines as colours none is left out.

## Contents
- `Style.firstLine`, `Style.le_colourIndex_iff`: where the lines of a colour begin.
- `Style.linesOf`: the lines of a colour; `Style.linesOf_eq_Ico`: they follow one another.
- `Style.div_le_card_linesOf`/`Style.card_linesOf_le`: the size of a share.
- `Style.palette_spread`: all laws of the colours of lines.
-/

namespace TurtleGrammar

namespace Style

variable {style : Style} {colours count index position : Nat}

/-! ## Where the lines of a colour begin -/

/-- The first line that takes the colour at a position: as many lines come before it as are the
    share of the colours before that one, rounded up. -/
def firstLine (colours count position : Nat) : Nat := position * count ⌈/⌉ colours

theorem colourIndex_natCast (colours index : Nat) (hcount : 0 < count) :
    colourIndex colours index count = (index * colours / count : Nat) := by
  have hmax : max (count : Int) 1 = count := by omega
  unfold colourIndex
  rw [hmax, Int.fdiv_eq_ediv_of_nonneg _ (Int.natCast_nonneg count)]
  rfl

/-- A line comes before the first one of a colour exactly if it takes an earlier colour. -/
theorem le_colourIndex_iff (hcolours : 0 < colours) (hcount : 0 < count) (position index : Nat) :
    (position : Int) ≤ colourIndex colours index count ↔
      firstLine colours count position ≤ index := by
  unfold firstLine
  rw [colourIndex_natCast _ _ hcount, Int.ofNat_le, Nat.le_div_iff_mul_le hcount,
    ceilDiv_le_iff_le_smul hcolours, smul_eq_mul, Nat.mul_comm index]

/-- The first line of the colour after the last one would be the line after the last one. -/
theorem firstLine_le (hcolours : 0 < colours) (hposition : position ≤ colours) :
    firstLine colours count position ≤ count := by
  unfold firstLine
  rw [ceilDiv_le_iff_le_smul hcolours, smul_eq_mul]
  exact Nat.mul_le_mul_right count hposition

theorem le_mul_firstLine (hcolours : 0 < colours) :
    position * count ≤ colours * firstLine colours count position := by
  have h : position * count ≤ colours • firstLine colours count position := le_smul_ceilDiv hcolours
  rwa [smul_eq_mul] at h

/-! ## The share of a colour -/

/-- The lines that take the colour at a position. -/
def linesOf (colours count position : Nat) : Finset Nat :=
  (Finset.range count).filter fun index => colourIndex colours index count = position

/-- **The lines of a colour follow one another**, up to the first line of the next colour. -/
theorem linesOf_eq_Ico (hcolours : 0 < colours) (hcount : 0 < count)
    (hposition : position < colours) : linesOf colours count position =
      Finset.Ico (firstLine colours count position) (firstLine colours count (position + 1)) := by
  have hend : firstLine colours count (position + 1) ≤ count := firstLine_le hcolours hposition
  ext index
  have hfirst := le_colourIndex_iff hcolours hcount position index
  have hnext := le_colourIndex_iff hcolours hcount (position + 1) index
  unfold linesOf
  rw [Finset.mem_filter, Finset.mem_range, Finset.mem_Ico]
  constructor
  · rintro ⟨_, heq⟩
    have hlow := hfirst.1 (by omega)
    have hhigh := mt hnext.2 (by omega)
    exact ⟨hlow, Nat.lt_of_not_le hhigh⟩
  · rintro ⟨hlow, hhigh⟩
    have hreached := hfirst.2 hlow
    have hpassed := mt hnext.1 (Nat.not_le.2 hhigh)
    exact ⟨Nat.lt_of_lt_of_le hhigh hend, by omega⟩

/-- A colour has at least its share of the lines, rounded down. -/
theorem div_le_card_linesOf (hcolours : 0 < colours) (hcount : 0 < count)
    (hposition : position < colours) : count / colours ≤ (linesOf colours count position).card := by
  have hshare : colours * (count / colours) ≤ count := Nat.mul_div_le count colours
  have hnext : position * count + count ≤ colours * firstLine colours count (position + 1) := by
    rw [← Nat.succ_mul]
    exact le_mul_firstLine hcolours
  -- the next colour begins so late that this many lines fit before it
  have hfirst : firstLine colours count position ≤
      firstLine colours count (position + 1) - count / colours := by
    unfold firstLine at hnext ⊢
    rw [ceilDiv_le_iff_le_smul hcolours, smul_eq_mul, Nat.mul_sub]
    omega
  have hfits : count / colours ≤ firstLine colours count (position + 1) := by
    refine Nat.le_of_mul_le_mul_left ?_ hcolours
    omega
  rw [linesOf_eq_Ico hcolours hcount hposition, Nat.card_Ico]
  omega

/-- A colour has at most its share of the lines, rounded up. -/
theorem card_linesOf_le (hcolours : 0 < colours) (hcount : 0 < count)
    (hposition : position < colours) :
    (linesOf colours count position).card ≤ count ⌈/⌉ colours := by
  have hshare : count ≤ colours * (count ⌈/⌉ colours) := by
    have h : count ≤ colours • (count ⌈/⌉ colours) := le_smul_ceilDiv hcolours
    rwa [smul_eq_mul] at h
  have hfirst : position * count ≤ colours * firstLine colours count position :=
    le_mul_firstLine hcolours
  have hnext : firstLine colours count (position + 1) ≤
      firstLine colours count position + count ⌈/⌉ colours := by
    rw [firstLine, ceilDiv_le_iff_le_smul hcolours, smul_eq_mul, Nat.mul_add, Nat.succ_mul]
    exact Nat.add_le_add hfirst hshare
  rw [linesOf_eq_Ico hcolours hcount hposition, Nat.card_Ico]
  omega

/-- Rounding a share up gives at most one line more than rounding it down. -/
theorem ceilDiv_le_div_add_one (count : Nat) (hcolours : 0 < colours) :
    count ⌈/⌉ colours ≤ count / colours + 1 := by
  rw [ceilDiv_le_iff_le_smul hcolours, smul_eq_mul, Nat.mul_add, Nat.mul_one]
  exact (Nat.lt_mul_div_succ count hcolours).le

/-! ## The colours of lines -/

/-- A line has the stroke that the palette holds at its position. -/
theorem exists_strokeOfLine_eq (hpalette : style.palette ≠ []) (h : index < count) :
    ∃ position, ∃ hposition : position < style.palette.length,
      colourIndex style.palette.length index count = position ∧
        style.strokeOfLine index count = .ok style.palette[position] := by
  have hcolours : 0 < style.palette.length := List.length_pos_iff.2 hpalette
  obtain ⟨hnonneg, hlt⟩ := colourIndex_lt hcolours h
  obtain ⟨position, hposition⟩ := Int.eq_ofNat_of_zero_le hnonneg
  rw [hposition, Int.ofNat_lt] at hlt
  refine ⟨position, hlt, hposition, ?_⟩
  have hcolour : element? style.palette (position : Int) = some style.palette[position] := by
    unfold element?
    rw [if_pos (Int.natCast_nonneg position), Int.toNat_natCast, List.getElem?_eq_getElem hlt]
  unfold strokeOfLine
  rw [if_neg (by simpa using hpalette)]
  simp only [hposition, hcolour]

/-- **Palette colours are spread evenly.** With a palette every line has a colour, the one that the
    palette holds at the position of the line. The first line is at the first position, and no line
    is at a position before that of an earlier line. Each colour is taken by its share of the lines,
    rounded down or rounded up. So with at least as many lines as colours each colour is taken. -/
theorem palette_spread (hpalette : style.palette ≠ []) (hcount : 0 < count) :
    (∀ index < count, ∃ position, ∃ hposition : position < style.palette.length,
      colourIndex style.palette.length index count = position ∧
        style.strokeOfLine index count = .ok style.palette[position]) ∧
    colourIndex style.palette.length 0 count = 0 ∧
    (∀ earlier later : Nat, earlier ≤ later →
      colourIndex style.palette.length earlier count ≤
        colourIndex style.palette.length later count) ∧
    (∀ position < style.palette.length,
      (linesOf style.palette.length count position).card = count / style.palette.length ∨
      (linesOf style.palette.length count position).card = count ⌈/⌉ style.palette.length) ∧
    (style.palette.length ≤ count → ∀ position < style.palette.length,
      ∃ index < count, colourIndex style.palette.length index count = position) := by
  have hcolours : 0 < style.palette.length := List.length_pos_iff.2 hpalette
  refine ⟨fun index h => exists_strokeOfLine_eq hpalette h, ?_, ?_, ?_, ?_⟩
  · have hzero := colourIndex_natCast style.palette.length 0 hcount
    rwa [Nat.zero_mul, Nat.zero_div] at hzero
  · intro earlier later hle
    rw [colourIndex_natCast _ _ hcount, colourIndex_natCast _ _ hcount, Int.ofNat_le]
    exact Nat.div_le_div_right (Nat.mul_le_mul_right _ hle)
  · intro position hposition
    have hlow := div_le_card_linesOf hcolours hcount hposition
    have hhigh := card_linesOf_le hcolours hcount hposition
    have hnear := ceilDiv_le_div_add_one count hcolours
    omega
  · intro hle position hposition
    have hshare : 0 < count / style.palette.length := Nat.div_pos hle hcolours
    have hcard := div_le_card_linesOf hcolours hcount hposition
    obtain ⟨index, hindex⟩ := Finset.card_pos.1 (Nat.lt_of_lt_of_le hshare hcard)
    obtain ⟨hlt, heq⟩ := Finset.mem_filter.1 hindex
    exact ⟨index, Finset.mem_range.1 hlt, heq⟩

/-- Three colours for seven lines. -/
def threeColours : Style := { standard with palette := ["red", "green", "blue"] }

/-- Of seven lines two or three take the last of three colours, and one does in any case. -/
theorem palette_spread_seven :
    threeColours.palette ≠ [] ∧ 0 < 7 ∧
    (∃ position, ∃ hposition : position < threeColours.palette.length,
      threeColours.strokeOfLine 6 7 = .ok threeColours.palette[position]) ∧
    ((linesOf 3 7 2).card = 7 / 3 ∨ (linesOf 3 7 2).card = 7 ⌈/⌉ 3) ∧
    ∃ index : Nat, index < 7 ∧ colourIndex 3 index 7 = 2 := by
  have hpalette : threeColours.palette ≠ [] := List.cons_ne_nil _ _
  obtain ⟨hstroke, _, _, hshare, hall⟩ := palette_spread hpalette (by decide : 0 < 7)
  refine ⟨hpalette, by decide, ?_, hshare 2 (by decide), ?_⟩
  · obtain ⟨position, hposition, _, h⟩ := hstroke 6 (by decide)
    exact ⟨position, hposition, h⟩
  · obtain ⟨index, hindex, h⟩ := hall (by decide) 2 (by decide)
    exact ⟨index, hindex, h⟩

end Style

end TurtleGrammar
