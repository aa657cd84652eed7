import TurtleGrammar.Fault
import TurtleGrammar.Numeral

/-!
# `TurtleGrammar.CyclicNumeral` — numerals at positions counted from either end

A position below zero counts from the end of a word. The numeral there runs on over the end of the
word and goes on at its start; its value is that of the symbols between the two positions where it
starts and ends, of which there may be none.

## Contents
- `between`: the symbols from a position counted from the end to the end of a run.
- `scanNumeralBack`, `scanNumeralAt`: the numeral at a position counted from the end, or from
  either end.
-/

namespace TurtleGrammar

/-- The symbols of a word between the position `back` from its end and the end of a run that starts
    there. A run that stays before the end of the word is all of it; one that goes on at the start
    ends before the position that it has reached there. -/
def between (word run : List Char) (back : Nat) : List Char :=
  if run.length < back then run
  else (word.take (run.length - back)).drop (word.length - back)

/-- The value of the numeral at the position `back` from the end of a word and its length; both
    zero if there is none. -/
def scanNumeralBack (word : List Char) (back : Nat) : Except Fault (Binary64 × Nat) :=
  if word.length < back then .error (.beforeWord (-(back : Int)))
  else
    let run := numeral (word.drop (word.length - back) ++ word)
    let text := between word run back
    if !run.isEmpty && text.isEmpty then .error .emptyNumeral
    else .ok (numeralValue text, run.length)

/-- The value of the numeral at a position of a word and its length; both zero if there is none. -/
def scanNumeralAt (word : List Char) : Int → Except Fault (Binary64 × Nat)
  | .ofNat position => .ok (scanNumeral (word.drop position))
  | .negSucc back => scanNumeralBack word (back + 1)

/-- At a position before its end a word is read as its rest alone. -/
theorem scanNumeralAt_ofNat (word : List Char) (position : Nat) :
    scanNumeralAt word position = .ok (scanNumeral (word.drop position)) := rfl

end TurtleGrammar
