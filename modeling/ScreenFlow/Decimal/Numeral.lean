import ScreenFlow.Decimal.Binary64
import ScreenFlow.Text.Reader

/-!
# Numbers in decimal text

Three readings of a whole text as a number: a natural number, an integer of 64
bits, and a binary number of 64 bits.  A text that is anything more or less
than a number has no value.
-/

namespace ScreenFlow

namespace Numeral

/-- The greatest natural number of 64 bits. -/
def greatestNatural : Nat := UInt64.size - 1

/-- The greatest integer of 64 bits with a sign. -/
def greatestInteger : Nat := UInt64.size / 2 - 1

def isInteger (value : Int) : Bool :=
  -(greatestInteger : Int) - 1 ≤ value && value ≤ greatestInteger

/-- A sign, if there is one.  The value tells whether it is a minus. -/
def sign : Reader Bool := do
  let mark ← Reader.optional
    (Reader.ofClass fun char => char = '+' || char = '-')
  return mark == some '-'

/-- A number without a sign, of any length. -/
def digits : Reader Nat := do
  ofDigits? 10 (← Reader.run1 Char.isDigit)

/-- A natural number of 64 bits, with a plus at most before it. -/
def natural? (text : String) : Option Nat :=
  Reader.readAll
    (do
      discard (Reader.skips '+')
      let value ← digits
      Reader.require (value ≤ greatestNatural)
      return value)
    text.toList

/-- An integer of 64 bits, with a sign or without. -/
def integer? (text : String) : Option Int :=
  Reader.readAll
    (do
      let isNegative ← sign
      let magnitude ← digits
      let value : Int := if isNegative then -magnitude else magnitude
      Reader.require (isInteger value)
      return value)
    text.toList

/-- An exponent, or zero where there is none. -/
def exponent : Reader Int := do
  match ← Reader.optional (Reader.ofClass fun char => char = 'e' || char = 'E') with
  | none => return 0
  | some _ =>
      let isNegative ← sign
      let magnitude ← digits
      return if isNegative then -magnitude else magnitude

/-- Digits with a point before, between or after them, and an exponent. -/
def scientific (isNegative : Bool) : Reader Binary64 := do
  let whole ← Reader.run Char.isDigit
  let fraction ←
    if ← Reader.skips '.' then Reader.run Char.isDigit else pure []
  Reader.require !(whole ++ fraction).isEmpty
  let significant : Nat ← ofDigits? 10 (whole ++ fraction)
  let power ← exponent
  return Binary64.ofDecimal isNegative significant (power - fraction.length)

/-- The number that a word stands for, in any case. -/
def ofWord? (isNegative : Bool) (word : List Char) : Option Binary64 :=
  match String.ofList (word.map Char.toLower) with
  | "nan" => some .nan
  | "inf" | "infinity" => some (.infinite isNegative)
  | _ => none

/-- A binary number, as digits or as a word. -/
def real? (text : String) : Option Binary64 :=
  Reader.readAll
    (do
      let isNegative ← sign
      let word ← Reader.run Char.isAlpha
      match ofWord? isNegative word with
      | some value => return value
      | none =>
          Reader.require word.isEmpty
          scientific isNegative)
    text.toList

end Numeral

end ScreenFlow
