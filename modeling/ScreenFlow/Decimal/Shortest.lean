import ScreenFlow.Decimal.Binary64

/-!
# Shortest decimal text

The text of a binary number has the fewest digits that read back as the same
number, and of several such texts it is the nearest.  It is always written in
full, without an exponent, and a whole number has no point.
-/

namespace ScreenFlow

namespace Binary64

/-- The numbers that round to `significand * 2 ^ exponent` lie between two
bounds.  The bounds are counted in quarters of `2 ^ exponent`. -/
def bounds (significand : Nat) (exponent : Int) : Nat × Nat :=
  if significand = leastFull ∧ leastExponent < exponent then
    (4 * significand - 1, 4 * significand + 2)
  else (4 * significand - 2, 4 * significand + 2)

/-- Whether a number counted in quarters, as a quotient, is within bounds.
The bounds themselves round to an even significand. -/
def isWithin (bounds : Nat × Nat) (isEven : Bool)
    (numerator denominator : Nat) : Bool :=
  let low := bounds.1 * denominator
  let high := bounds.2 * denominator
  if isEven then low ≤ numerator && numerator ≤ high
  else low < numerator && numerator < high

/-- The place of the first digit of a quotient that is not zero: the least
power of ten above the quotient. -/
def placeOf (numerator denominator : Nat) : Int :=
  let whole := numerator / denominator
  if whole ≠ 0 then (Nat.toDigits 10 whole).length
  else
    -- The quotient of the denominator has as many digits, or one more.
    let guess : Nat := (Nat.toDigits 10 (denominator / numerator)).length
    if denominator ≤ numerator * Nat.pow 10 (guess - 1) then 2 - (guess : Int)
    else 1 - (guess : Int)

/-- The number with `count` digits that is nearest to a positive binary number
among those that read back as it, with the power of its last digit. -/
def digitsOf? (significand : Nat) (exponent : Int) (count : Nat) :
    Option (Nat × Int) :=
  let value := scaledBy (-exponent) significand 1
  let power := placeOf value.1 value.2 - count
  -- One unit of the last digit, against one quarter of the binary unit.
  let unit := (4 * Nat.pow 10 power.toNat * Nat.pow 2 (-exponent).toNat,
    Nat.pow 10 (-power).toNat * Nat.pow 2 exponent.toNat)
  let quarters := 4 * significand * unit.2
  let lower := quarters / unit.1
  let reads (digits : Nat) : Bool :=
    isWithin (bounds significand exponent) (significand % 2 = 0)
      (digits * unit.1) unit.2
  let isAboveMiddle := decide (unit.1 ≤ 2 * (quarters % unit.1))
  let upper :=
    if lower + 1 = Nat.pow 10 count then (1, power + count)
    else (lower + 1, power)
  match reads lower, reads (lower + 1) with
  | true, true => some (if isAboveMiddle then upper else (lower, power))
  | true, false => some (lower, power)
  | false, true => some upper
  | false, false => none

/-- The shortest digits of a positive number, with the power of the last one.
Seventeen digits are always enough. -/
def shortest (significand : Nat) (exponent : Int) : Nat × Int :=
  ((List.range 17).findSome? fun fewer =>
    digitsOf? significand exponent (fewer + 1)).getD (0, 0)

/-- Digits written in full, with a point if the last one stands behind it. -/
def positional (digits : Nat) (power : Int) : List Char :=
  let written := Nat.toDigits 10 digits
  if 0 ≤ power then written ++ List.replicate power.toNat '0'
  else
    let places := (-power).toNat
    let padded :=
      List.replicate (places + 1 - written.length) '0' ++ written
    padded.take (padded.length - places) ++
      '.' :: padded.drop (padded.length - places)

def text : Binary64 → String
  | .nan => "NaN"
  | .infinite isNegative => if isNegative then "-inf" else "inf"
  | .finite isNegative significand exponent =>
      let digits :=
        if significand = 0 then ['0']
        else
          let (digits, power) := shortest significand exponent
          positional digits power
      String.ofList (if isNegative then '-' :: digits else digits)

end Binary64

end ScreenFlow
