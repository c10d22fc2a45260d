/-!
# Binary numbers of 64 bits

The numbers that a binary format of 64 bits can hold: 53 bits of significand,
and powers of two from `2 ^ (-1074)` upwards.  A quotient of whole numbers
becomes the nearest of them, and of two equally near ones the one with an even
significand.
-/

namespace ScreenFlow

/-- A number of the format, or one of its values that are no numbers. -/
inductive Binary64 where
  | nan
  | infinite (isNegative : Bool)
  /-- The number `significand * 2 ^ exponent` or its negative. -/
  | finite (isNegative : Bool) (significand : Nat) (exponent : Int)
  deriving DecidableEq, Repr

namespace Binary64

/-- The exponent of the numbers next to zero. -/
def leastExponent : Int := -1074

/-- The exponent of the greatest numbers. -/
def greatestExponent : Int := 971

/-- The number of bits of a significand. -/
def precision : Nat := 53

/-- The least significand that needs all of its bits. -/
def leastFull : Nat := Nat.pow 2 (precision - 1)

/-- The whole number nearest to a quotient, the even one of two. -/
def divideToNearest (numerator denominator : Nat) : Nat :=
  let quotient := numerator / denominator
  let twice := 2 * (numerator % denominator)
  if twice < denominator then quotient
  else if denominator < twice then quotient + 1
  else quotient + quotient % 2

/-- The two sides of a quotient by a power of two, as whole numbers. -/
def scaledBy (exponent : Int) (numerator denominator : Nat) : Nat × Nat :=
  (numerator * Nat.pow 2 (-exponent).toNat,
    denominator * Nat.pow 2 exponent.toNat)

/-- The exponent at which a quotient has a significand of full precision, or
the least one if there is none. -/
def exponentOf (numerator denominator : Nat) : Int :=
  let guess : Int :=
    (numerator.log2 : Int) - denominator.log2 - (precision - 1 : Nat)
  let scaled := scaledBy guess numerator denominator
  let exact :=
    if scaled.1 < scaled.2 * leastFull then guess - 1 else guess
  max exact leastExponent

/-- The number nearest to a quotient of whole numbers. -/
def ofQuotient (isNegative : Bool) (numerator denominator : Nat) : Binary64 :=
  if numerator = 0 then .finite isNegative 0 leastExponent
  else
    let exponent := exponentOf numerator denominator
    let scaled := scaledBy exponent numerator denominator
    let rounded := divideToNearest scaled.1 scaled.2
    let (significand, exponent) :=
      if rounded = 2 * leastFull then (leastFull, exponent + 1)
      else (rounded, exponent)
    if greatestExponent < exponent then .infinite isNegative
    else .finite isNegative significand exponent

/-- The number nearest to `digits * 10 ^ power`.  Where the power alone decides
that the number is out of reach, it is not computed. -/
def ofDecimal (isNegative : Bool) (digits : Nat) (power : Int) : Binary64 :=
  let magnitude := (Nat.toDigits 10 digits).length + power
  if digits = 0 || magnitude < -330 then .finite isNegative 0 leastExponent
  else if 310 < magnitude then .infinite isNegative
  else
    ofQuotient isNegative (digits * Nat.pow 10 power.toNat)
      (Nat.pow 10 (-power).toNat)

/-- Whether a number differs from zero.  What is no number does. -/
def isNonzero : Binary64 → Bool
  | .finite _ significand _ => significand ≠ 0
  | _ => true

/-- The whole number nearest to a number, the greater one of two, but at least
zero and at most `limit`. -/
def toNat (limit : Nat) : Binary64 → Nat
  | .nan => 0
  | .infinite isNegative => if isNegative then 0 else limit
  | .finite true _ _ => 0
  | .finite false significand exponent =>
      let scaled := scaledBy (-exponent) significand 1
      min limit ((2 * scaled.1 + scaled.2) / (2 * scaled.2))

end Binary64

end ScreenFlow
