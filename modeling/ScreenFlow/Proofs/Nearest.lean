import Mathlib.Data.Nat.Digits.Defs
import ScreenFlow.Decimal.Numeral

/-!
# The greatest natural numbers as binary numbers

A natural number that needs all 64 bits has more of them than a significand, so
the binary number for it stands for a multiple of `2 ^ 11` instead: the nearest
one, and the even one of two.
-/

namespace ScreenFlow

/-- A multiple of a unit is the nearest one to a number, and the even one if
another one is as near. -/
structure IsNearestMultiple (unit number multiple : Nat) : Prop where
  divides : unit ∣ multiple
  le_above : 2 * number ≤ 2 * multiple + unit
  le_below : 2 * multiple ≤ 2 * number + unit
  even_of_tie : 2 * number = 2 * multiple + unit ∨
    2 * multiple = 2 * number + unit → 2 * unit ∣ multiple

namespace Binary64

theorem isNearestMultiple_divideToNearest {unit : Nat} (isUnit : 0 < unit)
    (number : Nat) :
    IsNearestMultiple unit number (unit * divideToNearest number unit) := by
  have split := Nat.div_add_mod number unit
  have small := Nat.mod_lt number isUnit
  unfold divideToNearest
  dsimp only
  generalize number / unit = quotient at split ⊢
  generalize number % unit = remainder at split small ⊢
  have next : unit * (quotient + 1) = unit * quotient + unit := Nat.mul_succ ..
  split_ifs with isLess isMore
  · refine ⟨Nat.dvd_mul_right _ _, ?_, ?_, ?_⟩ <;> omega
  · rw [next]
    refine ⟨next ▸ Nat.dvd_mul_right _ _, ?_, ?_, ?_⟩ <;> omega
  · -- Both neighbours are as near, and one of them is even.
    have even : 2 * unit ∣ unit * (quotient + quotient % 2) := by
      rw [Nat.mul_comm 2]
      exact Nat.mul_dvd_mul_left unit (by omega)
    refine ⟨Nat.dvd_mul_right _ _, ?_, ?_, fun _ => even⟩
    all_goals
      rcases Nat.mod_two_eq_zero_or_one quotient with isEven | isOdd
      · rw [isEven, Nat.add_zero]
        omega
      · rw [isOdd, next]
        omega

section

variable {number : Nat}

theorem exponentOf_of_large (isLarge : 2 ^ 63 ≤ number)
    (isBounded : number < 2 ^ 64) : exponentOf number 1 = 11 := by
  have bits : number.log2 = 63 :=
    (Nat.log2_eq_iff (by omega)).mpr ⟨isLarge, isBounded⟩
  have oneBit : Nat.log2 1 = 0 := by decide
  have scaled : scaledBy 11 number 1 = (number, 2 ^ 11) := by simp [scaledBy]
  have guess : ((63 : Nat) : Int) - (0 : Nat) - (precision - 1 : Nat) = 11 :=
    rfl
  have isFull : ¬number < 2 ^ 11 * leastFull := by
    rw [show 2 ^ 11 * leastFull = 2 ^ 63 from rfl]
    omega
  simp only [exponentOf, bits, oneBit, guess, scaled]
  rw [if_neg isFull]
  rfl

/-- The binary number for a natural one that needs all 64 bits.  One of those
nearest to the end takes one more bit. -/
theorem ofQuotient_of_large (isLarge : 2 ^ 63 ≤ number)
    (isBounded : number < 2 ^ 64) :
    ofQuotient false number 1 =
      if divideToNearest number (2 ^ 11) = 2 * leastFull then
        .finite false leastFull 12
      else .finite false (divideToNearest number (2 ^ 11)) 11 := by
  have isNonzero : number ≠ 0 := by omega
  have scaled : scaledBy 11 number 1 = (number, 2 ^ 11) := by simp [scaledBy]
  rw [ofQuotient, if_neg isNonzero, exponentOf_of_large isLarge isBounded]
  dsimp only
  rw [scaled]
  dsimp only
  split <;> rfl

theorem toNat_ofQuotient_of_large (isLarge : 2 ^ 63 ≤ number)
    (isBounded : number < 2 ^ 64) (limit : Nat) :
    (ofQuotient false number 1).toNat limit =
      min limit (2 ^ 11 * divideToNearest number (2 ^ 11)) := by
  have halved (whole : Nat) : (2 * whole + 1) / (2 * 1) = whole := by omega
  rw [ofQuotient_of_large isLarge isBounded]
  split_ifs with carries
  · have scaled : scaledBy (-12) leastFull 1 = (leastFull * 2 ^ 12, 1) := by
      simp [scaledBy]
    rw [carries, toNat, scaled, halved]
    rfl
  · have scaled (significand : Nat) :
        scaledBy (-11) significand 1 = (significand * 2 ^ 11, 1) := by
      simp [scaledBy]
    rw [toNat, scaled, halved, Nat.mul_comm]

/-- A natural number that needs all 64 bits stands for the nearest multiple of
`2 ^ 11`, within the limit. -/
theorem exists_toNat_ofDecimal_of_large (isLarge : 2 ^ 63 ≤ number)
    (isBounded : number < 2 ^ 64) (limit : Nat) :
    ∃ multiple, IsNearestMultiple (2 ^ 11) number multiple ∧
      (ofDecimal false number 0).toNat limit = min limit multiple := by
  refine ⟨_, isNearestMultiple_divideToNearest (by decide) number, ?_⟩
  have digits : (Nat.toDigits 10 number).length ≤ 20 :=
    Nat.toDigits_length 10 number 20 (by decide) (by omega)
  have isNonzero : number ≠ 0 := by omega
  have isComputed : ofDecimal false number 0 = ofQuotient false number 1 := by
    have reachable : ¬310 < ((Nat.toDigits 10 number).length : Int) := by omega
    have visible : ¬((Nat.toDigits 10 number).length : Int) < -330 := by omega
    simp [ofDecimal, isNonzero, reachable, visible]
  rw [isComputed, toNat_ofQuotient_of_large isLarge isBounded]

end

end Binary64

end ScreenFlow
