import Mathlib.Data.Nat.Digits.Defs
import ScreenFlow.Decimal.Numeral

/-!
# Digits read back

The digits that a number is written with are read as the number, and only
digits are read as one.
-/

namespace ScreenFlow

/-! ## Single digits -/

theorem hexDigit?_digitChar {value : Nat} (isSmall : value < 16) :
    hexDigit? value.digitChar = some value := by
  revert isSmall value
  decide

theorem hexDigit?_upperHexDigit {value : Nat} (isSmall : value < 16) :
    hexDigit? (upperHexDigit value) = some value := by
  revert isSmall value
  decide

theorem isDigit_of_hexDigit? {digit : Char} {value : Nat}
    (read : hexDigit? digit = some value) (isSmall : value < 10) :
    digit.isDigit := by
  unfold hexDigit? at read
  split at read
  · assumption
  · split at read
    · cases read
      omega
    · split at read
      · cases read
        omega
      · cases read

/-! ## Numbers -/

theorem ofDigits?_concat {base number value : Nat} {digits : List Char}
    {digit : Char} (read : ofDigits? base digits = some number)
    (isValue : hexDigit? digit = some value) (isSmall : value < base) :
    ofDigits? base (digits ++ [digit]) = some (base * number + value) := by
  unfold ofDigits? at read ⊢
  rw [List.foldlM_append, read]
  simp [isValue, isSmall]

theorem ofDigits?_toDigits (number : Nat) :
    ofDigits? 10 (Nat.toDigits 10 number) = some number := by
  induction number using Nat.strong_induction_on with
  | h number ih =>
      have isDigit : number % 10 < 10 := Nat.mod_lt _ (by decide)
      have isValue := hexDigit?_digitChar (by omega : number % 10 < 16)
      by_cases isSmall : number < 10
      · rw [Nat.mod_eq_of_lt isSmall] at isValue
        simp [Nat.toDigits_of_lt_base isSmall, ofDigits?, isValue, isSmall]
      · rw [Nat.toDigits_of_base_le (by decide) (by omega),
          ofDigits?_concat (ih (number / 10) (by omega)) isValue isDigit,
          Nat.div_add_mod]

theorem isDigit_of_ofDigits? {digits : List Char} {number : Nat}
    (read : ofDigits? 10 digits = some number) :
    ∀ digit ∈ digits, digit.isDigit := by
  unfold ofDigits? at read
  generalize 0 = start at read
  induction digits generalizing start with
  | nil => simp
  | cons digit rest ih =>
      simp only [List.foldlM_cons, Option.bind_eq_bind,
        Option.bind_eq_some_iff] at read
      obtain ⟨next, ⟨value, isValue, isNext⟩, readRest⟩ := read
      have isSmall : value < 10 := by
        by_contra isLarge
        simp [isLarge] at isNext
      rintro other (_ | ⟨_, member⟩)
      · exact isDigit_of_hexDigit? isValue isSmall
      · exact ih next readRest other member

end ScreenFlow
