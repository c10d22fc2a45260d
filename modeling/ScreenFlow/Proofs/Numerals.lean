import ScreenFlow.Proofs.Digits
import ScreenFlow.Proofs.Readers

/-!
# Numerals read as numbers

What each of the readings makes of a text of digits, and of the text that an
integer is written as.
-/

namespace ScreenFlow

theorem not_isAlpha_of_isDigit {digit : Char} (isDigit : digit.isDigit) :
    ¬digit.isAlpha := by
  have above := of_decide_eq_true (Bool.and_eq_true_iff.mp isDigit).2
  intro isAlpha
  rcases Bool.or_eq_true_iff.mp isAlpha with isUpper | isLower
  · have below := (of_decide_eq_true isUpper).1
    exact absurd (UInt32.le_trans below above) (by decide)
  · have below := of_decide_eq_true (Bool.and_eq_true_iff.mp isLower).1
    exact absurd (UInt32.le_trans below above) (by decide)

theorem isAlpha_of_isAlpha_toLower {char : Char}
    (isAlpha : char.toLower.isAlpha) : char.isAlpha := by
  by_cases isUpper : char.isUpper
  · exact Bool.or_eq_true_iff.mpr (.inl isUpper)
  · have same : char.toLower = char :=
      dif_neg fun inside => isUpper (decide_eq_true inside)
    rwa [same] at isAlpha

namespace Numeral

/-! ## Parts of a numeral -/

section

variable {chars : List Char} {number : Nat}

theorem sign_of_unsigned (isUnsigned : ∀ char ∈ chars, char ≠ '+' ∧ char ≠ '-') :
    sign chars = some (false, chars) := by
  cases chars with
  | nil => rfl
  | cons first rest =>
      obtain ⟨notPlus, notMinus⟩ := isUnsigned first List.mem_cons_self
      simp [sign, Reader.optional, Reader.ofClass, notPlus, notMinus]

theorem sign_of_isDigit (members : ∀ char ∈ chars, char.isDigit) :
    sign chars = some (false, chars) := by
  apply sign_of_unsigned
  intro char member
  have isDigit := members char member
  constructor <;> rintro rfl <;> cases isDigit

theorem sign_of_isAlpha (members : ∀ char ∈ chars, char.isAlpha) :
    sign chars = some (false, chars) := by
  apply sign_of_unsigned
  intro char member
  have isAlpha := members char member
  constructor <;> rintro rfl <;> cases isAlpha

theorem run_members {isMember : Char → Bool}
    (members : ∀ char ∈ chars, isMember char) :
    Reader.run isMember chars = some (chars, []) := by
  have ends : Reader.Ends isMember [] := by simp [Reader.Ends]
  simpa using Reader.run_append members ends

theorem run_of_ends {isMember : Char → Bool}
    (ends : Reader.Ends isMember chars) :
    Reader.run isMember chars = some ([], chars) := by
  have run : Reader.run isMember ([] ++ chars) = some ([], chars) :=
    Reader.run_append (by simp) ends
  exact run

theorem digits_of_read (isSome : chars ≠ [])
    (read : ofDigits? 10 chars = some number) :
    digits chars = some (number, []) := by
  have run := run_members (isDigit_of_ofDigits? read)
  simp [digits, Reader.run1, run, isSome, read]

theorem exponent_nil : exponent [] = some (0, []) := by
  simp [exponent, Reader.optional, Reader.ofClass]

end

/-! ## Texts of digits -/

section

variable {text : String} {number : Nat}

theorem integer?_of_digits (isSome : text ≠ "")
    (read : ofDigits? 10 text.toList = some number) :
    integer? text =
      if number ≤ greatestInteger then some (number : Int) else none := by
  have isSome' : text.toList ≠ [] := by simpa using isSome
  have readSign := sign_of_isDigit (isDigit_of_ofDigits? read)
  have readDigits := digits_of_read isSome' read
  have isInteger : isInteger number = decide (number ≤ greatestInteger) := by
    simp [isInteger]
    omega
  by_cases isBounded : number ≤ greatestInteger <;>
    simp [integer?, Reader.readAll, readSign, readDigits, isInteger,
      isBounded]

theorem real?_of_digits (isSome : text ≠ "")
    (read : ofDigits? 10 text.toList = some number) :
    real? text = some (Binary64.ofDecimal false number 0) := by
  have members := isDigit_of_ofDigits? read
  have readSign := sign_of_isDigit members
  have ends : Reader.Ends Char.isAlpha text.toList := by
    intro first isFirst
    exact not_isAlpha_of_isDigit
      (members first (List.mem_of_mem_head? isFirst))
  have readWord := run_of_ends ends
  have readDigits := run_members members
  simp [real?, Reader.readAll, readSign, readWord, ofWord?, scientific,
    readDigits, isSome, read, exponent_nil]

end

/-! ## Texts of letters -/

section

variable {text : String}

theorem integer?_of_letters
    (letters : ∀ char ∈ text.toList, char.isAlpha) : integer? text = none := by
  have readSign := sign_of_isAlpha letters
  have ends : Reader.Ends Char.isDigit text.toList := by
    intro first isFirst isDigit
    exact not_isAlpha_of_isDigit isDigit
      (letters first (List.mem_of_mem_head? isFirst))
  have readDigits := run_of_ends ends
  simp [integer?, Reader.readAll, readSign, digits, Reader.run1, readDigits]

/-- Letters alone are a number only if they are one of the words for one. -/
theorem real?_of_letters (isSome : text ≠ "")
    (letters : ∀ char ∈ text.toList, char.isAlpha) :
    real? text = ofWord? false text.toList := by
  have readSign := sign_of_isAlpha letters
  have readWord := run_members letters
  cases isWord : ofWord? false text.toList <;>
    simp [real?, Reader.readAll, readSign, readWord, isWord, isSome]

end

/-! ## Integers as they are written -/

theorem ofDigits?_toString (number : Nat) :
    ofDigits? 10 (toString number).toList = some number := by
  rw [Nat.toString_eq_repr, Nat.toList_repr]
  exact ofDigits?_toDigits number

theorem toString_ne_empty (number : Nat) : toString number ≠ "" := by
  intro isEmpty
  have chars := congrArg String.toList isEmpty
  rw [Nat.toString_eq_repr, Nat.toList_repr] at chars
  exact Nat.toDigits_ne_nil chars

theorem integer?_minus {text : String} {number : Nat} (isSome : text ≠ "")
    (read : ofDigits? 10 text.toList = some number)
    (isInteger : isInteger (-number)) :
    integer? ("-" ++ text) = some (-(number : Int)) := by
  have isSome' : text.toList ≠ [] := by simpa using isSome
  have readSign : sign ('-' :: text.toList) = some (true, text.toList) := by
    simp [sign, Reader.optional, Reader.ofClass]
  have readDigits := digits_of_read isSome' read
  simp [integer?, Reader.readAll, readSign, readDigits, isInteger]

theorem integer?_toString {value : Int} (isInteger : isInteger value) :
    integer? (toString value) = some value := by
  cases value with
  | ofNat number =>
      have isBounded : number ≤ greatestInteger := by
        simp [Numeral.isInteger] at isInteger
        omega
      have read := integer?_of_digits (toString_ne_empty number)
        (ofDigits?_toString number)
      rw [if_pos isBounded] at read
      exact read
  | negSucc less =>
      exact integer?_minus (toString_ne_empty (less + 1))
        (ofDigits?_toString (less + 1)) isInteger

theorem isInteger_of_integer? {text : String} {value : Int}
    (read : integer? text = some value) : isInteger value := by
  simp only [integer?, Reader.readAll] at read
  split at read
  · next result taken =>
      cases read
      simp only [Reader.bind_apply, Reader.require_apply, Reader.pure_apply,
        Option.bind_eq_some_iff] at taken
      obtain ⟨_, -, _, -, _, required, isResult⟩ := taken
      obtain ⟨rfl, -⟩ := Prod.mk.inj (Option.some.inj isResult)
      by_contra notInteger
      rw [if_neg notInteger] at required
      cases required
  · cases read

end Numeral

end ScreenFlow
