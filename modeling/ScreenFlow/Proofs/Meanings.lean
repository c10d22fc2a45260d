import ScreenFlow.Proofs.Nearest
import ScreenFlow.Proofs.Numerals
import ScreenFlow.Settings.Sources
import ScreenFlow.Settings.Written

/-!
# What the text of a variable means

The text of a variable is read before anybody knows which setting it is for: as
a truth value, an integer or a binary number where it can be.  So a number that
needs all 64 bits becomes a binary number first, and a log level that looks
like a value of another kind becomes the text that this value is written as.
-/

namespace ScreenFlow

namespace Settings

/-! ## Truth values -/

section

variable {text : String} {value : Bool}

theorem map_toLower_of_truth (isTruth : text.toLower = truthText value) :
    text.toList.map Char.toLower = (truthText value).toList := by
  rw [← isTruth]
  exact String.toList_map.symm

theorem letters_of_truth (isTruth : text.toLower = truthText value) :
    ∀ char ∈ text.toList, char.isAlpha := by
  intro char member
  have letters : (truthText value).toList.all Char.isAlpha := by
    cases value <;> decide
  apply isAlpha_of_isAlpha_toLower
  apply List.all_eq_true.mp letters
  rw [← map_toLower_of_truth isTruth]
  exact List.mem_map_of_mem member

theorem integer?_of_truth (isTruth : text.toLower = truthText value) :
    Numeral.integer? text = none :=
  Numeral.integer?_of_letters (letters_of_truth isTruth)

theorem real?_of_truth (isTruth : text.toLower = truthText value) :
    Numeral.real? text = none := by
  have isSome : text ≠ "" := by
    rintro rfl
    cases value <;> exact absurd isTruth (by decide +kernel)
  rw [Numeral.real?_of_letters isSome (letters_of_truth isTruth),
    Numeral.ofWord?, map_toLower_of_truth isTruth, String.ofList_toList]
  cases value <;> rfl

end

/-! ## The value that a text stands for -/

section

variable {text : String}

theorem valueOf_of_truth {value : Bool}
    (isTruth : text.toLower = truthText value) : valueOf text = .bool value := by
  cases value <;> simp [valueOf, isTruth, truthText]

theorem valueOf_of_integer {value : Int}
    (isInteger : Numeral.integer? text = some value) :
    valueOf text = .integer value := by
  have notTruth (truth : Bool) : text.toLower ≠ truthText truth := by
    intro isTruth
    cases isInteger.symm.trans (integer?_of_truth isTruth)
  have notTrue : text.toLower ≠ "true" := notTruth true
  have notFalse : text.toLower ≠ "false" := notTruth false
  simp [valueOf, isInteger]

theorem valueOf_of_real {value : Binary64}
    (notInteger : Numeral.integer? text = none)
    (isReal : Numeral.real? text = some value) :
    valueOf text = .real value := by
  have notTruth (truth : Bool) : text.toLower ≠ truthText truth := by
    intro isTruth
    cases isReal.symm.trans (real?_of_truth isTruth)
  have notTrue : text.toLower ≠ "true" := notTruth true
  have notFalse : text.toLower ≠ "false" := notTruth false
  simp [valueOf, notInteger, isReal]

theorem valueOf_of_plain
    (notTruth : ∀ value, text.toLower ≠ truthText value)
    (notInteger : Numeral.integer? text = none)
    (notReal : Numeral.real? text = none) : valueOf text = .text text := by
  have notTrue : text.toLower ≠ "true" := notTruth true
  have notFalse : text.toLower ≠ "false" := notTruth false
  simp [valueOf, notInteger, notReal]

end

/-! ## Numbers -/

/-- The number that is read where a number was written.  One that needs all 64
bits is read as the nearest binary number, which may be one too large. -/
inductive NumberReads (written : UInt64) : UInt64 → Prop where
  | whole (isBounded : written.toNat ≤ Numeral.greatestInteger) :
      NumberReads written written
  | nearest {multiple : Nat}
      (isLarge : Numeral.greatestInteger < written.toNat)
      (isNearest : IsNearestMultiple (2 ^ 11) written.toNat multiple) :
      NumberReads written
        (UInt64.ofNat (min Numeral.greatestNatural multiple))

theorem exists_numberReads (written : UInt64) :
    ∃ read, (valueOf (toString written.toNat)).toUInt64? = some read ∧
      NumberReads written read := by
  have isSome := Numeral.toString_ne_empty written.toNat
  have digits := Numeral.ofDigits?_toString written.toNat
  have readInteger := Numeral.integer?_of_digits isSome digits
  by_cases isBounded : written.toNat ≤ Numeral.greatestInteger
  · rw [if_pos isBounded] at readInteger
    refine ⟨written, ?_, .whole isBounded⟩
    rw [valueOf_of_integer readInteger]
    simp [ValueTree.toUInt64?]
  · rw [if_neg isBounded] at readInteger
    have isLarge : 2 ^ 63 ≤ written.toNat := Nat.lt_of_not_le isBounded
    obtain ⟨multiple, isNearest, rounded⟩ :=
      Binary64.exists_toNat_ofDecimal_of_large isLarge written.toNat_lt
        Numeral.greatestNatural
    refine ⟨_, ?_, .nearest (Nat.lt_of_not_le isBounded) isNearest⟩
    rw [valueOf_of_real readInteger (Numeral.real?_of_digits isSome digits),
      ValueTree.toUInt64?, rounded]

/-- A number is read as it was written if it fits an integer, or is a binary
number, or is the greatest of all. -/
theorem NumberReads.eq_iff {written read : UInt64}
    (reads : NumberReads written read) :
    read = written ↔
      written.toNat ≤ Numeral.greatestInteger ∨ 2 ^ 11 ∣ written.toNat ∨
        written.toNat = Numeral.greatestNatural := by
  cases reads with
  | whole isBounded => simp [isBounded]
  | @nearest multiple isLarge isNearest =>
      obtain ⟨divides, le_above, le_below, -⟩ := isNearest
      have isBounded := written.toNat_lt
      have greatest : Numeral.greatestNatural = 2 ^ 64 - 1 := rfl
      have half : Numeral.greatestInteger = 2 ^ 63 - 1 := rfl
      have fits : min Numeral.greatestNatural multiple < UInt64.size := by
        rw [UInt64.size, greatest]
        omega
      rw [← UInt64.toNat_inj, UInt64.toNat_ofNat_of_lt' fits]
      rw [half] at isLarge ⊢
      rw [greatest]
      omega

/-! ## Log levels -/

/-- The log level that is read where a text was written.  A value of another
kind is read as the text that it is written as. -/
inductive LevelReads : String → String → Prop where
  | truth {text : String} {value : Bool}
      (isTruth : text.toLower = truthText value) :
      LevelReads text (truthText value)
  | integer {text : String} {value : Int}
      (isInteger : Numeral.integer? text = some value) :
      LevelReads text (toString value)
  | real {text : String} {value : Binary64}
      (notInteger : Numeral.integer? text = none)
      (isReal : Numeral.real? text = some value) :
      LevelReads text value.text
  | plain {text : String}
      (notTruth : ∀ value, text.toLower ≠ truthText value)
      (notInteger : Numeral.integer? text = none)
      (notReal : Numeral.real? text = none) : LevelReads text text

theorem exists_levelReads (text : String) : ∃ level, LevelReads text level := by
  by_cases isTruth : ∃ value, text.toLower = truthText value
  · obtain ⟨value, isTruth⟩ := isTruth
    exact ⟨_, .truth isTruth⟩
  · rw [not_exists] at isTruth
    cases isInteger : Numeral.integer? text with
    | some value => exact ⟨_, .integer isInteger⟩
    | none =>
        cases isReal : Numeral.real? text with
        | some value => exact ⟨_, .real isInteger isReal⟩
        | none => exact ⟨_, .plain isTruth isInteger isReal⟩

theorem LevelReads.toText?_eq {text level : String}
    (reads : LevelReads text level) :
    (valueOf text).toText? = some level := by
  cases reads with
  | truth isTruth =>
      rw [valueOf_of_truth isTruth]
      rfl
  | integer isInteger =>
      rw [valueOf_of_integer isInteger]
      rfl
  | real notInteger isReal =>
      rw [valueOf_of_real notInteger isReal]
      rfl
  | plain notTruth notInteger notReal =>
      rw [valueOf_of_plain notTruth notInteger notReal]
      rfl

theorem LevelReads.unique {text level other : String}
    (reads : LevelReads text level) (readsOther : LevelReads text other) :
    level = other :=
  Option.some.inj (reads.toText?_eq.symm.trans readsOther.toText?_eq)

/-- A text is a value as it is written, or no value of another kind. -/
inductive IsPlainLevel : String → Prop where
  | truth (value : Bool) : IsPlainLevel (truthText value)
  | integer {value : Int} (isInteger : Numeral.isInteger value) :
      IsPlainLevel (toString value)
  | real {value : Binary64}
      (notInteger : Numeral.integer? value.text = none)
      (isReal : Numeral.real? value.text = some value) :
      IsPlainLevel value.text
  | other {text : String}
      (notTruth : ∀ value, text.toLower ≠ truthText value)
      (notInteger : Numeral.integer? text = none)
      (notReal : Numeral.real? text = none) : IsPlainLevel text

theorem IsPlainLevel.levelReads {text : String} (isPlain : IsPlainLevel text) :
    LevelReads text text := by
  cases isPlain with
  | truth value =>
      apply LevelReads.truth
      cases value <;> decide +kernel
  | integer isInteger => exact .integer (Numeral.integer?_toString isInteger)
  | real notInteger isReal => exact .real notInteger isReal
  | other notTruth notInteger notReal =>
      exact .plain notTruth notInteger notReal

theorem LevelReads.eq_iff {text level : String}
    (reads : LevelReads text level) : level = text ↔ IsPlainLevel text := by
  constructor
  · rintro rfl
    cases reads with
    | truth isTruth => exact .truth _
    | integer isInteger =>
        exact .integer (Numeral.isInteger_of_integer? isInteger)
    | real notInteger isReal => exact .real notInteger isReal
    | plain notTruth notInteger notReal =>
        exact .other notTruth notInteger notReal
  · intro isPlain
    exact reads.unique isPlain.levelReads

end Settings

end ScreenFlow
