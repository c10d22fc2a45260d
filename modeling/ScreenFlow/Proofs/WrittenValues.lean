import ScreenFlow.Proofs.Quoted
import ScreenFlow.Settings.Written
import ScreenFlow.Toml.Reader

/-!
# Written values read back

A value that is written to the end of a line is read as it was: a number in
decimal digits, a truth value, and any text in quotes.
-/

namespace ScreenFlow

namespace Toml

/-! ## No number is a moment -/

section

variable {digits : List Char}

/-- A field that is taken from digits leaves digits or nothing of their line,
so no mark follows it. -/
theorem exactly_of_field {width low high : Nat} {mark : Char}
    (notDigit : mark.isDigit = false) (notBreak : mark ≠ '\n')
    (members : ∀ digit ∈ digits, digit.isDigit) {rest : List Char}
    {found : (List Char × Nat) × List Char}
    (taken : field width low high (digits ++ '\n' :: rest) = some found) :
    Reader.exactly mark found.2 = none := by
  simp only [field] at taken
  split at taken
  · next isField =>
      have fits : width ≤ digits.length := by
        by_contra isLonger
        have hasBreak :
            '\n' ∈ (digits ++ '\n' :: rest).take width := by
          obtain ⟨more, isMore⟩ : ∃ more, width - digits.length = more + 1 :=
            ⟨width - digits.length - 1, by omega⟩
          simp [List.take_append, isMore]
        have isDigit := List.all_eq_true.mp isField.2 '\n' hasBreak
        cases isDigit
      have left : found.2 = digits.drop width ++ '\n' :: rest := by
        rw [← List.drop_append_of_le_length fits]
        simp only [Option.bind_eq_bind, Option.bind_eq_some_iff] at taken
        obtain ⟨value, -, within⟩ := taken
        split at within
        · cases within
          rfl
        · cases within
      rw [left]
      cases later : digits.drop width with
      | nil => simp [Ne.symm notBreak]
      | cons digit more =>
          have isDigit : digit.isDigit :=
            members digit (List.mem_of_mem_drop (later ▸ List.mem_cons_self))
          have differ : digit ≠ mark := by
            rintro rfl
            simp [isDigit] at notDigit
          simp [differ]
  · cases taken

theorem moment_digits (members : ∀ digit ∈ digits, digit.isDigit)
    (rest : List Char) : moment (digits ++ '\n' :: rest) = none := by
  have noDay : day (digits ++ '\n' :: rest) = none := by
    cases taken : field 4 0 9999 (digits ++ '\n' :: rest) with
    | none => simp [day, taken]
    | some found =>
        have noMark : Reader.exactly '-' found.2 = none :=
          exactly_of_field rfl (by decide) members taken
        simp [day, taken, noMark]
  have noTime : time (digits ++ '\n' :: rest) = none := by
    cases taken : field 2 0 23 (digits ++ '\n' :: rest) with
    | none => simp [time, taken]
    | some found =>
        have noMark : Reader.exactly ':' found.2 = none :=
          exactly_of_field rfl (by decide) members taken
        simp [time, taken, noMark]
  simp [moment, noDay, noTime]

end

/-! ## Numbers -/

theorem isDigit_of_mem_toDigits {number : Nat} :
    ∀ digit ∈ Nat.toDigits 10 number, digit.isDigit :=
  fun _ member => Nat.isDigit_of_mem_toDigits (by decide) (by decide) member

theorem toDigits_of_head? {number : Nat}
    (first : (Nat.toDigits 10 number).head? = some '0') :
    Nat.toDigits 10 number = ['0'] := by
  induction number using Nat.strong_induction_on with
  | h number ih =>
      by_cases isSmall : number < 10
      · rw [Nat.toDigits_of_lt_base isSmall] at first ⊢
        simpa using first
      · rw [Nat.toDigits_of_base_le (by decide) (by omega),
          List.head?_append_of_ne_nil _ Nat.toDigits_ne_nil] at first
        have lower := ofDigits?_toDigits (number / 10)
        rw [ih (number / 10) (by omega) first] at lower
        have isZero : number / 10 = 0 := by
          simpa [ofDigits?, hexDigit?] using lower.symm
        omega

theorem decimalDigits?_toDigits (number : Nat) :
    decimalDigits? (Nat.toDigits 10 number) =
      some (Nat.toDigits 10 number) := by
  have ungrouped : ungrouped? Char.isDigit (Nat.toDigits 10 number) =
      some (Nat.toDigits 10 number) := by
    rw [ungrouped?, List.splitOn_eq_singleton Nat.underscore_not_in_toDigits]
    simpa using isDigit_of_mem_toDigits
  simp only [decimalDigits?, ungrouped, Option.bind_eq_bind, Option.bind_some]
  rw [if_neg]
  exact fun leads => leads.2 (toDigits_of_head? leads.1)

theorem unsigned_of_isDigit {word : List Char}
    (members : ∀ digit ∈ word, digit.isDigit) :
    unsigned word = (false, word) := by
  unfold unsigned
  split
  · cases members '-' List.mem_cons_self
  · cases members '+' List.mem_cons_self
  · rfl

theorem integer?_toDigits {number : Nat}
    (isBounded : number ≤ Numeral.greatestInteger) :
    integer? (Nat.toDigits 10 number) = some (number : Int) := by
  have members : ∀ digit ∈ Nat.toDigits 10 number, digit.isDigit :=
    isDigit_of_mem_toDigits
  have isInteger : Numeral.isInteger number := by
    simp [Numeral.isInteger]
    omega
  unfold integer?
  split
  · next isHex => cases members 'x' (by simp [isHex])
  · next isOctal => cases members 'o' (by simp [isOctal])
  · next isBinary => cases members 'b' (by simp [isBinary])
  · simp [unsigned_of_isDigit members, decimalDigits?_toDigits,
      ofDigits?_toDigits, isInteger]

/-! ## Values to the end of a line -/

/-- What is written stands for a value: it begins with no blank, and up to the
end of its line it is read as the value. -/
structure ReadsAs (written : List Char) (meant : ValueTree) : Prop where
  begins : ∀ char ∈ written.head?, ¬(char = ' ' ∨ char = '\t')
  reads (depth fuel : Nat) (rest : List Char) :
    value depth (fuel + 1) (written ++ '\n' :: rest) =
      some (meant, '\n' :: rest)

theorem value_of_quote {text : List Char} {first : Char}
    (begins : text.head? = some first) (isQuote : first = '"' ∨ first = '\'')
    (depth fuel : Nat) :
    value depth (fuel + 1) text = (ValueTree.text <$> quotedText) text := by
  rcases isQuote with rfl | rfl <;> simp [value, begins]

theorem value_of_plain {text : List Char} {first : Char}
    (begins : text.head? = some first) (isPlain : first.isAlphanum)
    (depth fuel : Nat) : value depth (fuel + 1) text = scalar text := by
  rw [value]
  simp only [Reader.bind_apply, Reader.peek?_apply, begins, Option.bind_some]
  refine congrFun ?_ text
  split
  all_goals first
    | rfl
    | next isOther => cases isOther; cases isPlain

theorem run_word {written : List Char}
    (members : ∀ char ∈ written, isWordChar char) (rest : List Char) :
    Reader.run isWordChar (written ++ '\n' :: rest) =
      some (written, '\n' :: rest) := by
  refine Reader.run_append members ?_
  rintro char ⟨⟩
  decide

theorem scalar_number {number : Nat}
    (isBounded : number ≤ Numeral.greatestInteger) (rest : List Char) :
    scalar (Nat.toDigits 10 number ++ '\n' :: rest) =
      some (.integer number, '\n' :: rest) := by
  have digits : ∀ digit ∈ Nat.toDigits 10 number, digit.isDigit :=
    isDigit_of_mem_toDigits
  have members (char : Char) (member : char ∈ Nat.toDigits 10 number) :
      isWordChar char := by
    simp [isWordChar, Char.isAlphanum, digits char member]
  have differs {word : String} {char : Char} (member : char ∈ word.toList)
      (isLetter : char.isDigit = false) :
      String.ofList (Nat.toDigits 10 number) ≠ word := by
    rintro rfl
    rw [String.toList_ofList] at member
    simp [digits char member] at isLetter
  have notTrue : String.ofList (Nat.toDigits 10 number) ≠ "true" :=
    differs (by decide : 't' ∈ "true".toList) rfl
  have notFalse : String.ofList (Nat.toDigits 10 number) ≠ "false" :=
    differs (by decide : 'f' ∈ "false".toList) rfl
  simp [scalar, moment_digits digits rest, word, run_word members rest,
    integer?_toDigits isBounded]

theorem scalar_truth (value : Bool) (rest : List Char) :
    scalar ((Settings.truthText value).toList ++ '\n' :: rest) =
      some (.bool value, '\n' :: rest) := by
  have members : (Settings.truthText value).toList.all isWordChar := by
    cases value <;> decide
  have run := run_word (List.all_eq_true.mp members) rest
  cases value <;>
  · simp [Settings.truthText] at run
    simp [scalar, Settings.truthText, moment, day, time, field, word, run]

theorem readsAs_of_scalar {first : Char} {more : List Char}
    {meant : ValueTree} (isPlain : first.isAlphanum)
    (read : ∀ rest, scalar (first :: more ++ '\n' :: rest) =
      some (meant, '\n' :: rest)) : ReadsAs (first :: more) meant where
  begins := by
    rintro _ ⟨⟩ (rfl | rfl) <;> cases isPlain
  reads depth fuel rest := by
    rw [value_of_plain rfl isPlain, read]

theorem readsAs_number {number : Nat}
    (isBounded : number ≤ Numeral.greatestInteger) :
    ReadsAs (toString number).toList (.integer number) := by
  rw [Nat.toString_eq_repr, Nat.toList_repr]
  have read := scalar_number isBounded
  have digits : ∀ digit ∈ Nat.toDigits 10 number, digit.isDigit :=
    isDigit_of_mem_toDigits
  have isSome : Nat.toDigits 10 number ≠ [] := Nat.toDigits_ne_nil
  obtain ⟨first, more, chars⟩ := List.exists_cons_of_ne_nil isSome
  rw [chars] at read digits ⊢
  have isDigit : first.isDigit := digits first List.mem_cons_self
  exact readsAs_of_scalar (by simp [Char.isAlphanum, isDigit]) read

theorem readsAs_truth (value : Bool) :
    ReadsAs (Settings.truthText value).toList (.bool value) := by
  have read := scalar_truth value
  cases value <;> exact readsAs_of_scalar rfl read

theorem readsAs_quoted (text : String) :
    ReadsAs (quoted text) (.text text) where
  begins := by
    rcases head?_quoted text with isFirst | isFirst <;> simp [isFirst]
  reads depth fuel rest := by
    have read : quotedText (quoted text ++ '\n' :: rest) =
        some (text, '\n' :: rest) :=
      quotedText_quoted text (by simp)
    have begins {quote : Char} (isFirst : (quoted text).head? = some quote) :
        (quoted text ++ '\n' :: rest).head? = some quote := by
      rw [List.head?_append, isFirst]
      rfl
    have isValue : value depth (fuel + 1) (quoted text ++ '\n' :: rest) =
        (ValueTree.text <$> quotedText) (quoted text ++ '\n' :: rest) := by
      rcases head?_quoted text with isFirst | isFirst
      · exact value_of_quote (begins isFirst) (.inl rfl) depth fuel
      · exact value_of_quote (begins isFirst) (.inr rfl) depth fuel
    rw [isValue, Reader.map_apply, read]
    rfl

end Toml

end ScreenFlow
