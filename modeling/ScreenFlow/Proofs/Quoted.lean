import ScreenFlow.Proofs.Digits
import ScreenFlow.Proofs.Readers
import ScreenFlow.Toml.Text

/-!
# Quoted texts read back

Every text is read as it was from the quotes that it is written in, in each of
the four ways to quote it.  Nothing is asked of the text: it may hold quotes,
backslashes, line breaks and characters that cannot stand for themselves.
-/

namespace ScreenFlow

namespace Toml

/-! ## One character -/

section

variable {quoting : Quoting}

theorem textBody_plain {char : Char} (notQuote : char ≠ quoting.quote)
    (notEscape : char ≠ '\\' ∨ quoting.hasEscapes = false)
    (isAllowed : isControl char = false ∨ (char = '\n' ∧ quoting.isBlock))
    (rest : List Char) :
    textBody quoting .plain (char :: rest) =
      withFirst char (textBody quoting .plain rest) := by
  have noEscape : (decide (char = '\\') && quoting.hasEscapes) = false := by
    rcases notEscape with differ | noEscapes
    · simp [differ]
    · simp [noEscapes]
  simp only [textBody, Progress.before, if_neg notQuote, noEscape]
  rcases isAllowed with isVisible | ⟨rfl, isBlock⟩
  · have notReturn : char ≠ '\r' := by
      rintro rfl
      cases isVisible
    simp [notReturn, isVisible]
  · simp [isBlock]

theorem textBody_escape (hasEscapes : quoting.hasEscapes)
    {char meant : Char} (escaped : escaped? char = some meant)
    (rest : List Char) :
    textBody quoting .plain ('\\' :: char :: rest) =
      withFirst meant (textBody quoting .plain rest) := by
  have notQuote : '\\' ≠ quoting.quote := by
    cases quoting <;> decide
  -- A backslash before a blank would fold the blank.
  have notFoldable : isFoldable char = false := by
    have differ : char ≠ ' ' ∧ char ≠ '\t' ∧ char ≠ '\n' ∧ char ≠ '\r' := by
      refine ⟨?_, ?_, ?_, ?_⟩ <;> rintro rfl <;> cases escaped
    simp [isFoldable, differ]
  simp [textBody, Progress.before, notQuote, hasEscapes, notFoldable, escaped]

theorem textBody_code (hasEscapes : quoting.hasEscapes)
    {char : Char} (isSmall : char.toNat < 65536) (rest : List Char) :
    textBody quoting .plain
        ('\\' :: 'u' :: hexDigits upperHexDigit 4 char.toNat ++ rest) =
      withFirst char (textBody quoting .plain rest) := by
  have notQuote : '\\' ≠ quoting.quote := by
    cases quoting <;> decide
  have digit (number : Nat) :
      hexDigit? (upperHexDigit (number % 16)) = some (number % 16) :=
    hexDigit?_upperHexDigit (Nat.mod_lt _ (by decide))
  have code :
      16 * (16 * (16 * (char.toNat / 4096 % 16) + char.toNat / 256 % 16) +
        char.toNat / 16 % 16) + char.toNat % 16 = char.toNat := by
    omega
  have isCode : charOfCode? char.toNat = some char := by
    have isValid : char.toNat.isValidChar := char.valid
    rw [charOfCode?, if_pos isValid, Char.ofNat_toNat]
  simp [textBody, Progress.before, notQuote, hasEscapes, hexDigits,
    List.range, List.range.loop, digit, isFoldable, escaped?, code, isCode]

theorem textBody_escapedChar (hasEscapes : quoting.hasEscapes) (char : Char)
    (rest : List Char) :
    textBody quoting .plain (escapedChar quoting.isBlock char ++ rest) =
      withFirst char (textBody quoting .plain rest) := by
  have quote : quoting.quote = '"' := by
    cases quoting <;> first | rfl | cases hasEscapes
  unfold escapedChar
  split
  · exact textBody_escape hasEscapes rfl rest
  · exact textBody_escape hasEscapes rfl rest
  · split
    · next isBlock =>
        exact textBody_plain (by simp [quote]) (.inl (by decide))
          (.inr ⟨rfl, isBlock⟩) rest
    · exact textBody_escape hasEscapes rfl rest
  · exact textBody_escape hasEscapes rfl rest
  · exact textBody_escape hasEscapes rfl rest
  · exact textBody_escape hasEscapes rfl rest
  · exact textBody_escape hasEscapes rfl rest
  · next notQuote notBackslash =>
      split
      · next isHidden =>
          refine textBody_code hasEscapes ?_ rest
          simp [isControl] at isHidden
          omega
      · next isVisible =>
          exact textBody_plain (by simpa [quote] using notQuote)
            (.inl (by simpa using notBackslash))
            (.inl (by simpa using isVisible)) rest

theorem exists_escapedChar_eq_cons (isBlock : Bool) (char : Char) :
    ∃ first more, escapedChar isBlock char = first :: more ∧ first ≠ '"' := by
  unfold escapedChar
  split
  all_goals first
    | exact ⟨_, _, rfl, by decide⟩
    | skip
  · cases isBlock <;> exact ⟨_, _, rfl, by decide⟩
  · next notQuote notBackslash =>
      split
      · exact ⟨_, _, rfl, by decide⟩
      · exact ⟨_, _, rfl, notQuote⟩

end

/-! ## Up to the closing quotes -/

theorem textBody_quote {quoting : Quoting} (isLine : quoting.isBlock = false)
    (rest : List Char) :
    textBody quoting .plain (quoting.quote :: rest) = some ([], rest) := by
  simp [textBody, Progress.before, isLine]

theorem textBody_fence {quoting : Quoting} (isBlock : quoting.isBlock)
    {rest : List Char} (ends : rest.head? ≠ some quoting.quote) :
    textBody quoting .plain
        (quoting.quote :: quoting.quote :: quoting.quote :: rest) =
      some ([], rest) := by
  have noExtra : (rest.take 2).takeWhile (· == quoting.quote) = [] := by
    cases rest with
    | nil => rfl
    | cons char rest =>
        have differ : char ≠ quoting.quote := by simpa using ends
        simp [differ]
  simp [textBody, Progress.before, isBlock, blockEnd?, noExtra]

theorem textBody_escaped {quoting : Quoting} (hasEscapes : quoting.hasEscapes)
    (chars : List Char) {left rest : List Char}
    (ends : textBody quoting .plain rest = some ([], left)) :
    textBody quoting .plain
        (chars.flatMap (escapedChar quoting.isBlock) ++ rest) =
      some (chars, left) := by
  induction chars with
  | nil => simpa using ends
  | cons char chars ih =>
      rw [List.flatMap_cons, List.append_assoc,
        textBody_escapedChar hasEscapes, ih]
      rfl

theorem textBody_literal {chars left rest : List Char}
    (noQuote : '\'' ∉ chars)
    (visible : ∀ char ∈ chars, isControl char = false)
    (ends : textBody .literal .plain rest = some ([], left)) :
    textBody .literal .plain (chars ++ rest) = some (chars, left) := by
  induction chars with
  | nil => exact ends
  | cons char chars ih =>
      rw [List.mem_cons, not_or] at noQuote
      have notQuote : char ≠ Quoting.literal.quote := Ne.symm noQuote.1
      have isPlain : textBody .literal .plain (char :: (chars ++ rest)) =
          withFirst char (textBody .literal .plain (chars ++ rest)) :=
        textBody_plain notQuote (.inr rfl)
          (.inl (visible char List.mem_cons_self)) _
      rw [List.cons_append, isPlain, ih noQuote.2 fun other member =>
        visible other (List.mem_cons_of_mem char member)]
      rfl

/-- A quote within a text without three of them, and not at its end, does not
end the text. -/
theorem blockEnd?_eq_none {quote : Char} {chars : List Char}
    (noTriple : (quote :: chars.take 2 == [quote, quote, quote]) = false)
    (last : (quote :: chars).getLast? ≠ some quote) (rest : List Char) :
    blockEnd? quote (chars ++ rest) = none := by
  match chars with
  | [] => simp at last
  | [second] =>
      have differ : second ≠ quote := by simpa using last
      cases rest <;> simp [blockEnd?, differ]
  | second :: third :: more =>
      have differ : ¬(second = quote ∧ third = quote) := by
        simpa using noTriple
      simp [blockEnd?, differ]

theorem textBody_literalBlock {chars left rest : List Char}
    (noTriple : hasTripleQuote chars = false)
    (last : chars.getLast? ≠ some '\'')
    (visible : ∀ char ∈ chars, char = '\n' ∨ isControl char = false)
    (ends : textBody .literalBlock .plain rest = some ([], left)) :
    textBody .literalBlock .plain (chars ++ rest) = some (chars, left) := by
  induction chars with
  | nil => exact ends
  | cons char chars ih =>
      rw [hasTripleQuote, Bool.or_eq_false_iff] at noTriple
      have lastLater : chars.getLast? ≠ some '\'' := by
        cases chars with
        | nil => simp
        | cons => simpa using last
      have readLater := ih noTriple.2 lastLater fun other member =>
        visible other (List.mem_cons_of_mem char member)
      have step : textBody .literalBlock .plain (char :: (chars ++ rest)) =
          withFirst char (textBody .literalBlock .plain (chars ++ rest)) := by
        by_cases isQuote : char = '\''
        · subst isQuote
          have goesOn := blockEnd?_eq_none noTriple.1 last rest
          simp [textBody, Progress.before, Quoting.quote, Quoting.isBlock,
            goesOn]
        · have isAllowed := (visible char List.mem_cons_self).symm
          exact textBody_plain isQuote (.inr rfl)
            (isAllowed.imp_right fun isBreak => ⟨isBreak, rfl⟩) _
      rw [List.cons_append, step, readLater]
      rfl

/-! ## From the opening quotes -/

theorem quotedText_basic {body : List Char}
    (isLine : ∀ more, body ≠ '"' :: '"' :: more) :
    quotedText ('"' :: body) = lineText .basic body := by
  unfold quotedText
  split <;> simp_all

theorem quotedText_literal {body : List Char}
    (isLine : ∀ more, body ≠ '\'' :: '\'' :: more) :
    quotedText ('\'' :: body) = lineText .literal body := by
  unfold quotedText
  split <;> simp_all

theorem skipsBreak_break (rest : List Char) :
    skipsBreak ('\n' :: rest) = some (true, rest) := by
  rfl

theorem skipsBreak_of_visible {text : List Char}
    (visible : ∀ char ∈ text.head?, isControl char = false) :
    skipsBreak text = some (false, text) := by
  unfold skipsBreak
  split
  · cases visible _ rfl
  · cases visible _ rfl
  · rfl

theorem lineText_of_body {quoting : Quoting} {chars text rest : List Char}
    (body : textBody quoting .plain text = some (chars, rest)) :
    lineText quoting text = some (String.ofList chars, rest) := by
  simp [lineText, body]

theorem blockText_break (quoting : Quoting) (text : List Char) :
    blockText quoting ('\n' :: text) = lineText quoting text := by
  simp [blockText, skipsBreak_break]

theorem blockText_of_visible {quoting : Quoting} {text : List Char}
    (visible : ∀ char ∈ text.head?, isControl char = false) :
    blockText quoting text = lineText quoting text := by
  simp [blockText, skipsBreak_of_visible visible]

/-! ## The four ways -/

section

variable {chars rest : List Char}

theorem quotedText_escaped (ends : rest.head? ≠ some '"') :
    quotedText
        ('"' :: (chars.flatMap (escapedChar false) ++ '"' :: rest)) =
      some (String.ofList chars, rest) := by
  rw [quotedText_basic]
  · exact lineText_of_body
      (textBody_escaped rfl chars (textBody_quote rfl rest))
  · intro more same
    cases chars with
    | nil => cases rest <;> simp_all
    | cons char chars =>
        obtain ⟨first, later, escaped, notQuote⟩ :=
          exists_escapedChar_eq_cons false char
        simp [escaped, notQuote] at same

theorem quotedText_escapedBlock (ends : rest.head? ≠ some '"') :
    quotedText
        ('"' :: '"' :: '"' :: '\n' ::
          (chars.flatMap (escapedChar true) ++ '"' :: '"' :: '"' :: rest)) =
      some (String.ofList chars, rest) := by
  have closed : textBody .basicBlock .plain ('"' :: '"' :: '"' :: rest) =
      some ([], rest) :=
    textBody_fence rfl ends
  rw [quotedText, blockText_break]
  exact lineText_of_body (textBody_escaped rfl chars closed)

theorem quotedText_plain (isSome : chars ≠ []) (noQuote : '\'' ∉ chars)
    (visible : ∀ char ∈ chars, isControl char = false) :
    quotedText ('\'' :: (chars ++ '\'' :: rest)) =
      some (String.ofList chars, rest) := by
  rw [quotedText_literal]
  · exact lineText_of_body
      (textBody_literal noQuote visible (textBody_quote rfl rest))
  · intro more same
    cases chars with
    | nil => exact isSome rfl
    | cons char chars =>
        obtain ⟨rfl, -⟩ := List.cons.inj same
        exact noQuote List.mem_cons_self

theorem quotedText_plainBlock (noTriple : hasTripleQuote chars = false)
    (last : chars.getLast? ≠ some '\'')
    (visible : ∀ char ∈ chars, char = '\n' ∨ isControl char = false)
    (ends : rest.head? ≠ some '\'') :
    quotedText
        ('\'' :: '\'' :: '\'' ::
          ((if '\n' ∈ chars then ['\n'] else []) ++
            (chars ++ '\'' :: '\'' :: '\'' :: rest))) =
      some (String.ofList chars, rest) := by
  have closed : textBody .literalBlock .plain ('\'' :: '\'' :: '\'' :: rest) =
      some ([], rest) :=
    textBody_fence rfl ends
  have body := textBody_literalBlock noTriple last visible closed
  rw [quotedText]
  split
  · exact (blockText_break _ _).trans (lineText_of_body body)
  · next noBreak =>
      rw [List.nil_append, blockText_of_visible]
      · exact lineText_of_body body
      · intro char isFirst
        cases chars with
        | nil =>
            cases isFirst
            rfl
        | cons first chars =>
            cases isFirst
            refine (visible char List.mem_cons_self).resolve_left ?_
            rintro rfl
            exact noBreak List.mem_cons_self

end

/-! ## Any text -/

theorem canBeLiteral_iff (chars : List Char) :
    canBeLiteral chars ↔
      hasTripleQuote chars = false ∧ chars.getLast? ≠ some '\'' ∧
        ∀ char ∈ chars, char = '\n' ∨ isControl char = false := by
  simp [canBeLiteral, and_assoc]

/-- What is known of a text by the way in which it is written. -/
theorem Quoting.ofText_cases (chars : List Char) :
    (ofText chars = .literalBlock ∧ canBeLiteral chars) ∨
    (ofText chars = .literal ∧ canBeLiteral chars ∧ chars ≠ [] ∧
      '\n' ∉ chars ∧ '\'' ∉ chars) ∨
    (ofText chars = .basicBlock ∧ '\n' ∈ chars) ∨
    (ofText chars = .basic ∧ '\n' ∉ chars) := by
  simp only [ofText]
  split
  · next saves =>
      rw [Bool.and_eq_true] at saves
      obtain ⟨special, canBe⟩ := saves
      have isSome : chars ≠ [] := by
        rintro rfl
        cases special
      split
      · exact .inl ⟨rfl, canBe⟩
      · next isLine =>
          exact .inr (.inl ⟨rfl, canBe, isSome, by simpa using isLine⟩)
  · split
    · next hasBreak =>
        exact .inr (.inr (.inl ⟨rfl, by simpa using hasBreak⟩))
    · next noBreak =>
        exact .inr (.inr (.inr ⟨rfl, by simpa using noBreak⟩))

theorem quoted_ofList (chars : List Char) :
    quoted (String.ofList chars) =
      (Quoting.ofText chars).fence ++
        (if '\n' ∈ chars then ['\n'] else []) ++
        (Quoting.ofText chars).encode chars ++
        (Quoting.ofText chars).fence := by
  simp [quoted]

/-- What is written in quotes is read as it was, unless another quote
follows. -/
theorem quotedText_quoted (text : String) {rest : List Char}
    (ends : rest.head? ≠ some '"' ∧ rest.head? ≠ some '\'') :
    quotedText (quoted text ++ rest) = some (text, rest) := by
  obtain ⟨chars, rfl⟩ : ∃ chars, text = String.ofList chars :=
    ⟨text.toList, String.ofList_toList.symm⟩
  rw [quoted_ofList]
  rcases Quoting.ofText_cases chars with
    ⟨way, canBe⟩ | ⟨way, canBe, isSome, noBreak, noQuote⟩ |
      ⟨way, hasBreak⟩ | ⟨way, noBreak⟩
  · obtain ⟨noTriple, last, visible⟩ := (canBeLiteral_iff chars).mp canBe
    rw [way]
    simpa [Quoting.fence, Quoting.encode, Quoting.quote, Quoting.isBlock,
      Quoting.hasEscapes, List.replicate] using
      quotedText_plainBlock noTriple last visible ends.2
  · have visible (char : Char) (member : char ∈ chars) :
        isControl char = false := by
      obtain ⟨-, -, visible⟩ := (canBeLiteral_iff chars).mp canBe
      refine (visible char member).resolve_left ?_
      rintro rfl
      exact noBreak member
    rw [way, if_neg noBreak]
    simpa [Quoting.fence, Quoting.encode, Quoting.quote, Quoting.isBlock,
      Quoting.hasEscapes] using quotedText_plain isSome noQuote visible
  · rw [way, if_pos hasBreak]
    simpa [Quoting.fence, Quoting.encode, Quoting.quote, Quoting.isBlock,
      Quoting.hasEscapes, List.replicate] using
      quotedText_escapedBlock ends.1
  · rw [way, if_neg noBreak]
    simpa [Quoting.fence, Quoting.encode, Quoting.quote, Quoting.isBlock,
      Quoting.hasEscapes] using quotedText_escaped ends.1

theorem head?_quoted (text : String) :
    (quoted text).head? = some '"' ∨ (quoted text).head? = some '\'' := by
  obtain ⟨chars, rfl⟩ : ∃ chars, text = String.ofList chars :=
    ⟨text.toList, String.ofList_toList.symm⟩
  rw [quoted_ofList]
  rcases Quoting.ofText_cases chars with
    ⟨way, -⟩ | ⟨way, -⟩ | ⟨way, -⟩ | ⟨way, -⟩ <;>
  simp [way, Quoting.fence, Quoting.quote, Quoting.isBlock, List.replicate]

end Toml

end ScreenFlow
