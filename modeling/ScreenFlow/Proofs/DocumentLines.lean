import ScreenFlow.Proofs.WrittenValues

/-!
# Lines read back

A line of a document is read as what it says, whatever follows it: the header
of a table, an entry or nothing.  A text of such lines is read as what they say
one after the other.
-/

namespace ScreenFlow

namespace Toml

/-! ## Blanks and keys -/

/-- A blank within a line. -/
def isGap (char : Char) : Bool :=
  char = ' ' || char = '\t'

theorem blanks_append {gap rest : List Char}
    (members : ∀ char ∈ gap, isGap char) (ends : Reader.Ends isGap rest) :
    blanks (gap ++ rest) = some ((), rest) :=
  Reader.skipRun_append members ends

theorem blanks_of_ends {text : List Char} (ends : Reader.Ends isGap text) :
    blanks text = some ((), text) := by
  have noGap : ∀ char ∈ ([] : List Char), isGap char := by simp
  exact blanks_append noGap ends

theorem comment_of_not_mark {text : List Char}
    (begins : text.head? ≠ some '#') : comment text = some ((), text) := by
  cases text with
  | nil => simp [comment]
  | cons first text =>
      have notMark : first ≠ '#' := by simpa using begins
      simp [comment, notMark]

/-- A name that can stand without quotes. -/
def IsBareKey (name : String) : Prop :=
  name ≠ "" ∧ ∀ char ∈ name.toList, isKeyChar char

instance (name : String) : Decidable (IsBareKey name) :=
  decidable_of_iff (name ≠ "" ∧ name.toList.all isKeyChar)
    (and_congr_right fun _ => List.all_eq_true)

theorem IsBareKey.exists_cons {name : String} (isBare : IsBareKey name) :
    ∃ first more, name.toList = first :: more ∧ isKeyChar first := by
  have isSome : name.toList ≠ [] := by simpa using isBare.1
  obtain ⟨first, more, chars⟩ := List.exists_cons_of_ne_nil isSome
  exact ⟨first, more, chars, isBare.2 first (by simp [chars])⟩

theorem not_isKeyChar_of_isGap {char : Char} (isBlank : isGap char) :
    isKeyChar char = false := by
  simp only [isGap, Bool.or_eq_true, decide_eq_true_eq] at isBlank
  rcases isBlank with rfl | rfl <;> decide

theorem key_bareKey {name : String} (isBare : IsBareKey name)
    {rest : List Char} (ends : Reader.Ends isKeyChar rest) :
    key (name.toList ++ rest) = some (name, rest) := by
  have isKey : key (name.toList ++ rest) = bareKey (name.toList ++ rest) := by
    obtain ⟨first, more, chars, isFirst⟩ := isBare.exists_cons
    rw [chars, List.cons_append]
    unfold key
    split
    · next begins =>
        cases begins
        cases isFirst
    · next begins =>
        cases begins
        cases isFirst
    · rfl
  have run : Reader.run1 isKeyChar (name.toList ++ rest) =
      some (name.toList, rest) :=
    Reader.run1_append (by simpa using isBare.1) isBare.2 ends
  simp [isKey, bareKey, run]

/-- A mark that cannot belong to a path of keys. -/
def EndsPath (mark : Char) : Prop :=
  isKeyChar mark = false ∧ isGap mark = false ∧ mark ≠ '.'

theorem keyPath_bareKey {name : String} (isBare : IsBareKey name)
    {gap rest : List Char} (members : ∀ char ∈ gap, isGap char) {mark : Char}
    (isMark : EndsPath mark) (fuel : Nat) :
    keyPath (fuel + 1) (name.toList ++ (gap ++ mark :: rest)) =
      some ([name], mark :: rest) := by
  obtain ⟨notKey, notGap, notPoint⟩ := isMark
  have blanksBefore : blanks (name.toList ++ (gap ++ mark :: rest)) =
      some ((), name.toList ++ (gap ++ mark :: rest)) := by
    obtain ⟨first, more, chars, isFirst⟩ := isBare.exists_cons
    refine blanks_of_ends ?_
    rw [chars]
    rintro _ ⟨⟩ isBlank
    simp [not_isKeyChar_of_isGap isBlank] at isFirst
  have blanksAfter : blanks (gap ++ mark :: rest) = some ((), mark :: rest) :=
    blanks_append members (by simp [Reader.Ends, notGap])
  have read : key (name.toList ++ (gap ++ mark :: rest)) =
      some (name, gap ++ mark :: rest) := by
    refine key_bareKey isBare ?_
    cases gap with
    | nil => simp [Reader.Ends, notKey]
    | cons blank gap =>
        have isBlank : isGap blank := members blank List.mem_cons_self
        simp [Reader.Ends, not_isKeyChar_of_isGap isBlank]
  simp [keyPath, blanksBefore, read, blanksAfter, notPoint]

/-! ## Lines -/

/-- A line says a statement, or nothing, whatever follows it. -/
def IsLine (line : List Char) (said : Option Statement) : Prop :=
  ∀ fuel rest, statements (fuel + 2) (line ++ '\n' :: rest) =
    (statements (fuel + 1) rest).map fun read =>
      (said.toList ++ read.1, read.2)

theorem isLine_of_statement? {line : List Char} {said : Option Statement}
    (begins : Reader.Ends isGap line)
    (reads : ∀ fuel rest, statement? (fuel + 1) (line ++ '\n' :: rest) =
      some (said, '\n' :: rest)) : IsLine line said := by
  intro fuel rest
  have blanksBefore : blanks (line ++ '\n' :: rest) =
      some ((), line ++ '\n' :: rest) := by
    refine blanks_of_ends ?_
    cases line with
    | nil => simp [Reader.Ends, isGap]
    | cons => simpa [Reader.Ends] using begins
  have blanksAfter : blanks ('\n' :: rest) = some ((), '\n' :: rest) :=
    blanks_of_ends (by simp [Reader.Ends, isGap])
  have noComment : comment ('\n' :: rest) = some ((), '\n' :: rest) :=
    comment_of_not_mark (by simp)
  simp [statements, blanksBefore, reads, blanksAfter, noComment,
    skipsBreak_break]

theorem isLine_empty : IsLine [] none :=
  isLine_of_statement? (by simp [Reader.Ends]) fun fuel rest => by
    simp [statement?]

theorem isLine_header {name : String} (isBare : IsBareKey name) :
    IsLine ('[' :: (name.toList ++ [']'])) (some (.table [name])) := by
  refine isLine_of_statement? (by simp [Reader.Ends, isGap])
    fun fuel rest => ?_
  have noGap : ∀ char ∈ ([] : List Char), isGap char := by simp
  have path : keyPath depthLimit (name.toList ++ ']' :: '\n' :: rest) =
      some ([name], ']' :: '\n' :: rest) :=
    keyPath_bareKey isBare noGap ⟨rfl, rfl, by decide⟩ 78
  have noItem : Reader.skips '[' (name.toList ++ ']' :: '\n' :: rest) =
      some (false, name.toList ++ ']' :: '\n' :: rest) := by
    obtain ⟨first, more, chars, isFirst⟩ := isBare.exists_cons
    have notBracket : first ≠ '[' := by
      rintro rfl
      cases isFirst
    simp [chars, notBracket]
  simp [statement?, header, noItem, path]

theorem statement?_of_key {text : List Char} {first : Char}
    (begins : text.head? = some first) (isKey : isKeyChar first) (fuel : Nat) :
    statement? fuel text = (some <$> entry fuel) text := by
  rw [statement?]
  simp only [Reader.bind_apply, Reader.peek?_apply, begins, Option.bind_some]
  refine congrFun ?_ text
  split
  all_goals first
    | rfl
    | next isOther => cases isOther <;> cases isKey

theorem isLine_entry {name : String} (isBare : IsBareKey name)
    {written : List Char} {meant : ValueTree}
    (readsAs : ReadsAs written meant) :
    IsLine (name.toList ++ (' ' :: '=' :: ' ' :: written))
      (some (.entry [name] meant)) := by
  obtain ⟨first, more, chars, isFirst⟩ := isBare.exists_cons
  have isSpace : ∀ char ∈ [' '], isGap char := by simp [isGap]
  refine isLine_of_statement? ?_ fun fuel rest => ?_
  · rw [chars]
    rintro _ ⟨⟩ isBlank
    simp [not_isKeyChar_of_isGap isBlank] at isFirst
  · have path : keyPath depthLimit
          (name.toList ++ ' ' :: '=' :: ' ' :: (written ++ '\n' :: rest)) =
        some ([name], '=' :: ' ' :: (written ++ '\n' :: rest)) :=
      keyPath_bareKey isBare isSpace ⟨rfl, rfl, by decide⟩ 78
    have blanksBefore : blanks (' ' :: (written ++ '\n' :: rest)) =
        some ((), written ++ '\n' :: rest) := by
      refine blanks_append isSpace ?_
      cases written with
      | nil => simp [Reader.Ends, isGap]
      | cons => simpa [Reader.Ends, isGap] using readsAs.begins
    have begins : (name.toList ++ ' ' :: '=' :: ' ' ::
        (written ++ '\n' :: rest)).head? = some first := by
      simp [chars]
    simp [statement?_of_key begins isFirst, entry, path, blanksBefore,
      readsAs.reads]

/-! ## Texts of lines -/

/-- A line with what it says. -/
abbrev Line :=
  List Char × Option Statement

def textOf (lines : List Line) : List Char :=
  lines.flatMap fun line => line.1 ++ ['\n']

def saidBy (lines : List Line) : List Statement :=
  lines.flatMap fun line => line.2.toList

theorem textOf_append (lines more : List Line) :
    textOf (lines ++ more) = textOf lines ++ textOf more :=
  List.flatMap_append

theorem saidBy_append (lines more : List Line) :
    saidBy (lines ++ more) = saidBy lines ++ saidBy more :=
  List.flatMap_append

theorem length_lines_le (lines : List Line) :
    lines.length ≤ (textOf lines).length := by
  induction lines with
  | nil => exact Nat.le_refl 0
  | cons line lines ih =>
      rw [textOf, List.flatMap_cons, ← textOf]
      simp only [List.length_append, List.length_cons]
      omega

theorem statements_nil (fuel : Nat) :
    statements (fuel + 1) [] = some ([], []) := by
  have noBlanks : blanks [] = some ((), []) :=
    blanks_of_ends (by simp [Reader.Ends])
  have noComment : comment [] = some ((), []) :=
    comment_of_not_mark (by simp)
  have noBreak : skipsBreak [] = some (false, []) := rfl
  simp [statements, statement?, noBlanks, noComment, noBreak]

/-- A text of lines is read as what they say, one after the other. -/
theorem statements_lines {lines : List Line}
    (each : ∀ line ∈ lines, IsLine line.1 line.2) {fuel : Nat}
    (enough : lines.length < fuel) :
    statements fuel (textOf lines) = some (saidBy lines, []) := by
  induction lines generalizing fuel with
  | nil =>
      obtain ⟨fuel, rfl⟩ : ∃ more, fuel = more + 1 := ⟨fuel - 1, by omega⟩
      exact statements_nil fuel
  | cons line lines ih =>
      rw [List.length_cons] at enough
      obtain ⟨fuel, rfl⟩ : ∃ more, fuel = more + 2 := ⟨fuel - 2, by omega⟩
      have enoughLater : lines.length < fuel + 1 := by omega
      have later := ih
        (fun other member => each other (List.mem_cons_of_mem line member))
        enoughLater
      have isLine := each line List.mem_cons_self
      have text : textOf (line :: lines) =
          line.1 ++ '\n' :: textOf lines := by
        simp [textOf]
      rw [text, isLine, later]
      rfl

end Toml

end ScreenFlow
