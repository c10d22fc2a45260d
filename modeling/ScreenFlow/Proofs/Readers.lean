import ScreenFlow.Text.Reader
import Mathlib.Data.List.Basic

/-!
# Readers on the text they expect

What each of the small readers does with a text of which the front is known.
-/

namespace ScreenFlow

namespace Reader

variable {Value Next : Type}

/-! ## Composition -/

@[simp]
theorem bind_apply (reader : Reader Value) (next : Value → Reader Next)
    (text : List Char) :
    (reader >>= next) text =
      (reader text).bind fun read => next read.1 read.2 := by
  rfl

@[simp]
theorem pure_apply (value : Value) (text : List Char) :
    (pure value : Reader Value) text = some (value, text) := by
  rfl

@[simp]
theorem map_apply (result : Value → Next) (reader : Reader Value)
    (text : List Char) :
    (result <$> reader) text =
      (reader text).map fun read => (result read.1, read.2) := by
  show (reader text >>= fun read => pure (result read.1, read.2)) = _
  cases reader text <;> rfl

@[simp]
theorem discard_apply (reader : Reader Value) (text : List Char) :
    (discard reader : Reader PUnit) text =
      (reader text).map fun read => (PUnit.unit, read.2) :=
  map_apply (fun _ => PUnit.unit) reader text

@[simp]
theorem failure_apply (text : List Char) :
    (failure : Reader Value) text = none := by
  rfl

@[simp]
theorem orElse_apply (reader other : Reader Value) (text : List Char) :
    (reader <|> other) text = (reader text).or (other text) := by
  show ((reader text) <|> (other text)) = _
  cases reader text <;> rfl

@[simp]
theorem lift_apply (value : Option Value) (text : List Char) :
    (liftM value : Reader Value) text =
      value.map fun value => (value, text) := by
  cases value <;> rfl

/-! ## Single characters -/

@[simp]
theorem peek?_apply (text : List Char) :
    peek? text = some (text.head?, text) := by
  rfl

@[simp]
theorem atEnd_apply (text : List Char) :
    atEnd text = some (text.isEmpty, text) := by
  rfl

@[simp]
theorem require_apply (condition : Bool) (text : List Char) :
    require condition text = if condition then some ((), text) else none := by
  cases condition <;> rfl

@[simp]
theorem exactly_cons (expected first : Char) (rest : List Char) :
    exactly expected (first :: rest) =
      if first = expected then some ((), rest) else none := by
  rfl

@[simp]
theorem skips_nil (expected : Char) :
    skips expected [] = some (false, []) := by
  rfl

@[simp]
theorem skips_cons (expected first : Char) (rest : List Char) :
    skips expected (first :: rest) =
      if first = expected then some (true, rest)
      else some (false, first :: rest) := by
  rfl

/-! ## Runs -/

/-- A run ends where the text ends or goes on with another character. -/
def Ends (isMember : Char → Bool) (rest : List Char) : Prop :=
  ∀ char ∈ rest.head?, ¬isMember char

theorem run_append {isMember : Char → Bool} {taken rest : List Char}
    (members : ∀ char ∈ taken, isMember char) (ends : Ends isMember rest) :
    run isMember (taken ++ rest) = some (taken, rest) := by
  have first : rest.takeWhile isMember = [] := by
    cases rest with
    | nil => rfl
    | cons char rest => simp [ends char rfl]
  have last : rest.dropWhile isMember = rest := by
    cases rest with
    | nil => rfl
    | cons char rest => simp [ends char rfl]
  rw [run, List.takeWhile_append_of_pos members,
    List.dropWhile_append_of_pos members, first, last, List.append_nil]

theorem run1_append {isMember : Char → Bool} {taken rest : List Char}
    (isSome : taken ≠ []) (members : ∀ char ∈ taken, isMember char)
    (ends : Ends isMember rest) :
    run1 isMember (taken ++ rest) = some (taken, rest) := by
  simp [run1, run_append members ends, isSome]

theorem skipRun_append {isMember : Char → Bool} {taken rest : List Char}
    (members : ∀ char ∈ taken, isMember char) (ends : Ends isMember rest) :
    skipRun isMember (taken ++ rest) = some ((), rest) := by
  simp [skipRun, run_append members ends]

end Reader

end ScreenFlow
