/-!
# Named values

Files of a folder, entries of a tree and entries of a document are all lists of
named values, in which a value takes the place of the one with its name or
stands at the end.
-/

namespace ScreenFlow

/-- The list with a value under a name, in the place of the one that had it. -/
def replaced {Value : Type} (name : String) (value : Value) :
    List (String × Value) → List (String × Value)
  | [] => [(name, value)]
  | entry :: rest =>
      if entry.1 = name then (name, value) :: rest
      else entry :: replaced name value rest

section

variable {Value : Type} {name other : String} {entries : List (String × Value)}

theorem lookup_replaced_self (name : String) (value : Value)
    (entries : List (String × Value)) :
    (replaced name value entries).lookup name = some value := by
  induction entries with
  | nil => simp [replaced]
  | cons entry rest ih =>
      obtain ⟨key, held⟩ := entry
      by_cases same : key = name
      · simp [replaced, same]
      · simpa [replaced, same, List.lookup_cons,
          beq_false_of_ne (Ne.symm same)] using ih

theorem lookup_replaced_of_ne (differ : other ≠ name) (value : Value)
    (entries : List (String × Value)) :
    (replaced name value entries).lookup other = entries.lookup other := by
  induction entries with
  | nil => simp [replaced, List.lookup_cons, beq_false_of_ne differ]
  | cons entry rest ih =>
      obtain ⟨key, held⟩ := entry
      by_cases same : key = name
      · simp [replaced, same, List.lookup_cons, beq_false_of_ne differ]
      · simp [replaced, same, List.lookup_cons, ih]

theorem replaced_replaced (name : String) (first second : Value)
    (entries : List (String × Value)) :
    replaced name second (replaced name first entries) =
      replaced name second entries := by
  induction entries with
  | nil => simp [replaced]
  | cons entry rest ih =>
      by_cases same : entry.1 = name <;> simp [replaced, same, ih]

theorem replaced_of_lookup {value : Value}
    (found : entries.lookup name = some value) :
    replaced name value entries = entries := by
  induction entries with
  | nil => simp at found
  | cons entry rest ih =>
      obtain ⟨key, held⟩ := entry
      by_cases same : key = name
      · subst same
        have isHeld : held = value := by simpa using found
        simp [replaced, isHeld]
      · rw [List.lookup_cons, beq_false_of_ne (Ne.symm same)] at found
        simp [replaced, same, ih found]

theorem replaced_of_not_mem (isNew : name ∉ entries.map Prod.fst)
    (value : Value) :
    replaced name value entries = entries ++ [(name, value)] := by
  induction entries with
  | nil => rfl
  | cons entry rest ih =>
      simp only [List.map_cons, List.mem_cons, not_or] at isNew
      simp [replaced, Ne.symm isNew.1, ih isNew.2]

theorem replaced_last (isNew : name ∉ entries.map Prod.fst)
    (first second : Value) :
    replaced name second (entries ++ [(name, first)]) =
      entries ++ [(name, second)] := by
  rw [← replaced_of_not_mem isNew first, replaced_replaced,
    replaced_of_not_mem isNew]

theorem lookup_of_not_mem (isNew : name ∉ entries.map Prod.fst) :
    entries.lookup name = none := by
  rw [List.lookup_eq_none_iff]
  intro entry member
  have differ : name ≠ entry.1 := by
    rintro rfl
    exact isNew (List.mem_map_of_mem member)
  simpa using differ

end

end ScreenFlow
