import Mathlib.Data.Set.Lattice
import ScreenFlow.Proofs.Fields
import ScreenFlow.Settings.Sources

/-!
# What a placement leaves alone

A value that is laid over a tree at the place of a setting is found there, and
every other setting is still found where it was.  A value that is laid at any
other place leaves all settings where they were, as long as it does not take
the place of a section.
-/

namespace ScreenFlow

namespace ValueTree

/-! ## Entries of a table -/

@[simp]
theorem get?_set_self (tree : ValueTree) (name : String) (value : ValueTree) :
    (tree.set name value).get? name = some value := by
  cases tree with
  | table entries =>
      exact lookup_replaced_self name value entries
  | _ => simp [set, get?]

theorem get?_set_of_ne {name other : String} (differ : other ≠ name)
    (tree value : ValueTree) :
    (tree.set name value).get? other = tree.get? other := by
  cases tree with
  | table entries =>
      exact lookup_replaced_of_ne differ value entries
  | _ => simp [set, get?, List.lookup_cons, beq_false_of_ne differ]

@[simp]
theorem set_set (tree : ValueTree) (name : String) (first second : ValueTree) :
    (tree.set name first).set name second = tree.set name second := by
  cases tree with
  | table entries => simp [set, replaced_replaced]
  | _ => simp [set, replaced]

theorem place_in_table {tree : ValueTree} {name : String}
    {fields : List (String × ValueTree)}
    (here : tree.get? name = some (.table fields)) (incoming : ValueTree)
    (field : String) (rest : List Step) :
    tree.place incoming (.name name :: .name field :: rest) =
      tree.set name (.table (replaced field
        (((fields.lookup field).getD
          (if rest.isEmpty then empty else .unset)).place incoming rest)
        fields)) := by
  rw [place, here, Option.getD_some, place, get?]
  rfl

theorem set_of_get? {tree value : ValueTree} {name : String}
    (found : tree.get? name = some value) : tree.set name value = tree := by
  obtain ⟨entries, rfl⟩ := exists_table_of_get? found
  exact congrArg table (replaced_of_lookup found)

/-! ## Sections -/

theorem find?_set_of_ne {setting : Setting} {name : String}
    (differ : setting.sectionName ≠ name) (tree value : ValueTree) :
    setting.find? (tree.set name value) = setting.find? tree := by
  rw [Setting.find?, get?_set_of_ne differ, Setting.find?]

theorem find?_set_section (setting : Setting) (tree : ValueTree)
    (fields : List (String × ValueTree)) :
    setting.find? (tree.set setting.sectionName (.table fields)) =
      fields.lookup setting.name := by
  rw [Setting.find?, get?_set_self, Option.bind_some, get?]

namespace HasSections

variable {tree : ValueTree}

theorem set_of_not_section (sections : tree.HasSections) {name : String}
    (isOther : ∀ setting : Setting, setting.sectionName ≠ name)
    (value : ValueTree) : (tree.set name value).HasSections := by
  intro setting
  rw [get?_set_of_ne (isOther setting)]
  exact sections setting

theorem set_table (sections : tree.HasSections) (name : String)
    (fields : List (String × ValueTree)) :
    (tree.set name (.table fields)).HasSections := by
  intro setting
  by_cases here : setting.sectionName = name
  · exact ⟨fields, by rw [here, get?_set_self]⟩
  · rw [get?_set_of_ne here]
    exact sections setting

end HasSections

end ValueTree

/-! ## Values at other places -/

/-- A path that leads neither to a section nor to a setting, nor into one. -/
inductive ValueTree.IsForeign : List ValueTree.Step → Prop where
  | outside {name : String} (rest : List ValueTree.Step)
      (isOther : ∀ setting : Setting, setting.sectionName ≠ name) :
      IsForeign (.name name :: rest)
  | within {table name : String} (rest : List ValueTree.Step)
      (isOther : ∀ setting : Setting,
        setting.sectionName = table → setting.name ≠ name) :
      IsForeign (.name table :: .name name :: rest)

namespace ValueTree.HasSections

variable {tree : ValueTree}

/-- What a path to no setting leads to is set outside of the sections, or in a
section under another name. -/
theorem place_isForeign_cases (sections : tree.HasSections)
    {path : List ValueTree.Step} (isForeign : ValueTree.IsForeign path)
    (incoming : ValueTree) :
    (∃ name value, tree.place incoming path = tree.set name value ∧
      ∀ setting : Setting, setting.sectionName ≠ name) ∨
    ∃ (owner : Setting) (fields : List (String × ValueTree)) (name : String)
      (value : ValueTree),
      tree.get? owner.sectionName = some (.table fields) ∧
        tree.place incoming path =
          tree.set owner.sectionName (.table (replaced name value fields)) ∧
        ∀ setting : Setting, setting.sectionName = owner.sectionName →
          setting.name ≠ name := by
  cases isForeign with
  | outside rest isOther => exact .inl ⟨_, _, by rw [place], isOther⟩
  | @within table name rest isOther =>
      by_cases isSection : ∃ owner : Setting, owner.sectionName = table
      · obtain ⟨owner, rfl⟩ := isSection
        obtain ⟨fields, here⟩ := sections owner
        exact .inr ⟨owner, fields, name, _, here,
          place_in_table here incoming name rest, isOther⟩
      · refine .inl ⟨_, _, by rw [place], fun setting same => ?_⟩
        exact isSection ⟨setting, same⟩

theorem place_of_isForeign (sections : tree.HasSections)
    {path : List ValueTree.Step} (isForeign : ValueTree.IsForeign path)
    (incoming : ValueTree) : (tree.place incoming path).HasSections := by
  rcases sections.place_isForeign_cases isForeign incoming with
    ⟨name, value, placed, isOther⟩ | ⟨owner, fields, name, value, -, placed, -⟩
  · rw [placed]
    exact sections.set_of_not_section isOther value
  · rw [placed]
    exact sections.set_table _ _

theorem find?_place_of_isForeign (sections : tree.HasSections)
    {path : List ValueTree.Step} (isForeign : ValueTree.IsForeign path)
    (incoming : ValueTree) (setting : Setting) :
    setting.find? (tree.place incoming path) = setting.find? tree := by
  rcases sections.place_isForeign_cases isForeign incoming with
    ⟨name, value, placed, isOther⟩ |
    ⟨owner, fields, name, value, here, placed, isOther⟩
  · rw [placed, find?_set_of_ne (isOther setting)]
  · rw [placed]
    by_cases same : setting.sectionName = owner.sectionName
    · rw [← same, find?_set_section,
        lookup_replaced_of_ne (isOther setting same), Setting.find?, same, here,
        Option.bind_some, get?]
    · exact find?_set_of_ne same tree _

/-! ## Values at the places of settings -/

theorem exists_place_path (sections : tree.HasSections) (setting : Setting)
    (incoming : ValueTree) :
    ∃ fields, tree.get? setting.sectionName = some (.table fields) ∧
      tree.place incoming setting.path =
        tree.set setting.sectionName
          (.table (replaced setting.name
            (((setting.find? tree).getD empty).overlay incoming) fields)) := by
  obtain ⟨fields, here⟩ := sections setting
  refine ⟨fields, here, ?_⟩
  rw [Setting.path, place_in_table here, place, Setting.find?, here]
  rfl

/-- A value at the place of a setting changes this setting only. -/
theorem place_path (sections : tree.HasSections) (setting : Setting)
    (incoming : ValueTree) :
    (tree.place incoming setting.path).HasSections := by
  obtain ⟨fields, -, placed⟩ := sections.exists_place_path setting incoming
  rw [placed]
  exact sections.set_table _ _

theorem find?_place_path_self (sections : tree.HasSections)
    (setting : Setting) (incoming : ValueTree) :
    setting.find? (tree.place incoming setting.path) =
      some (((setting.find? tree).getD empty).overlay incoming) := by
  obtain ⟨fields, -, placed⟩ := sections.exists_place_path setting incoming
  rw [placed, find?_set_section, lookup_replaced_self]

theorem find?_place_path_of_ne (sections : tree.HasSections)
    {setting other : Setting} (differ : other ≠ setting)
    (incoming : ValueTree) :
    other.find? (tree.place incoming setting.path) = other.find? tree := by
  obtain ⟨fields, here, placed⟩ := sections.exists_place_path setting incoming
  have differs : other.name ≠ setting.name :=
    fun same => differ (Setting.eq_of_name_eq same)
  rw [placed]
  by_cases same : other.sectionName = setting.sectionName
  · rw [← same, find?_set_section, lookup_replaced_of_ne differs,
      Setting.find?, same, here, Option.bind_some, get?]
  · exact find?_set_of_ne same tree _

end ValueTree.HasSections

namespace ValueTree.Shows

variable {tree : ValueTree} {values : Setting → SettingValue}

theorem place_of_isForeign (shown : tree.Shows values)
    {path : List ValueTree.Step} (isForeign : ValueTree.IsForeign path)
    (incoming : ValueTree) : (tree.place incoming path).Shows values where
  sections := shown.hasSections.place_of_isForeign isForeign incoming
  found setting := by
    rw [shown.hasSections.find?_place_of_isForeign isForeign]
    exact shown.found setting

theorem place_path (shown : tree.Shows values) {setting : Setting}
    {said : SettingValue} (sameKind : said.kind = setting.kind) :
    (tree.place said.tree setting.path).Shows
      (Function.update values setting said) where
  sections := shown.hasSections.place_path setting said.tree
  found other := by
    by_cases isSame : other = setting
    · subst isSame
      have covered (base : ValueTree) : base.overlay said.tree = said.tree := by
        cases said <;> rfl
      rw [shown.hasSections.find?_place_path_self, covered,
        Function.update_self, ← sameKind]
      exact ⟨said.tree, rfl, SettingKind.read?_tree said⟩
    · rw [shown.hasSections.find?_place_path_of_ne isSame,
        Function.update_of_ne isSame]
      exact shown.found other

end ValueTree.Shows

/-! ## Changes that lay what is given -/

/-- Whatever a tree shows, the changed tree shows for the settings of a set
what is given for them, and for all others what the tree showed. -/
def ValueTree.Lays (given : Setting → Option SettingValue)
    (touched : Set Setting) (tree changed : ValueTree) : Prop :=
  ∀ values, tree.Shows values →
    ∃ shown, changed.Shows shown ∧
      (∀ setting ∈ touched, given setting = some (shown setting)) ∧
      ∀ setting ∉ touched, shown setting = values setting

namespace ValueTree.Lays

variable {given : Setting → Option SettingValue}

theorem refl (tree : ValueTree) : Lays given ∅ tree tree :=
  fun values shown => ⟨values, shown, by simp, fun _ _ => rfl⟩

theorem trans {tree between changed : ValueTree} {earlier later : Set Setting}
    (first : Lays given earlier tree between)
    (second : Lays given later between changed) :
    Lays given (earlier ∪ later) tree changed := by
  intro values shown
  obtain ⟨showing, isShown, isGiven, isKept⟩ := first values shown
  obtain ⟨showing', isShown', isGiven', isKept'⟩ := second showing isShown
  refine ⟨showing', isShown', ?_, ?_⟩
  · intro setting isTouched
    by_cases isLater : setting ∈ later
    · exact isGiven' setting isLater
    · rw [isKept' setting isLater]
      exact isGiven setting (isTouched.resolve_right isLater)
  · intro setting isUntouched
    rw [Set.mem_union, not_or] at isUntouched
    rw [isKept' setting isUntouched.2, isKept setting isUntouched.1]

theorem foldl {Item : Type} {step : ValueTree → Item → ValueTree}
    {touches : Item → Set Setting} {items : List Item}
    (each : ∀ item ∈ items, ∀ tree,
      Lays given (touches item) tree (step tree item)) (tree : ValueTree) :
    Lays given {setting | ∃ item ∈ items, setting ∈ touches item} tree
      (items.foldl step tree) := by
  induction items generalizing tree with
  | nil => simpa using refl tree
  | cons item rest ih =>
      have first := each item List.mem_cons_self tree
      have second := ih
        (fun later member => each later (List.mem_cons_of_mem item member))
        (step tree item)
      simpa [Set.ofPred_or] using first.trans second

/-- A change that lays all that is given leaves the rest as it was. -/
theorem shows_getD {tree changed : ValueTree} {values : Setting → SettingValue}
    (lays : Lays given {setting | (given setting).isSome} tree changed)
    (shown : tree.Shows values) :
    changed.Shows fun setting => (given setting).getD (values setting) := by
  obtain ⟨showing, isShown, isGiven, isKept⟩ := lays values shown
  have same :
      showing = fun setting => (given setting).getD (values setting) := by
    funext setting
    by_cases isSome : (given setting).isSome
    · rw [isGiven setting isSome, Option.getD_some]
    · rw [isKept setting isSome, Option.not_isSome_iff_eq_none.mp isSome,
        Option.getD_none]
  exact same ▸ isShown

theorem of_isForeign {path : List ValueTree.Step}
    (isForeign : ValueTree.IsForeign path) (incoming tree : ValueTree) :
    Lays given ∅ tree (tree.place incoming path) :=
  fun values shown =>
    ⟨values, shown.place_of_isForeign isForeign incoming, by simp,
      fun _ _ => rfl⟩

theorem of_path {setting : Setting} {said : SettingValue}
    (isGiven : given setting = some said) (sameKind : said.kind = setting.kind)
    (tree : ValueTree) :
    Lays given {setting} tree (tree.place said.tree setting.path) := by
  intro values shown
  refine ⟨_, shown.place_path sameKind, ?_, ?_⟩
  · rintro _ rfl
    rw [isGiven, Function.update_self]
  · intro other differ
    exact Function.update_of_ne differ _ _

end ValueTree.Lays

end ScreenFlow
