import Mathlib.Data.Set.Lattice
import Mathlib.Logic.Function.Basic
import ScreenFlow.Proofs.Meanings
import ScreenFlow.Proofs.Placing
import ScreenFlow.Proofs.Sections

/-!
# Where each setting comes from

A file and variables may each say any of the settings.  What a setting is in
the end depends on what is said about itself only: the variable counts before
the file, and the file before the default.
-/

namespace ScreenFlow

namespace Settings

/-! ## Files -/

/-- An entry of a file is a section and gives a setting there.  The case of
the names does not count. -/
def Gives (entry : String × ValueTree) (setting : Setting)
    (value : ValueTree) : Prop :=
  ∃ fields key, entry.2 = .table fields ∧ (key, value) ∈ fields ∧
    entry.1.toLower = setting.sectionName ∧ key.toLower = setting.name

/-- The entries of a file say what is given for the settings, each with a value
of its own kind.  There may be anything else beside the settings. -/
structure EntriesSay (entries : List (String × ValueTree))
    (given : Setting → Option SettingValue) : Prop where
  placed : ∀ entry ∈ entries,
    (∃ fields, entry.2 = .table fields ∧
      ∃ setting : Setting, entry.1.toLower = setting.sectionName) ∨
    ValueTree.IsForeign (ValueTree.pathOf entry.1.toLower)
  said : ∀ entry ∈ entries, ∀ setting value, Gives entry setting value →
    ∃ said, given setting = some said ∧ said.kind = setting.kind ∧
      value = said.tree
  complete : ∀ setting, (given setting).isSome →
    ∃ entry ∈ entries, ∃ value, Gives entry setting value

/-- A file, if there is one, says what is given for the settings. -/
inductive FileSays :
    Option String → (Setting → Option SettingValue) → Prop where
  | absent : FileSays none fun _ => none
  | present {text : String} {entries : List (String × ValueTree)}
      {given : Setting → Option SettingValue}
      (read : Toml.read? text = some entries)
      (say : EntriesSay entries given) : FileSays (some text) given

theorem pathOf_sectionName (setting : Setting) :
    ValueTree.pathOf setting.sectionName = [.name setting.sectionName] := by
  cases setting <;> decide +kernel

theorem not_isForeign_path (setting : Setting) :
    ¬ ValueTree.IsForeign setting.path := by
  intro isForeign
  cases isForeign with
  | outside rest isOther => exact isOther setting rfl
  | within rest isOther => exact isOther setting rfl rfl

end Settings

namespace ValueTree

/-- A table that is laid over a section is laid over it field by field. -/
theorem place_table {tree : ValueTree} {name : String}
    {base : List (String × ValueTree)}
    (here : tree.get? name = some (.table base))
    (fields : List (String × ValueTree)) :
    tree.place (.table fields) [.name name] =
      fields.foldl
        (fun tree field =>
          tree.place field.2 [.name name, .name field.1.toLower])
        tree := by
  have laid : tree.place (.table fields) [.name name] =
      tree.set name (overlayEntries (.table base) fields) := by
    rw [place, here, Option.getD_some, place, overlay]
  rw [laid]
  clear laid
  induction fields generalizing tree base with
  | nil => rw [overlayEntries, set_of_get? here, List.foldl_nil]
  | cons field rest ih =>
      obtain ⟨key, value⟩ := field
      let changed := replaced key.toLower
        ((((table base).get? key.toLower).getD empty).overlay value) base
      have isPlaced :
          tree.place value [.name name, .name key.toLower] =
            tree.set name (.table changed) := by
        rw [place, here, Option.getD_some, place, place]
        rfl
      have isLaid :
          overlayEntries (.table base) ((key, value) :: rest) =
            overlayEntries (.table changed) rest := by
        rw [overlayEntries]
        rfl
      rw [List.foldl_cons, isPlaced, isLaid,
        ← ih (get?_set_self tree name (.table changed)), set_set]

end ValueTree

namespace Settings

open ValueTree (Lays IsForeign)

section

variable {entries : List (String × ValueTree)}
  {given : Setting → Option SettingValue}

theorem EntriesSay.lays_field (say : EntriesSay entries given)
    {entry : String × ValueTree} (member : entry ∈ entries)
    {fields : List (String × ValueTree)} (isTable : entry.2 = .table fields)
    {field : String × ValueTree} (isField : field ∈ fields)
    (tree : ValueTree) :
    Lays given
      {setting | entry.1.toLower = setting.sectionName ∧
        field.1.toLower = setting.name}
      tree
      (tree.place field.2 [.name entry.1.toLower, .name field.1.toLower]) := by
  by_cases isSetting : ∃ setting : Setting,
      entry.1.toLower = setting.sectionName ∧ field.1.toLower = setting.name
  · obtain ⟨setting, inSection, named⟩ := isSetting
    obtain ⟨said, isGiven, sameKind, isSaid⟩ :=
      say.said entry member setting field.2
        ⟨fields, field.1, isTable, isField, inSection, named⟩
    have alone : {other : Setting | entry.1.toLower = other.sectionName ∧
        field.1.toLower = other.name} = {setting} := by
      ext other
      constructor
      · exact fun same =>
          Setting.eq_of_name_eq (same.2.symm.trans named)
      · rintro rfl
        exact ⟨inSection, named⟩
    rw [alone, isSaid, inSection, named]
    exact Lays.of_path isGiven sameKind tree
  · have nothing : {setting : Setting |
        entry.1.toLower = setting.sectionName ∧
          field.1.toLower = setting.name} = ∅ :=
      Set.eq_empty_of_forall_notMem fun setting same =>
        isSetting ⟨setting, same⟩
    rw [nothing]
    refine Lays.of_isForeign (IsForeign.within [] ?_) field.2 tree
    exact fun setting inSection named =>
      isSetting ⟨setting, inSection.symm, named.symm⟩

theorem EntriesSay.lays_entry (say : EntriesSay entries given)
    {entry : String × ValueTree} (member : entry ∈ entries)
    (tree : ValueTree) :
    Lays given {setting | ∃ value, Gives entry setting value} tree
      (layEntry tree entry) := by
  rcases say.placed entry member with
    ⟨fields, isTable, owner, isOwner⟩ | isForeign
  · have touched : {setting | ∃ value, Gives entry setting value} =
        {setting | ∃ field ∈ fields,
          entry.1.toLower = setting.sectionName ∧
            field.1.toLower = setting.name} := by
      ext setting
      constructor
      · rintro ⟨value, held, key, isHeld, isField, inSection, named⟩
        cases isTable.symm.trans isHeld
        exact ⟨(key, value), isField, inSection, named⟩
      · rintro ⟨field, isField, inSection, named⟩
        exact ⟨field.2, fields, field.1, isTable, isField, inSection, named⟩
    intro values shown
    obtain ⟨base, here⟩ := shown.sections owner
    rw [← isOwner] at here
    rw [touched, layEntry, isTable, isOwner, pathOf_sectionName, ← isOwner,
      ValueTree.place_table here]
    exact Lays.foldl
      (fun field isField => say.lays_field member isTable isField)
      tree values shown
  · have nothing : {setting | ∃ value, Gives entry setting value} = ∅ := by
      refine Set.eq_empty_of_forall_notMem ?_
      rintro setting ⟨_, _, _, _, _, inSection, _⟩
      rw [inSection, pathOf_sectionName] at isForeign
      cases isForeign with
      | outside rest isOther => exact isOther setting rfl
    rw [nothing]
    exact Lays.of_isForeign isForeign entry.2 tree

/-- A file lays what it says over any tree. -/
theorem EntriesSay.lays (say : EntriesSay entries given) (tree : ValueTree) :
    Lays given {setting | (given setting).isSome} tree
      (entries.foldl layEntry tree) := by
  have touched : {setting | (given setting).isSome} =
      {setting | ∃ entry ∈ entries, ∃ value, Gives entry setting value} := by
    ext setting
    constructor
    · exact say.complete setting
    · rintro ⟨entry, member, value, gives⟩
      obtain ⟨said, isGiven, -⟩ := say.said entry member setting value gives
      simp [isGiven]
  rw [touched]
  exact Lays.foldl (fun entry member => say.lays_entry member) tree

end

/-! ## Variables -/

/-- The name of the variable for a setting, in lower case. -/
def variableName (setting : Setting) : String :=
  "wallet_flows__" ++ setting.sectionName ++ "__" ++ setting.name

/-- A text says a value of a setting: a number in decimal digits, a truth value
in any case, or a text that can be taken for neither. -/
inductive Written : SettingValue → String → Prop where
  | text {text : String} (notTruth : ∀ value, text.toLower ≠ truthText value)
      (notInteger : Numeral.integer? text = none)
      (notReal : Numeral.real? text = none) : Written (.text text) text
  | truth {text : String} {value : Bool}
      (isTruth : text.toLower = truthText value) : Written (.truth value) text
  | number {text : String} {value : UInt64} (isSome : text ≠ "")
      (isNumber : ofDigits? 10 text.toList = some value.toNat)
      (isBounded : value.toNat ≤ Numeral.greatestInteger) :
      Written (.number value) text

/-- Variables say what is given for the settings, each with a value of its own
kind.  There may be any other variables beside them. -/
structure VariablesSay (environment : Environment)
    (given : Setting → Option SettingValue) : Prop where
  placed : ∀ entry ∈ environment,
    (∃ setting, entry.1.toLower = variableName setting) ∨
    ∀ path, placeOf? entry.1 = some path → IsForeign path
  said : ∀ entry ∈ environment, ∀ setting,
    entry.1.toLower = variableName setting →
    ∃ said, given setting = some said ∧ said.kind = setting.kind ∧
      Written said entry.2
  complete : ∀ setting, (given setting).isSome →
    ∃ entry ∈ environment, entry.1.toLower = variableName setting

theorem variableName_injective : Function.Injective variableName := by
  intro setting other same
  revert same
  cases setting <;> cases other <;> decide +kernel

theorem placeOf?_variableName {name : String} {setting : Setting}
    (named : name.toLower = variableName setting) :
    placeOf? name = some setting.path := by
  unfold placeOf?
  rw [named]
  cases setting <;> decide +kernel

theorem valueOf_of_written {said : SettingValue} {text : String}
    (written : Written said text) : valueOf text = said.tree := by
  cases written with
  | text notTruth notInteger notReal =>
      exact valueOf_of_plain notTruth notInteger notReal
  | truth isTruth => exact valueOf_of_truth isTruth
  | number isSome isNumber isBounded =>
      have read := Numeral.integer?_of_digits isSome isNumber
      rw [if_pos isBounded] at read
      exact valueOf_of_integer read

section

variable {environment : Environment} {given : Setting → Option SettingValue}

theorem VariablesSay.lays_variable (say : VariablesSay environment given)
    {entry : String × String} (member : entry ∈ environment)
    (tree : ValueTree) :
    Lays given {setting | entry.1.toLower = variableName setting} tree
      (layVariable tree entry) := by
  rcases say.placed entry member with ⟨setting, named⟩ | isForeign
  · obtain ⟨said, isGiven, sameKind, written⟩ :=
      say.said entry member setting named
    have alone :
        {other | entry.1.toLower = variableName other} = {setting} := by
      ext other
      constructor
      · exact fun same => variableName_injective (same.symm.trans named)
      · rintro rfl
        exact named
    rw [alone, layVariable, placeOf?_variableName named,
      valueOf_of_written written]
    exact Lays.of_path isGiven sameKind tree
  · have nothing :
        {setting | entry.1.toLower = variableName setting} = ∅ :=
      Set.eq_empty_of_forall_notMem fun setting named =>
        not_isForeign_path setting (isForeign _ (placeOf?_variableName named))
    rw [nothing, layVariable]
    cases here : placeOf? entry.1 with
    | none => exact Lays.refl tree
    | some path => exact Lays.of_isForeign (isForeign path here) _ tree

theorem VariablesSay.lays (say : VariablesSay environment given)
    (tree : ValueTree) :
    Lays given {setting | (given setting).isSome} tree
      (environment.foldl layVariable tree) := by
  have touched : {setting | (given setting).isSome} =
      {setting | ∃ entry ∈ environment,
        entry.1.toLower = variableName setting} := by
    ext setting
    constructor
    · exact say.complete setting
    · rintro ⟨entry, member, named⟩
      obtain ⟨said, isGiven, -⟩ := say.said entry member setting named
      simp [isGiven]
  rw [touched]
  exact Lays.foldl (fun entry member => say.lays_variable member) tree

end

/-! ## Sources entry by entry -/

section

variable {given : Setting → Option SettingValue} {setting other : Setting}

theorem update_of_given (unsaid : given setting = none)
    {said : SettingValue} (isGiven : given other = some said)
    (value : SettingValue) :
    Function.update given setting (some value) other = some said := by
  have differ : other ≠ setting := by
    rintro rfl
    cases unsaid.symm.trans isGiven
  rwa [Function.update_of_ne differ]

theorem isSome_update {value : SettingValue} (isSome :
      (Function.update given setting (some value) other).isSome) :
    other = setting ∨ (given other).isSome := by
  by_cases same : other = setting
  · exact .inl same
  · rw [Function.update_of_ne same] at isSome
    exact .inr isSome

variable {entries : List (String × ValueTree)}

theorem EntriesSay.nil : EntriesSay [] fun _ => none :=
  ⟨by simp, by simp, by simp⟩

theorem EntriesSay.cons_section (say : EntriesSay entries given)
    {name : String}
    (isSection : ∃ setting : Setting, name.toLower = setting.sectionName) :
    EntriesSay ((name, .table []) :: entries) given where
  placed := List.forall_mem_cons.mpr ⟨.inl ⟨[], rfl, isSection⟩, say.placed⟩
  said := by
    refine List.forall_mem_cons.mpr ⟨?_, say.said⟩
    rintro other value ⟨fields, key, ⟨⟩, absent, -⟩
    cases absent
  complete := by
    intro other isSome
    obtain ⟨entry, member, gives⟩ := say.complete other isSome
    exact ⟨entry, List.mem_cons_of_mem _ member, gives⟩

/-- The first section of a file says what it says with one field more. -/
theorem EntriesSay.cons_field {name key : String}
    {fields : List (String × ValueTree)}
    (say : EntriesSay ((name, .table fields) :: entries) given)
    (value : SettingValue) (inSection : name.toLower = setting.sectionName)
    (named : key.toLower = setting.name)
    (sameKind : value.kind = setting.kind) (unsaid : given setting = none) :
    EntriesSay ((name, .table ((key, value.tree) :: fields)) :: entries)
      (Function.update given setting (some value)) where
  placed := List.forall_mem_cons.mpr
    ⟨.inl ⟨_, rfl, setting, inSection⟩, (List.forall_mem_cons.mp say.placed).2⟩
  said := by
    obtain ⟨first, later⟩ := List.forall_mem_cons.mp say.said
    refine List.forall_mem_cons.mpr ⟨?_, ?_⟩
    · rintro other tree ⟨_, found, ⟨⟩, member, isOwner, isNamed⟩
      rcases List.mem_cons.mp member with same | member
      · obtain ⟨rfl, rfl⟩ := Prod.mk.inj same
        obtain rfl := Setting.eq_of_name_eq (isNamed.symm.trans named)
        exact ⟨value, Function.update_self .., sameKind, rfl⟩
      · obtain ⟨said, isGiven, facts⟩ :=
          first other tree ⟨fields, _, rfl, member, isOwner, isNamed⟩
        exact ⟨said, update_of_given unsaid isGiven _, facts⟩
    · intro entry member other tree gives
      obtain ⟨said, isGiven, facts⟩ := later entry member other tree gives
      exact ⟨said, update_of_given unsaid isGiven _, facts⟩
  complete := by
    intro other isSome
    rcases isSome_update isSome with rfl | isSome
    · exact ⟨_, List.mem_cons_self, _, _, key, rfl, List.mem_cons_self,
        inSection, named⟩
    · obtain ⟨entry, member, tree, gives⟩ := say.complete other isSome
      rcases List.mem_cons.mp member with rfl | member
      · obtain ⟨_, found, ⟨⟩, isField, places⟩ := gives
        exact ⟨_, List.mem_cons_self, tree, _, found, rfl,
          List.mem_cons_of_mem _ isField, places⟩
      · exact ⟨entry, List.mem_cons_of_mem _ member, tree, gives⟩

variable {environment : Environment} {name : String}

theorem VariablesSay.nil : VariablesSay [] fun _ => none :=
  ⟨by simp, by simp, by simp⟩

theorem VariablesSay.cons_foreign (say : VariablesSay environment given)
    (isForeign : ∀ path, placeOf? name = some path → IsForeign path)
    (text : String) :
    VariablesSay ((name, text) :: environment) given where
  placed := List.forall_mem_cons.mpr ⟨.inr isForeign, say.placed⟩
  said := by
    refine List.forall_mem_cons.mpr ⟨?_, say.said⟩
    intro other named
    exact absurd (isForeign _ (placeOf?_variableName named))
      (not_isForeign_path other)
  complete := by
    intro other isSome
    obtain ⟨entry, member, named⟩ := say.complete other isSome
    exact ⟨entry, List.mem_cons_of_mem _ member, named⟩

theorem VariablesSay.cons_variable (say : VariablesSay environment given)
    (named : name.toLower = variableName setting) {text : String}
    {value : SettingValue} (written : Written value text) (sameKind : value.kind = setting.kind)
    (unsaid : given setting = none) :
    VariablesSay ((name, text) :: environment)
      (Function.update given setting (some value)) where
  placed := List.forall_mem_cons.mpr ⟨.inl ⟨setting, named⟩, say.placed⟩
  said := by
    refine List.forall_mem_cons.mpr ⟨?_, ?_⟩
    · intro other isOther
      cases variableName_injective (isOther.symm.trans named)
      exact ⟨value, Function.update_self .., sameKind, written⟩
    · intro entry member other isOther
      obtain ⟨said, isGiven, facts⟩ := say.said entry member other isOther
      exact ⟨said, update_of_given unsaid isGiven _, facts⟩
  complete := by
    intro other isSome
    rcases isSome_update isSome with rfl | isSome
    · exact ⟨_, List.mem_cons_self, named⟩
    · obtain ⟨entry, member, isOther⟩ := say.complete other isSome
      exact ⟨entry, List.mem_cons_of_mem _ member, isOther⟩

end

/-! ## All sources -/

/-- What a file says, laid over the defaults. -/
def fileTree? : Option String → Option ValueTree
  | none => some (toTree {})
  | some text =>
      (Toml.read? text).map fun entries =>
        entries.foldl layEntry (toTree {})

theorem load_eq (file : Option String) (environment : Environment) :
    load file environment =
      match fileTree? file with
      | none => .error .malformedFile
      | some tree =>
          match ofTree? (environment.foldl layVariable tree) with
          | some settings => .ok settings
          | none => .error .unusableValue := by
  cases file with
  | none => rfl
  | some text =>
      cases isRead : Toml.read? text <;>
      · simp only [load, fileTree?, Option.map_some, isRead]
        rfl

theorem load_eq_ok_iff {file : Option String} {environment : Environment}
    {settings : Settings} :
    load file environment = .ok settings ↔
      ∃ tree, fileTree? file = some tree ∧
        ofTree? (environment.foldl layVariable tree) = some settings := by
  rw [load_eq]
  cases fileTree? file with
  | none => simp
  | some tree =>
      cases isRead : ofTree? (environment.foldl layVariable tree) <;>
        simp [isRead]

theorem FileSays.exists_entries {file : Option String}
    {given : Setting → Option SettingValue} (say : FileSays file given) :
    ∃ entries, EntriesSay entries given ∧
      ∀ environment,
        load file environment =
          match ofTree? (environment.foldl layVariable
              (entries.foldl layEntry (toTree {}))) with
          | some settings => .ok settings
          | none => .error .unusableValue := by
  cases say with
  | absent => exact ⟨[], ⟨by simp, by simp, by simp⟩, load_eq none⟩
  | @present text entries given read say =>
      refine ⟨entries, say, fun environment => ?_⟩
      rw [load_eq, fileTree?, read, Option.map_some]

/-- Each setting is what its variable says, or else what the file says about
it, or else what holds if nobody sets it. -/
theorem load_field_by_field {file : Option String} {environment : Environment}
    {fromFile fromVariables : Setting → Option SettingValue}
    (inFile : FileSays file fromFile)
    (inVariables : VariablesSay environment fromVariables) :
    ∃ settings, load file environment = .ok settings ∧
      ∀ setting,
        settings.get setting =
          (fromVariables setting).getD
            ((fromFile setting).getD (get {} setting)) := by
  obtain ⟨entries, say, loads⟩ := inFile.exists_entries
  have showsFile := (say.lays (toTree {})).shows_getD (shows_toTree {})
  have showsAll := (inVariables.lays _).shows_getD showsFile
  obtain ⟨settings, isRead, isGet⟩ := exists_ofTree?_eq showsAll
  refine ⟨settings, by rw [loads, isRead], fun setting => ?_⟩
  rw [isGet]

theorem load_field_by_field_polling :
    let file := "[polling]\ninterval_millis = 250\ncontinue_on_error = false\n"
    let environment : Environment :=
      [("PATH", "/bin"), ("WALLET_FLOWS__POLLING__INTERVAL_MILLIS", "300"),
        ("WALLET_FLOWS__OBSERVABILITY__LOG_LEVEL", "debug")]
    ∃ settings, load (some file) environment = .ok settings ∧
      settings.get .intervalMillis = .number 300 ∧
      settings.get .continueOnError = .truth false ∧
      settings.get .timeoutSeconds = .number 60 ∧
      settings.get .logLevel = .text "debug" ∧
      settings.get .jsonLogs = .truth false := by
  intro file environment
  let polling : Toml.Section :=
    { name := "polling"
      fields :=
        [{ name := "interval_millis"
           written := toString 250
           meant := .integer 250 },
          { name := "continue_on_error"
            written := truthText false
            meant := .bool false }] }
  have readable : polling.IsReadable := by
    refine ⟨by decide +kernel, ?_, by decide⟩
    simp only [polling, List.forall_mem_cons]
    exact ⟨⟨by decide +kernel, Toml.readsAs_number (by decide)⟩,
      ⟨by decide +kernel, Toml.readsAs_truth false⟩, by simp⟩
  have read : Toml.read? file = some [polling.table] := by
    have isText : file = "\n".intercalate ([polling].map Toml.Section.text) := by
      decide +kernel
    rw [isText]
    exact Toml.read?_sections (by simpa using readable) (by decide)
  have inSection : "polling".toLower = "polling" := by decide +kernel
  have inFile : EntriesSay [polling.table]
      (Function.update
        (Function.update (fun _ => none) .continueOnError
          (some (.truth false)))
        .intervalMillis (some (.number 250))) := by
    refine .cons_field ?_ (.number 250) inSection (by decide +kernel) rfl rfl
    refine .cons_field ?_ (.truth false) inSection (by decide +kernel) rfl rfl
    exact EntriesSay.nil.cons_section ⟨.intervalMillis, inSection⟩
  have inVariables : VariablesSay environment
      (Function.update
        (Function.update (fun _ => none) .logLevel (some (.text "debug")))
        .intervalMillis (some (.number 300))) := by
    have unplaced : placeOf? "PATH" = none := by decide +kernel
    have level : Written (.text "debug") "debug" :=
      .text (by decide +kernel) (by decide +kernel) (by decide +kernel)
    have interval : Written (.number 300) "300" :=
      .number (by decide) (by decide) (by decide)
    refine .cons_foreign ?_ (by simp [unplaced]) _
    refine .cons_variable ?_ (by decide +kernel) interval rfl rfl
    exact .cons_variable .nil (by decide +kernel) level rfl rfl
  obtain ⟨settings, loads, isGet⟩ :=
    load_field_by_field (.present read inFile) inVariables
  exact ⟨settings, loads, isGet _, isGet _, isGet _, isGet _, isGet _⟩

end Settings

end ScreenFlow
