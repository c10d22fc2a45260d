import ScreenFlow.Proofs.Choices

/-!
# Variables that override a setting

A variable for a setting overrides whatever was said about it before and
nothing else.  If some text of the variable makes the sources load, every text
does that can be read, and all other settings stay as they are.
-/

namespace ScreenFlow

/-- A path leads neither to a setting, nor into it, nor to its whole section. -/
inductive Setting.IsAside (setting : Setting) : List ValueTree.Step → Prop where
  | outside {name : String} (rest : List ValueTree.Step)
      (differ : name ≠ setting.sectionName) :
      setting.IsAside (.name name :: rest)
  | beside {name : String} (rest : List ValueTree.Step)
      (differ : name ≠ setting.name) :
      setting.IsAside (.name setting.sectionName :: .name name :: rest)

theorem Setting.isAside_path {setting other : Setting}
    (differ : other ≠ setting) : setting.IsAside other.path := by
  have differs : other.name ≠ setting.name :=
    fun same => differ (Setting.eq_of_name_eq same)
  by_cases same : other.sectionName = setting.sectionName
  · rw [Setting.path, same]
    exact .beside [] differs
  · exact .outside _ same

namespace ValueTree

/-- A tree holds a value in the place of a setting, and anywhere else what
another tree holds.  Both have a table for the section of the setting. -/
structure Overrides (setting : Setting) (value tree changed : ValueTree) :
    Prop where
  outside : ∀ name, name ≠ setting.sectionName →
    changed.get? name = tree.get? name
  inside : ∃ fields fields',
    tree.get? setting.sectionName = some (.table fields) ∧
      changed.get? setting.sectionName = some (.table fields') ∧
      (∀ name, name ≠ setting.name →
        fields'.lookup name = fields.lookup name) ∧
      fields'.lookup setting.name = some value

section

variable {setting : Setting} {value tree changed : ValueTree}
  {fields : List (String × ValueTree)}

theorem exists_place_path_eq (setting : Setting) (tree : ValueTree) :
    ∃ fields, ∀ value : ValueTree, (∀ base, overlay base value = value) →
      tree.place value setting.path =
        tree.set setting.sectionName
          (.table (replaced setting.name value fields)) := by
  cases here : (tree.get? setting.sectionName).getD .unset with
  | table fields =>
      refine ⟨fields, fun value covers => ?_⟩
      simp [Setting.path, place, here, covers, set]
  | _ =>
      refine ⟨[], fun value covers => ?_⟩
      simp [Setting.path, place, here, covers, set, replaced]

theorem overrides_place_of_table
    (covers : ∀ base : ValueTree, base.overlay value = value)
    (inSection : tree.get? setting.sectionName = some (.table fields)) :
    Overrides setting value tree (tree.place value setting.path) := by
  rw [Setting.path, place_in_table inSection, place, covers]
  constructor
  · exact fun name differ => get?_set_of_ne differ _ _
  · refine ⟨fields, _, inSection, get?_set_self _ _ _, ?_, ?_⟩
    · exact fun name differ => lookup_replaced_of_ne differ value fields
    · exact lookup_replaced_self _ _ _

theorem overrides_place_place {other : ValueTree}
    (covers : ∀ base : ValueTree, base.overlay value = value)
    (otherCovers : ∀ base : ValueTree, base.overlay other = other)
    (tree : ValueTree) :
    Overrides setting value (tree.place other setting.path)
      (tree.place value setting.path) := by
  obtain ⟨fields, placed⟩ := exists_place_path_eq setting tree
  rw [placed value covers, placed other otherCovers]
  constructor
  · intro name differ
    rw [get?_set_of_ne differ, get?_set_of_ne differ]
  · refine ⟨_, _, get?_set_self _ _ _, get?_set_self _ _ _, ?_, ?_⟩
    · intro name differ
      rw [lookup_replaced_of_ne differ, lookup_replaced_of_ne differ]
    · exact lookup_replaced_self _ _ _

/-- What is laid aside of the setting is laid over the same tree in both. -/
theorem Overrides.place_of_isAside
    (overrides : Overrides setting value tree changed) {path : List Step}
    (isAside : setting.IsAside path) (incoming : ValueTree) :
    Overrides setting value (tree.place incoming path)
      (changed.place incoming path) := by
  obtain ⟨outside, fields, fields', here, here', beside, isValue⟩ := overrides
  cases isAside with
  | @outside name rest differ =>
      rw [place, place, outside name differ]
      constructor
      · intro other _
        by_cases same : other = name
        · rw [same, get?_set_self, get?_set_self]
        · rw [get?_set_of_ne same, get?_set_of_ne same]
          exact outside other ‹_›
      · refine ⟨fields, fields', ?_, ?_, beside, isValue⟩
        · rw [get?_set_of_ne differ.symm, here]
        · rw [get?_set_of_ne differ.symm, here']
  | @beside name rest differ =>
      rw [place_in_table here, place_in_table here', beside name differ]
      constructor
      · intro other differs
        rw [get?_set_of_ne differs, get?_set_of_ne differs]
        exact outside other differs
      · refine ⟨_, _, get?_set_self _ _ _, get?_set_self _ _ _, ?_, ?_⟩
        · intro other differs
          by_cases same : other = name
          · rw [same, lookup_replaced_self, lookup_replaced_self]
          · rw [lookup_replaced_of_ne same, lookup_replaced_of_ne same]
            exact beside other differs
        · rw [lookup_replaced_of_ne differ.symm, isValue]

end

end ValueTree

/-! ## Settings that are read -/

namespace Settings

open ValueTree (Overrides)

/-- Where a value is found in the place of a setting, this setting is read as
the value, and all others are read as before. -/
theorem exists_ofTree?_of_overrides {setting : Setting}
    {value tree changed : ValueTree}
    (overrides : Overrides setting value tree changed) {base : Settings}
    (readBase : ofTree? tree = some base) {said : SettingValue}
    (read : setting.kind.read? value = some said) :
    ∃ settings, ofTree? changed = some settings ∧
      settings.get = Function.update base.get setting said := by
  have kinds (other : Setting) :
      (Function.update base.get setting said other).kind = other.kind := by
    by_cases same : other = setting
    · rw [same, Function.update_self, SettingKind.kind_of_read? read]
    · rw [Function.update_of_ne same, kind_get]
  obtain ⟨settings, isGet⟩ := exists_get_eq kinds
  refine ⟨settings, ?_, isGet⟩
  have kept (other : Setting) (differ : other ≠ setting) :
      settings.get other = base.get other := by
    rw [isGet, Function.update_of_ne differ]
  obtain ⟨outside, fields, fields', here, here', beside, isValue⟩ := overrides
  obtain ⟨entries, rfl⟩ := ValueTree.exists_table_of_get? here
  obtain ⟨entries', rfl⟩ := ValueTree.exists_table_of_get? here'
  simp only [ValueTree.get?] at outside here here'
  rw [ofTree?_table_iff] at readBase ⊢
  intro owner
  obtain ⟨found, inTree, reads⟩ := readBase owner
  by_cases same : owner.sectionName = setting.sectionName
  · rw [same] at inTree ⊢
    cases here.symm.trans inTree
    refine ⟨.table fields', here', sectionReads_table_iff.mpr ?_⟩
    intro other inSection
    by_cases isSame : other = setting
    · subst isSame
      refine ⟨value, isValue, ?_⟩
      rw [read, isGet, Function.update_self]
    · obtain ⟨held, isHeld, readHeld⟩ :=
        sectionReads_table_iff.mp reads other inSection
      have differs : other.name ≠ setting.name :=
        fun same => isSame (Setting.eq_of_name_eq same)
      refine ⟨held, ?_, ?_⟩
      · rw [beside _ differs, isHeld]
      · rw [readHeld, kept other isSame]
  · refine ⟨found, ?_, reads.congr ?_⟩
    · rw [outside _ same, inTree]
    · rintro other inSection
      apply kept
      rintro rfl
      exact same inSection.symm

/-! ## Variables after it -/

/-- A variable leads neither to a setting, nor into it, nor to its whole
section. -/
def Spares (setting : Setting) (name : String) : Prop :=
  ∀ path, placeOf? name = some path → setting.IsAside path

theorem spares_of_variableName {setting owner : Setting} {name : String}
    (named : name.toLower = variableName owner) (differ : owner ≠ setting) :
    Spares setting name := by
  intro path placed
  rw [placeOf?_variableName named] at placed
  cases placed
  exact Setting.isAside_path differ

section

variable {setting : Setting} {value tree changed : ValueTree}

theorem overrides_layVariable
    (overrides : Overrides setting value tree changed)
    {entry : String × String} (spares : Spares setting entry.1) :
    Overrides setting value (layVariable tree entry)
      (layVariable changed entry) := by
  unfold layVariable
  cases placed : placeOf? entry.1 with
  | none => exact overrides
  | some path => exact overrides.place_of_isAside (spares path placed) _

theorem overrides_foldl (overrides : Overrides setting value tree changed)
    {environment : Environment}
    (spare : ∀ entry ∈ environment, Spares setting entry.1) :
    Overrides setting value (environment.foldl layVariable tree)
      (environment.foldl layVariable changed) := by
  induction environment generalizing tree changed with
  | nil => exact overrides
  | cons entry rest ih =>
      rw [List.forall_mem_cons] at spare
      exact ih (overrides_layVariable overrides spare.1) spare.2

end

theorem overlay_valueOf (text : String) (base : ValueTree) :
    base.overlay (valueOf text) = valueOf text := by
  unfold valueOf
  split
  · rfl
  · rfl
  · split <;> rfl

/-! ## Loading -/

/-- The other sources load, with some text of a variable among them or without
the variable.  Without it there has to be a table for the setting: a list of
the values of a section has no place for a name. -/
inductive LoadsAround (file : Option String) (before after : Environment)
    (setting : Setting) (name : String) (base : Settings) : Prop where
  | with_some (text : String)
      (loads : load file (before ++ (name, text) :: after) = .ok base) :
      LoadsAround file before after setting name base
  | without {tree : ValueTree} {fields : List (String × ValueTree)}
      (isTree : fileTree? file = some tree)
      (inSection : (before.foldl layVariable tree).get? setting.sectionName =
        some (.table fields))
      (loads : load file (before ++ after) = .ok base) :
      LoadsAround file before after setting name base

section

variable {file : Option String} {before after : Environment}
  {setting : Setting} {name : String} {base : Settings}

theorem foldl_layVariable_around (named : name.toLower = variableName setting)
    (text : String) (tree : ValueTree) :
    (before ++ (name, text) :: after).foldl layVariable tree =
      after.foldl layVariable
        ((before.foldl layVariable tree).place (valueOf text) setting.path) := by
  rw [List.foldl_append, List.foldl_cons, layVariable.eq_def _ (name, text),
    placeOf?_variableName named]

theorem LoadsAround.exists_overrides
    (around : LoadsAround file before after setting name base)
    (named : name.toLower = variableName setting)
    (spare : ∀ entry ∈ after, Spares setting entry.1) (text : String) :
    ∃ tree changed, ofTree? tree = some base ∧
      Overrides setting (valueOf text) tree changed ∧
      ∀ settings, ofTree? changed = some settings →
        load file (before ++ (name, text) :: after) = .ok settings := by
  cases around with
  | with_some other loads =>
      obtain ⟨tree, isTree, readBase⟩ := load_eq_ok_iff.mp loads
      rw [foldl_layVariable_around named] at readBase
      refine ⟨_, _, readBase, overrides_foldl
        (ValueTree.overrides_place_place (overlay_valueOf text)
          (overlay_valueOf other) _) spare, ?_⟩
      intro settings isRead
      rw [← foldl_layVariable_around named] at isRead
      exact load_eq_ok_iff.mpr ⟨tree, isTree, isRead⟩
  | @without tree fields isTree inSection loads =>
      obtain ⟨_, isTree', readBase⟩ := load_eq_ok_iff.mp loads
      cases isTree.symm.trans isTree'
      rw [List.foldl_append] at readBase
      refine ⟨_, _, readBase, overrides_foldl
        (ValueTree.overrides_place_of_table (overlay_valueOf text) inSection)
        spare, ?_⟩
      intro settings isRead
      rw [← foldl_layVariable_around named] at isRead
      exact load_eq_ok_iff.mpr ⟨tree, isTree, isRead⟩

/-- A text that can be read as the setting makes the sources load, and changes
the setting alone. -/
theorem LoadsAround.exists_load
    (around : LoadsAround file before after setting name base)
    (named : name.toLower = variableName setting)
    (spare : ∀ entry ∈ after, Spares setting entry.1)
    {text : String} {said : SettingValue}
    (read : setting.kind.read? (valueOf text) = some said) :
    ∃ settings, load file (before ++ (name, text) :: after) = .ok settings ∧
      settings.get = Function.update base.get setting said := by
  obtain ⟨tree, changed, readBase, overrides, loads⟩ :=
    around.exists_overrides named spare text
  obtain ⟨settings, isRead, isGet⟩ :=
    exists_ofTree?_of_overrides overrides readBase read
  exact ⟨settings, loads settings isRead, isGet⟩

/-- A variable for a setting overrides what was said about it before, and
changes no other setting.  A number is read as it was written if it fits an
integer, or is a binary number, or is the greatest of all; otherwise it is read
as the nearest binary number.  A log level is read as it was written unless it
is another way to write a value of another kind. -/
theorem override_read_as
    (around : LoadsAround file before after setting name base)
    (named : name.toLower = variableName setting)
    (spare : ∀ entry ∈ after, Spares setting entry.1) :
    (setting.kind = .number → ∀ number : UInt64, ∃ settings read,
        load file (before ++ (name, toString number.toNat) :: after) =
          .ok settings ∧
        settings.get = Function.update base.get setting (.number read) ∧
        NumberReads number read ∧
        (read = number ↔
          number.toNat ≤ 2 ^ 63 - 1 ∨ 2 ^ 11 ∣ number.toNat ∨
            number.toNat = 2 ^ 64 - 1)) ∧
      (setting = .logLevel → ∀ text, ∃ settings level,
        load file (before ++ (name, text) :: after) = .ok settings ∧
        settings.get = Function.update base.get setting (.text level) ∧
        LevelReads text level ∧ (level = text ↔ IsPlainLevel text)) := by
  constructor
  · intro isNumber number
    obtain ⟨read, isRead, reads⟩ := exists_numberReads number
    have said : setting.kind.read?
        (valueOf (toString number.toNat)) = some (.number read) := by
      rw [isNumber]
      exact SettingKind.read?_number_iff.mpr isRead
    obtain ⟨settings, isLoaded, isGet⟩ := around.exists_load named spare said
    exact ⟨settings, read, isLoaded, isGet, reads, reads.eq_iff⟩
  · rintro rfl text
    obtain ⟨level, reads⟩ := exists_levelReads text
    have said : Setting.logLevel.kind.read? (valueOf text) =
        some (.text level) :=
      SettingKind.read?_text_iff.mpr reads.toText?_eq
    obtain ⟨settings, isLoaded, isGet⟩ := around.exists_load named spare said
    exact ⟨settings, level, isLoaded, isGet, reads, reads.eq_iff⟩

end

/-- Among other sources, the greatest number and an integer as a log level are
read as they are written. -/
theorem override_read_as_among_others :
    let file :=
      "[observability]\n\n[flows]\n\n[polling]\ninterval_millis = 250\n\n[cards]\n"
    let before : Environment := [("PATH", "/bin")]
    let after : Environment :=
      [("WALLET_FLOWS__POLLING__INTERVAL_MILLIS", "300")]
    (∃ base,
      LoadsAround (some file) before after .actionBuffer
          "WALLET_FLOWS__FLOWS__ACTION_BUFFER" base ∧
        ∃ settings,
          load (some file)
              (before ++
                ("WALLET_FLOWS__FLOWS__ACTION_BUFFER",
                  toString (18446744073709551615 : UInt64).toNat) :: after) =
            .ok settings ∧
          settings.get .actionBuffer = .number 18446744073709551615 ∧
          settings.get .intervalMillis = .number 300) ∧
      ∃ base,
        LoadsAround none before after .logLevel
            "WALLET_FLOWS__OBSERVABILITY__LOG_LEVEL" base ∧
          ∃ settings,
            load none
                (before ++
                  ("WALLET_FLOWS__OBSERVABILITY__LOG_LEVEL", "-7") :: after) =
              .ok settings ∧
            settings.get .logLevel = .text "-7" := by
  intro file before after
  have interval : "WALLET_FLOWS__POLLING__INTERVAL_MILLIS".toLower =
      variableName .intervalMillis := by
    decide +kernel
  have spare (setting : Setting) (differ : .intervalMillis ≠ setting) :
      ∀ entry ∈ after, Spares setting entry.1 := by
    simp only [after, List.mem_singleton, forall_eq]
    exact spares_of_variableName interval differ
  have isThree : Written (.number 300) "300" :=
    .number (by decide) (by decide) (by decide)
  have inAfter := VariablesSay.nil.cons_variable interval isThree rfl rfl
  have unplaced : placeOf? "PATH" = none := by decide +kernel
  have foreign : ∀ path, placeOf? "PATH" = some path →
      ValueTree.IsForeign path := by
    simp [unplaced]
  constructor
  · have buffer : "WALLET_FLOWS__FLOWS__ACTION_BUFFER".toLower =
        variableName .actionBuffer := by
      decide +kernel
    have isOne : Written (.number 1) "1" :=
      .number (by decide) (by decide) (by decide)
    have inVariables :=
      (inAfter.cons_variable buffer isOne rfl rfl).cons_foreign foreign "/bin"
    have isBounded : (250 : UInt64).toNat ≤ Numeral.greatestInteger := by
      decide
    let given : Setting → Option SettingValue :=
      Function.update (fun _ => none) .intervalMillis (some (.number 250))
    have suits : Suits given := suits_none.update rfl isBounded
    have isText : file = fileText given := by decide +kernel
    obtain ⟨base, loads, isBase⟩ :=
      load_field_by_field (isText ▸ fileSays_fileText suits) inVariables
    have around : LoadsAround (some file) before after .actionBuffer
        "WALLET_FLOWS__FLOWS__ACTION_BUFFER" base := .with_some "1" loads
    obtain ⟨settings, read, isLoaded, isGet, -, isSame⟩ :=
      (override_read_as around buffer
        (spare .actionBuffer (by decide))).1 rfl 18446744073709551615
    obtain rfl := isSame.mpr (by decide)
    refine ⟨base, around, settings, isLoaded, ?_, ?_⟩
    · rw [isGet, Function.update_self]
    · rw [isGet, Function.update_of_ne (by decide), isBase]
      rfl
  · have inSection : (before.foldl layVariable (toTree {})).get?
        Setting.logLevel.sectionName =
          some (.table [("log_level", .text "info"),
            ("json_logs", .bool false)]) := by
      simp only [before, List.foldl_cons, List.foldl_nil, layVariable, unplaced]
      rfl
    obtain ⟨base, loads, -⟩ :=
      load_field_by_field .absent (inAfter.cons_foreign foreign "/bin")
    have around : LoadsAround none before after .logLevel
        "WALLET_FLOWS__OBSERVABILITY__LOG_LEVEL" base :=
      .without rfl inSection loads
    obtain ⟨settings, read, isLoaded, isGet, -, isSame⟩ :=
      (override_read_as around (by decide +kernel)
        (spare .logLevel (by decide))).2 rfl "-7"
    have isPlain : IsPlainLevel (toString (-7 : Int)) := .integer (by decide)
    obtain rfl := isSame.mpr isPlain
    refine ⟨base, around, settings, isLoaded, ?_⟩
    rw [isGet, Function.update_self]

/-- Two settings that are read as they were not written: a number between two
binary numbers, and a log level that reads as a truth value. -/
theorem override_not_read_as_written :
    load none [("WALLET_FLOWS__FLOWS__ACTION_BUFFER", "9223372036854775809")] =
        .ok { flows := { actionBuffer := 9223372036854775808 } } ∧
      load none [("WALLET_FLOWS__OBSERVABILITY__LOG_LEVEL", "TRUE")] =
        .ok { observability := { logLevel := "true" } } := by
  constructor <;> decide +kernel

end Settings

end ScreenFlow
