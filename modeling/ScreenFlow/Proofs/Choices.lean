import Mathlib.Data.List.Nodup
import ScreenFlow.Proofs.Layers
import ScreenFlow.Proofs.Sections

/-!
# Files for any choice of settings

Whatever settings one chooses, and whatever values for them, there is a file
that says just these.  The file with all settings is the one that the program
writes.
-/

namespace ScreenFlow

/-! ## Values as they are written -/

namespace SettingValue

def written : SettingValue → String
  | text value => String.ofList (Toml.quoted value)
  | truth value => Settings.truthText value
  | number value => toString value.toNat

/-- A number that is to be written has to be an integer of 64 bits with a
sign. -/
def IsWritable : SettingValue → Prop
  | number value => value.toNat ≤ Numeral.greatestInteger
  | text _ | truth _ => True

theorem readsAs_written {value : SettingValue} (isWritable : value.IsWritable) :
    Toml.ReadsAs value.written.toList value.tree := by
  cases value with
  | text value =>
      rw [written, String.toList_ofList]
      exact Toml.readsAs_quoted value
  | truth value => exact Toml.readsAs_truth value
  | number value => exact Toml.readsAs_number isWritable

end SettingValue

namespace Settings

/-! ## Settings by section -/

/-- The sections with their settings, in the order in which they are
written. -/
def bySection : List (String × List Setting) :=
  [("observability", [.logLevel, .jsonLogs]),
    ("flows", [.actionBuffer]),
    ("polling", [.timeoutSeconds, .intervalMillis, .continueOnError]),
    ("cards", [.activationTimeoutSeconds, .activationIntervalMillis])]

theorem isBareKey_name (setting : Setting) : Toml.IsBareKey setting.name := by
  cases setting <;> decide +kernel

theorem isBareKey_of_mem_bySection :
    ∀ named ∈ bySection, Toml.IsBareKey named.1 := by
  decide +kernel

theorem toLower_name (setting : Setting) :
    setting.name.toLower = setting.name := by
  cases setting <;> decide +kernel

theorem exists_mem_bySection (setting : Setting) :
    ∃ named ∈ bySection, setting ∈ named.2 ∧
      named.1.toLower = setting.sectionName := by
  cases setting <;> decide +kernel

theorem exists_toLower_eq_sectionName :
    ∀ named ∈ bySection,
      ∃ setting : Setting, named.1.toLower = setting.sectionName := by
  intro named isNamed
  simp only [bySection, List.mem_cons, List.not_mem_nil, or_false] at isNamed
  rcases isNamed with rfl | rfl | rfl | rfl
  · exact ⟨.logLevel, by decide +kernel⟩
  · exact ⟨.actionBuffer, by decide +kernel⟩
  · exact ⟨.timeoutSeconds, by decide +kernel⟩
  · exact ⟨.activationTimeoutSeconds, by decide +kernel⟩

/-! ## The file -/

def fieldOf (setting : Setting) (value : SettingValue) : Toml.Field where
  name := setting.name
  written := value.written
  meant := value.tree

def fieldsOf (given : Setting → Option SettingValue)
    (settings : List Setting) : List Toml.Field :=
  settings.filterMap fun setting => (given setting).map (fieldOf setting)

/-- The sections with the settings for which something is given. -/
def partsOf (given : Setting → Option SettingValue) : List Toml.Section :=
  bySection.map fun named =>
    { name := named.1, fields := fieldsOf given named.2 }

def fileText (given : Setting → Option SettingValue) : String :=
  "\n".intercalate ((partsOf given).map Toml.Section.text)

theorem text_eq_fileText (settings : Settings) :
    settings.text = fileText fun setting => some (settings.get setting) := by
  rfl

/-- Each value that is given is of the kind of its setting and can be
written. -/
def Suits (given : Setting → Option SettingValue) : Prop :=
  ∀ setting said, given setting = some said →
    said.kind = setting.kind ∧ said.IsWritable

section

variable {given : Setting → Option SettingValue}

theorem suits_none : Suits fun _ => none :=
  nofun

theorem Suits.update (suits : Suits given) {setting : Setting}
    {value : SettingValue} (sameKind : value.kind = setting.kind)
    (isWritable : value.IsWritable) :
    Suits (Function.update given setting (some value)) := by
  intro other said isGiven
  by_cases same : other = setting
  · subst same
    rw [Function.update_self] at isGiven
    cases isGiven
    exact ⟨sameKind, isWritable⟩
  · rw [Function.update_of_ne same] at isGiven
    exact suits other said isGiven

theorem mem_fieldsOf_iff {settings : List Setting} {field : Toml.Field} :
    field ∈ fieldsOf given settings ↔
      ∃ setting ∈ settings, ∃ said, given setting = some said ∧
        fieldOf setting said = field := by
  simp [fieldsOf]

theorem map_name_fieldsOf (settings : List Setting) :
    (fieldsOf given settings).map Toml.Field.name =
      (settings.filter fun setting => (given setting).isSome).map
        Setting.name := by
  induction settings with
  | nil => rfl
  | cons setting settings ih =>
      unfold fieldsOf at ih ⊢
      cases here : given setting with
      | none => simp [here, ih]
      | some said => simp [here, ih, fieldOf]

theorem nodup_names_fieldsOf {settings : List Setting}
    (distinct : settings.Nodup) :
    ((fieldsOf given settings).map Toml.Field.name).Nodup := by
  rw [map_name_fieldsOf]
  exact List.Nodup.map (fun _ _ => Setting.eq_of_name_eq) (distinct.filter _)

theorem isReadable_of_mem_partsOf (suits : Suits given) :
    ∀ part ∈ partsOf given, part.IsReadable := by
  intro part member
  obtain ⟨named, isNamed, rfl⟩ := List.mem_map.mp member
  refine ⟨isBareKey_of_mem_bySection named isNamed, ?_, ?_⟩
  · intro field isField
    obtain ⟨setting, -, said, isGiven, rfl⟩ := mem_fieldsOf_iff.mp isField
    exact ⟨isBareKey_name setting,
      SettingValue.readsAs_written (suits setting said isGiven).2⟩
  · have distinct : ∀ named ∈ bySection, named.2.Nodup := by decide
    exact nodup_names_fieldsOf (distinct named isNamed)

theorem read?_fileText (suits : Suits given) :
    Toml.read? (fileText given) =
      some ((partsOf given).map Toml.Section.table) := by
  have names : (partsOf given).map Toml.Section.name =
      bySection.map Prod.fst := by
    simp [partsOf]
  have distinct : ((partsOf given).map Toml.Section.name).Nodup := by
    rw [names]
    decide
  exact Toml.read?_sections (isReadable_of_mem_partsOf suits) distinct

theorem entriesSay_partsOf (suits : Suits given) :
    EntriesSay ((partsOf given).map Toml.Section.table) given where
  placed := by
    intro entry member
    obtain ⟨part, isPart, rfl⟩ := List.mem_map.mp member
    obtain ⟨named, isNamed, rfl⟩ := List.mem_map.mp isPart
    exact .inl ⟨_, rfl, exists_toLower_eq_sectionName named isNamed⟩
  said := by
    rintro entry member setting value ⟨fields, key, isTable, isField, -, isKey⟩
    obtain ⟨part, isPart, rfl⟩ := List.mem_map.mp member
    obtain ⟨named, isNamed, rfl⟩ := List.mem_map.mp isPart
    cases isTable
    obtain ⟨field, isOne, isSame⟩ := List.mem_map.mp isField
    obtain ⟨owner, -, said, isGiven, rfl⟩ := mem_fieldsOf_iff.mp isOne
    cases isSame
    have isOwner : owner = setting :=
      Setting.eq_of_name_eq ((toLower_name owner).symm.trans isKey)
    subst isOwner
    exact ⟨said, isGiven, (suits owner said isGiven).1, rfl⟩
  complete := by
    intro setting isSome
    obtain ⟨said, isGiven⟩ := Option.isSome_iff_exists.mp isSome
    obtain ⟨named, isNamed, isInside, isOwner⟩ := exists_mem_bySection setting
    have isField : fieldOf setting said ∈ fieldsOf given named.2 :=
      mem_fieldsOf_iff.mpr ⟨setting, isInside, said, isGiven, rfl⟩
    exact ⟨_, List.mem_map_of_mem (List.mem_map_of_mem isNamed), said.tree, _,
      setting.name, rfl, List.mem_map_of_mem isField, isOwner,
      toLower_name setting⟩

/-- Any choice of settings, each with a value that suits it, is what some file
says. -/
theorem fileSays_fileText (suits : Suits given) :
    FileSays (some (fileText given)) given :=
  .present (read?_fileText suits) (entriesSay_partsOf suits)

end

end Settings

end ScreenFlow
