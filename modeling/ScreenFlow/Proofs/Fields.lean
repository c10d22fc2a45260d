import Mathlib.Data.List.Basic
import ScreenFlow.Settings.Reading

/-!
# Settings one by one

The eight settings as values that can be named, so that one statement can be
made about all of them.  A tree shows the settings if it has a value for each
of them in its place, and whoever reads the tree gets just those values.
-/

namespace ScreenFlow

inductive Setting where
  | logLevel
  | jsonLogs
  | actionBuffer
  | timeoutSeconds
  | intervalMillis
  | continueOnError
  | activationTimeoutSeconds
  | activationIntervalMillis
  deriving DecidableEq, Repr

/-- What a setting may be. -/
inductive SettingKind where
  | text
  | truth
  | number
  deriving DecidableEq, Repr

inductive SettingValue where
  | text (value : String)
  | truth (value : Bool)
  | number (value : UInt64)
  deriving DecidableEq, Repr

namespace SettingValue

def kind : SettingValue → SettingKind
  | text _ => .text
  | truth _ => .truth
  | number _ => .number

/-- The value as it stands in a tree. -/
def tree : SettingValue → ValueTree
  | text value => .text value
  | truth value => .bool value
  | number value => .integer value.toNat

theorem exists_text {value : SettingValue} (isText : value.kind = .text) :
    ∃ written, value = text written := by
  cases value with
  | text written => exact ⟨written, rfl⟩
  | truth | number => nomatch isText

theorem exists_truth {value : SettingValue}
    (isTruth : value.kind = .truth) : ∃ holds, value = truth holds := by
  cases value with
  | truth holds => exact ⟨holds, rfl⟩
  | text | number => nomatch isTruth

theorem exists_number {value : SettingValue}
    (isNumber : value.kind = .number) : ∃ counted, value = number counted := by
  cases value with
  | number counted => exact ⟨counted, rfl⟩
  | text | truth => nomatch isNumber

end SettingValue

/-- The value of a kind that a tree is read as. -/
def SettingKind.read? : SettingKind → ValueTree → Option SettingValue
  | text, tree => tree.toText?.map .text
  | truth, tree => tree.toBool?.map .truth
  | number, tree => tree.toUInt64?.map .number

@[simp]
theorem SettingKind.read?_tree (value : SettingValue) :
    value.kind.read? value.tree = some value := by
  cases value with
  | text value => rfl
  | truth value => rfl
  | number value =>
      simp [SettingValue.kind, SettingValue.tree, read?, ValueTree.toUInt64?]

namespace SettingKind

variable {tree : ValueTree}

theorem read?_text_iff {value : String} :
    text.read? tree = some (.text value) ↔ tree.toText? = some value := by
  simp only [read?, Option.map_eq_some_iff, SettingValue.text.injEq,
    exists_eq_right]

theorem read?_number_iff {value : UInt64} :
    number.read? tree = some (.number value) ↔
      tree.toUInt64? = some value := by
  simp only [read?, Option.map_eq_some_iff, SettingValue.number.injEq,
    exists_eq_right]

end SettingKind

theorem SettingKind.kind_of_read? {kind : SettingKind} {tree : ValueTree}
    {value : SettingValue} (read : kind.read? tree = some value) :
    value.kind = kind := by
  cases kind <;>
  · obtain ⟨_, _, rfl⟩ := Option.map_eq_some_iff.mp read
    rfl

namespace Setting

def kind : Setting → SettingKind
  | logLevel => .text
  | jsonLogs | continueOnError => .truth
  | actionBuffer | timeoutSeconds | intervalMillis |
    activationTimeoutSeconds | activationIntervalMillis => .number

def sectionName : Setting → String
  | logLevel | jsonLogs => "observability"
  | actionBuffer => "flows"
  | timeoutSeconds | intervalMillis | continueOnError => "polling"
  | activationTimeoutSeconds | activationIntervalMillis => "cards"

def name : Setting → String
  | logLevel => "log_level"
  | jsonLogs => "json_logs"
  | actionBuffer => "action_buffer"
  | timeoutSeconds => "timeout_seconds"
  | intervalMillis => "interval_millis"
  | continueOnError => "continue_on_error"
  | activationTimeoutSeconds => "activation_timeout_seconds"
  | activationIntervalMillis => "activation_interval_millis"

/-- The place of a setting in a tree. -/
def path (setting : Setting) : List ValueTree.Step :=
  [.name setting.sectionName, .name setting.name]

/-- What a tree holds in the place of a setting. -/
def find? (setting : Setting) (tree : ValueTree) : Option ValueTree :=
  (tree.get? setting.sectionName).bind (·.get? setting.name)

theorem forall_iff {holds : Setting → Prop} :
    (∀ setting, holds setting) ↔
      (holds .logLevel ∧ holds .jsonLogs) ∧ holds .actionBuffer ∧
        (holds .timeoutSeconds ∧ holds .intervalMillis ∧
          holds .continueOnError) ∧
        holds .activationTimeoutSeconds ∧ holds .activationIntervalMillis := by
  constructor
  · exact fun all => ⟨⟨all _, all _⟩, all _, ⟨all _, all _, all _⟩, all _,
      all _⟩
  · rintro ⟨⟨level, json⟩, buffer, ⟨timeout, interval, proceeds⟩, activation,
      pause⟩ setting
    cases setting <;> assumption

theorem eq_of_name_eq {setting other : Setting}
    (same : setting.name = other.name) : setting = other := by
  revert same
  cases setting <;> cases other <;> decide

end Setting

namespace Settings

def get (settings : Settings) : Setting → SettingValue
  | .logLevel => .text settings.observability.logLevel
  | .jsonLogs => .truth settings.observability.jsonLogs
  | .actionBuffer => .number settings.flows.actionBuffer
  | .timeoutSeconds => .number settings.polling.timeoutSeconds
  | .intervalMillis => .number settings.polling.intervalMillis
  | .continueOnError => .truth settings.polling.continueOnError
  | .activationTimeoutSeconds =>
      .number settings.cards.activationTimeoutSeconds
  | .activationIntervalMillis =>
      .number settings.cards.activationIntervalMillis

@[simp]
theorem kind_get (settings : Settings) (setting : Setting) :
    (settings.get setting).kind = setting.kind := by
  cases setting <;> rfl

end Settings

/-! ## Trees that show the settings -/

/-- A tree has a table for each section. -/
def ValueTree.HasSections (tree : ValueTree) : Prop :=
  ∀ setting : Setting,
    ∃ fields, tree.get? setting.sectionName = some (.table fields)

/-- A tree has a table for each section, and in it each setting with a value
that reads as the given one. -/
structure ValueTree.Shows (tree : ValueTree)
    (values : Setting → SettingValue) : Prop where
  sections (setting : Setting) :
    ∃ fields, tree.get? setting.sectionName = some (.table fields)
  found (setting : Setting) :
    ∃ value, setting.find? tree = some value ∧
      setting.kind.read? value = some (values setting)

theorem ValueTree.Shows.hasSections {tree : ValueTree}
    {values : Setting → SettingValue} (shown : tree.Shows values) :
    tree.HasSections :=
  shown.sections

theorem ValueTree.exists_table_of_get? {tree value : ValueTree}
    {name : String} (found : tree.get? name = some value) :
    ∃ entries, tree = .table entries := by
  cases tree with
  | table entries => exact ⟨entries, rfl⟩
  | _ => simp [get?] at found

/-- The fields of a section have a setting, with a value that reads as the
given one. -/
def Setting.FoundIn (setting : Setting) (fields : List (String × ValueTree))
    (value : SettingValue) : Prop :=
  ∃ found, fields.lookup setting.name = some found ∧
    setting.kind.read? found = some value

theorem ValueTree.Shows.found_in {tree : ValueTree}
    {values : Setting → SettingValue} (shown : tree.Shows values)
    (setting : Setting) {fields : List (String × ValueTree)}
    (inSection : tree.get? setting.sectionName = some (.table fields)) :
    setting.FoundIn fields (values setting) := by
  obtain ⟨found, isFound, read⟩ := shown.found setting
  rw [Setting.find?, inSection] at isFound
  exact ⟨found, isFound, read⟩

namespace Settings

theorem shows_toTree (settings : Settings) :
    (toTree settings).Shows settings.get where
  sections setting := by
    cases setting <;> exact ⟨_, rfl⟩
  found setting := by
    refine ⟨(settings.get setting).tree, ?_, ?_⟩
    · cases setting <;> rfl
    · rw [← kind_get settings setting]
      exact SettingKind.read?_tree _

theorem exists_get_eq {values : Setting → SettingValue}
    (kinds : ∀ setting, (values setting).kind = setting.kind) :
    ∃ settings : Settings, settings.get = values := by
  obtain ⟨level, _⟩ := SettingValue.exists_text (kinds .logLevel)
  obtain ⟨json, _⟩ := SettingValue.exists_truth (kinds .jsonLogs)
  obtain ⟨buffer, _⟩ := SettingValue.exists_number (kinds .actionBuffer)
  obtain ⟨timeout, _⟩ := SettingValue.exists_number (kinds .timeoutSeconds)
  obtain ⟨interval, _⟩ := SettingValue.exists_number (kinds .intervalMillis)
  obtain ⟨proceeds, _⟩ := SettingValue.exists_truth (kinds .continueOnError)
  obtain ⟨activation, _⟩ :=
    SettingValue.exists_number (kinds .activationTimeoutSeconds)
  obtain ⟨pause, _⟩ :=
    SettingValue.exists_number (kinds .activationIntervalMillis)
  refine ⟨⟨⟨level, json⟩, ⟨buffer⟩, ⟨timeout, interval, proceeds⟩,
    ⟨activation, pause⟩⟩, ?_⟩
  funext setting
  cases setting <;> simp only [get, *]

/-! ## Sections read one by one -/

section

variable {settings : Settings} {fields : List (String × ValueTree)}

theorem observabilityOf?_table_iff :
    observabilityOf? (.table fields) = some settings.observability ↔
      Setting.logLevel.FoundIn fields (settings.get .logLevel) ∧
        Setting.jsonLogs.FoundIn fields (settings.get .jsonLogs) := by
  obtain ⟨⟨level, json⟩, _, _, _⟩ := settings
  cases inLevel : fields.lookup "log_level" <;>
    cases inJson : fields.lookup "json_logs" <;>
    simp [observabilityOf?, ValueTree.fields?, observabilityNames,
      Setting.FoundIn, Setting.name, Setting.kind, SettingKind.read?, get,
      inLevel, inJson, Option.bind_eq_some_iff]

theorem flowsOf?_table_iff :
    flowsOf? (.table fields) = some settings.flows ↔
      Setting.actionBuffer.FoundIn fields (settings.get .actionBuffer) := by
  obtain ⟨_, ⟨buffer⟩, _, _⟩ := settings
  cases inBuffer : fields.lookup "action_buffer" <;>
    simp [flowsOf?, ValueTree.fields?, flowNames, Setting.FoundIn,
      Setting.name, Setting.kind, SettingKind.read?, get, inBuffer,
      Option.bind_eq_some_iff]

theorem pollingOf?_table_iff :
    pollingOf? (.table fields) = some settings.polling ↔
      Setting.timeoutSeconds.FoundIn fields (settings.get .timeoutSeconds) ∧
        Setting.intervalMillis.FoundIn fields (settings.get .intervalMillis) ∧
        Setting.continueOnError.FoundIn fields
          (settings.get .continueOnError) := by
  obtain ⟨_, _, ⟨timeout, interval, proceeds⟩, _⟩ := settings
  cases inTimeout : fields.lookup "timeout_seconds" <;>
    cases inInterval : fields.lookup "interval_millis" <;>
    cases inProceeds : fields.lookup "continue_on_error" <;>
    simp [pollingOf?, ValueTree.fields?, pollingNames, Setting.FoundIn,
      Setting.name, Setting.kind, SettingKind.read?, get, inTimeout,
      inInterval, inProceeds, Option.bind_eq_some_iff, -Bool.exists_bool]

theorem cardsOf?_table_iff :
    cardsOf? (.table fields) = some settings.cards ↔
      Setting.activationTimeoutSeconds.FoundIn fields
          (settings.get .activationTimeoutSeconds) ∧
        Setting.activationIntervalMillis.FoundIn fields
          (settings.get .activationIntervalMillis) := by
  obtain ⟨_, _, _, ⟨timeout, interval⟩⟩ := settings
  cases inTimeout : fields.lookup "activation_timeout_seconds" <;>
    cases inInterval : fields.lookup "activation_interval_millis" <;>
    simp [cardsOf?, ValueTree.fields?, cardNames, Setting.FoundIn,
      Setting.name, Setting.kind, SettingKind.read?, get, inTimeout,
      inInterval, Option.bind_eq_some_iff]

end

/-! ## All settings -/

/-- A tree is read as the section of the settings that a setting is in. -/
def SectionReads (settings : Settings) (tree : ValueTree) : Setting → Prop
  | .logLevel | .jsonLogs =>
      observabilityOf? tree = some settings.observability
  | .actionBuffer => flowsOf? tree = some settings.flows
  | .timeoutSeconds | .intervalMillis | .continueOnError =>
      pollingOf? tree = some settings.polling
  | .activationTimeoutSeconds | .activationIntervalMillis =>
      cardsOf? tree = some settings.cards

section

variable {settings base : Settings} {setting : Setting}

theorem sectionReads_table_iff {fields : List (String × ValueTree)} :
    settings.SectionReads (.table fields) setting ↔
      ∀ other : Setting, other.sectionName = setting.sectionName →
        other.FoundIn fields (settings.get other) := by
  cases setting <;>
    simp [SectionReads, observabilityOf?_table_iff, flowsOf?_table_iff,
      pollingOf?_table_iff, cardsOf?_table_iff, Setting.forall_iff,
      Setting.sectionName]

theorem SectionReads.congr {tree : ValueTree}
    (reads : base.SectionReads tree setting)
    (same : ∀ other : Setting, other.sectionName = setting.sectionName →
      settings.get other = base.get other) :
    settings.SectionReads tree setting := by
  obtain ⟨⟨_, _⟩, ⟨_⟩, ⟨_, _, _⟩, ⟨_, _⟩⟩ := settings
  obtain ⟨⟨_, _⟩, ⟨_⟩, ⟨_, _, _⟩, ⟨_, _⟩⟩ := base
  cases setting <;>
    simp_all [SectionReads, Setting.forall_iff, Setting.sectionName, get]

theorem ofTree?_table_iff {entries : List (String × ValueTree)} :
    ofTree? (.table entries) = some settings ↔
      ∀ setting : Setting, ∃ tree,
        entries.lookup setting.sectionName = some tree ∧
          settings.SectionReads tree setting := by
  obtain ⟨_, _, _, _⟩ := settings
  cases inObservability : entries.lookup "observability" <;>
    cases inFlows : entries.lookup "flows" <;>
    cases inPolling : entries.lookup "polling" <;>
    cases inCards : entries.lookup "cards" <;>
    simp [ofTree?, ValueTree.fields?, sectionNames, SectionReads,
      Setting.forall_iff, Setting.sectionName, inObservability, inFlows,
      inPolling, inCards, Option.bind_eq_some_iff]

end

/-- A tree that shows the settings is read as them. -/
theorem ofTree?_eq_of_shows {tree : ValueTree} {settings : Settings}
    (shown : tree.Shows settings.get) : ofTree? tree = some settings := by
  obtain ⟨fields, inTree⟩ := shown.sections .actionBuffer
  obtain ⟨entries, rfl⟩ := ValueTree.exists_table_of_get? inTree
  rw [ofTree?_table_iff]
  intro setting
  obtain ⟨fields, inSection⟩ := shown.sections setting
  refine ⟨.table fields, inSection, sectionReads_table_iff.mpr ?_⟩
  intro other same
  exact shown.found_in other (same ▸ inSection)

theorem exists_ofTree?_eq {tree : ValueTree}
    {values : Setting → SettingValue} (shown : tree.Shows values) :
    ∃ settings, ofTree? tree = some settings ∧ settings.get = values := by
  have kinds (setting : Setting) :
      (values setting).kind = setting.kind := by
    obtain ⟨_, _, read⟩ := shown.found setting
    exact SettingKind.kind_of_read? read
  obtain ⟨settings, rfl⟩ := exists_get_eq kinds
  exact ⟨settings, ofTree?_eq_of_shows shown, rfl⟩

end Settings

end ScreenFlow
