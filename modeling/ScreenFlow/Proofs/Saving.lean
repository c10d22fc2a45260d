import ScreenFlow.Program
import ScreenFlow.Proofs.Choices

/-!
# Saved settings read back

Settings that are saved in a file and loaded from it are the same settings,
whatever text their log level is.  Only numbers that need all 64 bits cannot be
saved, and then the file stays as it is.
-/

namespace ScreenFlow

namespace Settings

/-! ## Numbers that can be written -/

/-- No number of the settings needs all 64 bits. -/
def IsWritable (settings : Settings) : Prop :=
  ∀ setting, (settings.get setting).IsWritable

theorem isWritable_iff (settings : Settings) :
    settings.isWritable ↔ settings.IsWritable := by
  constructor
  · intro writable setting
    simp [isWritable, numbers] at writable
    cases setting <;> simp [SettingValue.IsWritable, get, writable]
  · intro writable
    have buffer := writable .actionBuffer
    have timeout := writable .timeoutSeconds
    have interval := writable .intervalMillis
    have activation := writable .activationTimeoutSeconds
    have pause := writable .activationIntervalMillis
    simp_all [isWritable, numbers, SettingValue.IsWritable, get]

theorem isWritable_iff_numbers (settings : Settings) :
    settings.IsWritable ↔
      ∀ setting value, settings.get setting = .number value →
        value.toNat ≤ 2 ^ 63 - 1 := by
  constructor
  · intro writable setting value isNumber
    have bounded := writable setting
    rw [isNumber] at bounded
    exact bounded
  · intro bounded setting
    cases here : settings.get setting with
    | number value => exact bounded setting value here
    | text | truth => trivial

theorem IsWritable.suits {settings : Settings}
    (isWritable : settings.IsWritable) :
    Suits fun setting => some (settings.get setting) := by
  rintro setting said ⟨⟩
  exact ⟨kind_get settings setting, isWritable setting⟩

/-! ## Loading -/

theorem foldl_layVariable_of_unplaced {environment : Environment}
    (unplaced : ∀ entry ∈ environment, placeOf? entry.1 = none)
    (tree : ValueTree) : environment.foldl layVariable tree = tree := by
  induction environment generalizing tree with
  | nil => rfl
  | cons entry rest ih =>
      have stays : layVariable tree entry = tree := by
        simp [layVariable, unplaced entry List.mem_cons_self]
      rw [List.foldl_cons, stays]
      exact ih (fun other member =>
        unplaced other (List.mem_cons_of_mem entry member)) tree

/-- No variable is about settings. -/
def IsUnset (environment : Environment) : Prop :=
  ∀ entry ∈ environment, ¬variableStart <+: entry.1.toLower.toList

theorem IsUnset.placeOf?_eq_none {environment : Environment}
    (isUnset : IsUnset environment) :
    ∀ entry ∈ environment, placeOf? entry.1 = none := by
  intro entry member
  have differs := isUnset entry member
  rw [← List.isPrefixOf_iff_prefix] at differs
  simp [placeOf?, differs]

/-- The text of settings loads as these settings. -/
theorem load_text {settings : Settings} (isWritable : settings.IsWritable)
    {environment : Environment} (isUnset : IsUnset environment) :
    load (some settings.text) environment = .ok settings := by
  obtain ⟨entries, say, loads⟩ :=
    (fileSays_fileText isWritable.suits).exists_entries
  have shown := (say.lays (toTree {})).shows_getD (shows_toTree {})
  rw [text_eq_fileText, loads,
    foldl_layVariable_of_unplaced isUnset.placeOf?_eq_none,
    ofTree?_eq_of_shows shown]

end Settings

/-! ## Files of a folder -/

namespace Folder

theorem nameOf_eq_ok {folder : Folder} {path name : String}
    (leads : folder.nameOf path = .ok name) (other : Folder) :
    other.nameOf path = .ok name := by
  simp only [nameOf] at leads ⊢
  split at leads
  · cases leads
  · split at leads
    · cases leads
    · next isInside =>
        split at leads
        · next isLast => simpa [isInside, isLast] using leads
        · split at leads
          · cases leads
          · split at leads <;> cases leads
  · cases leads

theorem read_of_nameOf {folder : Folder} {path name : String}
    (leads : folder.nameOf path = .ok name) :
    folder.read path = folder.file? name := by
  simp [read, leads]

theorem exists_write_eq_ok {folder : Folder} {path name : String}
    (leads : folder.nameOf path = .ok name) (text : String) :
    ∃ written, folder.write path text = .ok written ∧
      written.read path = some text := by
  refine ⟨replaced name text folder, ?_, ?_⟩
  · rw [write, leads]
    rfl
  · rw [read_of_nameOf (nameOf_eq_ok leads _), file?, lookup_replaced_self]

end Folder

/-! ## Saving -/

namespace Settings

/-- Save settings in a file of a folder.  Their whole text is made before the
file is touched. -/
def saveIn (settings : Settings) (folder : Folder) (path : String) :
    Except Program.Failure Unit × Folder :=
  match settings.write? with
  | none => (.error .unwritable, folder)
  | some text =>
      match folder.write path text with
      | .ok written => (.ok (), written)
      | .error error => (.error (.folder error), folder)

/-- The program that is asked to write its settings saves them. -/
theorem runIn_saves {folder : Folder} {arguments : List String}
    {environment : Environment} {settings : Settings} {path : String}
    (asked : (Program.plan arguments environment
        (folder.file? Program.settingsFile)
        (folder.file? Program.environmentFile)).task =
      Program.carryOut settings (.config (some path))) :
    (Program.runIn folder arguments environment).1.output =
        (settings.saveIn folder path).1.map
          (fun _ => Program.writtenLine path) ∧
      (Program.runIn folder arguments environment).2 =
        (settings.saveIn folder path).2 := by
  cases isText : settings.write? with
  | none =>
      simp [Program.runIn, asked, Program.carryOut, saveIn, isText, Except.map]
  | some text =>
      cases isWritten : folder.write path text <;>
      simp [Program.runIn, asked, Program.carryOut, saveIn, isText, isWritten,
        Except.map]

/-- Settings whose numbers are integers of 64 bits with a sign are saved and
loaded as they were; others are not saved, and no file changes. -/
theorem save_then_load (settings : Settings) (folder : Folder)
    (path : String) :
    ((∀ setting value, settings.get setting = .number value →
          value.toNat ≤ 2 ^ 63 - 1) →
        ∀ name, folder.nameOf path = .ok name →
          ∃ saved, settings.saveIn folder path = (.ok (), saved) ∧
            ∀ environment, IsUnset environment →
              load (saved.read path) environment = .ok settings) ∧
      ((∃ setting value, settings.get setting = .number value ∧
          2 ^ 63 - 1 < value.toNat) →
        settings.saveIn folder path = (.error .unwritable, folder)) := by
  constructor
  · intro bounded name leads
    have isWritable := settings.isWritable_iff_numbers.mpr bounded
    have isText : settings.write? = some settings.text := by
      rw [write?, if_pos (settings.isWritable_iff.mpr isWritable)]
    obtain ⟨saved, isWritten, isRead⟩ :=
      Folder.exists_write_eq_ok leads settings.text
    refine ⟨saved, by simp [saveIn, isText, isWritten], ?_⟩
    intro environment isUnset
    rw [isRead]
    exact load_text isWritable isUnset
  · rintro ⟨setting, value, isNumber, isLarge⟩
    have notWritable : ¬settings.isWritable := by
      rw [isWritable_iff, isWritable_iff_numbers]
      intro bounded
      have isSmall := bounded setting value isNumber
      omega
    simp [saveIn, write?, notWritable]

theorem save_then_load_special :
    let folder : Folder := [("notes.toml", ""), ("saved.toml", "kept")]
    let special : Settings :=
      { observability := { logLevel := "'true' \"\\\n\r\x01\u00e9'" }
        flows := { actionBuffer := 9223372036854775807 } }
    let large : Settings := { flows := { actionBuffer := 9223372036854775808 } }
    (∃ saved, special.saveIn folder "saved.toml" = (.ok (), saved) ∧
      load (saved.read "saved.toml") [("PATH", "/bin")] = .ok special) ∧
    large.saveIn folder "saved.toml" = (.error .unwritable, folder) := by
  intro folder special large
  have leads : folder.nameOf "saved.toml" = .ok "saved.toml" := by
    decide +kernel
  have isUnset : IsUnset [("PATH", "/bin")] := by
    unfold IsUnset
    decide +kernel
  have bounded (setting : Setting) (value : UInt64)
      (isNumber : special.get setting = .number value) :
      value.toNat ≤ 2 ^ 63 - 1 := by
    cases setting <;> cases isNumber <;> decide
  obtain ⟨saved, isSaved, loads⟩ :=
    (save_then_load special folder "saved.toml").1 bounded _ leads
  exact ⟨⟨saved, isSaved, loads _ isUnset⟩,
    (save_then_load large folder "saved.toml").2
      ⟨.actionBuffer, _, rfl, by decide⟩⟩

end Settings

end ScreenFlow
