import ScreenFlow.Decimal.Numeral
import ScreenFlow.Settings
import ScreenFlow.ValueTree

/-!
# Settings in a tree

Each setting is found in a tree under its section and its name.  A value of
another kind than the setting's is converted where it has a sense; otherwise
the tree has no settings.
-/

namespace ScreenFlow

namespace ValueTree

/-- The truth value that a word stands for. -/
def truthOf? (word : String) : Option Bool :=
  match word.toLower with
  | "true" | "on" | "yes" => some true
  | "false" | "off" | "no" => some false
  | _ => none

/-- A truth value.  A number stands for whether it differs from zero. -/
def toBool? : ValueTree → Option Bool
  | .bool value => some value
  | .integer value => some (value ≠ 0)
  | .real value => some value.isNonzero
  | .text "1" => some true
  | .text "0" => some false
  | .text word => truthOf? word
  | _ => none

/-- A number of 64 bits.  A truth value stands for one or zero, and a binary
number for the nearest number. -/
def toUInt64? : ValueTree → Option UInt64
  | .bool value => some value.toUInt64
  | .integer value =>
      if 0 ≤ value then some (UInt64.ofNat value.toNat) else none
  | .real value => some (UInt64.ofNat (value.toNat Numeral.greatestNatural))
  | .text word =>
      match truthOf? word with
      | some value => some value.toUInt64
      | none => (Numeral.natural? word).map UInt64.ofNat
  | _ => none

/-- A text.  Anything else but a list or a table stands for how it is
written. -/
def toText? : ValueTree → Option String
  | .bool value => some (if value then "true" else "false")
  | .integer value => some (toString value)
  | .real value => some value.text
  | .text value => some value
  | _ => none

/-- The values of the named fields of a section, which may also be a list of
them in this order. -/
def fields? (names : List String) : ValueTree → Option (List ValueTree)
  | .table entries => names.mapM fun name => entries.lookup name
  | .list items =>
      if names.length ≤ items.length then some (items.take names.length)
      else none
  | _ => none

end ValueTree

namespace Settings

/-- The names of the sections and of the settings in each of them. -/
def sectionNames : List String :=
  ["observability", "flows", "polling", "cards"]

def observabilityNames : List String :=
  ["log_level", "json_logs"]

def flowNames : List String :=
  ["action_buffer"]

def pollingNames : List String :=
  ["timeout_seconds", "interval_millis", "continue_on_error"]

def cardNames : List String :=
  ["activation_timeout_seconds", "activation_interval_millis"]

/-- The tree that says what the settings say. -/
def toTree (settings : Settings) : ValueTree :=
  let number (value : UInt64) : ValueTree := .integer value.toNat
  let ofFields (names : List String) (values : List ValueTree) : ValueTree :=
    .table (names.zip values)
  ofFields sectionNames
    [ofFields observabilityNames
        [.text settings.observability.logLevel,
          .bool settings.observability.jsonLogs],
      ofFields flowNames [number settings.flows.actionBuffer],
      ofFields pollingNames
        [number settings.polling.timeoutSeconds,
          number settings.polling.intervalMillis,
          .bool settings.polling.continueOnError],
      ofFields cardNames
        [number settings.cards.activationTimeoutSeconds,
          number settings.cards.activationIntervalMillis]]

def observabilityOf? (tree : ValueTree) : Option ObservabilitySettings := do
  match ← tree.fields? observabilityNames with
  | [level, json] =>
      return { logLevel := ← level.toText?, jsonLogs := ← json.toBool? }
  | _ => none

def flowsOf? (tree : ValueTree) : Option FlowSettings := do
  match ← tree.fields? flowNames with
  | [buffer] => return { actionBuffer := ← buffer.toUInt64? }
  | _ => none

def pollingOf? (tree : ValueTree) : Option PollingSettings := do
  match ← tree.fields? pollingNames with
  | [timeout, interval, proceeds] =>
      return {
        timeoutSeconds := ← timeout.toUInt64?
        intervalMillis := ← interval.toUInt64?
        continueOnError := ← proceeds.toBool? }
  | _ => none

def cardsOf? (tree : ValueTree) : Option CardSettings := do
  match ← tree.fields? cardNames with
  | [timeout, interval] =>
      return {
        activationTimeoutSeconds := ← timeout.toUInt64?
        activationIntervalMillis := ← interval.toUInt64? }
  | _ => none

/-- The settings that a tree says, if each of them has a sense. -/
def ofTree? (tree : ValueTree) : Option Settings := do
  match ← tree.fields? sectionNames with
  | [observability, flows, polling, cards] =>
      return {
        observability := ← observabilityOf? observability
        flows := ← flowsOf? flows
        polling := ← pollingOf? polling
        cards := ← cardsOf? cards }
  | _ => none

end Settings

end ScreenFlow
