import ScreenFlow.Json.Value
import ScreenFlow.Settings.Reading

/-!
# Settings in structured values

A structured value holds settings if it has each of them, with a value of the
setting's own kind.  Sections are objects, or lists of their fields in order.
-/

namespace ScreenFlow

/-- The number, if it is a natural one of 64 bits. -/
def JsonValue.toUInt64? (value : JsonValue) : Option UInt64 := do
  let number ← value.toNat?
  if number ≤ Numeral.greatestNatural then some (UInt64.ofNat number) else none

/-- The values of the named fields, if each of them is there. -/
def JsonValue.allFields? (names : List String) (value : JsonValue) :
    Option (List JsonValue) := do
  (← value.fields? names).mapM id

namespace Settings

/-- The settings that a value says, if it says all of them. -/
def ofJson? (value : JsonValue) : Option Settings := do
  match ← value.allFields? sectionNames with
  | [observability, flows, polling, cards] =>
      match ← observability.allFields? observabilityNames,
        ← flows.allFields? flowNames, ← polling.allFields? pollingNames,
        ← cards.allFields? cardNames with
      | [level, json], [buffer], [timeout, interval, proceeds],
        [cardTimeout, cardInterval] =>
          return {
            observability := {
              logLevel := ← level.toText?
              jsonLogs := ← json.toBool? }
            flows := { actionBuffer := ← buffer.toUInt64? }
            polling := {
              timeoutSeconds := ← timeout.toUInt64?
              intervalMillis := ← interval.toUInt64?
              continueOnError := ← proceeds.toBool? }
            cards := {
              activationTimeoutSeconds := ← cardTimeout.toUInt64?
              activationIntervalMillis := ← cardInterval.toUInt64? } }
      | _, _, _, _ => none
  | _ => none

end Settings

end ScreenFlow
