import ScreenFlow.Decimal.Numeral
import ScreenFlow.Settings
import ScreenFlow.Toml.Text

/-!
# Written settings

The file that says what the settings say.  A number that is no integer of 64
bits with a sign cannot be written.
-/

namespace ScreenFlow

namespace Settings

/-- What is said about settings that cannot be written. -/
def overflowMessage : String :=
  "out-of-range value for u64 type"

/-- Whether each number can be written. -/
def isWritable (settings : Settings) : Bool :=
  settings.numbers.all fun number => number.toNat ≤ Numeral.greatestInteger

def truthText (value : Bool) : String :=
  if value then "true" else "false"

/-- A section with its entries, one on a line. -/
def sectionText (name : String) (entries : List (String × String)) : String :=
  "[" ++ name ++ "]\n" ++
    String.join (entries.map fun entry => entry.1 ++ " = " ++ entry.2 ++ "\n")

/-- The text of all settings, with an empty line between sections. -/
def text (settings : Settings) : String :=
  let number (value : UInt64) : String := toString value.toNat
  "\n".intercalate
    [sectionText "observability"
        [("log_level",
            String.ofList (Toml.quoted settings.observability.logLevel)),
          ("json_logs", truthText settings.observability.jsonLogs)],
      sectionText "flows"
        [("action_buffer", number settings.flows.actionBuffer)],
      sectionText "polling"
        [("timeout_seconds", number settings.polling.timeoutSeconds),
          ("interval_millis", number settings.polling.intervalMillis),
          ("continue_on_error", truthText settings.polling.continueOnError)],
      sectionText "cards"
        [("activation_timeout_seconds",
            number settings.cards.activationTimeoutSeconds),
          ("activation_interval_millis",
            number settings.cards.activationIntervalMillis)]]

/-- The text of the settings, if they can be written. -/
def write? (settings : Settings) : Option String :=
  if settings.isWritable then some settings.text else none

end Settings

end ScreenFlow
