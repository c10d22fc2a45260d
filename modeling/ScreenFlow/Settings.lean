import ScreenFlow.Poll

/-!
# Settings

What can be set about the program, in four sections, with what holds if nobody
sets anything.  Numbers have 64 bits; times are in seconds or milliseconds, as
the names say.
-/

namespace ScreenFlow

/-- What is logged, and in which form. -/
structure ObservabilitySettings where
  logLevel : String := "info"
  jsonLogs : Bool := false
  deriving DecidableEq, Repr

/-- How controllers of flows are set up. -/
structure FlowSettings where
  /-- The number of actions that may wait for their reader. -/
  actionBuffer : UInt64 := 16
  deriving DecidableEq, Repr

/-- How polls are made where nothing else is said. -/
structure PollingSettings where
  timeoutSeconds : UInt64 := 60
  intervalMillis : UInt64 := 1000
  continueOnError : Bool := true
  deriving DecidableEq, Repr

/-- How the activation of a card is waited for. -/
structure CardSettings where
  activationTimeoutSeconds : UInt64 := 60
  activationIntervalMillis : UInt64 := 2000
  deriving DecidableEq, Repr

/-- All settings, section by section. -/
structure Settings where
  observability : ObservabilitySettings := {}
  flows : FlowSettings := {}
  polling : PollingSettings := {}
  cards : CardSettings := {}
  deriving DecidableEq, Repr

namespace Settings

/-- What polls do with a fetch that fails. -/
def onError (settings : Settings) : ErrorPolicy :=
  if settings.polling.continueOnError then .proceed else .abort

def pollSettings (settings : Settings) : PollSettings where
  timeout := 1000 * settings.polling.timeoutSeconds.toNat
  interval := settings.polling.intervalMillis.toNat
  onError := settings.onError

/-- How the activation of a card is polled for: by times of its own, but with
the general rule for errors. -/
def cardPollSettings (settings : Settings) : PollSettings where
  timeout := 1000 * settings.cards.activationTimeoutSeconds.toNat
  interval := settings.cards.activationIntervalMillis.toNat
  onError := settings.onError

/-- The settings that are numbers. -/
def numbers (settings : Settings) : List UInt64 :=
  [settings.flows.actionBuffer, settings.polling.timeoutSeconds,
    settings.polling.intervalMillis, settings.cards.activationTimeoutSeconds,
    settings.cards.activationIntervalMillis]

end Settings

end ScreenFlow
