/-!
# Completion signals

A screen reports its outcome as a signal.  Each kind of signal has one value
that means "nothing happened yet" and never moves a flow; any other value
walks the flow on.
-/

namespace ScreenFlow

/-- A closed set of outcomes that a screen can report. -/
class Outcome (Status : Type) where
  /-- The flow whose screens report this kind of outcome. -/
  flowName : String
  /-- The value that means "nothing happened yet". -/
  idle : Status
  values : List Status
  key : Status → String
  label : Status → String

/-- A text that names no outcome of a flow. -/
structure UnknownSignal where
  text : String
  flowName : String
  deriving DecidableEq, Repr

def UnknownSignal.message (unknown : UnknownSignal) : String :=
  s!"unknown completion signal '{unknown.text}' for flow '{unknown.flowName}'"

namespace Outcome

variable {Status : Type} [Outcome Status]

/-- Whether a status means "nothing happened yet". -/
def isIdle [DecidableEq Status] (status : Status) : Bool :=
  status = idle

/-- The outcome that a text names. -/
def ofText (text : String) : Except UnknownSignal Status :=
  match (values : List Status).find? fun status => key status == text with
  | some status => .ok status
  | none => .error { text, flowName := flowName Status }

end Outcome

/-- What has become of a withdrawal. -/
inductive WithdrawalStatus where
  | unknown
  | successful
  | failed
  deriving DecidableEq, Repr

/-- What has become of a backup. -/
inductive BackupStatus where
  | unknown
  | verified
  deriving DecidableEq, Repr

/-- What has become of the activation of a card. -/
inductive CardStatus where
  | unknown
  | activated
  | failed
  deriving DecidableEq, Repr

instance : Outcome WithdrawalStatus where
  flowName := "custody-withdrawal"
  idle := .unknown
  values := [.unknown, .successful, .failed]
  key
    | .unknown => "unknown"
    | .successful => "successful"
    | .failed => "failed"
  label
    | .unknown => "Unknown"
    | .successful => "Successful"
    | .failed => "Failed"

instance : Outcome BackupStatus where
  flowName := "backup-funds"
  idle := .unknown
  values := [.unknown, .verified]
  key
    | .unknown => "unknown"
    | .verified => "verified"
  label
    | .unknown => "Unknown"
    | .verified => "Verified"

instance : Outcome CardStatus where
  flowName := "payment-setup"
  idle := .unknown
  values := [.unknown, .activated, .failed]
  key
    | .unknown => "unknown"
    | .activated => "activated"
    | .failed => "failed"
  label
    | .unknown => "Unknown"
    | .activated => "Activated"
    | .failed => "Failed"

/-- The outcome some screen reported. -/
inductive Signal where
  | withdrawal (status : WithdrawalStatus)
  | backup (status : BackupStatus)
  | card (status : CardStatus)
  deriving DecidableEq, Repr

def Signal.isIdle : Signal → Bool
  | withdrawal status => Outcome.isIdle status
  | backup status => Outcome.isIdle status
  | card status => Outcome.isIdle status

/-- How far the withdrawal screen is with a submission. -/
inductive Submission where
  | settingUp
  | loaded
  | insufficientFunds
  | submitting
  | submitted
  | error
  deriving DecidableEq, Repr

namespace Submission

/-- Only a submission that has settled reports an outcome. -/
def status : Submission → WithdrawalStatus
  | submitted => .successful
  | error => .failed
  | settingUp | loaded | insufficientFunds | submitting => .unknown

def label : Submission → String
  | settingUp => "SettingUp"
  | loaded => "Loaded"
  | insufficientFunds => "InsufficientFunds"
  | submitting => "Submitting"
  | submitted => "Submitted"
  | error => "Error"

def all : List Submission :=
  [settingUp, loaded, insufficientFunds, submitting, submitted, error]

end Submission

end ScreenFlow
