import ScreenFlow.Table

/-!
# The flows of the wallet

Withdrawing a custodial balance, backing up the recovery phrase, and setting
up a payment card.
-/

namespace ScreenFlow

/-- The states of a withdrawal. -/
inductive CustodyWithdrawal where
  | start
  | withdrawal
  | summary
  | ending
  deriving DecidableEq, Repr

instance : Flow CustodyWithdrawal where
  name := "custody-withdrawal"
  initial := .start
  terminal := .ending
  states := [.start, .withdrawal, .summary, .ending]
  key
    | .start => "start"
    | .withdrawal => "withdrawal"
    | .summary => "summary"
    | .ending => "end"
  label
    | .start => "Start"
    | .withdrawal => "Withdrawal"
    | .summary => "Summary"
    | .ending => "End"

/-- A withdrawal walks through its screens in presentation order. -/
def CustodyWithdrawal.table : Table CustodyWithdrawal :=
  .linear Flow.states .dismiss

/-- The states of a backup. -/
inductive BackupFunds where
  | start
  | backupFunds
  | recoveryPhrase
  | verification
  | ending
  deriving DecidableEq, Repr

instance : Flow BackupFunds where
  name := "backup-funds"
  initial := .start
  terminal := .ending
  states := [.start, .backupFunds, .recoveryPhrase, .verification, .ending]
  key
    | .start => "start"
    | .backupFunds => "backup_funds"
    | .recoveryPhrase => "recovery_phrase"
    | .verification => "verification"
    | .ending => "end"
  label
    | .start => "Start"
    | .backupFunds => "BackupFunds"
    | .recoveryPhrase => "RecoveryPhrase"
    | .verification => "Verification"
    | .ending => "End"

/-- A backup walks through its screens in presentation order and reports
success at its end. -/
def BackupFunds.table : Table BackupFunds :=
  .linear Flow.states .complete

/-- The states of the setup of a payment card. -/
inductive PaymentSetup where
  | start
  | paymentMethods
  | cardDetails
  | cardAuthorization
  | pendingActivation
  | ending
  deriving DecidableEq, Repr

instance : Flow PaymentSetup where
  name := "payment-setup"
  initial := .start
  terminal := .ending
  states :=
    [.start, .paymentMethods, .cardDetails, .cardAuthorization,
      .pendingActivation, .ending]
  key
    | .start => "start"
    | .paymentMethods => "payment_methods"
    | .cardDetails => "card_details"
    | .cardAuthorization => "card_authorization"
    | .pendingActivation => "pending_activation"
    | .ending => "end"
  label
    | .start => "Start"
    | .paymentMethods => "PaymentMethods"
    | .cardDetails => "CardDetails"
    | .cardAuthorization => "CardAuthorization"
    | .pendingActivation => "PendingActivation"
    | .ending => "End"

/-- Setting up a card walks through its screens in presentation order.  A card
that was submitted cannot be authorised again, so going back to the
authorisation leaves the flow. -/
def PaymentSetup.table : Table PaymentSetup :=
  (Table.linear Flow.states .dismiss).withBackExit .cardAuthorization

/-- The flows that the program knows. -/
inductive FlowKind where
  | custodyWithdrawal
  | backupFunds
  | paymentSetup
  deriving DecidableEq, Repr

namespace FlowKind

/-- Every flow, in the order in which they are listed. -/
def all : List FlowKind :=
  [custodyWithdrawal, backupFunds, paymentSetup]

/-- The states of a flow. -/
def State : FlowKind → Type
  | custodyWithdrawal => CustodyWithdrawal
  | backupFunds => BackupFunds
  | paymentSetup => PaymentSetup

instance instDecidableEqState : (kind : FlowKind) → DecidableEq kind.State
  | custodyWithdrawal => inferInstanceAs (DecidableEq CustodyWithdrawal)
  | backupFunds => inferInstanceAs (DecidableEq BackupFunds)
  | paymentSetup => inferInstanceAs (DecidableEq PaymentSetup)

instance instFlowState : (kind : FlowKind) → Flow kind.State
  | custodyWithdrawal => inferInstanceAs (Flow CustodyWithdrawal)
  | backupFunds => inferInstanceAs (Flow BackupFunds)
  | paymentSetup => inferInstanceAs (Flow PaymentSetup)

/-- The table by which a flow is walked. -/
def table : (kind : FlowKind) → Table kind.State
  | custodyWithdrawal => CustodyWithdrawal.table
  | backupFunds => BackupFunds.table
  | paymentSetup => PaymentSetup.table

def name (kind : FlowKind) : String :=
  Flow.name kind.State

def label : FlowKind → String
  | custodyWithdrawal => "CustodyWithdrawal"
  | backupFunds => "BackupFunds"
  | paymentSetup => "PaymentSetup"

def ofName? (text : String) : Option FlowKind :=
  all.find? fun kind => kind.name == text

def unknownMessage (text : String) : String :=
  s!"unknown flow '{text}' (expected custody-withdrawal, backup-funds or payment-setup)"

end FlowKind

end ScreenFlow
