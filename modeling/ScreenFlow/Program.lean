import ScreenFlow.Arguments
import ScreenFlow.Folder
import ScreenFlow.LogFilter
import ScreenFlow.Settings.Sources
import ScreenFlow.Settings.Written
import ScreenFlow.Environment.File
import ScreenFlow.Walk

/-!
# The program

What the program does with its arguments, its environment and the files around
it.  The arguments are looked at first, then the settings, then the log filter,
and only then what was asked for.  `plan` says what is left to do; `runIn` does
it in a folder.
-/

namespace ScreenFlow

namespace Program

/-- The file that settings are read from. -/
def settingsFile : String := "wallet-flows.toml"

/-- The file that adds variables to the environment. -/
def environmentFile : String := ".env"

/-- The variable that overrides the level of the log. -/
def filterVariable : String := "RUST_LOG"

/-- The greatest number of actions that a channel can be made for. -/
def greatestBuffer : Nat := UInt64.size / 8 - 1

/-- Why the program stops without having done what was asked for. -/
inductive Failure where
  | arguments (error : ArgumentError)
  | settings (error : Settings.LoadError)
  | filter (fault : LogFilter.Fault)
  | signal (unknown : UnknownSignal)
  | controller (flow : FlowKind) (error : ControllerError)
  | bufferTooLarge
  | unwritable
  | folder (error : FolderError)
  deriving DecidableEq, Repr

/-- The status that the program ends with after a failure. -/
def Failure.status : Failure → Nat
  | arguments _ => 2
  | bufferTooLarge => 101
  | _ => 1

/-- The line about a failure.  Nothing is said about an empty command line but
how the program is used. -/
def Failure.line? : Failure → Option String
  | arguments .nothingAsked | bufferTooLarge => none
  | arguments error => some ("error: " ++ error.message)
  | settings _ => some "Error: Failed to load wallet flows configuration"
  | filter fault => some ("Error: " ++ fault.message)
  | signal unknown => some ("Error: " ++ unknown.message)
  | controller flow error => some ("Error: " ++ error.message flow.name)
  | unwritable => some ("Error: " ++ Settings.overflowMessage)
  | folder error => some ("Error: " ++ error.message)

/-- What is left to be done when nothing can fail but the system. -/
inductive Task where
  | print (text : String)
  | write (path text : String)
  deriving DecidableEq, Repr

/-- What the program has come to. -/
structure Plan where
  /-- Whether the file that adds variables is broken. -/
  hasBrokenFile : Bool := false
  task : Except Failure Task

/-- The signal that a screen of a flow reports with a text. -/
def signalOf (flow : FlowKind) (text : String) : Except UnknownSignal Signal :=
  match flow with
  | .custodyWithdrawal => Signal.withdrawal <$> Outcome.ofText text
  | .backupFunds => Signal.backup <$> Outcome.ofText text
  | .paymentSetup => Signal.card <$> Outcome.ofText text

/-- The trigger that a word stands for in a flow. -/
def triggerOf (flow : FlowKind) : TriggerWord → Except UnknownSignal Trigger
  | .next => .ok .next
  | .back => .ok .back
  | .signal text => Trigger.signal <$> signalOf flow text

/-- The report of a walk through a flow. -/
def walk (flow : FlowKind) (words : List TriggerWord) (json : Bool)
    (buffer : Nat) : Except Failure String := do
  let triggers ← (words.mapM (triggerOf flow)).mapError Failure.signal
  if greatestBuffer < buffer then throw .bufferTooLarge
  let walked ← (Walk.run flow.table buffer triggers).mapError
    (Failure.controller flow)
  return walked.report json

def listing : String :=
  String.join (FlowKind.all.map fun flow => flow.table.listing)

def usage : String :=
  "Walk wallet screen flows and inspect their transition tables\n\n" ++
    "  walk FLOW [TRIGGERS]... [--json]  drive a flow through triggers\n" ++
    "  flows                             list the flows and their tables\n" ++
    "  config [--write PATH]             print or write the settings\n"

/-- The task that a request leads to. -/
def carryOut (settings : Settings) : Request → Except Failure Task
  | .walk flow words json =>
      Task.print <$>
        walk flow words json settings.flows.actionBuffer.toNat
  | .flows => .ok (.print listing)
  | .config path =>
      match settings.write?, path with
      | none, _ => .error .unwritable
      | some text, none => .ok (.print text)
      | some text, some path => .ok (.write path text)
  | .help => .ok (.print usage)

/-- Load the settings, check the log filter and carry out a request. -/
def prepare (request : Request) (file : Option String)
    (environment : Environment) : Except Failure Task := do
  let settings ← (Settings.load file environment).mapError Failure.settings
  match LogFilter.choiceFault? (environment.get? filterVariable)
    settings.observability.logLevel with
  | some fault => throw (.filter fault)
  | none => carryOut settings request

/-- What the program comes to, given its arguments, its environment and the
texts of the two files, if they are there. -/
def plan (arguments : List String) (environment : Environment)
    (settingsText environmentText : Option String) : Plan :=
  match Request.ofArguments arguments with
  | .error error => { task := .error (.arguments error) }
  | .ok .help => { task := .ok (.print usage) }
  | .ok request =>
      let (environment, isBroken) :=
        match environmentText with
        | none => (environment, false)
        | some text => EnvironmentFile.apply environment text
      { hasBrokenFile := isBroken
        task := prepare request settingsText environment }

def writtenLine (path : String) : String :=
  "✅ Configuration written to " ++ path ++ "\n"

/-- What a run shows to the one who started it. -/
structure RunResult where
  hasBrokenFile : Bool
  /-- What is printed, or why nothing is. -/
  output : Except Failure String

/-- Run the program in a folder, which it may change. -/
def runIn (folder : Folder) (arguments : List String)
    (environment : Environment) : RunResult × Folder :=
  let plan := plan arguments environment
    (folder.file? settingsFile) (folder.file? environmentFile)
  let ended (output : Except Failure String) : RunResult :=
    { hasBrokenFile := plan.hasBrokenFile, output }
  match plan.task with
  | .error failure => (ended (.error failure), folder)
  | .ok (.print text) => (ended (.ok text), folder)
  | .ok (.write path text) =>
      match folder.write path text with
      | .ok written => (ended (.ok (writtenLine path)), written)
      | .error error => (ended (.error (.folder error)), folder)

end Program

end ScreenFlow
