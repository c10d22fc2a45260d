import ScreenFlow.Catalog
import ScreenFlow.Controller
import ScreenFlow.Json.Writer

/-!
# Walks

A walk sends triggers to a flow that has only just begun and reports what came
of them: the actions, what a recorder made of them, and where the flow is in
the end.  Sending never waits for the reader, and the reader goes on to the
end, so the report does not depend on how many actions fit into the channel.
-/

namespace ScreenFlow

namespace Controller

variable {State : Type} [DecidableEq State] [Flow State]

/-- Read all actions that will ever come. -/
def readAll (controller : Controller State) :
    Controller State × List (Action State) :=
  match _ : controller.next with
  | (rest, .ended) | (rest, .pending) => (rest, [])
  | (rest, .action action) =>
      let (final, more) := rest.readAll
      (final, action :: more)
termination_by controller.actionsLeft
decreasing_by exact actionsLeft_next (by assumption)

end Controller

/-- What came of a walk. -/
structure Walk (State : Type) where
  actions : List (Action State)
  recorder : Recorder State
  history : History State

namespace Walk

variable {State : Type} [DecidableEq State] [Flow State]

/-- Send triggers through a handle of a new controller, give everything up and
read the actions to their end. -/
def run (table : Table State) (buffer : Nat) (triggers : List Trigger) :
    Except ControllerError (Walk State) := do
  let controller ← (Controller.spawn (.start table) buffer).takeActions
  let controller ← triggers.foldlM Controller.send controller.openHandle
  let (controller, actions) := controller.dropHandle.release.readAll
  return {
    actions
    recorder := Recorder.fresh.applyAll actions
    history := controller.published }

def labels (states : List State) : String :=
  "[" ++ ", ".intercalate (states.map Flow.label) ++ "]"

def actionLines (actions : List (Action State)) : List String :=
  actions.zipIdx.map fun (action, index) =>
    "   " ++ toString (index + 1) ++ ". " ++ action.label

/-- The report for readers. -/
def text (walk : Walk State) : String :=
  let lines :=
    ["🧭 Flow: " ++ Flow.name State] ++ actionLines walk.actions ++
      (if walk.actions.isEmpty then ["   (no actions emitted)"] else []) ++
      ["📍 Current state: " ++ Flow.label walk.history.current,
        "📚 Previous states: " ++ labels walk.history.previous,
        "📱 Screens on stack: " ++ labels walk.recorder.stack] ++
      (if walk.recorder.isCompleted then ["✅ Flow completed"] else [])
  String.join (lines.map (· ++ "\n"))

def stateValue (state : State) : JsonValue :=
  .ofText (Flow.key state)

/-- A value with the name of a kind and a state, if there is one. -/
def taggedValue (tag key : String) (name : String) (state : Option State) :
    JsonValue :=
  .record ((tag, .ofText key) ::
    state.toList.map fun state => (name, stateValue state))

/-- The structured report. -/
def value (walk : Walk State) : JsonValue :=
  .record
    [("flow", .ofText (Flow.name State)),
      ("actions", .list (walk.actions.map fun action =>
        taggedValue "action" action.key "to" action.target?)),
      ("navigation", .list (walk.recorder.log.map fun step =>
        taggedValue "step" step.key "screen" step.state?)),
      ("history", .record
        [("current", stateValue walk.history.current),
          ("previous", .list (walk.history.previous.map stateValue))]),
      ("screens", .list (walk.recorder.stack.map stateValue))]

/-- The report of a walk in one of its two forms. -/
def report (walk : Walk State) (json : Bool) : String :=
  if json then walk.value.write ++ "\n" else walk.text

end Walk

namespace Table

variable {State : Type} [DecidableEq State] [Flow State]

def stepLine (table : Table State) (state : State) (step : Step State) :
    String :=
  let target :=
    match step with
    | .next target => Flow.label target
    | .finish ending => "finish: " ++ ending.label
  "   " ++ Flow.label state ++ " → " ++ target ++
    (if table.exitsOnRetreat state then " (back exits)" else "")

/-- The table of a flow, a line for each step and an empty one at the end. -/
def listing (table : Table State) : String :=
  String.join
    ((["🔀 " ++ Flow.name State] ++
      (table.steps.map fun entry => table.stepLine entry.1 entry.2) ++
      [""]).map (· ++ "\n"))

end Table

end ScreenFlow
