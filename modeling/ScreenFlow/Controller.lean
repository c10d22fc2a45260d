import ScreenFlow.Machine
import ScreenFlow.Recorder

/-!
# Controllers

A controller lets any number of handles trigger one flow.  Accepted commands
wait in a queue; a worker takes them one at a time, runs the machine, publishes
the history and puts the action into a bounded channel, waiting while the
channel is full.  A single subscriber reads the channel.

The worker's smallest steps are `step?`; `settle` runs it until it can do
nothing more.  Everything else is done by handles, the owner or the
subscriber, and may happen between any two steps of the worker.
-/

namespace ScreenFlow

/-- What the worker of a controller is about to do. -/
inductive Worker (State : Type) where
  | receiving
  /-- Put an action into the channel; its history is already published. -/
  | sending (action : Action State)
  | stopped
  deriving DecidableEq, Repr

/-- Who holds the reading end of a controller's channel. -/
inductive Subscription where
  | untaken
  | taken
  | dropped
  deriving DecidableEq, Repr

/-- Why a controller refuses what it is asked to do. -/
inductive ControllerError where
  | closed
  | actionsAlreadyTaken
  deriving DecidableEq, Repr

def ControllerError.message (flowName : String) : ControllerError → String
  | closed => s!"flow controller for '{flowName}' has shut down"
  | actionsAlreadyTaken => s!"action stream for '{flowName}' was already taken"

/-- A flow in the care of a worker, as all its parties see it. -/
structure Controller (State : Type) where
  machine : Machine State
  /-- The history that handles see. -/
  published : History State
  /-- Accepted commands that the worker has not taken yet, oldest first. -/
  queue : List Command
  worker : Worker State
  /-- Actions that the subscriber has not read yet, oldest first. -/
  channel : List (Action State)
  capacity : Nat
  capacity_pos : 0 < capacity
  subscription : Subscription
  /-- Whether the owner still holds its own handle. -/
  isOwned : Bool
  handles : Nat

/-- What a subscriber gets that waits for an action. -/
inductive Received (State : Type) where
  | action (action : Action State)
  | ended
  /-- None has come, and none will until a handle sends. -/
  | pending
  deriving DecidableEq, Repr

/-- Why reading the actions of a flow onto a navigation has stopped. -/
inductive DriveEnd where
  | finished (ending : Ending)
  | ended
  | pending
  deriving DecidableEq, Repr

namespace Controller

variable {State : Type} [DecidableEq State] [Flow State]

/-- Put `machine` into the care of a new worker.  The channel holds `buffer`
actions, and one if that is none. -/
def spawn (machine : Machine State) (buffer : Nat) : Controller State :=
  { machine
    published := machine.history
    queue := []
    worker := .receiving
    channel := []
    capacity := max buffer 1
    capacity_pos := Nat.le_max_right buffer 1
    subscription := .untaken
    isOwned := true
    handles := 0 }

/-- Whether anyone is left who can send a command. -/
def hasSender (controller : Controller State) : Bool :=
  controller.isOwned || 0 < controller.handles

/-- Whether an action can be put into the channel. -/
def hasRoom (controller : Controller State) : Bool :=
  controller.channel.length < controller.capacity

/-- Whether the worker is gone for good. -/
def isStopped (controller : Controller State) : Bool :=
  match controller.worker with
  | .stopped => true
  | .receiving | .sending _ => false

/-! ## The worker -/

/-- The worker's next step, if it can take one: it runs one command and
publishes the history, or it puts an action into the channel, or it drops the
action because there is no subscriber any more, or it stops because no command
can come any more. -/
def step? (controller : Controller State) : Option (Controller State) :=
  match controller.worker with
  | .stopped => none
  | .sending action =>
      if controller.subscription = .dropped then
        some { controller with worker := .receiving }
      else if controller.hasRoom then
        some { controller with
          worker := .receiving
          channel := controller.channel ++ [action] }
      else
        none
  | .receiving =>
      match controller.queue with
      | command :: rest =>
          let (machine, action) := controller.machine.obey command
          some { controller with
            machine
            published := machine.history
            queue := rest
            worker := .sending action }
      | [] =>
          if controller.hasSender then
            none
          else
            some { controller with worker := .stopped }

/-- An upper bound for the number of steps that the worker can take if nobody
else does anything. -/
def stepsLeft (controller : Controller State) : Nat :=
  2 * controller.queue.length +
    match controller.worker with
    | .stopped => 0
    | .receiving => 1
    | .sending _ => 2

theorem stepsLeft_step {controller after : Controller State}
    (stepped : controller.step? = some after) :
    after.stepsLeft < controller.stepsLeft := by
  unfold step? at stepped
  split at stepped
  · cases stepped
  next action sending =>
    split at stepped
    · cases stepped
      simp [stepsLeft, sending]
    · split at stepped
      · cases stepped
        simp [stepsLeft, sending]
      · cases stepped
  next receiving =>
    split at stepped
    next command rest queued =>
      cases stepped
      simp [stepsLeft, receiving, queued]
      omega
    next queued =>
      split at stepped
      · cases stepped
      · cases stepped
        simp [stepsLeft, receiving]

/-- Let the worker run until it can do nothing more. -/
def settle (controller : Controller State) : Controller State :=
  match _ : controller.step? with
  | none => controller
  | some after => after.settle
termination_by controller.stepsLeft
decreasing_by exact stepsLeft_step (by assumption)

/-! ## Handles -/

def openHandle (controller : Controller State) : Controller State :=
  { controller with handles := controller.handles + 1 }

def dropHandle (controller : Controller State) : Controller State :=
  { controller with handles := controller.handles - 1 }

/-- Send a trigger through a handle.  A trigger that tells the machine nothing
goes no further, whether the worker has stopped or not. -/
def send (controller : Controller State) (trigger : Trigger) :
    Except ControllerError (Controller State) :=
  match trigger.command? with
  | none => .ok controller
  | some command =>
      if controller.isStopped then
        .error .closed
      else
        .ok { controller with queue := controller.queue ++ [command] }

/-! ## The subscriber -/

/-- Take the reading end of the channel.  It is given away once. -/
def takeActions (controller : Controller State) :
    Except ControllerError (Controller State) :=
  match controller.subscription with
  | .untaken => .ok { controller with subscription := .taken }
  | .taken | .dropped => .error .actionsAlreadyTaken

/-- Drop the reading end of the channel with all that is in it. -/
def dropActions (controller : Controller State) : Controller State :=
  { controller with subscription := .dropped, channel := [] }

/-- Read an action if one is there. -/
def tryNext (controller : Controller State) :
    Controller State × Option (Action State) :=
  match controller.channel with
  | [] => (controller, none)
  | action :: rest => ({ controller with channel := rest }, some action)

/-- Wait for the next action.  The worker runs only if nothing is there. -/
def next (controller : Controller State) :
    Controller State × Received State :=
  match controller.tryNext with
  | (rest, some action) => (rest, .action action)
  | (_, none) =>
      let settled := controller.settle
      match settled.tryNext with
      | (rest, some action) => (rest, .action action)
      | (_, none) =>
          (settled, if settled.isStopped then .ended else .pending)

/-- The number of actions the subscriber can still get if nobody sends. -/
def actionsLeft (controller : Controller State) : Nat :=
  controller.channel.length + controller.queue.length +
    match controller.worker with
    | .sending _ => 1
    | .receiving | .stopped => 0

theorem actionsLeft_step {controller after : Controller State}
    (stepped : controller.step? = some after) :
    after.actionsLeft ≤ controller.actionsLeft := by
  unfold step? at stepped
  split at stepped
  · cases stepped
  next action sending =>
    split at stepped
    · cases stepped
      simp [actionsLeft, sending]
    · split at stepped
      · cases stepped
        simp [actionsLeft, sending]
        omega
      · cases stepped
  next receiving =>
    split at stepped
    next command rest queued =>
      cases stepped
      simp only [actionsLeft, receiving, queued, List.length_cons]
      omega
    next queued =>
      split at stepped
      · cases stepped
      · cases stepped
        simp [actionsLeft, receiving]

theorem actionsLeft_settle (controller : Controller State) :
    controller.settle.actionsLeft ≤ controller.actionsLeft := by
  fun_induction settle controller with
  | case1 => exact Nat.le_refl _
  | case2 controller after stepped ih =>
      exact Nat.le_trans ih (actionsLeft_step stepped)

omit [DecidableEq State] [Flow State] in
theorem actionsLeft_tryNext {controller rest : Controller State}
    {action : Action State}
    (read : controller.tryNext = (rest, some action)) :
    rest.actionsLeft < controller.actionsLeft := by
  unfold tryNext at read
  split at read
  · cases read
  next head tail filled =>
    cases read
    simp [actionsLeft, filled]

theorem actionsLeft_next {controller rest : Controller State}
    {action : Action State}
    (read : controller.next = (rest, .action action)) :
    rest.actionsLeft < controller.actionsLeft := by
  unfold next at read
  split at read
  next present =>
    cases read
    exact actionsLeft_tryNext present
  next =>
    simp only at read
    split at read
    next present =>
      cases read
      exact Nat.lt_of_lt_of_le (actionsLeft_tryNext present)
        (actionsLeft_settle controller)
    next =>
      split at read <;> cases read

/-- Perform actions as they come, until the flow is over or no action comes. -/
def drive (controller : Controller State) (recorder : Recorder State) :
    Controller State × Recorder State × DriveEnd :=
  match _ : controller.next with
  | (rest, .ended) => (rest, recorder, .ended)
  | (rest, .pending) => (rest, recorder, .pending)
  | (rest, .action action) =>
      let shown := recorder.apply action
      match action.ending? with
      | some ending => (rest, shown, .finished ending)
      | none => rest.drive shown
termination_by controller.actionsLeft
decreasing_by exact actionsLeft_next (by assumption)

/-! ## The owner -/

/-- The owner gives up its handle and a reading end that nobody took. -/
def release (controller : Controller State) : Controller State :=
  let released := { controller with isOwned := false }
  match released.subscription with
  | .untaken => released.dropActions
  | .taken | .dropped => released

/-- Release the controller and wait for the worker to stop.  The answer says
whether it did; if not, it lives on without an owner. -/
def close (controller : Controller State) : Controller State × Bool :=
  let settled := controller.release.settle
  (settled, settled.isStopped)

/-- Drop the controller: the worker stops at once.  Queued commands and an
action that waits for room are lost; actions in the channel stay readable. -/
def abort (controller : Controller State) : Controller State :=
  { controller.release with queue := [], worker := .stopped }

end Controller

end ScreenFlow
