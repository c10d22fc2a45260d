import Mathlib.Logic.Relation
import ScreenFlow.Controller

/-!
# Sessions

What the parties of a controller may do, in any order.  `Controller.Steps`
lists the smallest steps of the worker, and `Controller.Reads` the ways in
which the subscriber reads.  A session is a controller together with what has
passed between it and its parties, and `Session.Happens` lets any one of them
act.  A wait that others interrupt needs no rule of its own: it acts when it
reads, and one that is given up has not acted.
-/

namespace ScreenFlow

variable {State : Type}

/-- The action that a worker is about to put into the channel. -/
def Worker.inHand? : Worker State → Option (Action State)
  | .sending action => some action
  | .receiving | .stopped => none

/-- The action that came of waiting. -/
def Received.action? : Received State → Option (Action State)
  | .action found => some found
  | .ended | .pending => none

variable [DecidableEq State] [Flow State]

namespace Controller

/-! ## The worker -/

/-- The smallest steps of a worker. -/
inductive Steps (controller : Controller State) : Controller State → Prop where
  /-- Take a command, run it and publish the history.  Nothing waits between
  these three, and nobody else sees the machine. -/
  | obey {command : Command} {rest : List Command}
      (receiving : controller.worker = .receiving)
      (queued : controller.queue = command :: rest) :
      Steps controller
        { controller with
          machine := (controller.machine.obey command).1
          published := (controller.machine.obey command).1.history
          queue := rest
          worker := .sending (controller.machine.obey command).2 }
  | deliver {action : Action State}
      (sending : controller.worker = .sending action)
      (held : controller.subscription ≠ .dropped)
      (room : controller.hasRoom = true) :
      Steps controller
        { controller with
          worker := .receiving
          channel := controller.channel ++ [action] }
  | discard {action : Action State}
      (sending : controller.worker = .sending action)
      (dropped : controller.subscription = .dropped) :
      Steps controller { controller with worker := .receiving }
  | stop (receiving : controller.worker = .receiving)
      (drained : controller.queue = [])
      (deserted : controller.hasSender = false) :
      Steps controller { controller with worker := .stopped }

theorem steps_of_step? {controller after : Controller State}
    (stepped : controller.step? = some after) : controller.Steps after := by
  unfold step? at stepped
  split at stepped
  next => cases stepped
  next action sending =>
    split at stepped
    next dropped =>
      cases stepped
      exact .discard sending dropped
    next held =>
      split at stepped
      next room =>
        cases stepped
        exact .deliver sending held room
      next => cases stepped
  next receiving =>
    split at stepped
    next command rest queued =>
      cases stepped
      exact .obey receiving queued
    next drained =>
      split at stepped
      next => cases stepped
      next deserted =>
        cases stepped
        exact .stop receiving drained (by simpa using deserted)

/-! ## The subscriber -/

/-- Read all that is in the channel. -/
def drain (controller : Controller State) :
    Controller State × List (Action State) :=
  match _ : controller.tryNext with
  | (rest, none) => (rest, [])
  | (rest, some action) => (rest.drain.1, action :: rest.drain.2)
termination_by controller.actionsLeft
decreasing_by all_goals exact actionsLeft_tryNext (by assumption)

/-- The actions that are read by performing them as they come, until the flow
is over or no action comes. -/
def driven (controller : Controller State) : List (Action State) :=
  match _ : controller.next with
  | (_, .ended) | (_, .pending) => []
  | (rest, .action action) =>
      match action.ending? with
      | some _ => [action]
      | none => action :: rest.driven
termination_by controller.actionsLeft
decreasing_by exact actionsLeft_next (by assumption)

/-- The ways of reading, with what is read. -/
inductive Reads (controller : Controller State) :
    Controller State → List (Action State) → Prop where
  | tryNext : Reads controller controller.tryNext.1
      controller.tryNext.2.toList
  | next : Reads controller controller.next.1
      controller.next.2.action?.toList
  | drain : Reads controller controller.drain.1 controller.drain.2
  | drive (recorder : Recorder State) :
      Reads controller (controller.drive recorder).1 controller.driven

theorem driven_of_action {controller rest : Controller State}
    {action : Action State}
    (read : controller.next = (rest, .action action)) :
    controller.driven =
      match action.ending? with
      | some _ => [action]
      | none => action :: rest.driven := by
  rw [driven]
  split
  next stopped => cases read.symm.trans stopped
  next waiting => cases read.symm.trans waiting
  next found =>
    cases read.symm.trans found
    rfl

theorem driven_of_action?_eq_none {controller rest : Controller State}
    {received : Received State}
    (read : controller.next = (rest, received))
    (nothing : received.action? = none) :
    controller.driven = [] := by
  rw [driven]
  split
  next => rfl
  next => rfl
  next found =>
    cases read.symm.trans found
    cases nothing

/-- Driving performs exactly the actions that it reads. -/
theorem drive_recorder (controller : Controller State)
    (recorder : Recorder State) :
    (controller.drive recorder).2.1 =
      recorder.applyAll controller.driven := by
  fun_induction drive controller recorder with
  | case1 controller recorder rest ended =>
      rw [driven_of_action?_eq_none ended rfl]
      rfl
  | case2 controller recorder rest pending =>
      rw [driven_of_action?_eq_none pending rfl]
      rfl
  | case3 controller recorder rest action read shown ending finished =>
      rw [driven_of_action read, finished]
      rfl
  | case4 controller recorder rest action read shown running ih =>
      rw [driven_of_action read, running]
      exact ih

/-! ## What every way of reading comes to -/

/-- Steps of the worker and reads of single actions, in any order, with the
actions that are read. -/
inductive Yields (controller : Controller State) :
    List (Action State) → Controller State → Prop where
  | refl : Yields controller [] controller
  | work {actions : List (Action State)} {between after : Controller State}
      (earlier : Yields controller actions between)
      (stepped : between.Steps after) :
      Yields controller actions after
  | pop {actions rest : List (Action State)} {between : Controller State}
      {action : Action State}
      (earlier : Yields controller actions between)
      (filled : between.channel = action :: rest) :
      Yields controller (actions ++ [action])
        { between with channel := rest }

theorem Yields.trans {controller between after : Controller State}
    {earlierActions laterActions : List (Action State)}
    (earlier : controller.Yields earlierActions between)
    (later : between.Yields laterActions after) :
    controller.Yields (earlierActions ++ laterActions) after := by
  induction later with
  | refl => simpa using earlier
  | work _ stepped ih => exact ih.work stepped
  | pop _ filled ih => simpa using ih.pop filled

theorem yields_of_tryNext {controller rest : Controller State}
    {read : Option (Action State)}
    (tried : controller.tryNext = (rest, read)) :
    controller.Yields read.toList rest := by
  unfold tryNext at tried
  split at tried
  next => cases tried; exact .refl
  next action tail filled => cases tried; exact Yields.refl.pop filled

theorem yields_settle (controller : Controller State) :
    controller.Yields [] controller.settle := by
  fun_induction settle controller with
  | case1 => exact .refl
  | case2 controller after stepped ih =>
      exact (Yields.refl.work (steps_of_step? stepped)).trans ih

theorem yields_of_next {controller rest : Controller State}
    {received : Received State}
    (waited : controller.next = (rest, received)) :
    controller.Yields received.action?.toList rest := by
  unfold next at waited
  split at waited
  next present =>
    cases waited
    exact yields_of_tryNext present
  next =>
    simp only at waited
    split at waited
    next present =>
      cases waited
      exact controller.yields_settle.trans (yields_of_tryNext present)
    next =>
      split at waited <;> cases waited <;> exact controller.yields_settle

theorem yields_drain (controller : Controller State) :
    controller.Yields controller.drain.2 controller.drain.1 := by
  fun_induction drain controller with
  | case1 controller rest tried => exact yields_of_tryNext tried
  | case2 controller rest action tried ih =>
      exact (yields_of_tryNext tried).trans ih

theorem yields_drive (controller : Controller State)
    (recorder : Recorder State) :
    controller.Yields controller.driven (controller.drive recorder).1 := by
  fun_induction drive controller recorder with
  | case1 controller recorder rest ended =>
      rw [driven_of_action?_eq_none ended rfl]
      exact yields_of_next ended
  | case2 controller recorder rest pending =>
      rw [driven_of_action?_eq_none pending rfl]
      exact yields_of_next pending
  | case3 controller recorder rest action read shown ending finished =>
      rw [driven_of_action read, finished]
      exact yields_of_next read
  | case4 controller recorder rest action read shown running ih =>
      rw [driven_of_action read, running]
      exact (yields_of_next read).trans ih

theorem Reads.yields {controller after : Controller State}
    {actions : List (Action State)}
    (reads : controller.Reads after actions) :
    controller.Yields actions after := by
  cases reads with
  | tryNext => exact yields_of_tryNext rfl
  | next => exact yields_of_next rfl
  | drain => exact controller.yields_drain
  | drive recorder => exact controller.yields_drive recorder

/-! ## The owner -/

omit [DecidableEq State] [Flow State] in
theorem release_cases (controller : Controller State) :
    controller.subscription = .untaken ∧
        controller.release =
          { controller with
            isOwned := false, subscription := .dropped, channel := [] } ∨
      controller.subscription ≠ .untaken ∧
        controller.release = { controller with isOwned := false } := by
  cases held : controller.subscription with
  | untaken => simp [release, held, dropActions]
  | taken => simp [release, held]
  | dropped => simp [release, held]

end Controller

/-- A controller with what has passed between it and its parties. -/
structure Session (State : Type) where
  controller : Controller State
  /-- The triggers that the controller accepted, oldest first. -/
  accepted : List Trigger
  /-- The actions that the subscriber has read, oldest first. -/
  received : List (Action State)

namespace Session

/-- A session in which nothing has passed yet. -/
def start (machine : Machine State) (buffer : Nat) : Session State :=
  { controller := .spawn machine buffer, accepted := [], received := [] }

/-- Anything that may happen while the controller is not dropped. -/
inductive Happens (session : Session State) : Session State → Prop where
  | work {after : Controller State}
      (stepped : session.controller.step? = some after) :
      Happens session { session with controller := after }
  /-- The owner gives out a handle, or one is cloned. -/
  | openHandle (given : session.controller.hasSender = true) :
      Happens session
        { session with controller := session.controller.openHandle }
  | dropHandle (held : 0 < session.controller.handles) :
      Happens session
        { session with controller := session.controller.dropHandle }
  | send {trigger : Trigger} {after : Controller State}
      (held : 0 < session.controller.handles)
      (sent : session.controller.send trigger = .ok after) :
      Happens session
        { session with
          controller := after
          accepted := session.accepted ++ [trigger] }
  | takeActions {after : Controller State}
      (owned : session.controller.isOwned = true)
      (taken : session.controller.takeActions = .ok after) :
      Happens session { session with controller := after }
  | read {after : Controller State} {actions : List (Action State)}
      (taken : session.controller.subscription = .taken)
      (reads : session.controller.Reads after actions) :
      Happens session
        { session with
          controller := after
          received := session.received ++ actions }
  | dropActions (taken : session.controller.subscription = .taken) :
      Happens session
        { session with controller := session.controller.dropActions }
  /-- The owner begins to close.  What remains of closing is to wait for the
  worker, for as long as the owner likes. -/
  | release (owned : session.controller.isOwned = true) :
      Happens session
        { session with controller := session.controller.release }

/-- All that may come of a machine in the care of a controller, as long as the
controller is not dropped. -/
def Reachable (machine : Machine State) (buffer : Nat)
    (session : Session State) : Prop :=
  Relation.ReflTransGen Happens (start machine buffer) session

end Session

end ScreenFlow
