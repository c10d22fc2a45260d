import ScreenFlow.Proofs.Freezing

/-!
# Driving a recorder

A subscriber may drive a recorder with the actions of a flow, time and again.
A drive performs actions until one ends the flow or the stream has ended, and
it may be given up while it waits.  `Navigation.Happens` lets a drive go on by
one action at a time, so that anything may happen in between, and
`Navigation.run_drive` says that a drive at one go is one of its runs.
-/

namespace ScreenFlow

/-- A drive that is over. -/
structure Drive (State : Type) where
  /-- The actions that it has performed, oldest first. -/
  performed : List (Action State)
  result : DriveEnd

/-- A recorder that is driven with the actions of a controller. -/
structure Navigation (State : Type) where
  session : Session State
  recorder : Recorder State
  /-- The drives that are over, oldest first. -/
  drives : List (Drive State)
  /-- What the drive that is under way has performed, if there is one. -/
  underWay : Option (List (Action State))
  /-- The actions that were still to come when the worker was made to stop. -/
  lost : List (Action State)

variable {State : Type}

variable [DecidableEq State] [Flow State]

namespace Navigation

/-- A session whose stream has been taken, with a recorder that has not been
driven yet. -/
def start (session : Session State) : Navigation State :=
  { session, recorder := .fresh, drives := [], underWay := none, lost := [] }

/-- Perform an action that is taken off the channel. -/
def perform (navigation : Navigation State) (action : Action State)
    (rest : List (Action State)) : Navigation State :=
  { navigation with
    session :=
      { navigation.session with
        controller := { navigation.session.controller with channel := rest }
        received := navigation.session.received ++ [action] }
    recorder := navigation.recorder.apply action }

/-- End the drive that is under way. -/
def finish (navigation : Navigation State) (performed : List (Action State))
    (result : DriveEnd) : Navigation State :=
  { navigation with
    drives := navigation.drives ++ [{ performed, result }]
    underWay := none }

/-- The actions that a controller still holds when its worker is stopped
without their being in the channel. -/
def unsent (controller : Controller State) : List (Action State) :=
  controller.worker.inHand?.toList ++
    (controller.machine.obeyAll controller.queue).2

/-- Anything that may happen while drives are the only way of reading. -/
inductive Happens (navigation : Navigation State) :
    Navigation State → Prop where
  /-- The worker, a handle or the owner acts. -/
  | others {after : Session State} (happens : navigation.session.Happens after)
      (unread : after.received = navigation.session.received)
      (kept : after.controller.subscription =
        navigation.session.controller.subscription) :
      Happens navigation { navigation with session := after }
  /-- The stop of the worker of a dropped controller takes effect. -/
  | halt (unowned : navigation.session.controller.isOwned = false) :
      Happens navigation
        { navigation with
          session := navigation.session.halt
          lost := unsent navigation.session.controller ++ navigation.lost }
  | begin (idle : navigation.underWay = none) :
      Happens navigation { navigation with underWay := some [] }
  | goOn {performed rest : List (Action State)} {action : Action State}
      (driving : navigation.underWay = some performed)
      (filled : navigation.session.controller.channel = action :: rest)
      (onward : action.ending? = none) :
      Happens navigation
        { navigation.perform action rest with
          underWay := some (performed ++ [action]) }
  | finish {performed rest : List (Action State)} {action : Action State}
      {ending : Ending} (driving : navigation.underWay = some performed)
      (filled : navigation.session.controller.channel = action :: rest)
      (ends : action.ending? = some ending) :
      Happens navigation
        ((navigation.perform action rest).finish (performed ++ [action])
          (.finished ending))
  | runOut {performed : List (Action State)}
      (driving : navigation.underWay = some performed)
      (drained : navigation.session.controller.channel = [])
      (stopped : navigation.session.controller.worker = .stopped) :
      Happens navigation (navigation.finish performed .ended)
  | abandon {performed : List (Action State)}
      (driving : navigation.underWay = some performed) :
      Happens navigation (navigation.finish performed .pending)

/-! ## A drive at one go -/

/-- Let the subscriber drive the recorder until the drive is over, with nobody
else acting. -/
def drive (navigation : Navigation State) : Navigation State :=
  let driven := navigation.session.controller.drive navigation.recorder
  { navigation with
    session :=
      { navigation.session with
        controller := driven.1
        received := navigation.session.received ++
          navigation.session.controller.driven }
    recorder := driven.2.1
    drives := navigation.drives ++
      [{ performed := navigation.session.controller.driven
         result := driven.2.2 }] }

theorem run_settle (navigation : Navigation State) :
    Relation.ReflTransGen Happens navigation
      { navigation with
        session :=
          { navigation.session with
            controller := navigation.session.controller.settle } } := by
  obtain ⟨⟨controller, accepted, received⟩, recorder, drives, underWay, lost⟩ :=
    navigation
  simp only
  fun_induction Controller.settle controller with
  | case1 controller resting => exact .refl
  | case2 controller after stepped ih =>
      have kept := (Controller.steps_of_step? stepped).subscription_eq
      exact .head (.others (.work stepped) rfl kept) ih

/-- Waiting for an action comes to letting the worker run, if nothing is in
the channel, and taking what is there then. -/
theorem run_next (navigation : Navigation State) {rest : Controller State}
    {action : Action State}
    (read : navigation.session.controller.next = (rest, .action action)) :
    ∃ ready : Controller State,
      ready.channel = action :: rest.channel ∧
        rest = { ready with channel := rest.channel } ∧
        Relation.ReflTransGen Happens navigation
          { navigation with
            session := { navigation.session with controller := ready } } := by
  have taken {ready : Controller State}
      (present : ready.tryNext = (rest, some action)) :
      ready.channel = action :: rest.channel ∧
        rest = { ready with channel := rest.channel } := by
    unfold Controller.tryNext at present
    split at present
    next => cases present
    next head tail filled =>
      cases present
      exact ⟨filled, rfl⟩
  unfold Controller.next at read
  split at read
  next present =>
    cases read
    obtain ⟨filled, kept⟩ := taken present
    exact ⟨navigation.session.controller, filled, kept, .refl⟩
  next =>
    simp only at read
    split at read
    next present =>
      cases read
      obtain ⟨filled, kept⟩ := taken present
      exact ⟨_, filled, kept, navigation.run_settle⟩
    next => split at read <;> cases read

private theorem run_drive_from (controller : Controller State)
    (accepted : List Trigger) (received performed : List (Action State))
    (recorder : Recorder State) (drives : List (Drive State))
    (lost : List (Action State)) :
    Relation.ReflTransGen Happens
      { session := { controller, accepted, received }
        recorder, drives, underWay := some performed, lost }
      { session :=
          { controller := (controller.drive recorder).1
            accepted, received := received ++ controller.driven }
        recorder := (controller.drive recorder).2.1
        drives := drives ++
          [{ performed := performed ++ controller.driven
             result := (controller.drive recorder).2.2 }]
        underWay := none, lost } := by
  fun_induction Controller.drive controller recorder
    generalizing received performed with
  | case1 controller recorder rest ended =>
      obtain ⟨rfl, drained, stops⟩ := Controller.next_in_vain ended rfl
      have stopped := Controller.isStopped_iff.mp (stops.mp rfl)
      rw [Controller.driven_of_action?_eq_none ended rfl, List.append_nil,
        List.append_nil]
      exact (run_settle _).tail (.runOut rfl drained stopped)
  | case2 controller recorder rest pending =>
      obtain ⟨rfl, -, -⟩ := Controller.next_in_vain pending rfl
      rw [Controller.driven_of_action?_eq_none pending rfl, List.append_nil,
        List.append_nil]
      exact (run_settle _).tail (.abandon rfl)
  | case3 controller recorder rest action read shown ending ends =>
      obtain ⟨ready, filled, kept, waited⟩ := run_next
        { session := { controller, accepted, received }
          recorder, drives, underWay := some performed, lost } read
      have finished := waited.tail (.finish rfl filled ends)
      rw [Controller.driven_of_action read, ends, kept]
      exact finished
  | case4 controller recorder rest action read shown onward ih =>
      obtain ⟨ready, filled, kept, waited⟩ := run_next
        { session := { controller, accepted, received }
          recorder, drives, underWay := some performed, lost } read
      have performedOne := waited.tail (.goOn rfl filled onward)
      have later := ih (received ++ [action]) (performed ++ [action])
      simp only [List.append_assoc, List.singleton_append] at later
      rw [Controller.driven_of_action read, onward]
      refine performedOne.trans ?_
      simp only [perform, ← kept]
      exact later

/-- A drive at one go is a run in which nobody else acts but the worker. -/
theorem run_drive (navigation : Navigation State)
    (idle : navigation.underWay = none) :
    Relation.ReflTransGen Happens navigation navigation.drive := by
  obtain ⟨⟨controller, accepted, received⟩, recorder, drives, underWay, lost⟩ :=
    navigation
  cases idle
  exact .head (.begin rfl)
    (run_drive_from controller accepted received [] recorder drives lost)

end Navigation

end ScreenFlow
