import ScreenFlow.Catalog
import ScreenFlow.Proofs.Session

/-!
# Every accepted trigger leads to its action

What a controller owes its subscriber is spread over three places: the
channel, the action in the worker's hand, and the queue of commands that the
machine has yet to obey.  `Controller.outstanding` puts them in order.  The
worker moves actions from one place to the next and the subscriber takes them
away at the front, so what has been received and what is outstanding are
together what the machine answers to the accepted triggers.
-/

namespace ScreenFlow

variable {State : Type} [DecidableEq State] [Flow State]

namespace Controller

/-- The actions that the subscriber will get if nobody sends any more. -/
def outstanding (controller : Controller State) : List (Action State) :=
  controller.channel ++ controller.worker.inHand?.toList ++
    (controller.machine.obeyAll controller.queue).2

/-- The machine as it will be when the queue has been worked off. -/
def destination (controller : Controller State) : Machine State :=
  (controller.machine.obeyAll controller.queue).1

/-- A worker stops only when nobody is left who could send. -/
def Staffed (controller : Controller State) : Prop :=
  controller.isStopped = true → controller.hasSender = false

omit [DecidableEq State] [Flow State] in
theorem Staffed.isStopped_eq_false {controller : Controller State}
    (staffed : controller.Staffed) (manned : controller.hasSender = true) :
    controller.isStopped = false := by
  cases stopped : controller.isStopped with
  | false => rfl
  | true => exact absurd manned (by simpa using staffed stopped)

/-! ## Steps of the worker -/

theorem Steps.destination_eq {controller after : Controller State}
    (stepped : controller.Steps after) :
    after.destination = controller.destination := by
  cases stepped with
  | obey receiving queued => simp [destination, queued]
  | deliver => rfl
  | discard => rfl
  | stop => rfl

theorem Steps.outstanding_eq {controller after : Controller State}
    (stepped : controller.Steps after)
    (held : controller.subscription ≠ .dropped) :
    after.outstanding = controller.outstanding := by
  cases stepped with
  | obey receiving queued =>
      simp [outstanding, queued, receiving, Worker.inHand?]
  | deliver sending => simp [outstanding, sending, Worker.inHand?]
  | discard sending dropped => exact absurd dropped held
  | stop receiving drained =>
      simp [outstanding, receiving, Worker.inHand?]

theorem Steps.staffed {controller after : Controller State}
    (stepped : controller.Steps after) : after.Staffed := by
  cases stepped with
  | obey => simp [Staffed, isStopped]
  | deliver => simp [Staffed, isStopped]
  | discard => simp [Staffed, isStopped]
  | stop receiving drained deserted => exact fun _ => deserted

theorem Steps.subscription_eq {controller after : Controller State}
    (stepped : controller.Steps after) :
    after.subscription = controller.subscription := by
  cases stepped <;> rfl

/-! ## Reading -/

theorem Yields.subscription_eq {controller after : Controller State}
    {actions : List (Action State)}
    (yields : controller.Yields actions after) :
    after.subscription = controller.subscription := by
  induction yields with
  | refl => rfl
  | work _ stepped ih => exact stepped.subscription_eq.trans ih
  | pop _ _ ih => exact ih

theorem Yields.destination_eq {controller after : Controller State}
    {actions : List (Action State)}
    (yields : controller.Yields actions after) :
    after.destination = controller.destination := by
  induction yields with
  | refl => rfl
  | work _ stepped ih => exact stepped.destination_eq.trans ih
  | pop _ _ ih => exact ih

theorem Yields.outstanding_eq {controller after : Controller State}
    {actions : List (Action State)}
    (yields : controller.Yields actions after)
    (held : controller.subscription ≠ .dropped) :
    controller.outstanding = actions ++ after.outstanding := by
  induction yields with
  | refl => rfl
  | work earlier stepped ih =>
      rw [ih, stepped.outstanding_eq (by rwa [earlier.subscription_eq])]
  | pop _ filled ih =>
      rw [ih]
      simp [outstanding, filled]

theorem Yields.staffed {controller after : Controller State}
    {actions : List (Action State)}
    (yields : controller.Yields actions after)
    (staffed : controller.Staffed) : after.Staffed := by
  induction yields with
  | refl => exact staffed
  | work _ stepped _ => exact stepped.staffed
  | pop _ _ ih => exact ih

/-! ## Sending -/

theorem outstanding_of_send {controller after : Controller State}
    {trigger : Trigger} (sent : controller.send trigger = .ok after) :
    after.destination = (controller.destination.run [trigger]).1 ∧
      after.outstanding =
        controller.outstanding ++ (controller.destination.run [trigger]).2 ∧
      after.subscription = controller.subscription := by
  unfold send at sent
  split at sent
  next idle =>
    cases sent
    simp [Machine.run, idle]
  next command told =>
    split at sent
    next => cases sent
    next =>
      cases sent
      simp [Machine.run, told, outstanding, destination,
        Machine.obeyAll_append]

omit [DecidableEq State] [Flow State] in
theorem send_of_staffed {controller : Controller State}
    (staffed : controller.Staffed) (held : 0 < controller.handles)
    (trigger : Trigger) :
    ∃ after, controller.send trigger = .ok after := by
  have working := staffed.isStopped_eq_false (by simp [hasSender, held])
  unfold send
  split
  next => exact ⟨_, rfl⟩
  next => exact ⟨_, by simp only [working, Bool.false_eq_true, if_false]; rfl⟩

omit [DecidableEq State] [Flow State] in
theorem staffed_of_send {controller after : Controller State}
    {trigger : Trigger} (staffed : controller.Staffed)
    (sent : controller.send trigger = .ok after) : after.Staffed := by
  unfold send at sent
  split at sent
  next => cases sent; exact staffed
  next =>
    split at sent
    next => cases sent
    next => cases sent; exact staffed

end Controller

namespace Session

/-- The books of a session balance. -/
structure Balanced (machine : Machine State) (session : Session State) :
    Prop where
  destination_eq : session.controller.destination =
    (machine.run session.accepted).1
  outstanding_eq : session.controller.subscription ≠ .dropped →
    session.received ++ session.controller.outstanding =
      (machine.run session.accepted).2
  staffed : session.controller.Staffed

theorem balanced_start (machine : Machine State) (buffer : Nat) :
    (start machine buffer).Balanced machine where
  destination_eq := rfl
  outstanding_eq _ := rfl
  staffed stopped := by cases stopped

/-- Whatever happens, the books still balance. -/
theorem Happens.balanced {machine : Machine State}
    {session after : Session State} (happens : session.Happens after)
    (balanced : session.Balanced machine) : after.Balanced machine := by
  obtain ⟨destination, outstanding, staffed⟩ := balanced
  cases happens with
  | work stepped =>
      have steps := Controller.steps_of_step? stepped
      refine ⟨steps.destination_eq.trans destination, ?_, steps.staffed⟩
      intro held
      simp only [steps.subscription_eq] at held
      simpa [steps.outstanding_eq held] using outstanding held
  | openHandle given =>
      refine ⟨destination, outstanding, fun stopped => ?_⟩
      exact absurd given (by simpa using staffed stopped)
  | dropHandle held =>
      refine ⟨destination, outstanding, fun stopped => ?_⟩
      exact absurd (staffed stopped) (by simp [Controller.hasSender, held])
  | @send trigger after held sent =>
      obtain ⟨moved, grown, kept⟩ := Controller.outstanding_of_send sent
      refine ⟨?_, ?_, Controller.staffed_of_send staffed sent⟩
      · simp only [Machine.run_append, moved, destination]
      · intro connected
        simp only [kept] at connected
        simp only [Machine.run_append, grown, destination,
          ← outstanding connected, List.append_assoc]
  | takeActions owned taken =>
      unfold Controller.takeActions at taken
      split at taken
      next untaken =>
        cases taken
        exact ⟨destination, fun _ => outstanding (by simp [untaken]),
          staffed⟩
      all_goals cases taken
  | read taken reads =>
      have yields := reads.yields
      have held : session.controller.subscription ≠ .dropped := by
        simp [taken]
      refine ⟨yields.destination_eq.trans destination, fun _ => ?_,
        yields.staffed staffed⟩
      rw [← outstanding held, yields.outstanding_eq held]
      simp
  | dropActions taken =>
      exact ⟨destination, fun held => absurd rfl held, staffed⟩
  | release owned =>
      have working : session.controller.isStopped = false :=
        staffed.isStopped_eq_false (by simp [Controller.hasSender, owned])
      rcases session.controller.release_cases with
        ⟨untaken, released⟩ | ⟨_, released⟩
      · rw [released]
        exact ⟨destination, fun held => absurd rfl held,
          fun stopped => absurd (working.symm.trans stopped) (by simp)⟩
      · rw [released]
        exact ⟨destination, outstanding,
          fun stopped => absurd (working.symm.trans stopped) (by simp)⟩

theorem Reachable.balanced {machine : Machine State} {buffer : Nat}
    {session : Session State} (reached : Reachable machine buffer session) :
    session.Balanced machine := by
  induction reached with
  | refl => exact balanced_start machine buffer
  | tail _ happens ih => exact happens.balanced ih

/-- Nothing that was accepted is lost, doubled or reordered: whatever the
handles, the worker and the subscriber have done, what the subscriber has
received, what is in the channel, what the worker holds in its hand and what
the machine will answer to the queue are together its answers to the accepted
triggers, in their order.  And nothing is refused while a handle is alive. -/
theorem received_append_outstanding (machine : Machine State) (buffer : Nat)
    {session : Session State} (reached : Reachable machine buffer session)
    (held : session.controller.subscription ≠ .dropped) :
    session.received ++ session.controller.channel ++
        session.controller.worker.inHand?.toList ++
        (session.controller.machine.obeyAll session.controller.queue).2 =
      (machine.run session.accepted).2 ∧
    (0 < session.controller.handles → ∀ trigger,
      ∃ after, session.controller.send trigger = .ok after) := by
  have balanced := reached.balanced
  refine ⟨?_, Controller.send_of_staffed balanced.staffed⟩
  rw [← balanced.outstanding_eq held]
  simp [Controller.outstanding]

/-- A subscriber that has read one action while the worker, which had found the
channel full, holds the next one. -/
theorem received_append_outstanding_backup :
    ∃ session : Session BackupFunds,
      Reachable (Machine.start BackupFunds.table) 0 session ∧
        session.controller.subscription ≠ .dropped ∧
        session.accepted = [.next, .signal (.backup .unknown), .next] ∧
        session.received = [.advance .backupFunds] ∧
        session.received ++ session.controller.channel ++
            session.controller.worker.inHand?.toList ++
            (session.controller.machine.obeyAll
              session.controller.queue).2 =
          [.advance .backupFunds, .advance .recoveryPhrase] := by
  have taken : Reachable (Machine.start BackupFunds.table) 0 _ :=
    .single (.takeActions rfl rfl)
  have opened := taken.tail (.openHandle rfl)
  have sent := opened.tail (@Happens.send _ _ _ _ .next _ (by decide) rfl)
  have ignored := sent.tail
    (@Happens.send _ _ _ _ (.signal (.backup .unknown)) _ (by decide) rfl)
  have again := ignored.tail (@Happens.send _ _ _ _ .next _ (by decide) rfl)
  have obeyed := again.tail (.work rfl)
  have delivered := obeyed.tail (.work rfl)
  have blocked := delivered.tail (.work rfl)
  have read := blocked.tail (.read rfl .tryNext)
  exact ⟨_, read, by decide, rfl, rfl,
    (received_append_outstanding _ 0 read (by decide)).1⟩

end Session

end ScreenFlow
