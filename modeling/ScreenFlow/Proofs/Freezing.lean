import ScreenFlow.Proofs.Dropping

/-!
# What is left of a dropped controller

Whoever drops a controller lets go of it at once, and the stop of its worker
takes effect some time later.  From then on the controller is frozen: handles
may still be cloned, asked and dropped, and the subscriber may still read, but
nothing moves any more except that what was in the channel is read.
`Session.Frozen` says so of one session seen from another; every happening
keeps it.
-/

namespace ScreenFlow

variable {State : Type} [DecidableEq State] [Flow State]

namespace Controller

/-- Stop the worker where it is.  Its queue and what it has in its hand are
lost. -/
def halt (controller : Controller State) : Controller State :=
  { controller with queue := [], worker := .stopped }

omit [DecidableEq State] [Flow State] in
theorem abort_eq (controller : Controller State) :
    controller.abort = controller.release.halt := rfl

section

variable {controller after : Controller State}
  (stopped : controller.worker = .stopped)
include stopped

theorem not_steps_of_stopped : ¬ controller.Steps after := by
  intro steps
  cases steps with
  | obey receiving => cases stopped.symm.trans receiving
  | deliver sending => cases stopped.symm.trans sending
  | discard sending => cases stopped.symm.trans sending
  | stop receiving => cases stopped.symm.trans receiving

theorem step?_of_stopped : controller.step? = none := by
  unfold step?
  rw [stopped]

/-- Reading takes actions off the channel of a stopped worker and changes
nothing else. -/
theorem Yields.of_stopped {actions : List (Action State)}
    (yields : controller.Yields actions after) :
    after = { controller with channel := after.channel } ∧
      controller.channel = actions ++ after.channel := by
  induction yields with
  | refl => exact ⟨rfl, rfl⟩
  | @work actions between after earlier stepped ih =>
      have still : between.worker = .stopped := by
        rw [ih.1]
        exact stopped
      exact absurd stepped (not_steps_of_stopped still)
  | pop earlier filled ih =>
      obtain ⟨kept, split⟩ := ih
      refine ⟨?_, by simp [split, filled]⟩
      rw [kept]

omit [DecidableEq State] [Flow State] in
theorem send_of_stopped (trigger : Trigger) :
    controller.send trigger =
      if trigger.command? = none then .ok controller else .error .closed := by
  have closed := isStopped_iff.mpr stopped
  unfold send
  cases trigger.command? <;> simp [closed]

theorem next_of_stopped :
    (∀ action rest, controller.channel = action :: rest →
      controller.next =
        ({ controller with channel := rest }, .action action)) ∧
      (controller.channel = [] → controller.next = (controller, .ended)) := by
  constructor
  · intro action rest filled
    simp [next, tryNext, filled]
  · intro drained
    rw [next_of_resting (step?_of_stopped stopped) drained,
      isStopped_iff.mpr stopped]
    rfl

theorem readAll_of_stopped :
    controller.readAll.2 = controller.channel ∧
      controller.readAll.1.next = (controller.readAll.1, .ended) := by
  have yields := controller.yields_readAll
  obtain ⟨kept, split⟩ := yields.of_stopped stopped
  obtain ⟨-, drained⟩ := controller.rests_readAll
  have still : controller.readAll.1.worker = .stopped := by
    rw [kept]
    exact stopped
  exact ⟨by simpa [drained] using split.symm,
    (next_of_stopped still).2 drained⟩

end

end Controller

namespace Session

/-- The session once the worker has been stopped. -/
def halt (session : Session State) : Session State :=
  { session with controller := session.controller.halt }

/-- The owner of a session drops the controller, and the stop of the worker
takes effect when the session has come to `last`.  Anything may happen in
between. -/
structure DropsUntil (session last : Session State) : Prop where
  owned : session.controller.isOwned = true
  meanwhile : Relation.ReflTransGen Happens session.release last

/-- A session that has come from another one whose worker had been stopped. -/
structure Frozen (stopped later : Session State) : Prop where
  published_eq : later.controller.published = stopped.controller.published
  machine_eq : later.controller.machine = stopped.controller.machine
  worker_eq : later.controller.worker = .stopped
  queue_eq : later.controller.queue = []
  unowned : later.controller.isOwned = false
  commands_eq : later.commands = stopped.commands
  /-- What is read was in the channel when the worker was stopped. -/
  received_prefix :
    later.received <+: stopped.received ++ stopped.controller.channel
  unread_eq : later.controller.subscription ≠ .dropped →
    later.received ++ later.controller.channel =
      stopped.received ++ stopped.controller.channel

section

variable {session stopped later after : Session State}

omit [DecidableEq State] [Flow State] in
theorem frozen_halt (unowned : session.controller.isOwned = false) :
    session.halt.Frozen session.halt where
  published_eq := rfl
  machine_eq := rfl
  worker_eq := rfl
  queue_eq := rfl
  unowned := unowned
  commands_eq := rfl
  received_prefix := List.prefix_append _ _
  unread_eq _ := rfl

theorem Happens.frozen (happens : later.Happens after)
    (frozen : stopped.Frozen later) : stopped.Frozen after := by
  obtain ⟨published, machine, idle, drained, unowned, commands, known,
    unread⟩ := id frozen
  cases happens with
  | work stepped =>
      exact absurd (Controller.steps_of_step? stepped)
        (Controller.not_steps_of_stopped idle)
  | openHandle =>
      exact ⟨published, machine, idle, drained, unowned, commands, known,
        unread⟩
  | dropHandle =>
      exact ⟨published, machine, idle, drained, unowned, commands, known,
        unread⟩
  | @send trigger after held sent =>
      obtain ⟨moved, refused⟩ := Controller.eq_of_send sent
      have nothing := refused (Controller.isStopped_iff.mpr idle)
      subst moved
      refine ⟨published, machine, idle, by simp [drained, nothing], unowned,
        ?_, known, unread⟩
      simpa [Session.commands, nothing] using commands
  | takeActions owned => exact absurd owned (by simp [unowned])
  | @read moved actions taken reads =>
      obtain ⟨kept, split⟩ := reads.yields.of_stopped idle
      have whole : later.received ++ actions ++ moved.channel =
          stopped.received ++ stopped.controller.channel := by
        rw [← unread (by simp [taken]), split, List.append_assoc]
      rw [kept]
      exact ⟨published, machine, idle, drained, unowned, commands,
        ⟨_, whole⟩, fun _ => whole⟩
  | dropActions =>
      exact ⟨published, machine, idle, drained, unowned, commands, known,
        fun held => absurd rfl held⟩
  | release owned => exact absurd owned (by simp [unowned])

theorem Frozen.of_run (begins : stopped.Frozen stopped)
    (run : Relation.ReflTransGen Happens stopped later) :
    stopped.Frozen later := by
  induction run with
  | refl => exact begins
  | tail _ happens ih => exact happens.frozen ih

theorem DropsUntil.released {last : Session State}
    (drops : session.DropsUntil last) : last.Released := by
  obtain ⟨-, meanwhile⟩ := drops
  induction meanwhile with
  | refl => exact released_release session
  | tail _ happens ih => exact happens.released ih

theorem DropsUntil.reachable {machine : Machine State} {buffer : Nat}
    {last : Session State} (drops : session.DropsUntil last)
    (reached : Reachable machine buffer session) :
    Reachable machine buffer last :=
  (reached.tail (.release drops.owned)).trans drops.meanwhile

end

/-- A controller that is dropped freezes when the stop of its worker takes
effect.  The history that handles see is that of the commands obeyed by then,
and stays the same whatever happens later.  Nothing is read any more but what
was in the channel at that moment: a subscriber who still holds the stream
finds just that, in order, and then the end.  So the action that was waiting
for room and the actions of the commands that were queued are never seen.
Handles that are left refuse every trigger but idle signals. -/
theorem frozen_once_dropped (machine : Machine State) (buffer : Nat)
    {session last later : Session State}
    (reached : Reachable machine buffer session)
    (drops : session.DropsUntil last)
    (continued : Relation.ReflTransGen Happens last.halt later) :
    later.controller.published = last.controller.published ∧
      (∃ done, last.commands = done ++ last.controller.queue ∧
        last.controller.published = (machine.obeyAll done).1.history ∧
        (last.controller.subscription ≠ .dropped →
          last.received ++ last.controller.channel ++
              last.controller.worker.inHand?.toList =
            (machine.obeyAll done).2)) ∧
      later.commands = last.commands ∧
      later.received <+: last.received ++ last.controller.channel ∧
      (later.controller.subscription ≠ .dropped →
        later.received ++ later.controller.channel =
            last.received ++ last.controller.channel ∧
          later.controller.readAll.2 = later.controller.channel ∧
          later.controller.readAll.1.next =
            (later.controller.readAll.1, .ended)) ∧
      later.controller.send .next = .error .closed ∧
      later.controller.send .back = .error .closed ∧
      ∀ signal, later.controller.send (.signal signal) =
        if signal.isIdle then .ok later.controller else .error .closed := by
  have frozen : last.halt.Frozen later :=
    (frozen_halt drops.released.unowned).of_run continued
  obtain ⟨done, paced⟩ := (drops.reachable reached).exists_paced
  have sends := Controller.send_of_stopped frozen.worker_eq
  refine ⟨frozen.published_eq, ⟨done, paced.commands_eq,
    paced.obeyed.published_eq_history, paced.obeyed.actions_eq⟩,
    frozen.commands_eq, frozen.received_prefix, ?_, sends .next, sends .back,
    ?_⟩
  · intro held
    exact ⟨frozen.unread_eq held,
      Controller.readAll_of_stopped frozen.worker_eq⟩
  · intro signal
    rw [sends]
    cases idle : signal.isIdle <;> simp [Trigger.command?, idle]

/-- A withdrawal is dropped when one action is in the channel, which is full
then.  The worker goes on to obey the second of three commands before its stop
takes effect.  Then the handle is cloned and the action is read. -/
theorem frozen_once_dropped_withdrawal :
    ∃ session last later : Session CustodyWithdrawal,
      Reachable (Machine.start CustodyWithdrawal.table) 1 session ∧
        session.DropsUntil last ∧
        Relation.ReflTransGen Happens last.halt later ∧
        last.controller.queue = [.advance] ∧
        last.controller.worker = .sending (.advance .summary) ∧
        later.received = [.advance .withdrawal] ∧
        later.controller.published = last.controller.published ∧
        later.controller.readAll.2 = [] ∧
        later.controller.readAll.1.next =
          (later.controller.readAll.1, .ended) ∧
        later.controller.send .next = .error .closed := by
  have taken : Reachable (Machine.start CustodyWithdrawal.table) 1 _ :=
    .single (.takeActions rfl rfl)
  have opened := taken.tail (.openHandle rfl)
  have first := opened.tail (@Happens.send _ _ _ _ .next _ (by decide) rfl)
  have second := first.tail (@Happens.send _ _ _ _ .next _ (by decide) rfl)
  have third := second.tail (@Happens.send _ _ _ _ .next _ (by decide) rfl)
  have obeyed := third.tail (.work rfl)
  let session : Session CustodyWithdrawal :=
    { controller :=
        { machine := ((Machine.start CustodyWithdrawal.table).obey .advance).1
          published := { current := .withdrawal, previous := [.start] }
          queue := [.advance, .advance]
          worker := .receiving
          channel := [.advance .withdrawal]
          capacity := 1
          capacity_pos := Nat.one_pos
          subscription := .taken
          isOwned := true
          handles := 1 }
      accepted := [.next, .next, .next]
      received := [] }
  have reached : Reachable (Machine.start CustodyWithdrawal.table) 1 session :=
    obeyed.tail (.work rfl)
  let last : Session CustodyWithdrawal :=
    { session with
      controller :=
        { session.controller with
          machine := (session.controller.machine.obey .advance).1
          published :=
            { current := .summary, previous := [.start, .withdrawal] }
          queue := [.advance]
          worker := .sending (.advance .summary)
          isOwned := false } }
  have drops : session.DropsUntil last := ⟨rfl, .single (.work rfl)⟩
  have cloned : Relation.ReflTransGen Happens last.halt _ :=
    .single (.openHandle rfl)
  have continued := cloned.tail (.read rfl .tryNext)
  obtain ⟨published, -, -, -, unread, refused, -⟩ :=
    frozen_once_dropped _ 1 reached drops continued
  obtain ⟨-, rest, ends⟩ := unread (by decide)
  exact ⟨session, last, _, reached, drops, continued, rfl, rfl, rfl,
    published, rest, ends, refused⟩

end Session

end ScreenFlow
