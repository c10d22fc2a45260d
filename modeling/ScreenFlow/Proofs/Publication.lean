import ScreenFlow.Proofs.Conservation

/-!
# How far the published history is ahead

The worker publishes the history of a transition before the action that
belongs to it enters the channel.  `Controller.HasObeyed` says which commands
a controller has behind it: its machine and its published history have come
that far, and their actions are the ones that have been read, those in the
channel and the one in the worker's hand.  A channel never holds more than its
capacity, so the history is ahead of the subscriber by at most one action more
than that, and nothing but a full channel keeps the worker from its queue.
-/

namespace ScreenFlow

namespace Machine

variable {State : Type} [DecidableEq State] [Flow State]

theorem length_obeyAll (machine : Machine State) (commands : List Command) :
    (machine.obeyAll commands).2.length = commands.length := by
  induction commands generalizing machine with
  | nil => rfl
  | cons command rest ih => simp [ih]

theorem take_obeyAll (machine : Machine State) (commands : List Command)
    (count : Nat) :
    (machine.obeyAll commands).2.take count =
      (machine.obeyAll (commands.take count)).2 := by
  induction commands generalizing machine count with
  | nil => simp
  | cons command rest ih =>
      cases count with
      | zero => rfl
      | succ count => simp [ih]

end Machine

namespace Controller

section

variable {State : Type} {controller : Controller State}

/-- The number of actions that are published and wait for room in the
channel. -/
def waiting (controller : Controller State) : Nat :=
  controller.worker.inHand?.toList.length

theorem waiting_of_sending {action : Action State}
    (sending : controller.worker = .sending action) :
    controller.waiting = 1 := by
  simp [waiting, sending, Worker.inHand?]

theorem waiting_le_one (controller : Controller State) :
    controller.waiting ≤ 1 := by
  unfold waiting
  cases controller.worker.inHand? <;> simp

theorem isStopped_iff :
    controller.isStopped = true ↔ controller.worker = .stopped := by
  cases busy : controller.worker <;> simp [isStopped, busy]

/-- A trigger that is accepted adds at most one command to the queue.  Once
the worker has stopped, only a trigger that tells nothing is accepted. -/
theorem eq_of_send {trigger : Trigger} {after : Controller State}
    (sent : controller.send trigger = .ok after) :
    after =
        { controller with
          queue := controller.queue ++ trigger.command?.toList } ∧
      (controller.isStopped = true → trigger.command? = none) := by
  unfold send at sent
  split at sent
  next idle =>
    cases sent
    simp [idle]
  next command told =>
    split at sent
    next => cases sent
    next working =>
      cases sent
      exact ⟨by simp [told], fun stopped => absurd stopped working⟩

end

variable {State : Type} [DecidableEq State] [Flow State]
variable {controller after : Controller State}

/-! ## Why a worker rests -/

/-- A worker that can do nothing more has stopped, or waits for room in the
channel, or waits for a command. -/
theorem rest_cases (resting : controller.step? = none) :
    controller.worker = .stopped ∨
      (∃ action, controller.worker = .sending action ∧
        controller.subscription ≠ .dropped ∧
        controller.capacity ≤ controller.channel.length) ∨
      (controller.worker = .receiving ∧ controller.queue = [] ∧
        controller.hasSender = true) := by
  unfold step? at resting
  split at resting
  next stopped => exact .inl stopped
  next action sending =>
    split at resting
    next => cases resting
    next held =>
      split at resting
      next => cases resting
      next full =>
        have filled : controller.capacity ≤ controller.channel.length := by
          simpa [hasRoom] using full
        exact .inr (.inl ⟨action, sending, held, filled⟩)
  next receiving =>
    split at resting
    next => cases resting
    next drained =>
      split at resting
      next manned => exact .inr (.inr ⟨receiving, drained, manned⟩)
      next => cases resting

/-! ## The channel and the end of the queue -/

/-- The channel holds no more than it may, and a worker that stops leaves
nothing in the queue. -/
structure IsRegular (controller : Controller State) : Prop where
  fits : controller.channel.length ≤ controller.capacity
  drained : controller.worker = .stopped → controller.queue = []

theorem Steps.capacity_eq (stepped : controller.Steps after) :
    after.capacity = controller.capacity := by
  cases stepped <;> rfl

theorem Steps.isRegular (stepped : controller.Steps after)
    (regular : controller.IsRegular) : after.IsRegular := by
  obtain ⟨fits, drained⟩ := regular
  cases stepped with
  | obey => exact ⟨fits, nofun⟩
  | deliver sending held room =>
      constructor
      · have free : controller.channel.length < controller.capacity := by
          simpa [hasRoom] using room
        simpa using Nat.succ_le_of_lt free
      · nofun
  | discard => exact ⟨fits, nofun⟩
  | stop receiving empty => exact ⟨fits, fun _ => empty⟩

theorem Yields.capacity_eq {actions : List (Action State)}
    (yields : controller.Yields actions after) :
    after.capacity = controller.capacity := by
  induction yields with
  | refl => rfl
  | work _ stepped ih => exact stepped.capacity_eq.trans ih
  | pop _ _ ih => exact ih

theorem Yields.isRegular {actions : List (Action State)}
    (yields : controller.Yields actions after)
    (regular : controller.IsRegular) : after.IsRegular := by
  induction yields with
  | refl => exact regular
  | work _ stepped ih => exact stepped.isRegular ih
  | pop _ filled ih =>
      constructor
      · have shorter := ih.fits
        rw [filled] at shorter
        exact Nat.le_of_succ_le shorter
      · exact ih.drained

/-! ## What has been obeyed -/

/-- The controller has made `machine` obey the commands `done`, and the actions
`gone` have been read from it.  What became of the others is not known once
the reading end is dropped. -/
structure HasObeyed (machine : Machine State) (done : List Command)
    (gone : List (Action State)) (controller : Controller State) : Prop where
  machine_eq : controller.machine = (machine.obeyAll done).1
  published_eq : controller.published = controller.machine.history
  actions_eq : controller.subscription ≠ .dropped →
    gone ++ controller.channel ++ controller.worker.inHand?.toList =
      (machine.obeyAll done).2

section

variable {machine : Machine State} {done : List Command}
variable {gone : List (Action State)}

theorem HasObeyed.published_eq_history
    (obeyed : controller.HasObeyed machine done gone) :
    controller.published = (machine.obeyAll done).1.history := by
  rw [obeyed.published_eq, obeyed.machine_eq]

theorem Steps.hasObeyed (stepped : controller.Steps after)
    (obeyed : controller.HasObeyed machine done gone) :
    ∃ newly, controller.queue = newly ++ after.queue ∧
      after.HasObeyed machine (done ++ newly) gone := by
  obtain ⟨reached, published, actions⟩ := obeyed
  cases stepped with
  | @obey command rest receiving queued =>
      refine ⟨[command], queued, ?_, rfl, ?_⟩
      · simp [Machine.obeyAll_append, reached]
      · intro held
        have earlier := actions held
        rw [receiving] at earlier
        simp only [Worker.inHand?, Option.toList_none,
          List.append_nil] at earlier
        simp [Machine.obeyAll_append, ← earlier, ← reached, Worker.inHand?]
  | deliver sending =>
      refine ⟨[], rfl, by simpa using reached, published, ?_⟩
      intro held
      simpa [sending, Worker.inHand?] using actions held
  | discard sending dropped =>
      refine ⟨[], rfl, by simpa using reached, published, ?_⟩
      intro held
      exact absurd dropped held
  | stop receiving =>
      refine ⟨[], rfl, by simpa using reached, published, ?_⟩
      intro held
      simpa [receiving, Worker.inHand?] using actions held

theorem Yields.hasObeyed {read : List (Action State)}
    (yields : controller.Yields read after)
    (obeyed : controller.HasObeyed machine done gone) :
    ∃ newly, controller.queue = newly ++ after.queue ∧
      after.HasObeyed machine (done ++ newly) (gone ++ read) := by
  induction yields with
  | refl => exact ⟨[], rfl, by simpa using obeyed⟩
  | work _ stepped ih =>
      obtain ⟨earlier, taken, halfway⟩ := ih
      obtain ⟨newly, takenNow, now⟩ := stepped.hasObeyed halfway
      refine ⟨earlier ++ newly, ?_, by simpa using now⟩
      rw [taken, takenNow, List.append_assoc]
  | pop _ filled ih =>
      obtain ⟨newly, taken, reached, published, actions⟩ := ih
      refine ⟨newly, taken, reached, published, ?_⟩
      intro held
      simpa [filled] using actions held

end

end Controller

namespace Session

variable {State : Type} [DecidableEq State] [Flow State]

/-- The session once its owner has begun to close it. -/
def release (session : Session State) : Session State :=
  { session with controller := session.controller.release }

/-- The commands that were accepted, oldest first. -/
def commands (session : Session State) : List Command :=
  session.accepted.filterMap Trigger.command?

theorem run_accepted (machine : Machine State) (session : Session State) :
    machine.run session.accepted = machine.obeyAll session.commands := rfl

/-- The session has made `machine` obey the commands `done` and no others; all
that was accepted after them is in the queue. -/
structure Paced (machine : Machine State) (buffer : Nat)
    (done : List Command) (session : Session State) : Prop where
  commands_eq : session.commands = done ++ session.controller.queue
  obeyed : session.controller.HasObeyed machine done session.received
  capacity_eq : session.controller.capacity = max buffer 1
  regular : session.controller.IsRegular

theorem paced_start (machine : Machine State) (buffer : Nat) :
    (start machine buffer).Paced machine buffer [] where
  commands_eq := rfl
  obeyed := ⟨rfl, rfl, fun _ => rfl⟩
  capacity_eq := rfl
  regular := ⟨Nat.zero_le _, nofun⟩

section

variable {machine : Machine State} {buffer : Nat}
variable {session after : Session State}

theorem Paced.of_yields {done : List Command}
    (paced : session.Paced machine buffer done)
    {moved : Controller State} {read : List (Action State)}
    (yields : session.controller.Yields read moved) :
    ∃ newly, ({ session with
        controller := moved
        received := session.received ++ read } : Session State).Paced
          machine buffer (done ++ newly) := by
  obtain ⟨newly, taken, obeyed⟩ := yields.hasObeyed paced.obeyed
  refine ⟨newly, ?_, obeyed, ?_, yields.isRegular paced.regular⟩
  · rw [List.append_assoc, ← taken]
    exact paced.commands_eq
  · exact yields.capacity_eq.trans paced.capacity_eq

theorem Paced.with_holders {done : List Command}
    (paced : session.Paced machine buffer done) (handles : Nat)
    (isOwned : Bool) {subscription : Subscription}
    (kept : subscription ≠ .dropped →
      session.controller.subscription ≠ .dropped) :
    ({ session with
        controller := { session.controller with
          handles, isOwned, subscription } } : Session State).Paced
      machine buffer done := by
  obtain ⟨commands, obeyed, capacity, regular⟩ := paced
  refine ⟨commands, ⟨obeyed.machine_eq, obeyed.published_eq, ?_⟩, capacity,
    regular.fits, regular.drained⟩
  intro held
  exact obeyed.actions_eq (kept held)

theorem Paced.with_dropped_actions {done : List Command}
    (paced : session.Paced machine buffer done) (isOwned : Bool) :
    ({ session with
        controller := { session.controller with
          isOwned, subscription := .dropped, channel := [] } } :
      Session State).Paced machine buffer done := by
  obtain ⟨commands, obeyed, capacity, regular⟩ := paced
  refine ⟨commands, ⟨obeyed.machine_eq, obeyed.published_eq, ?_⟩, capacity,
    Nat.zero_le _, regular.drained⟩
  intro held
  exact absurd rfl held

theorem Paced.release {done : List Command}
    (paced : session.Paced machine buffer done) :
    session.release.Paced machine buffer done := by
  rcases session.controller.release_cases with
    ⟨_, released⟩ | ⟨_, released⟩
  · rw [Session.release, released]
    exact paced.with_dropped_actions false
  · rw [Session.release, released]
    exact paced.with_holders _ false id

/-- Whatever happens, the worker has obeyed a beginning of what was
accepted. -/
theorem Happens.paced (happens : session.Happens after) {done : List Command}
    (paced : session.Paced machine buffer done) :
    ∃ newly, after.Paced machine buffer (done ++ newly) := by
  -- Only the worker obeys, by itself or while the subscriber waits for it.
  have idly {after : Session State} (kept : after.Paced machine buffer done) :
      ∃ newly, after.Paced machine buffer (done ++ newly) :=
    ⟨[], by simpa using kept⟩
  cases happens with
  | work stepped =>
      have yields := Controller.Yields.refl.work
        (Controller.steps_of_step? stepped)
      simpa using paced.of_yields yields
  | read taken reads => exact paced.of_yields reads.yields
  | openHandle => exact idly (paced.with_holders _ _ id)
  | dropHandle => exact idly (paced.with_holders _ _ id)
  | @send trigger _ held sent =>
      apply idly
      obtain ⟨moved, refused⟩ := Controller.eq_of_send sent
      subst moved
      obtain ⟨commands, obeyed, capacity, regular⟩ := paced
      refine ⟨?_, ⟨obeyed.machine_eq, obeyed.published_eq,
        obeyed.actions_eq⟩, capacity, regular.fits, ?_⟩
      · simp only [Session.commands] at commands ⊢
        rw [List.filterMap_append, commands]
        cases told : trigger.command? <;> simp [told]
      · intro stopped
        have idle := refused (Controller.isStopped_iff.mpr stopped)
        simpa [idle] using regular.drained stopped
  | takeActions owned taken =>
      unfold Controller.takeActions at taken
      split at taken
      next untaken =>
        cases taken
        exact idly (paced.with_holders _ _ (by simp [untaken]))
      all_goals cases taken
  | dropActions taken => exact idly (paced.with_dropped_actions _)
  | release owned => exact idly paced.release

theorem Reachable.exists_paced (reached : Reachable machine buffer session) :
    ∃ done, session.Paced machine buffer done := by
  induction reached with
  | refl => exact ⟨[], paced_start machine buffer⟩
  | tail _ happens ih =>
      obtain ⟨done, paced⟩ := ih
      obtain ⟨newly, later⟩ := happens.paced paced
      exact ⟨done ++ newly, later⟩

end

/-! ## The subscriber's view -/

/-- The number of commands whose histories have been published, as it is seen
from the channel: the actions that have been read, those that could be, and
the one that waits for room. -/
def shown (session : Session State) : Nat :=
  session.received.length + session.controller.channel.length +
    session.controller.waiting

/-- The published history is that of the commands shown, and its actions are
the ones that have been read, those in the channel and the one that waits.
What has been read is behind it by no more than the channel holds and that
one. -/
structure InStep (machine : Machine State) (buffer : Nat)
    (session : Session State) : Prop where
  shown_le : session.shown ≤ session.commands.length
  published_eq : session.controller.published =
    (machine.obeyAll (session.commands.take session.shown)).1.history
  actions_eq : session.received ++ session.controller.channel ++
      session.controller.worker.inHand?.toList =
    (machine.obeyAll (session.commands.take session.shown)).2
  received_eq : session.received =
    (machine.obeyAll (session.commands.take session.received.length)).2
  length_channel_le : session.controller.channel.length ≤ max buffer 1
  waiting_le_one : session.controller.waiting ≤ 1
  received_le_shown : session.received.length ≤ session.shown
  shown_le_received : session.shown ≤
    session.received.length + (max buffer 1 + 1)

section

variable {machine : Machine State} {buffer : Nat} {session : Session State}
variable {done : List Command}

theorem Paced.shown_eq (paced : session.Paced machine buffer done)
    (held : session.controller.subscription ≠ .dropped) :
    session.shown = done.length := by
  have counted := congrArg List.length (paced.obeyed.actions_eq held)
  simpa [shown, Controller.waiting, Machine.length_obeyAll, Nat.add_assoc]
    using counted

theorem Paced.take_shown (paced : session.Paced machine buffer done)
    (held : session.controller.subscription ≠ .dropped) :
    session.commands.take session.shown = done := by
  rw [paced.shown_eq held, paced.commands_eq, List.take_left]

theorem Paced.inStep (paced : session.Paced machine buffer done)
    (held : session.controller.subscription ≠ .dropped) :
    session.InStep machine buffer := by
  have actions := paced.obeyed.actions_eq held
  have fits := paced.regular.fits
  rw [paced.capacity_eq] at fits
  have waits := session.controller.waiting_le_one
  constructor
  · rw [paced.shown_eq held, paced.commands_eq, List.length_append]
    exact Nat.le_add_right _ _
  · rw [paced.take_shown held]
    exact paced.obeyed.published_eq_history
  · rw [paced.take_shown held]
    exact actions
  · have shorter : session.received.length ≤ done.length := by
      rw [← paced.shown_eq held, shown]
      omega
    rw [paced.commands_eq, List.take_append_of_le_length shorter,
      ← Machine.take_obeyAll, ← actions, List.append_assoc, List.take_left]
  · exact fits
  · exact waits
  · rw [shown]
    omega
  · rw [shown]
    omega

/-- As long as somebody may read, only a full channel stops a worker that has
something to do. -/
theorem Paced.full_of_resting (paced : session.Paced machine buffer done)
    (resting : session.controller.step? = none)
    (unfinished : session.controller.queue ≠ [] ∨
      session.controller.waiting = 1) :
    session.controller.channel.length = max buffer 1 ∧
      session.controller.waiting = 1 := by
  rcases Controller.rest_cases resting with
    stopped | ⟨action, sending, _, full⟩ | ⟨receiving, drained, _⟩
  · have drained := paced.regular.drained stopped
    simp [drained, Controller.waiting, stopped, Worker.inHand?] at unfinished
  · have fits := paced.regular.fits
    rw [paced.capacity_eq] at fits full
    exact ⟨Nat.le_antisymm fits full, Controller.waiting_of_sending sending⟩
  · simp [drained, Controller.waiting, receiving, Worker.inHand?]
      at unfinished

/-- Without a reading end nothing stops a worker before its queue is empty. -/
theorem Paced.done_of_resting (paced : session.Paced machine buffer done)
    (resting : session.controller.step? = none)
    (dropped : session.controller.subscription = .dropped) :
    session.controller.queue = [] ∧ session.controller.waiting = 0 := by
  rcases Controller.rest_cases resting with
    stopped | ⟨_, _, held, _⟩ | ⟨receiving, drained, _⟩
  · have drained := paced.regular.drained stopped
    simp [drained, Controller.waiting, stopped, Worker.inHand?]
  · exact absurd dropped held
  · simp [drained, Controller.waiting, receiving, Worker.inHand?]

end

/-- The history that handles see is never further than one full channel and
one waiting action ahead of what the subscriber has read, and never behind it.
A worker that rests with work left has filled the channel and waits for room;
if the reading end was dropped, it rests only when all that was accepted has
been obeyed and published. -/
theorem published_in_step (machine : Machine State) (buffer : Nat)
    {session : Session State} (reached : Reachable machine buffer session) :
    (session.controller.subscription ≠ .dropped →
      session.InStep machine buffer ∧
        (session.controller.step? = none →
          session.controller.queue ≠ [] ∨ session.controller.waiting = 1 →
            session.controller.channel.length = max buffer 1 ∧
              session.controller.waiting = 1)) ∧
      (session.controller.subscription = .dropped →
        session.controller.step? = none →
          session.controller.queue = [] ∧
            session.controller.waiting = 0 ∧
            session.controller.published =
              (machine.run session.accepted).1.history) := by
  obtain ⟨done, paced⟩ := reached.exists_paced
  constructor
  · intro held
    exact ⟨paced.inStep held, paced.full_of_resting⟩
  · intro dropped resting
    obtain ⟨drained, idle⟩ := paced.done_of_resting resting dropped
    refine ⟨drained, idle, ?_⟩
    rw [paced.obeyed.published_eq_history, run_accepted, paced.commands_eq,
      drained, List.append_nil]

/-- A worker that has shown three screens to a subscriber that has read one:
the channel is full with the second one and the third waits for room. -/
theorem published_in_step_backup :
    ∃ session : Session BackupFunds,
      Reachable (Machine.start BackupFunds.table) 1 session ∧
        session.received = [.advance .backupFunds] ∧
        session.controller.published.current = .verification ∧
        session.controller.channel.length = 1 ∧
        session.controller.waiting = 1 := by
  have taken : Reachable (Machine.start BackupFunds.table) 1 _ :=
    .single (.takeActions rfl rfl)
  have opened := taken.tail (.openHandle rfl)
  have first := opened.tail (@Happens.send _ _ _ _ .next _ (by decide) rfl)
  have second := first.tail (@Happens.send _ _ _ _ .next _ (by decide) rfl)
  have third := second.tail (@Happens.send _ _ _ _ .next _ (by decide) rfl)
  have fourth := third.tail (@Happens.send _ _ _ _ .next _ (by decide) rfl)
  have obeyed := fourth.tail (.work rfl)
  have delivered := obeyed.tail (.work rfl)
  have read := delivered.tail (.read rfl .tryNext)
  have obeyedTwo := read.tail (.work rfl)
  have deliveredTwo := obeyedTwo.tail (.work rfl)
  have blocked := deliveredTwo.tail (.work rfl)
  have held := (published_in_step _ 1 blocked).1 (by decide)
  obtain ⟨full, waits⟩ := held.2 rfl (.inl (by decide))
  exact ⟨_, blocked, rfl, rfl, full, waits⟩

end Session

end ScreenFlow
