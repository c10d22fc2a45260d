import ScreenFlow.Proofs.Publication
import ScreenFlow.Walk

/-!
# Closing a controller

An owner who closes a controller lets the worker run until it rests.  Where
nobody is left to send, the worker stops unless a subscriber holds the reading
end and the channel has no room for all that is outstanding.  What is
outstanding does not change while the worker runs, so a look at the state in
which the closing begins is enough to tell how it ends.

If it does not end, the controller lives on without its owner:
`Session.LivesOn` says what everybody who is left can rely on.
-/

namespace ScreenFlow

variable {State : Type} [DecidableEq State] [Flow State]

namespace Controller

variable {controller after : Controller State}

/-! ## Letting the worker run -/

theorem step?_settle (controller : Controller State) :
    controller.settle.step? = none := by
  fun_induction settle controller with
  | case1 controller resting => exact resting
  | case2 controller after stepped ih => exact ih

theorem settle_of_resting (resting : controller.step? = none) :
    controller.settle = controller := by
  unfold settle
  split
  next => rfl
  next stepped => cases resting.symm.trans stepped

theorem Steps.senders_eq (stepped : controller.Steps after) :
    after.isOwned = controller.isOwned ∧
      after.handles = controller.handles := by
  cases stepped <;> exact ⟨rfl, rfl⟩

theorem Yields.senders_eq {actions : List (Action State)}
    (yields : controller.Yields actions after) :
    after.isOwned = controller.isOwned ∧
      after.handles = controller.handles := by
  induction yields with
  | refl => exact ⟨rfl, rfl⟩
  | work _ stepped ih =>
      obtain ⟨owned, held⟩ := stepped.senders_eq
      exact ⟨owned.trans ih.1, held.trans ih.2⟩
  | pop _ _ ih => exact ih

theorem Yields.hasSender_eq {actions : List (Action State)}
    (yields : controller.Yields actions after) :
    after.hasSender = controller.hasSender := by
  obtain ⟨owned, held⟩ := yields.senders_eq
  rw [hasSender, hasSender, owned, held]

theorem length_outstanding (controller : Controller State) :
    controller.outstanding.length =
      controller.channel.length + controller.waiting +
        controller.queue.length := by
  simp [outstanding, waiting, Machine.length_obeyAll, Nat.add_assoc]

theorem IsRegular.outstanding_of_stopped (regular : controller.IsRegular)
    (stopped : controller.worker = .stopped) :
    controller.outstanding = controller.channel := by
  simp [outstanding, stopped, Worker.inHand?, regular.drained stopped]

theorem isStopped_of_resting (resting : controller.step? = none)
    (deserted : controller.hasSender = false)
    (free : controller.subscription = .dropped ∨
      controller.channel.length + controller.waiting ≤
        controller.capacity) :
    controller.isStopped = true := by
  rcases rest_cases resting with
    stopped | ⟨action, sending, held, full⟩ | ⟨_, _, manned⟩
  · exact isStopped_iff.mpr stopped
  · have fits := free.resolve_left held
    rw [waiting_of_sending sending] at fits
    omega
  · rw [deserted] at manned
    cases manned

omit [DecidableEq State] [Flow State] in
theorem fits_of_drained (drained : controller.channel = []) :
    controller.channel.length + controller.waiting ≤
      controller.capacity := by
  rw [drained, List.length_nil, Nat.zero_add]
  exact Nat.le_trans controller.waiting_le_one controller.capacity_pos

/-- A worker stops by itself exactly when nobody is left who could send and
nothing has to wait for the subscriber. -/
theorem isStopped_settle_iff (regular : controller.IsRegular)
    (staffed : controller.Staffed) :
    controller.settle.isStopped = true ↔
      controller.hasSender = false ∧
        (controller.subscription = .dropped ∨
          controller.outstanding.length ≤ controller.capacity) := by
  have yields := controller.yields_settle
  constructor
  · intro stopped
    have deserted := yields.staffed staffed stopped
    rw [yields.hasSender_eq] at deserted
    refine ⟨deserted, ?_⟩
    by_cases held : controller.subscription = .dropped
    · exact .inl held
    · right
      have settled := yields.isRegular regular
      rw [yields.outstanding_eq held, List.nil_append,
        settled.outstanding_of_stopped (isStopped_iff.mp stopped),
        ← yields.capacity_eq]
      exact settled.fits
  · rintro ⟨deserted, free⟩
    apply isStopped_of_resting controller.step?_settle
      (yields.hasSender_eq.trans deserted)
    rw [yields.subscription_eq, yields.capacity_eq]
    by_cases held : controller.subscription = .dropped
    · exact .inl held
    · have fits := free.resolve_left held
      rw [yields.outstanding_eq held, List.nil_append,
        length_outstanding] at fits
      exact .inr (Nat.le_of_add_right_le fits)

/-! ## Giving a controller up -/

section

omit [DecidableEq State] [Flow State]

theorem hasSender_release (controller : Controller State) :
    controller.release.hasSender = decide (0 < controller.handles) := by
  rcases controller.release_cases with ⟨_, released⟩ | ⟨_, released⟩ <;>
    simp [released, hasSender]

theorem worker_release (controller : Controller State) :
    controller.release.worker = controller.worker := by
  rcases controller.release_cases with ⟨_, released⟩ | ⟨_, released⟩ <;>
    rw [released]

theorem subscription_release_eq_dropped_iff :
    controller.release.subscription = .dropped ↔
      controller.subscription ≠ .taken := by
  cases held : controller.subscription <;> simp [release, held, dropActions]

theorem release_of_taken (taken : controller.subscription = .taken) :
    controller.release = { controller with isOwned := false } := by
  simp [release, taken]

end

/-! ## Reading to the end -/

/-- Whoever waits in vain has let the worker run until it rests, and has left
nothing in the channel. -/
theorem next_in_vain {received : Received State}
    (waited : controller.next = (after, received))
    (nothing : received.action? = none) :
    after = controller.settle ∧ after.channel = [] ∧
      (received = .ended ↔ after.isStopped = true) := by
  unfold next at waited
  split at waited
  next => cases waited; cases nothing
  next =>
    simp only at waited
    split at waited
    next => cases waited; cases nothing
    next none empty =>
      have drained : controller.settle.channel = [] := by
        unfold tryNext at empty
        split at empty
        next drained => exact drained
        next => cases empty
      split at waited
      next stopped =>
        cases waited
        exact ⟨rfl, drained, by simp [stopped]⟩
      next running =>
        cases waited
        exact ⟨rfl, drained, by simp [running]⟩

theorem next_of_resting (resting : controller.step? = none)
    (drained : controller.channel = []) :
    controller.next =
      (controller, if controller.isStopped then .ended else .pending) := by
  simp [next, tryNext, drained, settle_of_resting resting]

theorem yields_readAll (controller : Controller State) :
    controller.Yields controller.readAll.2 controller.readAll.1 := by
  fun_induction readAll controller with
  | case1 controller rest ended => exact yields_of_next ended
  | case2 controller rest pending => exact yields_of_next pending
  | case3 controller rest action read final more later ih =>
      rw [later] at ih
      exact (yields_of_next read).trans ih

theorem rests_readAll (controller : Controller State) :
    controller.readAll.1.step? = none ∧
      controller.readAll.1.channel = [] := by
  fun_induction readAll controller with
  | case1 controller rest ended =>
      obtain ⟨settled, empty, _⟩ := next_in_vain ended rfl
      exact ⟨settled ▸ controller.step?_settle, empty⟩
  | case2 controller rest pending =>
      obtain ⟨settled, empty, _⟩ := next_in_vain pending rfl
      exact ⟨settled ▸ controller.step?_settle, empty⟩
  | case3 controller rest action read final more later ih =>
      rw [later] at ih
      exact ih

end Controller

namespace Session

variable {machine : Machine State} {buffer : Nat}
variable {session after : Session State} {done : List Command}

/-- The worker has stopped and left nothing undone: all that was accepted has
been obeyed, and the history after it is published. -/
structure Finished (machine : Machine State) (session : Session State) :
    Prop where
  stopped : session.controller.isStopped = true
  queue_eq : session.controller.queue = []
  machine_eq : session.controller.machine = (machine.run session.accepted).1
  published_eq : session.controller.published =
    (machine.run session.accepted).1.history

theorem Paced.finished (paced : session.Paced machine buffer done)
    (stopped : session.controller.isStopped = true) :
    session.Finished machine := by
  have drained := paced.regular.drained (Controller.isStopped_iff.mp stopped)
  have all : done = session.commands := by
    rw [paced.commands_eq, drained, List.append_nil]
  constructor
  · exact stopped
  · exact drained
  · rw [run_accepted, ← all]
    exact paced.obeyed.machine_eq
  · rw [run_accepted, ← all]
    exact paced.obeyed.published_eq_history

/-! ## After the owner has left -/

/-- The session once its owner has waited for the worker. -/
def close (session : Session State) : Session State :=
  { session with controller := session.controller.close.1 }

/-- The owner has given up its handle, and somebody took the reading end or it
was dropped. -/
structure Released (session : Session State) : Prop where
  unowned : session.controller.isOwned = false
  offered : session.controller.subscription ≠ .untaken

omit [DecidableEq State] [Flow State] in
theorem released_release (session : Session State) :
    session.release.Released := by
  rcases session.controller.release_cases with
    ⟨_, released⟩ | ⟨offered, released⟩
  · rw [release, released]
    exact ⟨rfl, by simp⟩
  · rw [release, released]
    exact ⟨rfl, offered⟩

omit [DecidableEq State] [Flow State] in
theorem Released.hasSender_eq_false (released : session.Released)
    (deserted : session.controller.handles = 0) :
    session.controller.hasSender = false := by
  simp [Controller.hasSender, released.unowned, deserted]

theorem Released.of_yields (released : session.Released)
    {moved : Controller State} {read : List (Action State)}
    (yields : session.controller.Yields read moved) :
    ({ session with
        controller := moved
        received := session.received ++ read } : Session State).Released where
  unowned := yields.senders_eq.1.trans released.unowned
  offered := by
    intro untaken
    exact released.offered (yields.subscription_eq.symm.trans untaken)

theorem Happens.released (happens : session.Happens after)
    (released : session.Released) : after.Released := by
  cases happens with
  | work stepped =>
      have yields := Controller.Yields.refl.work
        (Controller.steps_of_step? stepped)
      simpa using released.of_yields yields
  | openHandle => exact ⟨released.unowned, released.offered⟩
  | dropHandle => exact ⟨released.unowned, released.offered⟩
  | send held sent =>
      obtain ⟨moved, _⟩ := Controller.eq_of_send sent
      subst moved
      exact ⟨released.unowned, released.offered⟩
  | takeActions owned => exact absurd owned (by simp [released.unowned])
  | read taken reads => exact released.of_yields reads.yields
  | dropActions => exact ⟨released.unowned, nofun⟩
  | release owned => exact absurd owned (by simp [released.unowned])

/-- What everybody who is left can rely on in a session without an owner.
Handles send as before, and nothing that was accepted is lost.  Once the last
handle is dropped the worker finishes, whatever it and the subscriber do, as
soon as the reading end is dropped or has been read out. -/
structure LivesOn (machine : Machine State) (session : Session State) :
    Prop where
  accepts : 0 < session.controller.handles → ∀ trigger,
    ∃ after, session.controller.send trigger = .ok after
  keeps : ∃ done, session.commands = done ++ session.controller.queue ∧
    session.controller.machine = (machine.obeyAll done).1
  finished_of_resting : session.controller.handles = 0 →
    session.controller.step? = none →
      (session.controller.subscription ≠ .taken ∨
        session.controller.channel = []) →
        session.Finished machine
  finishes_unread : session.controller.handles = 0 →
    session.controller.subscription ≠ .taken →
      ({ session with controller := session.controller.settle } :
        Session State).Finished machine
  finishes_read : session.controller.handles = 0 →
    session.controller.subscription = .taken →
      ({ session with controller := session.controller.readAll.1 } :
          Session State).Finished machine ∧
        session.received ++ session.controller.readAll.2 =
          (machine.run session.accepted).2

theorem Released.finished_of_resting (released : session.Released)
    (paced : session.Paced machine buffer done)
    (deserted : session.controller.handles = 0)
    (resting : session.controller.step? = none)
    (free : session.controller.subscription ≠ .taken ∨
      session.controller.channel = []) :
    session.Finished machine := by
  apply paced.finished
  apply Controller.isStopped_of_resting resting
    (released.hasSender_eq_false deserted)
  rcases free with untaken | drained
  · left
    cases offer : session.controller.subscription with
    | untaken => exact absurd offer released.offered
    | taken => exact absurd offer untaken
    | dropped => rfl
  · exact .inr (Controller.fits_of_drained drained)

theorem Released.livesOn (released : session.Released)
    (paced : session.Paced machine buffer done)
    (balanced : session.Balanced machine) : session.LivesOn machine where
  accepts := Controller.send_of_staffed balanced.staffed
  keeps := ⟨done, paced.commands_eq, paced.obeyed.machine_eq⟩
  finished_of_resting := released.finished_of_resting paced
  finishes_unread deserted untaken := by
    have yields := session.controller.yields_settle
    obtain ⟨newly, later⟩ := paced.of_yields yields
    have left := released.of_yields yields
    have finished := left.finished_of_resting later
      (yields.senders_eq.2.trans deserted) session.controller.step?_settle
      (.inl (by simpa [yields.subscription_eq] using untaken))
    simpa using finished
  finishes_read deserted taken := by
    have yields := session.controller.yields_readAll
    obtain ⟨resting, drained⟩ := session.controller.rests_readAll
    obtain ⟨newly, later⟩ := paced.of_yields yields
    have left := released.of_yields yields
    have finished := left.finished_of_resting later
      (yields.senders_eq.2.trans deserted) resting (.inr drained)
    have held : session.controller.subscription ≠ .dropped := by
      simp [taken]
    refine ⟨⟨finished.stopped, finished.queue_eq, finished.machine_eq,
      finished.published_eq⟩, ?_⟩
    have stopped := Controller.isStopped_iff.mp finished.stopped
    have empty := later.regular.outstanding_of_stopped stopped
    rw [← balanced.outstanding_eq held, yields.outstanding_eq held, empty,
      drained, List.append_nil]

theorem happens_settle (session : Session State) :
    Relation.ReflTransGen Happens session
      { session with controller := session.controller.settle } := by
  obtain ⟨controller, accepted, received⟩ := session
  simp only
  fun_induction Controller.settle controller with
  | case1 controller resting => exact .refl
  | case2 controller after stepped ih => exact .head (.work stepped) ih

theorem Reachable.livesOn (reached : Reachable machine buffer session)
    {later : Session State}
    (continued : Relation.ReflTransGen Happens session.release later)
    (owned : session.controller.isOwned = true) :
    later.LivesOn machine := by
  have arrived : Reachable machine buffer later :=
    (reached.tail (.release owned)).trans continued
  have released : later.Released := by
    clear arrived
    induction continued with
    | refl => exact released_release session
    | tail _ happens ih => exact happens.released ih
  obtain ⟨done, paced⟩ := arrived.exists_paced
  exact released.livesOn paced arrived.balanced

/-! ## How closing ends -/

section

variable (reached : Reachable machine buffer session)
variable (owned : session.controller.isOwned = true)
include reached owned

theorem Reachable.release : Reachable machine buffer session.release :=
  reached.tail (.release owned)

/-- Closing comes to its end exactly when no other handle is alive and nothing
has to wait for a subscriber. -/
theorem Reachable.close_iff :
    session.controller.close.2 = true ↔
      session.controller.handles = 0 ∧
        (session.controller.subscription ≠ .taken ∨
          session.controller.channel.length + session.controller.waiting +
            session.controller.queue.length ≤ max buffer 1) := by
  have begun := reached.release owned
  obtain ⟨done, paced⟩ := begun.exists_paced
  have ends := Controller.isStopped_settle_iff paced.regular
    begun.balanced.staffed
  have capacity := paced.capacity_eq
  simp only [Session.release] at ends capacity
  rw [Controller.close, ends, Controller.hasSender_release,
    Controller.subscription_release_eq_dropped_iff, capacity,
    ← Controller.length_outstanding]
  apply and_congr
  · simp
  · by_cases taken : session.controller.subscription = .taken
    · rw [Controller.release_of_taken taken]
      rfl
    · simp [taken]

theorem Reachable.close : Reachable machine buffer session.close :=
  (reached.release owned).trans (happens_settle session.release)

theorem Reachable.finished_close
    (closes : session.controller.close.2 = true) :
    session.close.Finished machine := by
  obtain ⟨done, paced⟩ := (reached.close owned).exists_paced
  exact paced.finished closes

/-- A subscriber reads after the end of a closing all that was outstanding at
its beginning, and then the end. -/
theorem Reachable.readAll_close
    (closes : session.controller.close.2 = true)
    (taken : session.controller.subscription = .taken) :
    session.close.controller.readAll.2 = session.controller.outstanding ∧
      session.close.controller.readAll.1.next.2 = .ended := by
  have deserted := ((reached.close_iff owned).mp closes).1
  have lives := reached.livesOn (happens_settle session.release) owned
  have yields := session.controller.release.yields_settle
  rw [Controller.release_of_taken taken] at yields
  have still : session.close.controller.subscription = .taken := by
    rw [Session.close, Controller.close, Controller.release_of_taken taken,
      yields.subscription_eq]
    exact taken
  have gone : session.close.controller.handles = 0 := by
    rw [Session.close, Controller.close, Controller.release_of_taken taken,
      yields.senders_eq.2]
    exact deserted
  obtain ⟨finished, all⟩ := lives.finishes_read gone still
  constructor
  · have held : session.controller.subscription ≠ .dropped := by
      simp [taken]
    have owed := reached.balanced.outstanding_eq held
    exact List.append_cancel_left (all.trans owed.symm)
  · obtain ⟨resting, drained⟩ := session.close.controller.rests_readAll
    rw [Controller.next_of_resting resting drained]
    simp [show session.close.controller.readAll.1.isStopped = true
      from finished.stopped]

end

/-- Closing ends exactly when it can and loses nothing.  It ends when no other
handle is alive and the subscriber, if there is one, leaves room for all that
is outstanding; then all that was accepted has been obeyed and published, and
the subscriber reads what was outstanding in its order up to the end.  And
whatever happens after an owner began to close, however long it waited, the
session lives on as `LivesOn` says. -/
theorem closing_loses_nothing (machine : Machine State) (buffer : Nat)
    {session : Session State} (reached : Reachable machine buffer session)
    (owned : session.controller.isOwned = true) :
    (session.controller.close.2 = true ↔
      session.controller.handles = 0 ∧
        (session.controller.subscription ≠ .taken ∨
          session.controller.channel.length + session.controller.waiting +
            session.controller.queue.length ≤ max buffer 1)) ∧
      (session.controller.close.2 = true →
        session.close.Finished machine ∧
          (session.controller.subscription = .taken →
            session.close.controller.readAll.2 =
                session.controller.outstanding ∧
              session.close.controller.readAll.1.next.2 = .ended ∧
              session.controller.outstanding.length =
                session.controller.channel.length +
                  session.controller.waiting +
                  session.controller.queue.length ∧
              session.received ++ session.controller.outstanding =
                (machine.run session.accepted).2)) ∧
      Relation.ReflTransGen Happens session.release session.close ∧
      ∀ later, Relation.ReflTransGen Happens session.release later →
        later.LivesOn machine := by
  refine ⟨reached.close_iff owned, ?_, happens_settle session.release, ?_⟩
  · intro closes
    refine ⟨reached.finished_close owned closes, ?_⟩
    intro taken
    obtain ⟨read, ended⟩ := reached.readAll_close owned closes taken
    have held : session.controller.subscription ≠ .dropped := by
      simp [taken]
    exact ⟨read, ended, session.controller.length_outstanding,
      reached.balanced.outstanding_eq held⟩
  · intro later continued
    exact reached.livesOn continued owned

/-- Closing ends while two actions are outstanding, as many as the channel
holds, and the subscriber reads both of them afterwards. -/
theorem closing_loses_nothing_backup :
    ∃ session : Session BackupFunds,
      Reachable (Machine.start BackupFunds.table) 2 session ∧
        session.controller.isOwned = true ∧
        session.controller.queue = [.advance, .advance] ∧
        session.controller.close.2 = true ∧
        session.close.Finished (Machine.start BackupFunds.table) ∧
        session.close.controller.readAll.2 =
          [.advance .backupFunds, .advance .recoveryPhrase] ∧
        session.close.controller.readAll.1.next.2 = .ended := by
  have taken : Reachable (Machine.start BackupFunds.table) 2 _ :=
    .single (.takeActions rfl rfl)
  have opened := taken.tail (.openHandle rfl)
  have first := opened.tail (@Happens.send _ _ _ _ .next _ (by decide) rfl)
  have second := first.tail (@Happens.send _ _ _ _ .next _ (by decide) rfl)
  have deserted := second.tail (.dropHandle (by decide))
  obtain ⟨ends, completed, _⟩ := closing_loses_nothing _ 2 deserted rfl
  have closes := ends.mpr (by decide)
  obtain ⟨finished, reads⟩ := completed closes
  obtain ⟨read, ended, _⟩ := reads rfl
  exact ⟨_, deserted, rfl, rfl, closes, finished, read, ended⟩

end Session

end ScreenFlow
