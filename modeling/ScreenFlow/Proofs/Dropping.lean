import ScreenFlow.Proofs.Closing

/-!
# Dropping a controller

An owner may also drop a controller: the worker stops where it is, and what it
held in its hand is lost.  `Session.Ran` follows sessions to their end however
they end, with the action that was lost when the controller was dropped.  At
the end of the stream the published history is that of the actions the
subscriber has read and of the lost one, so the two agree unless the
controller was dropped while an action was waiting for room.
-/

namespace ScreenFlow

variable {State : Type} [DecidableEq State] [Flow State]

namespace Session

/-- The session once its owner has dropped the controller. -/
def drop (session : Session State) : Session State :=
  { session with controller := session.controller.abort }

/-- All that may come of a machine in the care of a controller, also when the
controller is dropped, with the action that the worker had in its hand at that
moment. -/
inductive Ran (machine : Machine State) (buffer : Nat) :
    Option (Action State) → Session State → Prop where
  | start : Ran machine buffer none (start machine buffer)
  | happens {lost : Option (Action State)} {session after : Session State}
      (earlier : Ran machine buffer lost session)
      (happens : session.Happens after) :
      Ran machine buffer lost after
  | drop {session : Session State} (earlier : Ran machine buffer none session)
      (owned : session.controller.isOwned = true) :
      Ran machine buffer session.controller.worker.inHand? session.drop

/-- The controller was dropped when the commands `done` had been obeyed. -/
structure Halted (machine : Machine State) (done : List Command)
    (lost : Option (Action State)) (session : Session State) : Prop where
  stopped : session.controller.worker = .stopped
  unowned : session.controller.isOwned = false
  done_prefix : done <+: session.commands
  published_eq : session.controller.published =
    (machine.obeyAll done).1.history
  actions_eq : session.controller.subscription ≠ .dropped →
    session.received ++ session.controller.channel ++ lost.toList =
      (machine.obeyAll done).2

section

variable {machine : Machine State} {buffer : Nat} {done : List Command}
variable {lost : Option (Action State)} {session after : Session State}

theorem Paced.halted (paced : session.Paced machine buffer done) :
    session.drop.Halted machine done
      session.controller.worker.inHand? := by
  have released := paced.release
  constructor
  · rfl
  · exact (released_release session).unowned
  · exact ⟨session.controller.queue, paced.commands_eq.symm⟩
  · exact released.obeyed.published_eq_history
  · intro held
    have actions := released.obeyed.actions_eq held
    rwa [show session.release.controller.worker = session.controller.worker
      from session.controller.worker_release] at actions

theorem Halted.of_yields (halted : session.Halted machine done lost)
    {moved : Controller State} {read : List (Action State)}
    (yields : session.controller.Yields read moved) :
    ({ session with
        controller := moved
        received := session.received ++ read } : Session State).Halted
      machine done lost := by
  induction yields with
  | refl => simpa using halted
  | work _ stepped ih =>
      have stopped := ih.stopped
      cases stepped with
      | obey receiving => cases stopped.symm.trans receiving
      | deliver sending => cases stopped.symm.trans sending
      | discard sending => cases stopped.symm.trans sending
      | stop receiving => cases stopped.symm.trans receiving
  | pop _ filled ih =>
      refine ⟨ih.stopped, ih.unowned, ih.done_prefix, ih.published_eq, ?_⟩
      intro held
      simpa [filled] using ih.actions_eq held

/-- After a controller was dropped nothing moves but the actions that are
still in its channel. -/
theorem Happens.halted (happens : session.Happens after)
    (halted : session.Halted machine done lost) :
    after.Halted machine done lost := by
  obtain ⟨stopped, unowned, shorter, published, actions⟩ := id halted
  cases happens with
  | work stepped =>
      have yields := Controller.Yields.refl.work
        (Controller.steps_of_step? stepped)
      simpa using halted.of_yields yields
  | openHandle => exact ⟨stopped, unowned, shorter, published, actions⟩
  | dropHandle => exact ⟨stopped, unowned, shorter, published, actions⟩
  | @send trigger _ held sent =>
      obtain ⟨moved, refused⟩ := Controller.eq_of_send sent
      subst moved
      have idle := refused (Controller.isStopped_iff.mpr stopped)
      refine ⟨stopped, unowned, ?_, published, actions⟩
      simpa [commands, idle] using shorter
  | takeActions owned => exact absurd owned (by simp [unowned])
  | read taken reads => exact halted.of_yields reads.yields
  | dropActions =>
      refine ⟨stopped, unowned, shorter, published, ?_⟩
      intro held
      exact absurd rfl held
  | release owned => exact absurd owned (by simp [unowned])

theorem Ran.reachable_or_halted (ran : Ran machine buffer lost session) :
    (lost = none ∧ Reachable machine buffer session) ∨
      ∃ done, session.Halted machine done lost := by
  induction ran with
  | start => exact .inl ⟨rfl, .refl⟩
  | happens _ happens ih =>
      rcases ih with ⟨whole, reached⟩ | ⟨done, halted⟩
      · exact .inl ⟨whole, reached.tail happens⟩
      · exact .inr ⟨done, happens.halted halted⟩
  | drop _ owned ih =>
      rcases ih with ⟨_, reached⟩ | ⟨done, halted⟩
      · obtain ⟨done, paced⟩ := reached.exists_paced
        exact .inr ⟨done, paced.halted⟩
      · exact absurd owned (by simp [halted.unowned])

/-! ## The end of the stream -/

variable {ended : Controller State}

theorem Paced.exists_done_at_end (paced : session.Paced machine buffer done)
    (taken : session.controller.subscription = .taken)
    (read : session.controller.next = (ended, .ended)) :
    ended.isStopped = true ∧ ∃ done, done <+: session.commands ∧
      session.received = (machine.obeyAll done).2 ∧
      ended.published = (machine.obeyAll done).1.history := by
  obtain ⟨_, drained, stops⟩ := Controller.next_in_vain read rfl
  have stopped := stops.mp rfl
  have yields := Controller.yields_of_next read
  obtain ⟨newly, last⟩ := paced.of_yields yields
  have held : ended.subscription ≠ .dropped := by
    simp [yields.subscription_eq, taken]
  have actions := last.obeyed.actions_eq held
  rw [drained, Controller.isStopped_iff.mp stopped] at actions
  refine ⟨stopped, done ++ newly, ?_, ?_,
    last.obeyed.published_eq_history⟩
  · exact ⟨ended.queue, last.commands_eq.symm⟩
  · simpa [Received.action?, Worker.inHand?] using actions

theorem Halted.exists_done_at_end (halted : session.Halted machine done lost)
    (taken : session.controller.subscription = .taken)
    (read : session.controller.next = (ended, .ended)) :
    ended.isStopped = true ∧ ∃ done, done <+: session.commands ∧
      session.received ++ lost.toList = (machine.obeyAll done).2 ∧
      ended.published = (machine.obeyAll done).1.history := by
  obtain ⟨_, drained, stops⟩ := Controller.next_in_vain read rfl
  have yields := Controller.yields_of_next read
  have last := halted.of_yields yields
  have held : ended.subscription ≠ .dropped := by
    simp [yields.subscription_eq, taken]
  have actions := last.actions_eq held
  rw [drained] at actions
  refine ⟨stops.mp rfl, done, halted.done_prefix, ?_, last.published_eq⟩
  simpa [Received.action?] using actions

end

/-- At the end of the stream the last published history is the one after the
commands whose actions the subscriber has read, and one command more if the
controller was dropped while the action of that command was waiting for
room. -/
theorem published_at_end (machine : Machine State) (buffer : Nat)
    {lost : Option (Action State)} {session : Session State}
    {ended : Controller State} (ran : Ran machine buffer lost session)
    (taken : session.controller.subscription = .taken)
    (read : session.controller.next = (ended, .ended)) :
    ended.isStopped = true ∧
      session.received.length + lost.toList.length ≤
        session.commands.length ∧
      session.received ++ lost.toList =
        (machine.obeyAll (session.commands.take
          (session.received.length + lost.toList.length))).2 ∧
      ended.published =
        (machine.obeyAll (session.commands.take
          (session.received.length + lost.toList.length))).1.history := by
  have known : ended.isStopped = true ∧ ∃ done, done <+: session.commands ∧
      session.received ++ lost.toList = (machine.obeyAll done).2 ∧
      ended.published = (machine.obeyAll done).1.history := by
    rcases ran.reachable_or_halted with ⟨whole, reached⟩ | ⟨done, halted⟩
    · obtain ⟨done, paced⟩ := reached.exists_paced
      simpa [whole] using paced.exists_done_at_end taken read
    · exact halted.exists_done_at_end taken read
  obtain ⟨stopped, done, shorter, actions, published⟩ := known
  have counted : session.received.length + lost.toList.length =
      done.length := by
    rw [← List.length_append, actions, Machine.length_obeyAll]
  rw [counted, ← List.prefix_iff_eq_take.mp shorter]
  exact ⟨stopped, shorter.length_le, actions, published⟩

/-- A withdrawal whose controller is dropped while the action of its second
transition waits for room, up to the end of its stream. -/
private theorem exists_dropped_while_waiting :
    ∃ session : Session CustodyWithdrawal,
      Ran (Machine.start CustodyWithdrawal.table) 1 (some (.advance .summary))
          session ∧
        session.controller.subscription = .taken ∧
        session.controller.next = (session.controller, .ended) ∧
        session.commands = [.advance, .advance] ∧
        session.received = [.advance .withdrawal] ∧
        session.controller.published.current = .summary := by
  have begun : Ran (Machine.start CustodyWithdrawal.table) 1 none _ := .start
  have taken := begun.happens (.takeActions rfl rfl)
  have opened := taken.happens (.openHandle rfl)
  have first := opened.happens
    (@Happens.send _ _ _ _ .next _ (by decide) rfl)
  have second := first.happens
    (@Happens.send _ _ _ _ .next _ (by decide) rfl)
  have obeyed := second.happens (.work rfl)
  have delivered := obeyed.happens (.work rfl)
  have blocked := delivered.happens (.work rfl)
  have dropped := blocked.drop rfl
  have read := dropped.happens (.read rfl .tryNext)
  exact ⟨_, read, rfl, Controller.next_of_resting rfl rfl, rfl, rfl, rfl⟩

theorem published_at_end_withdrawal :
    ∃ (session : Session CustodyWithdrawal)
      (ended : Controller CustodyWithdrawal),
      Ran (Machine.start CustodyWithdrawal.table) 1 (some (.advance .summary))
          session ∧
        session.controller.subscription = .taken ∧
        session.controller.next = (ended, .ended) ∧
        session.received = [.advance .withdrawal] ∧
        session.received ++ [.advance .summary] =
          ((Machine.start CustodyWithdrawal.table).obeyAll
            (session.commands.take 2)).2 ∧
        ended.published =
          ((Machine.start CustodyWithdrawal.table).obeyAll
            (session.commands.take 2)).1.history := by
  obtain ⟨session, ran, taken, read, _, received, _⟩ :=
    exists_dropped_while_waiting
  obtain ⟨_, _, actions, published⟩ := published_at_end _ 1 ran taken read
  simp only [received] at actions published ⊢
  exact ⟨session, _, ran, taken, read, received,
    by simpa [received] using actions, published⟩

/-- A subscriber that has read the end of the stream may have missed the
action of the last transition that is published. -/
theorem published_ahead_at_end_withdrawal :
    ∃ (session : Session CustodyWithdrawal)
      (ended : Controller CustodyWithdrawal),
      Ran (Machine.start CustodyWithdrawal.table) 1 (some (.advance .summary))
          session ∧
        session.controller.subscription = .taken ∧
        session.controller.next = (ended, .ended) ∧
        session.received =
          ((Machine.start CustodyWithdrawal.table).obeyAll
            (session.commands.take session.received.length)).2 ∧
        ended.published ≠
          ((Machine.start CustodyWithdrawal.table).obeyAll
            (session.commands.take session.received.length)).1.history := by
  obtain ⟨session, ran, taken, read, commands, received, published⟩ :=
    exists_dropped_while_waiting
  refine ⟨session, session.controller, ran, taken, read, ?_, ?_⟩
  · rw [commands, received]
    rfl
  · intro agrees
    rw [agrees, commands, received] at published
    exact absurd published (by decide)

end Session

end ScreenFlow
