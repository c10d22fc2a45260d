import ScreenFlow.Proofs.Conservation
import ScreenFlow.Proofs.Counting
import ScreenFlow.Proofs.Mirror

/-!
# Completion means that every screen was shown

On a table that is one path, only the last place reports success, and a flow
comes there only by walking on.  So whoever performs the actions of the flow,
all of them or as many as have come, has shown every screen before hearing of
success.
-/

namespace ScreenFlow

variable {State : Type} [DecidableEq State] [Flow State]

/-! ## What a recorder has logged -/

namespace Recorder

theorem pop_keeps (recorder : Recorder State) :
    recorder.log <+: recorder.pop.log ∧
      recorder.pop.isCompleted = recorder.isCompleted := by
  unfold pop
  split
  · exact ⟨List.prefix_refl _, rfl⟩
  · exact ⟨List.prefix_append _ _, rfl⟩

theorem log_prefix_apply (recorder : Recorder State) (action : Action State) :
    recorder.log <+: (recorder.apply action).log := by
  cases action with
  | advance target => exact List.prefix_append _ _
  | retreat => exact recorder.pop_keeps.1
  | finish ending => cases ending <;> exact List.prefix_append _ _

theorem log_prefix_applyAll (recorder : Recorder State)
    (actions : List (Action State)) :
    recorder.log <+: (recorder.applyAll actions).log := by
  induction actions generalizing recorder with
  | nil => exact List.prefix_refl _
  | cons action rest ih =>
      exact (recorder.log_prefix_apply action).trans (ih _)

theorem pushed_mem_log {actions : List (Action State)} {state : State}
    (presented : .advance state ∈ actions)
    (screen : Flow.hasScreen state = true) (recorder : Recorder State) :
    .pushed state ∈ (recorder.applyAll actions).log := by
  induction actions generalizing recorder with
  | nil => cases presented
  | cons action rest ih =>
      rcases List.mem_cons.mp presented with rfl | later
      · apply (log_prefix_applyAll _ rest).subset
        simp [apply, push, screen]
      · exact ih later (recorder.apply action)

theorem applyAll_append (recorder : Recorder State)
    (earlier later : List (Action State)) :
    recorder.applyAll (earlier ++ later) =
      (recorder.applyAll earlier).applyAll later :=
  List.foldl_append

/-- A recorder reports completion only if it was told to. -/
theorem complete_mem_of_isCompleted {actions : List (Action State)}
    {recorder : Recorder State}
    (reported : (recorder.applyAll actions).isCompleted = true) :
    recorder.isCompleted = true ∨ .finish .complete ∈ actions := by
  induction actions generalizing recorder with
  | nil => exact .inl reported
  | cons action rest ih =>
      rcases ih reported with earlier | later
      · cases action with
        | advance target => exact .inl earlier
        | retreat => exact .inl (recorder.pop_keeps.2.symm.trans earlier)
        | finish ending =>
            cases ending with
            | dismiss => exact .inl earlier
            | complete => exact .inr List.mem_cons_self
      · exact .inr (List.mem_cons_of_mem action later)

end Recorder

/-! ## What a machine has presented -/

namespace Machine

section

variable {machine : Machine State} {command : Command}
  {moved : Machine State × Action State}

/-- A state comes into a history by being presented, but for the terminal state
of a flow that was left by going back. -/
theorem Obeys.mem_trail (obeyed : machine.Obeys command moved) {state : State}
    (visited : state ∈ moved.1.history.trail) :
    state ∈ machine.history.trail ∨ moved.2 = .advance state ∨
      state = Flow.terminal := by
  have shorter (remains : state ∈
      (machine.history.removeLast Flow.terminal).trail) :
      state ∈ machine.history.trail ∨ state = Flow.terminal := by
    by_cases fresh : machine.history.previous = []
    · rw [History.removeLast_of_previous_eq_nil fresh] at remains
      exact .inr (List.mem_singleton.mp remains)
    · rw [History.trail_removeLast_of_previous_ne_nil fresh] at remains
      exact .inl (List.dropLast_subset _ remains)
  cases obeyed with
  | again => exact .inl visited
  | forward =>
      rcases List.mem_append.mp visited with before | new
      · exact .inl before
      · obtain rfl := List.mem_singleton.mp new
        exact .inr (.inl rfl)
  | leave => exact .inl visited
  | back => exact (shorter visited).imp_right .inr
  | backOut => exact (shorter visited).imp_right .inr

theorem mem_trail_obeyAll {commands : List Command} {state : State}
    (visited : state ∈ (machine.obeyAll commands).1.history.trail) :
    state ∈ machine.history.trail ∨
      .advance state ∈ (machine.obeyAll commands).2 ∨
        state = Flow.terminal := by
  induction commands generalizing machine with
  | nil => exact .inl visited
  | cons command rest ih =>
      rw [obeyAll_cons] at visited ⊢
      rcases ih visited with before | presented | terminal
      · rcases (machine.obeys command).mem_trail before with
          before | presented | terminal
        · exact .inl before
        · exact .inr (.inl (by simp [presented]))
        · exact .inr (.inr terminal)
      · exact .inr (.inl (List.mem_cons_of_mem _ presented))
      · exact .inr (.inr terminal)

end

variable {table : Table State} {order : List State} {ending : Ending}

/-- A completed flow was left from the last place by walking on. -/
theorem exists_completing_trigger (path : table.IsPath order ending)
    {triggers : List Trigger}
    (completed : ((start table).run triggers).1.ending = some .complete) :
    ∃ before trigger after again,
      triggers = before ++ trigger :: after ∧
        trigger.command? = some .advance ∧
        ((start table).run before).1.ending = none ∧
        ((start table).run before).1.history.trail = order ∧
        ((start table).run before).1.obey .advance =
          ((start table).run before).1.finish .complete ∧
        ((start table).run triggers).2 =
          ((start table).run before).2 ++
            List.replicate (again + 1) (.finish .complete) := by
  obtain ⟨before, trigger, after, command, again, split, told, running,
    obeyed, actions⟩ := exists_finishing_trigger rfl completed
  have kept : ((start table).run before).1.table = table :=
    run_table _ before
  have onPath : ((start table).run before).1.table.IsPath order ending := by
    rwa [kept]
  obtain ⟨place, stands⟩ := exists_standsAt path running
  cases command with
  | retreat =>
      have action := (obey_retreat running).2
      rw [obeyed] at action
      split at action <;> cases action
  | advance =>
      by_cases further : place + 1 < order.length
      · have action := (obey_advance_of_lt onPath running stands further).1
        rw [obeyed] at action
        cases action
      · have last : place + 1 = order.length := by
          have inside := stands.lt_length
          omega
        have leaves := obey_advance_of_last onPath running stands last
        obtain rfl : ending = .complete := by
          rw [obeyed] at leaves
          have same := congrArg Prod.snd leaves
          exact (Action.finish.inj same).symm
        refine ⟨before, trigger, after, again, split, told, running, ?_,
          leaves, actions⟩
        rw [stands.trail_eq, last, List.take_length]

/-- Success is reported only to someone to whom every screen was presented,
even if some of the actions have yet to come. -/
theorem presented_of_complete_mem (path : table.IsPath order ending)
    {triggers : List Trigger} {actions : List (Action State)}
    (beginning : actions <+: ((start table).run triggers).2)
    (completed : .finish .complete ∈ actions) {state : State}
    (screen : Flow.hasScreen state = true) : .advance state ∈ actions := by
  have ended := finish_mem_run_iff.mp (beginning.subset completed)
  obtain ⟨before, trigger, after, again, -, -, running, trail, -, all⟩ :=
    exists_completing_trigger path ended
  -- Success comes after all that was done before the flow was left.
  have whole : ((start table).run before).2 <+: actions := by
    have early : ((start table).run before).2 <+:
        ((start table).run triggers).2 := by
      rw [all]
      exact List.prefix_append _ _
    rcases List.prefix_or_prefix_of_prefix early beginning with
      whole | short
    · exact whole
    · cases ending?_eq_none_of_running running _ (short.subset completed)
  have visited := path.complete state
  rw [← trail] at visited
  simp only [Flow.hasScreen, ne_eq, decide_eq_true_eq] at screen
  rcases mem_trail_obeyAll visited with first | presented | last
  · exact absurd (List.mem_singleton.mp first) screen.1
  · exact whole.subset presented
  · exact absurd last screen.2

theorem shown_of_isCompleted (path : table.IsPath order ending)
    {triggers : List Trigger} {actions : List (Action State)}
    (beginning : actions <+: ((start table).run triggers).2)
    (reported : ((Recorder.fresh : Recorder State).applyAll
      actions).isCompleted = true)
    {state : State} (notFirst : state ≠ Flow.initial)
    (notLast : state ≠ Flow.terminal) :
    .pushed state ∈
      ((Recorder.fresh : Recorder State).applyAll actions).log := by
  have screen : Flow.hasScreen state = true := by
    simp [Flow.hasScreen, notFirst, notLast]
  rcases Recorder.complete_mem_of_isCompleted reported with
    earlier | completed
  · cases earlier
  · exact Recorder.pushed_mem_log
      (presented_of_complete_mem path beginning completed screen) screen _

end Machine

namespace Session

theorem received_append_driven_prefix {machine : Machine State}
    {buffer : Nat} {session : Session State}
    (reached : Reachable machine buffer session)
    (taken : session.controller.subscription = .taken)
    {controller : Controller State}
    (kept : controller = session.controller ∨
      controller = session.controller.abort) :
    session.received ++ controller.driven <+:
      (machine.run session.accepted).2 := by
  have held : session.controller.subscription ≠ .dropped := by
    simp [taken]
  have aborted : session.controller.abort =
      { session.controller with
        isOwned := false, queue := [], worker := .stopped } := by
    simp [Controller.abort, Controller.release, taken]
  have connected : controller.subscription ≠ .dropped := by
    rcases kept with rfl | rfl
    · exact held
    · rwa [aborted]
  have outstanding :
      controller.outstanding <+: session.controller.outstanding := by
    rcases kept with rfl | rfl
    · exact List.prefix_refl _
    · rw [aborted]
      simp [Controller.outstanding, Worker.inHand?]
  have driven :=
    (controller.yields_drive Recorder.fresh).outstanding_eq connected
  rw [← reached.balanced.outstanding_eq held]
  apply (List.prefix_append_right_inj _).mpr
  apply List.IsPrefix.trans _ outstanding
  rw [driven]
  exact List.prefix_append _ _

end Session

/-- On a table without a fault success is never reported for a flow that was
not walked to its end: it is the only ending among the actions, it first comes
of walking on, and all states of the flow are in the history then, in order.
So a recorder that has performed the actions as far as they have come, or has
been driven, reports completion only if it has logged every screen; when
backing up, the recovery phrase and its verification among them. -/
theorem complete_only_after_every_state
    (enumerated : Flow.Enumerated State) {table : Table State}
    (valid : table.fault? = none) :
    (∃ order ending, order.Perm Flow.states ∧ table.IsPath order ending ∧
      ∀ triggers,
        .finish .complete ∈ ((Machine.start table).run triggers).2 →
        .finish .dismiss ∉ ((Machine.start table).run triggers).2 ∧
          ∃ before trigger after, triggers = before ++ trigger :: after ∧
            let walked := (Machine.start table).run before
            .finish .complete ∉ walked.2 ∧
              trigger.command? = some .advance ∧
              (walked.1.take trigger).2 = some (.finish .complete) ∧
              (walked.1.take trigger).1.history.trail = order ∧
              (walked.1.take trigger).1.history.current = Flow.terminal) ∧
      (∀ triggers fed, fed <+: ((Machine.start table).run triggers).2 →
        let recorder := (Recorder.fresh : Recorder State).applyAll fed
        recorder.isCompleted = true → ∀ state,
          state ≠ Flow.initial → state ≠ Flow.terminal →
            .pushed state ∈ recorder.log) ∧
      (∀ buffer session,
        Session.Reachable (Machine.start table) buffer session →
        session.controller.subscription = .taken →
        ∀ controller, (controller = session.controller ∨
          controller = session.controller.abort) →
        let recorder := (controller.drive
          (Recorder.fresh.applyAll session.received)).2.1
        recorder.isCompleted = true → ∀ state,
          state ≠ Flow.initial → state ≠ Flow.terminal →
            .pushed state ∈ recorder.log) ∧
      ∀ triggers,
        let recorder := (Recorder.fresh : Recorder BackupFunds).applyAll
          ((Machine.start BackupFunds.table).run triggers).2
        recorder.isCompleted = true →
          .pushed .recoveryPhrase ∈ recorder.log ∧
            .pushed .verification ∈ recorder.log := by
  obtain ⟨order, ending, path⟩ := Table.exists_isPath enumerated valid
  refine ⟨⟨order, ending, path.perm_states enumerated, path, ?_⟩, ?_, ?_, ?_⟩
  · intro triggers completed
    have ended := Machine.finish_mem_run_iff.mp completed
    obtain ⟨before, trigger, after, again, split, told, running, trail,
      leaves, -⟩ := Machine.exists_completing_trigger path ended
    refine ⟨?_, before, trigger, after, split, ?_, told, ?_⟩
    · intro dismissed
      have other := Machine.finish_mem_run_iff.mp dismissed
      cases ended.symm.trans other
    · intro earlier
      cases Machine.ending?_eq_none_of_running running _ earlier
    · rw [Machine.take_of_command _ told, leaves]
      refine ⟨rfl, trail, ?_⟩
      apply (path.current_eq_terminal_iff _).mpr (Nat.le_succ order.length)
      rw [List.take_of_length_le (Nat.le_succ order.length)]
      exact trail
  · intro triggers fed beginning recorder reported state notFirst notLast
    exact Machine.shown_of_isCompleted path beginning reported notFirst
      notLast
  · intro buffer session reached taken controller kept
    have beginning :=
      Session.received_append_driven_prefix reached taken kept
    rw [Controller.drive_recorder, ← Recorder.applyAll_append]
    intro recorder reported state notFirst notLast
    exact Machine.shown_of_isCompleted path beginning reported notFirst
      notLast
  · intro triggers recorder reported
    have enumerated : Flow.Enumerated BackupFunds :=
      FlowKind.enumerated .backupFunds
    have valid : BackupFunds.table.fault? = none :=
      FlowKind.fault?_table .backupFunds
    obtain ⟨backup, success, onPath⟩ := Table.exists_isPath enumerated valid
    have shown {state : BackupFunds} (notFirst : state ≠ Flow.initial)
        (notLast : state ≠ Flow.terminal) :=
      Machine.shown_of_isCompleted onPath (List.prefix_refl _) reported
        notFirst notLast
    exact ⟨shown (by decide) (by decide), shown (by decide) (by decide)⟩

/-- A backup that went back once on its way has logged all of its screens. -/
theorem complete_only_after_every_state_backup :
    Flow.Enumerated BackupFunds ∧ BackupFunds.table.fault? = none ∧
      let recorder := (Recorder.fresh : Recorder BackupFunds).applyAll
        ((Machine.start BackupFunds.table).run
          [.next, .next, .back, .next, .signal (.backup .verified), .next,
            .next]).2
      recorder.isCompleted = true ∧
        .pushed .backupFunds ∈ recorder.log ∧
        .pushed .recoveryPhrase ∈ recorder.log ∧
        .pushed .verification ∈ recorder.log := by
  have enumerated : Flow.Enumerated BackupFunds :=
    FlowKind.enumerated .backupFunds
  have valid : BackupFunds.table.fault? = none :=
    FlowKind.fault?_table .backupFunds
  obtain ⟨-, shown, -, backup⟩ :=
    complete_only_after_every_state enumerated valid
  refine ⟨enumerated, valid, rfl, ?_, backup _ rfl⟩
  exact shown _ _ (List.prefix_refl _) rfl .backupFunds (by decide)
    (by decide)

end ScreenFlow
