import ScreenFlow.Proofs.Transitions

/-!
# Histories follow the chain

The chain of a table begins with the initial state and goes on for as long as
the steps lead on.  While a flow is running its history is a beginning of the
chain, and how far it goes depends only on how many more advances than
retreats there have been.  A flow also ends on the chain, unless it is left by
going back from the initial state: then it ends in the terminal state alone.
-/

namespace ScreenFlow

variable {State : Type} [DecidableEq State]

namespace Action

/-- How many of the actions present a screen. -/
def advances (actions : List (Action State)) : Nat :=
  actions.countP fun action => action.target?.isSome

/-- How many of the actions take a screen away. -/
def retreats (actions : List (Action State)) : Nat :=
  actions.count .retreat

end Action

variable [Flow State]

/-- A history is the chain up to a place, that place included. -/
structure History.IsChainTo (history : History State) (table : Table State)
    (depth : Nat) : Prop where
  previous_eq : history.previous.map some =
    (List.range depth).map table.chain
  current_eq : table.chain depth = some history.current

namespace History.IsChainTo

variable {history other : History State} {table : Table State} {depth : Nat}

theorem start (table : Table State) :
    (History.start Flow.initial : History State).IsChainTo table 0 where
  previous_eq := rfl
  current_eq := rfl

theorem trail_eq (follows : history.IsChainTo table depth) :
    history.trail.map some = (List.range (depth + 1)).map table.chain := by
  simp [History.trail, List.range_succ, follows.previous_eq,
    follows.current_eq]

theorem length_previous (follows : history.IsChainTo table depth) :
    history.previous.length = depth := by
  have lengths := congrArg List.length follows.previous_eq
  simpa using lengths

theorem unique (follows : history.IsChainTo table depth)
    (otherFollows : other.IsChainTo table depth) : history = other := by
  have previous : history.previous = other.previous := by
    have same := follows.previous_eq.trans otherFollows.previous_eq.symm
    exact (List.map_inj_right fun _ _ => Option.some.inj).mp same
  have current : history.current = other.current := by
    apply Option.some.inj
    rw [← follows.current_eq, ← otherFollows.current_eq]
  cases history
  cases other
  cases previous
  cases current
  rfl

theorem ne_start (follows : history.IsChainTo table depth) {state : State}
    (different : Flow.initial ≠ state) : history ≠ .start state := by
  rintro rfl
  have length := follows.length_previous
  obtain rfl : depth = 0 := length.symm
  exact different (Option.some.inj follows.current_eq)

theorem append (follows : history.IsChainTo table depth) {target : State}
    (leads : table.step history.current = some (.next target)) :
    (history.append target).IsChainTo table (depth + 1) where
  previous_eq := follows.trail_eq
  current_eq := by
    have next : table.next? history.current = some target := by
      simp [Table.next?, leads, Step.target?]
    simp [Table.chain, follows.current_eq, next, History.append]

theorem removeLast {depth : Nat}
    (follows : history.IsChainTo table (depth + 1)) (fallback : State) :
    (history.removeLast fallback).IsChainTo table depth := by
  have visited : history.previous ≠ [] := by
    intro fresh
    have length := follows.length_previous
    simp [fresh] at length
  have split := follows.previous_eq
  rw [← List.dropLast_concat_getLast visited, List.range_succ] at split
  simp only [List.map_append, List.map_cons, List.map_nil] at split
  obtain ⟨earlier, last⟩ := List.append_inj' split rfl
  constructor
  · exact earlier
  · have current := (List.cons.inj last).1
    simpa [History.removeLast, List.getLast?_eq_some_getLast visited]
      using current.symm

end History.IsChainTo

namespace Machine

/-! ## One transition -/

section

variable {machine : Machine State} {command : Command}
  {moved : Machine State × Action State} {depth : Nat}

theorem Obeys.table_eq (obeyed : machine.Obeys command moved) :
    moved.1.table = machine.table := by
  cases obeyed <;> rfl

theorem exists_isChainTo_removeLast
    (follows : machine.history.IsChainTo machine.table depth)
    (visited : machine.history.previous ≠ []) :
    ∃ fewer, depth = fewer + 1 ∧
      (machine.history.removeLast Flow.terminal).IsChainTo
        machine.table fewer := by
  have length := follows.length_previous
  cases depth with
  | zero => exact absurd (List.eq_nil_of_length_eq_zero length) visited
  | succ fewer => exact ⟨fewer, rfl, follows.removeLast Flow.terminal⟩

/-- A transition that does not end the flow goes one place further along the
chain, or one place back. -/
theorem Obeys.isChainTo (obeyed : machine.Obeys command moved)
    (follows : machine.history.IsChainTo machine.table depth)
    (running : moved.1.ending = none) :
    ∃ reached, moved.1.history.IsChainTo machine.table reached ∧
      depth + Action.advances [moved.2] =
        Action.retreats [moved.2] + reached := by
  cases obeyed with
  | again finished => simp [finished] at running
  | forward _ leads =>
      refine ⟨depth + 1, follows.append leads, ?_⟩
      simp [Action.advances, Action.retreats, Action.target?]
  | leave => cases running
  | back _ visited =>
      obtain ⟨fewer, rfl, shorter⟩ :=
        exists_isChainTo_removeLast follows visited
      refine ⟨fewer, shorter, ?_⟩
      simp [Action.advances, Action.retreats, Action.target?, Nat.add_comm]
  | backOut => cases running

/-- How a running flow comes to its end: it is left by walking on, or by going
back to a place of the chain, or by going back from the first place. -/
theorem Obeys.exits (obeyed : machine.Obeys command moved)
    (follows : machine.history.IsChainTo machine.table depth)
    (running : machine.ending = none) {ending : Ending}
    (finished : moved.1.ending = some ending) :
    command = .advance ∧ moved.1.history = machine.history ∨
      command = .retreat ∧ ending = .dismiss ∧
        ((∃ fewer, depth = fewer + 1 ∧
            moved.1.history.IsChainTo machine.table fewer) ∨
          depth = 0 ∧ moved.1.history = .start Flow.terminal) := by
  cases obeyed with
  | again ended => simp [running] at ended
  | forward => simp [running] at finished
  | leave =>
      cases finished
      exact .inl ⟨rfl, rfl⟩
  | back => simp [running] at finished
  | backOut =>
      cases finished
      refine .inr ⟨rfl, rfl, ?_⟩
      by_cases fresh : machine.history.previous = []
      · right
        have length := follows.length_previous
        refine ⟨by simpa [fresh] using length.symm, ?_⟩
        exact History.removeLast_of_previous_eq_nil fresh Flow.terminal
      · left
        exact exists_isChainTo_removeLast follows fresh

end

/-! ## A whole walk -/

theorem obey_table (machine : Machine State) (command : Command) :
    (machine.obey command).1.table = machine.table :=
  (machine.obeys command).table_eq

theorem obeyAll_table (machine : Machine State) (commands : List Command) :
    (machine.obeyAll commands).1.table = machine.table := by
  induction commands generalizing machine with
  | nil => rfl
  | cons command rest ih =>
      exact (ih (machine.obey command).1).trans (machine.obey_table command)

theorem run_table (machine : Machine State) (triggers : List Trigger) :
    (machine.run triggers).1.table = machine.table :=
  machine.obeyAll_table _

theorem obeyAll_isChainTo {machine : Machine State} {depth : Nat}
    (follows : machine.history.IsChainTo machine.table depth)
    {commands : List Command}
    (running : (machine.obeyAll commands).1.ending = none) :
    ∃ reached,
      (machine.obeyAll commands).1.history.IsChainTo machine.table reached ∧
        depth + Action.advances (machine.obeyAll commands).2 =
          Action.retreats (machine.obeyAll commands).2 + reached := by
  induction commands generalizing machine depth with
  | nil => exact ⟨depth, follows, by simp [Action.advances, Action.retreats]⟩
  | cons command rest ih =>
      simp only [obeyAll_cons] at running ⊢
      -- A flow that is still running at the end was running all the time.
      have between : (machine.obey command).1.ending = none := by
        rw [obeyAll_ending] at running
        exact (Option.or_eq_none_iff.mp running).1
      obtain ⟨moved, onChain, counted⟩ :=
        (machine.obeys command).isChainTo follows between
      obtain ⟨reached, follows, recounted⟩ :=
        ih (by rwa [obey_table]) running
      refine ⟨reached, by rwa [obey_table] at follows, ?_⟩
      simp only [Action.advances, Action.retreats, List.countP_cons,
        List.count_cons, List.countP_nil, List.count_nil] at counted recounted ⊢
      omega

theorem run_isChainTo {table : Table State} {triggers : List Trigger}
    (running : ((start table).run triggers).1.ending = none) :
    ∃ depth,
      ((start table).run triggers).1.history.IsChainTo table depth ∧
        Action.advances ((start table).run triggers).2 =
          Action.retreats ((start table).run triggers).2 + depth := by
  obtain ⟨depth, follows, counted⟩ :=
    obeyAll_isChainTo (.start table) running
  exact ⟨depth, follows, by rwa [Nat.zero_add] at counted⟩

/-! ## The end of a walk -/

theorem command?_eq_some_retreat_iff {trigger : Trigger} :
    trigger.command? = some .retreat ↔ trigger = .back := by
  cases trigger with
  | next => simp [Trigger.command?]
  | back => simp [Trigger.command?]
  | signal reported =>
      cases idle : reported.isIdle <;> simp [Trigger.command?, idle]

theorem run_cons_of_idle (machine : Machine State) {trigger : Trigger}
    (idle : trigger.command? = none) (rest : List Trigger) :
    machine.run (trigger :: rest) = machine.run rest := by
  simp [run, idle]

/-- Some trigger ends the flow.  Before it the flow is running, and after it
every transition repeats the ending and changes nothing. -/
theorem exists_finishing_trigger {machine : Machine State}
    (running : machine.ending = none) {triggers : List Trigger}
    {ending : Ending}
    (finished : (machine.run triggers).1.ending = some ending) :
    ∃ before trigger after command again,
      triggers = before ++ trigger :: after ∧
        trigger.command? = some command ∧
        (machine.run before).1.ending = none ∧
        (machine.run before).1.obey command =
          ((machine.run triggers).1, .finish ending) ∧
        (machine.run triggers).2 =
          (machine.run before).2 ++
            List.replicate (again + 1) (.finish ending) := by
  induction triggers generalizing machine with
  | nil => cases running.symm.trans finished
  | cons trigger rest ih =>
      cases told : trigger.command? with
      | none =>
          have skipped := machine.run_cons_of_idle told
          rw [skipped] at finished
          obtain ⟨before, last, after, command, again, rfl, obeyed⟩ :=
            ih running finished
          refine ⟨trigger :: before, last, after, command, again, rfl, ?_⟩
          rw [skipped, skipped]
          exact obeyed
      | some command =>
          have moved := machine.run_cons_of_command told rest
          rw [moved] at finished
          cases between : (machine.obey command).1.ending with
          | none =>
              obtain ⟨before, last, after, lastCommand, again, rfl, lastTold,
                paused, obeyed, actions⟩ := ih between finished
              refine ⟨trigger :: before, last, after, lastCommand, again, rfl,
                lastTold, ?_⟩
              rw [moved, machine.run_cons_of_command told before]
              exact ⟨paused, obeyed, congrArg (List.cons _) actions⟩
          | some decided =>
              have answer := machine.obey_ending command
              rw [between, running, Option.none_or] at answer
              have action := Action.ending?_eq_some_iff.mp answer.symm
              have stays := run_of_finished between rest
              rw [stays] at moved finished
              obtain rfl : decided = ending :=
                Option.some.inj (between.symm.trans finished)
              refine ⟨[], trigger, rest, command,
                (rest.filterMap Trigger.command?).length, rfl, told, running,
                ?_⟩
              rw [moved, action]
              exact ⟨Prod.ext rfl action, rfl⟩

theorem finish_mem_run_iff {table : Table State} {triggers : List Trigger}
    {ending : Ending} :
    .finish ending ∈ ((start table).run triggers).2 ↔
      ((start table).run triggers).1.ending = some ending := by
  cases ended : ((start table).run triggers).1.ending with
  | none =>
      simp only [reduceCtorEq, iff_false]
      intro emitted
      cases ending?_eq_none_of_running ended _ emitted
  | some decided =>
      obtain ⟨before, _, _, _, again, -, -, running, -, actions⟩ :=
        exists_finishing_trigger rfl ended
      rw [actions, List.mem_append, Option.some.injEq]
      constructor
      · rintro (earlier | repeated)
        · cases ending?_eq_none_of_running running _ earlier
        · exact (Action.finish.inj (List.eq_of_mem_replicate repeated)).symm
      · rintro rfl
        exact .inr (List.mem_replicate.mpr ⟨by omega, rfl⟩)

/-- The end of a walk along the chain, with the place that it was left from. -/
theorem exists_exit {table : Table State} {triggers : List Trigger}
    {ending : Ending}
    (finished : ((start table).run triggers).1.ending = some ending) :
    ∃ before trigger after command again depth,
      triggers = before ++ trigger :: after ∧
        trigger.command? = some command ∧
        ((start table).run before).1.ending = none ∧
        ((start table).run triggers).2 =
          ((start table).run before).2 ++
            List.replicate (again + 1) (.finish ending) ∧
        Action.advances ((start table).run before).2 =
          Action.retreats ((start table).run before).2 + depth ∧
        (command = .advance ∧
            ((start table).run triggers).1.history.IsChainTo table depth ∨
          command = .retreat ∧ ending = .dismiss ∧
            ((∃ fewer, depth = fewer + 1 ∧
                ((start table).run triggers).1.history.IsChainTo
                  table fewer) ∨
              depth = 0 ∧
                ((start table).run triggers).1.history =
                  .start Flow.terminal)) := by
  obtain ⟨before, trigger, after, command, again, split, told, running,
    obeyed, actions⟩ := exists_finishing_trigger rfl finished
  obtain ⟨depth, follows, counted⟩ := run_isChainTo running
  have kept : ((start table).run before).1.table = table :=
    run_table _ before
  have exits := (((start table).run before).1.obeys command).exits
    (by rwa [kept]) running (by rw [obeyed]; exact finished)
  rw [obeyed, kept] at exits
  refine ⟨before, trigger, after, command, again, depth, split, told, running,
    actions, counted, ?_⟩
  rcases exits with ⟨forward, stays⟩ | back
  · rw [← stays] at follows
    exact .inl ⟨forward, follows⟩
  · exact .inr back

theorem run_history_cases (table : Table State) (triggers : List Trigger) :
    (∃ depth,
      ((start table).run triggers).1.history.IsChainTo table depth) ∨
        ((start table).run triggers).1.history = .start Flow.terminal := by
  cases ended : ((start table).run triggers).1.ending with
  | none =>
      obtain ⟨depth, follows, -⟩ := run_isChainTo ended
      exact .inl ⟨depth, follows⟩
  | some ending =>
      obtain ⟨_, _, _, _, _, depth, -, -, -, -, -, exits⟩ :=
        exists_exit ended
      rcases exits with
        ⟨-, follows⟩ | ⟨-, -, ⟨fewer, -, shorter⟩ | ⟨-, clamped⟩⟩
      · exact .inl ⟨depth, follows⟩
      · exact .inl ⟨fewer, shorter⟩
      · exact .inr clamped

/-- While a flow is running its history is the chain from the initial state to
the place that the advances, less the retreats, lead to; nothing else about
the triggers counts.  The flow is over from the first action that ends it, and
then every trigger but an idle signal leads to that action again and none
changes the machine.  The history then is that of the running flow if it was
left by walking on, and one state shorter if it was left by going back; from
the initial state alone, going back leads to the terminal state alone. -/
theorem run_follows_chain (table : Table State) (triggers : List Trigger) :
    let walk (triggers : List Trigger) := (start table).run triggers
    let walked := walk triggers
    (walked.1.ending = none →
      (∃ depth, walked.1.history.IsChainTo table depth ∧
        Action.advances walked.2 = Action.retreats walked.2 + depth) ∧
        ∀ others, (walk others).1.ending = none →
          Action.advances walked.2 + Action.retreats (walk others).2 =
            Action.advances (walk others).2 + Action.retreats walked.2 →
          walked.1.history = (walk others).1.history) ∧
      walked.1.ending = walked.2.findSome? Action.ending? ∧
      ∀ ending, walked.1.ending = some ending →
        (∃ before again,
          (∀ action ∈ before, action.isFinishing = false) ∧
            walked.2 = before ++
              List.replicate (again + 1) (.finish ending)) ∧
          (∀ trigger, walked.1.take trigger =
            (walked.1, trigger.command?.map fun _ => .finish ending)) ∧
          ∃ before trigger after depth,
            triggers = before ++ trigger :: after ∧
              (walk before).1.ending = none ∧
              Action.advances (walk before).2 =
                Action.retreats (walk before).2 + depth ∧
              (trigger.command? = some .advance ∧
                  walked.1.history.IsChainTo table depth ∨
                trigger = .back ∧ ending = .dismiss ∧
                  ((∃ fewer, depth = fewer + 1 ∧
                      walked.1.history.IsChainTo table fewer) ∨
                    depth = 0 ∧ walked.1.history = .start Flow.terminal)) ∧
              ((Flow.initial : State) ≠ Flow.terminal →
                (walked.1.history = .start Flow.terminal ↔
                  trigger = .back ∧ depth = 0)) := by
  intro walk walked
  refine ⟨?_, ?_, ?_⟩
  · intro running
    obtain ⟨depth, follows, counted⟩ := run_isChainTo running
    refine ⟨⟨depth, follows, counted⟩, ?_⟩
    intro others otherRunning difference
    obtain ⟨otherDepth, otherFollows, otherCounted⟩ :=
      run_isChainTo otherRunning
    obtain rfl : depth = otherDepth := by
      simp only [walked, walk] at difference
      omega
    exact follows.unique otherFollows
  · exact ((start table).run_ending triggers).trans Option.none_or
  · intro ending finished
    obtain ⟨before, trigger, after, command, again, depth, rfl, told, running,
      actions, counted, exits⟩ := exists_exit finished
    refine ⟨⟨(walk before).2, again, ?_, actions⟩, take_of_finished finished,
      before, trigger, after, depth, rfl, running, counted, ?_, ?_⟩
    · intro action emitted
      simp [Action.isFinishing, ending?_eq_none_of_running running action
        emitted]
    · rcases exits with ⟨rfl, follows⟩ | ⟨rfl, back⟩
      · exact .inl ⟨told, follows⟩
      · exact .inr ⟨command?_eq_some_retreat_iff.mp told, back⟩
    · intro distinct
      rcases exits with
        ⟨rfl, follows⟩ | ⟨rfl, -, ⟨fewer, rfl, shorter⟩ | clamped⟩
      · have forward : trigger ≠ .back := by
          rintro rfl
          cases told
        have elsewhere := follows.ne_start distinct
        simp [forward, walked, walk, elsewhere]
      · have elsewhere := shorter.ne_start distinct
        simp [walked, walk, elsewhere]
      · have back := command?_eq_some_retreat_iff.mp told
        exact ⟨fun _ => ⟨back, clamped.1⟩, fun _ => clamped.2⟩

end Machine

end ScreenFlow
