import ScreenFlow.Proofs.Path

/-!
# A machine counts along a path

On a table that is one path, all that a running machine remembers is the place
it has come to.  Advancing goes on to the next place until there is none, and
going back returns to the one before.
-/

namespace ScreenFlow

variable {State : Type} [DecidableEq State] [Flow State]

/-- A history has come to a place of an order through all places before it. -/
structure History.StandsAt (history : History State) (order : List State)
    (place : Nat) : Prop where
  previous_eq : history.previous = order.take place
  current_eq : order[place]? = some history.current

namespace History.StandsAt

variable {history : History State} {table : Table State}
  {order : List State} {ending : Ending} {place : Nat}

omit [DecidableEq State] [Flow State] in
theorem lt_length (stands : history.StandsAt order place) :
    place < order.length :=
  (List.getElem?_eq_some_iff.mp stands.current_eq).1

omit [DecidableEq State] [Flow State] in
theorem trail_eq (stands : history.StandsAt order place) :
    history.trail = order.take (place + 1) := by
  rw [List.take_add_one, stands.current_eq, ← stands.previous_eq]
  rfl

omit [DecidableEq State] [Flow State] in
private theorem map_some_take {order : List State} {count : Nat}
    (inside : count ≤ order.length) :
    (order.take count).map some =
      (List.range count).map fun index => order[index]? := by
  apply List.ext_getElem
  · simp [inside]
  · intro index before _
    have within : index < order.length := by
      simp at before
      omega
    simp [within]

theorem iff_isChainTo (path : table.IsPath order ending) :
    history.StandsAt order place ↔ history.IsChainTo table place := by
  have chain : table.chain = fun index => order[index]? :=
    funext path.chain_eq
  constructor
  · intro stands
    constructor
    · rw [stands.previous_eq, chain,
        map_some_take (Nat.le_of_lt stands.lt_length)]
    · rw [path.chain_eq, stands.current_eq]
  · intro follows
    have current := follows.current_eq
    rw [path.chain_eq] at current
    have inside := (List.getElem?_eq_some_iff.mp current).1
    refine ⟨?_, current⟩
    apply (List.map_inj_right fun _ _ => Option.some.inj).mp
    rw [follows.previous_eq, chain, map_some_take (Nat.le_of_lt inside)]

end History.StandsAt

namespace Machine

/-! ## One transition -/

section

variable {machine : Machine State} {order : List State} {ending : Ending}
  {place : Nat} (path : machine.table.IsPath order ending)
  (running : machine.ending = none)
include path running

theorem obey_advance_of_lt (stands : machine.history.StandsAt order place)
    (further : place + 1 < order.length) :
    (machine.obey .advance).2 = .advance order[place + 1] ∧
      (machine.obey .advance).1.ending = none ∧
      (machine.obey .advance).1.history.StandsAt order (place + 1) := by
  have there : order[place + 1]? = some order[place + 1] :=
    List.getElem?_eq_getElem further
  have leads := path.step_eq stands.current_eq there
  rw [obey_advance_of_next running leads]
  refine ⟨rfl, running, ?_⟩
  have follows := (History.StandsAt.iff_isChainTo path).mp stands
  exact (History.StandsAt.iff_isChainTo path).mpr (follows.append leads)

theorem obey_advance_of_last (stands : machine.history.StandsAt order place)
    (last : place + 1 = order.length) :
    machine.obey .advance = machine.finish ending := by
  have terminal := path.getElem?_eq_terminal_iff.mpr last
  have current : machine.history.current = Flow.terminal :=
    Option.some.inj (stands.current_eq.symm.trans terminal)
  apply obey_advance_of_finish running
  rw [current, path.finishes]

theorem run_replicate_next_of_last
    (stands : machine.history.StandsAt order place)
    (last : place + 1 = order.length) (again : Nat) :
    machine.run (List.replicate (again + 1) .next) =
      ({ machine with ending := some ending },
        List.replicate (again + 1) (.finish ending)) := by
  have told : Trigger.next.command? = some .advance := rfl
  rw [List.replicate_succ, run_cons_of_command _ told,
    obey_advance_of_last path running stands last, finish,
    run_of_finished rfl]
  simp [told, List.replicate_succ]

theorem obey_retreat_of_succ
    (stands : machine.history.StandsAt order (place + 1))
    (inside : place < order.length) :
    (machine.obey .retreat).1.history.StandsAt order place ∧
      (machine.obey .retreat).2 =
        if machine.table.exitsOnRetreat order[place] then .finish .dismiss
        else .retreat := by
  obtain ⟨history, action⟩ := obey_retreat running
  have follows := (History.StandsAt.iff_isChainTo path).mp stands
  have back := (History.StandsAt.iff_isChainTo path).mpr
    (follows.removeLast Flow.terminal)
  have current : (machine.history.removeLast Flow.terminal).current =
      order[place] := by
    have here := back.current_eq
    rw [List.getElem?_eq_getElem inside] at here
    exact (Option.some.inj here).symm
  rw [current] at action
  exact ⟨by rwa [history], action⟩

omit path in
theorem obey_retreat_of_zero (stands : machine.history.StandsAt order 0) :
    (machine.obey .retreat).1.history = .start Flow.terminal ∧
      (machine.obey .retreat).2 = .finish .dismiss := by
  obtain ⟨history, action⟩ := obey_retreat running
  rw [History.removeLast_of_previous_eq_nil stands.previous_eq]
    at history action
  refine ⟨history, ?_⟩
  simpa [History.start] using action

end

/-! ## A whole walk -/

variable {table : Table State} {order : List State} {ending : Ending}

theorem exists_standsAt (path : table.IsPath order ending)
    {triggers : List Trigger}
    (running : ((start table).run triggers).1.ending = none) :
    ∃ place,
      ((start table).run triggers).1.history.StandsAt order place := by
  obtain ⟨place, follows, -⟩ := run_isChainTo running
  exact ⟨place, (History.StandsAt.iff_isChainTo path).mpr follows⟩

/-- No walk meets a state twice, and none is longer than the path. -/
theorem nodup_trail (path : table.IsPath order ending)
    (triggers : List Trigger) :
    ((start table).run triggers).1.history.trail.Nodup ∧
      ((start table).run triggers).1.history.length ≤ order.length := by
  rw [← History.length_trail]
  rcases run_history_cases table triggers with ⟨place, follows⟩ | clamped
  · have stands := (History.StandsAt.iff_isChainTo path).mpr follows
    rw [stands.trail_eq]
    refine ⟨path.nodup.sublist (List.take_sublist _ _), ?_⟩
    rw [List.length_take]
    exact Nat.min_le_right _ _
  · rw [clamped]
    exact ⟨List.nodup_singleton _, path.length_pos⟩

theorem run_replicate_next_of_lt (path : table.IsPath order ending)
    {count : Nat} (inside : count < order.length) :
    ((start table).run (List.replicate count .next)).1.ending = none ∧
      ((start table).run (List.replicate count .next)).1.history.StandsAt
        order count ∧
      ((start table).run (List.replicate count .next)).2 =
        ((order.drop 1).take count).map .advance := by
  induction count with
  | zero =>
      refine ⟨rfl, ?_, by simp [run_nil]⟩
      exact (History.StandsAt.iff_isChainTo path).mpr (.start table)
  | succ count ih =>
      obtain ⟨running, stands, actions⟩ := ih (by omega)
      have kept : ((start table).run (List.replicate count .next)).1.table =
          table :=
        run_table _ _
      obtain ⟨action, onward, further⟩ :=
        obey_advance_of_lt (by rwa [kept]) running stands inside
      have told : Trigger.next.command? = some .advance := rfl
      rw [List.replicate_succ', run_concat_of_command _ _ told]
      refine ⟨onward, further, ?_⟩
      simp only [actions, action]
      simp [List.take_add_one, inside]

theorem run_replicate_next (path : table.IsPath order ending) (count : Nat) :
    ((start table).run (List.replicate count .next)).1.history.trail =
        order.take (count + 1) ∧
      ((start table).run (List.replicate count .next)).2 =
        ((order.drop 1).take count).map .advance ++
          List.replicate (count + 1 - order.length) (.finish ending) := by
  have positive := path.length_pos
  by_cases inside : count < order.length
  · obtain ⟨running, stands, actions⟩ := run_replicate_next_of_lt path inside
    refine ⟨stands.trail_eq, ?_⟩
    rw [actions, Nat.sub_eq_zero_of_le inside]
    simp
  · obtain ⟨again, rfl⟩ : ∃ again, count = order.length - 1 + (again + 1) :=
      ⟨count - order.length, by omega⟩
    obtain ⟨running, stands, actions⟩ :=
      run_replicate_next_of_lt path (Nat.sub_one_lt_of_lt positive)
    have kept : ((start table).run
        (List.replicate (order.length - 1) .next)).1.table = table :=
      run_table _ _
    have stays := run_replicate_next_of_last (by rwa [kept]) running stands
      (Nat.sub_one_add_one_eq_of_pos positive) again
    rw [List.replicate_add, run_append]
    simp only [stays, actions]
    refine ⟨?_, ?_⟩
    · have trail := stands.trail_eq
      rw [List.take_of_length_le (by omega)] at trail ⊢
      exact trail
    · rw [List.take_of_length_le (by simp), List.take_of_length_le (by simp),
        show order.length - 1 + (again + 1) + 1 - order.length = again + 1 by
          omega]

/-- On a table without a fault the states of a running flow are the places of
one order, which begins with the initial state and ends with the terminal one.
Walking on from a place leads to the next one, and from the last one it ends
the flow there; going back leads to the place before, which ends the flow if
that is a back exit, and from the first place it ends the flow in the terminal
state.  So no state is met twice and no history is longer than the order.
Advances alone go through all places and then repeat the ending. -/
theorem run_counts_along_order (enumerated : Flow.Enumerated State)
    {table : Table State} (valid : table.fault? = none) :
    ∃ order ending, order.Perm Flow.states ∧ table.IsPath order ending ∧
      (∀ triggers, let machine := ((start table).run triggers).1
        machine.ending = none →
        ∃ place, machine.history.StandsAt order place ∧
          (∀ trigger, trigger.command? = some .advance →
            (∀ further : place + 1 < order.length,
              (machine.take trigger).2 = some (.advance order[place + 1]) ∧
                (machine.take trigger).1.ending = none ∧
                (machine.take trigger).1.history.StandsAt order
                  (place + 1)) ∧
            (place + 1 = order.length →
              machine.take trigger =
                ({ machine with ending := some ending },
                  some (.finish ending)))) ∧
          (∀ earlier, place = earlier + 1 →
            ∀ inside : earlier < order.length,
              (machine.take .back).1.history.StandsAt order earlier ∧
                (machine.take .back).2 =
                  some (if table.exitsOnRetreat order[earlier] then
                    .finish .dismiss else .retreat)) ∧
          (place = 0 →
            (machine.take .back).1.history = .start Flow.terminal ∧
              (machine.take .back).2 = some (.finish .dismiss))) ∧
      (∀ triggers, let history := ((start table).run triggers).1.history
        history.trail.Nodup ∧ history.length ≤ order.length) ∧
      ∀ count, let walked := (start table).run (List.replicate count .next)
        walked.1.history.trail = order.take (count + 1) ∧
          (walked.1.history.current = Flow.terminal ↔
            order.length ≤ count + 1) ∧
          walked.2 = ((order.drop 1).take count).map .advance ++
            List.replicate (count + 1 - order.length) (.finish ending) := by
  obtain ⟨order, ending, path⟩ := Table.exists_isPath enumerated valid
  refine ⟨order, ending, path.perm_states enumerated, path, ?_,
    nodup_trail path, ?_⟩
  · intro triggers machine running
    obtain ⟨place, stands⟩ := exists_standsAt path running
    have kept : machine.table = table := run_table _ triggers
    have onPath : machine.table.IsPath order ending := by rwa [kept]
    refine ⟨place, stands, ?_, ?_, ?_⟩
    · intro trigger told
      rw [take_of_command machine told]
      constructor
      · intro further
        obtain ⟨action, onward⟩ :=
          obey_advance_of_lt onPath running stands further
        exact ⟨congrArg some action, onward⟩
      · intro last
        rw [obey_advance_of_last onPath running stands last]
        rfl
    · rintro earlier rfl inside
      obtain ⟨back, action⟩ :=
        obey_retreat_of_succ onPath running stands inside
      rw [kept] at action
      exact ⟨back, congrArg some action⟩
    · rintro rfl
      obtain ⟨history, action⟩ := obey_retreat_of_zero running stands
      exact ⟨history, congrArg some action⟩
  · intro count walked
    obtain ⟨trail, actions⟩ := run_replicate_next path count
    exact ⟨trail, path.current_eq_terminal_iff trail, actions⟩

/-- Setting up a card: the place after four advances is the fifth, and going
back leads to the fourth. -/
theorem run_counts_along_order_payment :
    Flow.Enumerated PaymentSetup ∧ PaymentSetup.table.fault? = none ∧
      ∃ order : List PaymentSetup, order.Perm Flow.states ∧
        let shown := ((start PaymentSetup.table).run
          (List.replicate 4 .next)).1
        shown.history.StandsAt order 4 ∧
          (shown.take .back).1.history.StandsAt order 3 := by
  have enumerated : Flow.Enumerated PaymentSetup :=
    FlowKind.enumerated .paymentSetup
  have valid : PaymentSetup.table.fault? = none :=
    FlowKind.fault?_table .paymentSetup
  obtain ⟨order, ending, perm, -, steps, -⟩ :=
    run_counts_along_order enumerated valid
  obtain ⟨place, stands, -, back, -⟩ :=
    steps (List.replicate 4 .next) rfl
  have inside := stands.lt_length
  obtain rfl : 4 = place := by
    have visited := congrArg List.length stands.previous_eq
    rw [List.length_take_of_le (Nat.le_of_lt inside)] at visited
    exact visited
  exact ⟨enumerated, valid, order, perm, stands,
    (back 3 rfl (by omega)).1⟩

end Machine

end ScreenFlow
