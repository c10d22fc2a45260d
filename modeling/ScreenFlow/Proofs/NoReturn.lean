import ScreenFlow.Proofs.Mirror
import ScreenFlow.Proofs.Path

/-!
# No way back past an exit

Walking on leads past a back exit, going back does not: the flow is over when
it comes back to the exit.  So a flow that is running beyond an exit stays
beyond it.  On a table that is one path it then presents nothing any more that
comes up to the exit or right after it.
-/

namespace ScreenFlow

variable {State : Type} [DecidableEq State] [Flow State]

namespace Table.IsPath

variable {table : Table State} {order : List State} {ending : Ending}

theorem chain_inj (path : table.IsPath order ending) {first second : Nat}
    {state : State} (here : table.chain first = some state)
    (there : table.chain second = some state) : first = second := by
  rw [path.chain_eq] at here there
  have inside := (List.getElem?_eq_some_iff.mp here).1
  exact (List.getElem?_inj inside path.nodup).mp (here.trans there.symm)

theorem exists_chain_eq (path : table.IsPath order ending) (state : State) :
    ∃ place, table.chain place = some state := by
  obtain ⟨place, inside, here⟩ := List.mem_iff_getElem.mp (path.complete state)
  refine ⟨place, ?_⟩
  rw [path.chain_eq, List.getElem?_eq_getElem inside, here]

theorem exists_step_eq (path : table.IsPath order ending) {state : State}
    (notLast : state ≠ Flow.terminal) {place : Nat}
    (here : table.chain place = some state) :
    ∃ onward, table.step state = some (.next onward) ∧
      table.chain (place + 1) = some onward := by
  rw [path.chain_eq] at here
  cases there : order[place + 1]? with
  | some onward =>
      exact ⟨onward, path.step_eq here there, by rw [path.chain_eq, there]⟩
  | none =>
      have inside := (List.getElem?_eq_some_iff.mp here).1
      have short := List.getElem?_eq_none_iff.mp there
      have last := path.getElem?_eq_terminal_iff.mpr
        (show place + 1 = order.length by omega)
      exact absurd (Option.some.inj (here.symm.trans last)) notLast

end Table.IsPath

namespace Machine

/-- While it is running, a machine has come further along the chain than a
place. -/
def IsBeyond (machine : Machine State) (place : Nat) : Prop :=
  machine.ending = none →
    ∃ depth, place < depth ∧
      machine.history.IsChainTo machine.table depth

section

variable {machine : Machine State} {place : Nat} {exit : State}
  (exits : machine.table.exitsOnRetreat exit = true)
  (there : machine.table.chain place = some exit)
include exits there

/-- Going back from right behind an exit ends the flow, so no transition leads
back to it, and what is presented comes later than the state behind it. -/
theorem Obeys.isBeyond {command : Command}
    {moved : Machine State × Action State}
    (obeyed : machine.Obeys command moved)
    (beyond : machine.IsBeyond place) :
    moved.1.IsBeyond place ∧
      ∀ state, moved.2 = .advance state →
        ∃ depth, place + 1 < depth ∧
          machine.table.chain depth = some state := by
  cases obeyed with
  | again finished => exact ⟨beyond, by simp⟩
  | forward running leads =>
      obtain ⟨depth, further, follows⟩ := beyond running
      have longer := follows.append leads
      refine ⟨fun _ => ⟨depth + 1, by omega, longer⟩, ?_⟩
      rintro state ⟨⟩
      exact ⟨depth + 1, by omega, longer.current_eq⟩
  | leave => exact ⟨by simp [IsBeyond, finish], by simp [finish]⟩
  | back running visited stays =>
      refine ⟨fun _ => ?_, by simp⟩
      obtain ⟨depth, further, follows⟩ := beyond running
      obtain ⟨fewer, rfl, shorter⟩ :=
        exists_isChainTo_removeLast follows visited
      have elsewhere : place ≠ fewer := by
        rintro rfl
        have current := Option.some.inj (there.symm.trans shorter.current_eq)
        rw [← current, exits] at stays
        cases stays
      exact ⟨fewer, by omega, shorter⟩
  | backOut => exact ⟨by simp [IsBeyond, finish], by simp [finish]⟩

theorem obeyAll_isBeyond (beyond : machine.IsBeyond place)
    (commands : List Command) :
    (machine.obeyAll commands).1.IsBeyond place ∧
      ∀ state, .advance state ∈ (machine.obeyAll commands).2 →
        ∃ depth, place + 1 < depth ∧
          machine.table.chain depth = some state := by
  induction commands generalizing machine with
  | nil => exact ⟨beyond, nofun⟩
  | cons command rest ih =>
      obtain ⟨still, presented⟩ :=
        (machine.obeys command).isBeyond exits there beyond
      have kept := machine.obey_table command
      obtain ⟨last, later⟩ := ih (by rwa [kept]) (by rwa [kept]) still
      rw [kept] at later
      refine ⟨last, ?_⟩
      intro state emitted
      rcases List.mem_cons.mp emitted with now | afterwards
      · exact presented state now.symm
      · exact later state afterwards

end

/-- Every action of a walk answers one of its commands. -/
theorem exists_split_of_obeyAll {machine : Machine State}
    {commands : List Command} {before after : List (Action State)}
    {action : Action State}
    (split : (machine.obeyAll commands).2 = before ++ action :: after) :
    ∃ earlier command later, commands = earlier ++ command :: later ∧
      (machine.obeyAll earlier).2 = before ∧
      ((machine.obeyAll earlier).1.obey command).2 = action ∧
      (((machine.obeyAll earlier).1.obey command).1.obeyAll later).2 =
        after := by
  induction commands generalizing machine before with
  | nil => simp at split
  | cons command rest ih =>
      rw [obeyAll_cons] at split
      cases before with
      | nil =>
          obtain ⟨first, tail⟩ := List.cons.inj split
          exact ⟨[], command, rest, rfl, rfl, first, tail⟩
      | cons other before =>
          obtain ⟨rfl, tail⟩ := List.cons.inj split
          obtain ⟨earlier, last, later, rfl, front, found⟩ := ih tail
          refine ⟨command :: earlier, last, later, rfl, ?_, found⟩
          simp [front]

theorem Obeys.current_eq {machine : Machine State} {command : Command}
    {moved : Machine State × Action State}
    (obeyed : machine.Obeys command moved) {state : State}
    (presented : moved.2 = .advance state) :
    moved.1.history.current = state := by
  cases obeyed with
  | forward =>
      cases presented
      rfl
  | again => cases presented
  | leave => cases presented
  | back => cases presented
  | backOut => cases presented

variable {table : Table State} {order : List State} {ending : Ending}

/-- Where a walk has presented a state, it stands there if it is running. -/
theorem isBeyond_of_presented (path : table.IsPath order ending)
    {earlier : List Command} {command : Command} {onward : State}
    {place : Nat} (behind : table.chain (place + 1) = some onward)
    (presented : (((start table).obeyAll earlier).1.obey command).2 =
      .advance onward) :
    (((start table).obeyAll earlier).1.obey command).1.IsBeyond place := by
  intro running
  have whole := (start table).obeyAll_append earlier [command]
  have begins : (start table).history.IsChainTo (start table).table 0 :=
    .start table
  have walking :
      ((start table).obeyAll (earlier ++ [command])).1.ending = none := by
    rw [whole]
    exact running
  obtain ⟨depth, follows, -⟩ := obeyAll_isChainTo begins walking
  rw [whole] at follows
  have arrived := (obeys _ command).current_eq presented
  have current : table.chain depth = some onward := by
    rw [← arrived]
    exact follows.current_eq
  obtain rfl := path.chain_inj current behind
  rw [obey_table, obeyAll_table]
  exact ⟨place + 1, Nat.lt_succ_self place, follows⟩

section

variable {exit onward : State} {place : Nat}
  (path : table.IsPath order ending)
  (exits : table.exitsOnRetreat exit = true)
  (there : table.chain place = some exit)
  (behind : table.chain (place + 1) = some onward)
  {triggers : List Trigger}
include path exits there behind

/-- Once the state behind an exit has been presented, the flow is beyond the
exit for as long as it is running, and presents only what comes later. -/
theorem run_isBeyond {before after : List (Action State)}
    (split : ((start table).run triggers).2 =
      before ++ .advance onward :: after) :
    ((start table).run triggers).1.IsBeyond place ∧
      ∀ earlier ≤ place + 1, ∀ state,
        table.chain earlier = some state → .advance state ∉ after := by
  obtain ⟨earlier, command, later, commands, -, presented, rfl⟩ :=
    exists_split_of_obeyAll split
  let behindExit := ((start table).obeyAll earlier).1.obey command
  have kept : behindExit.1.table = table :=
    (obey_table _ _).trans (obeyAll_table _ _)
  have beyond : behindExit.1.IsBeyond place :=
    isBeyond_of_presented path behind presented
  rw [← kept] at exits there
  obtain ⟨last, new⟩ := obeyAll_isBeyond exits there beyond later
  have whole : ((start table).run triggers).1 =
      (behindExit.1.obeyAll later).1 := by
    simp only [run, commands, obeyAll_append, obeyAll_cons, behindExit]
  refine ⟨whole ▸ last, ?_⟩
  intro other early state here emitted
  obtain ⟨depth, further, found⟩ := new state emitted
  rw [kept] at found
  have same := path.chain_inj here found
  omega

theorem count_advance_le_one :
    ((start table).run triggers).2.count (.advance onward) ≤ 1 := by
  by_cases presented : .advance onward ∈ ((start table).run triggers).2
  · obtain ⟨before, after, split, first⟩ :=
      List.eq_append_cons_of_mem presented
    obtain ⟨-, never⟩ := run_isBeyond path exits there behind split
    have once := never (place + 1) (Nat.le_refl _) onward behind
    have noneBefore := List.count_eq_zero_of_not_mem first
    have noneAfter := List.count_eq_zero_of_not_mem once
    rw [split, List.count_append, List.count_cons_self]
    omega
  · rw [List.count_eq_zero_of_not_mem presented]
    exact Nat.zero_le 1

theorem exists_isChainTo_of_mem
    (presented : .advance onward ∈ ((start table).run triggers).2)
    (running : ((start table).run triggers).1.ending = none) :
    ∃ depth, place < depth ∧
      ((start table).run triggers).1.history.IsChainTo table depth := by
  obtain ⟨before, after, split⟩ := List.append_of_mem presented
  obtain ⟨beyond, -⟩ := run_isBeyond path exits there behind split
  have kept : ((start table).run triggers).1.table = table :=
    run_table _ triggers
  rw [IsBeyond, kept] at beyond
  exact beyond running

end

/-! ## Setting up a card -/

theorem exists_isPath_payment :
    ∃ order ending, PaymentSetup.table.IsPath order ending ∧
      order.length = 6 := by
  have enumerated : Flow.Enumerated PaymentSetup :=
    FlowKind.enumerated .paymentSetup
  have valid : PaymentSetup.table.fault? = none :=
    FlowKind.fault?_table .paymentSetup
  obtain ⟨order, ending, path⟩ := Table.exists_isPath enumerated valid
  exact ⟨order, ending, path, (path.perm_states enumerated).length_eq⟩

theorem top_of_pending_presented {triggers : List Trigger}
    (presented : .advance .pendingActivation ∈
      ((start PaymentSetup.table).run triggers).2)
    {screen : PaymentSetup}
    (shown : ((Recorder.fresh : Recorder PaymentSetup).applyAll
      ((start PaymentSetup.table).run triggers).2).top = some screen) :
    screen = .pendingActivation := by
  have mirrors :=
    Recorder.applyAll_run_mirrors PaymentSetup.table triggers
  rw [Recorder.top_eq_getLast?_stack] at shown
  cases ended : ((start PaymentSetup.table).run triggers).1.ending with
  | some ending =>
      rw [mirrors.stack_eq_nil (by simp [ended])] at shown
      cases shown
  | none =>
      obtain ⟨order, ending, path, length⟩ := exists_isPath_payment
      have exits : PaymentSetup.table.exitsOnRetreat .cardAuthorization =
          true := rfl
      have there : PaymentSetup.table.chain 3 = some .cardAuthorization := rfl
      obtain ⟨depth, further, follows⟩ :=
        exists_isChainTo_of_mem path exits there rfl presented ended
      have inside : depth < 6 := by
        have current := follows.current_eq
        rw [path.chain_eq] at current
        rw [← length]
        exact (List.getElem?_eq_some_iff.mp current).1
      rw [mirrors.stack_eq ended] at shown
      obtain rfl | rfl : depth = 4 ∨ depth = 5 := by omega
      · have stands : ((start PaymentSetup.table).run triggers).1.history =
            { current := .pendingActivation
              previous :=
                [.start, .paymentMethods, .cardDetails, .cardAuthorization] } :=
          follows.unique ⟨rfl, rfl⟩
        rw [stands] at shown
        exact (Option.some.inj shown).symm
      · have stands : ((start PaymentSetup.table).run triggers).1.history =
            { current := .ending
              previous :=
                [.start, .paymentMethods, .cardDetails, .cardAuthorization,
                  .pendingActivation] } :=
          follows.unique ⟨rfl, rfl⟩
        rw [stands] at shown
        exact (Option.some.inj shown).symm

/-- A back exit other than the terminal state is passed at most once.  The
state behind it is presented at most once, and after that no state is presented
that comes up to it in the chain; nor is a flow that is still running in the
exit or in a state before it.  So a card is submitted once at most: after its
activation began, no screen up to the authorisation is presented, and none of
them is on top. -/
theorem exit_passed_at_most_once (enumerated : Flow.Enumerated State)
    {table : Table State} (valid : table.fault? = none) :
    (∀ exit, table.exitsOnRetreat exit = true → exit ≠ Flow.terminal →
      ∃ place onward, table.chain place = some exit ∧
        (∀ other, table.chain other = some exit → other = place) ∧
        table.step exit = some (.next onward) ∧
        ∀ triggers, let walked := (start table).run triggers
          walked.2.count (.advance onward) ≤ 1 ∧
          (∀ before after, walked.2 = before ++ .advance onward :: after →
            ∀ earlier ≤ place + 1, ∀ state,
              table.chain earlier = some state → .advance state ∉ after) ∧
          (.advance onward ∈ walked.2 → walked.1.ending = none →
            ∀ earlier ≤ place,
              table.chain earlier ≠ some walked.1.history.current)) ∧
      ∀ triggers, let walked := (start PaymentSetup.table).run triggers
        walked.2.count (.advance .pendingActivation) ≤ 1 ∧
        ∀ before after,
          walked.2 = before ++ .advance .pendingActivation :: after →
            (∀ state ∈ [PaymentSetup.start, .paymentMethods, .cardDetails,
              .cardAuthorization], .advance state ∉ after) ∧
            ∀ screen,
              ((Recorder.fresh : Recorder PaymentSetup).applyAll
                walked.2).top = some screen → screen = .pendingActivation := by
  constructor
  · intro exit exits notLast
    obtain ⟨order, ending, path⟩ := Table.exists_isPath enumerated valid
    obtain ⟨place, there⟩ := path.exists_chain_eq exit
    obtain ⟨onward, leads, behind⟩ := path.exists_step_eq notLast there
    refine ⟨place, onward, there,
      fun other here => path.chain_inj here there, leads, ?_⟩
    intro triggers walked
    refine ⟨count_advance_le_one path exits there behind, ?_, ?_⟩
    · intro before after split
      exact (run_isBeyond path exits there behind split).2
    · intro presented running earlier early here
      obtain ⟨depth, further, follows⟩ :=
        exists_isChainTo_of_mem path exits there behind presented running
      have same := path.chain_inj follows.current_eq here
      omega
  · intro triggers walked
    obtain ⟨order, ending, path, -⟩ := exists_isPath_payment
    have exits :
        PaymentSetup.table.exitsOnRetreat .cardAuthorization = true := rfl
    have there : PaymentSetup.table.chain 3 = some .cardAuthorization := rfl
    have behind : PaymentSetup.table.chain (3 + 1) =
        some .pendingActivation := rfl
    refine ⟨count_advance_le_one path exits there behind, ?_⟩
    intro before after split
    obtain ⟨-, never⟩ := run_isBeyond path exits there behind split
    constructor
    · intro state early
      simp only [List.mem_cons, List.not_mem_nil, or_false] at early
      rcases early with rfl | rfl | rfl | rfl
      · exact never 0 (by omega) _ rfl
      · exact never 1 (by omega) _ rfl
      · exact never 2 (by omega) _ rfl
      · exact never 3 (by omega) _ rfl
    · intro screen shown
      have presented : .advance .pendingActivation ∈ walked.2 := by
        simp [split]
      exact top_of_pending_presented presented shown

/-- A card is submitted, and its user goes to the end of the flow and back
until the flow is over. -/
theorem exit_passed_at_most_once_payment :
    Flow.Enumerated PaymentSetup ∧ PaymentSetup.table.fault? = none ∧
      PaymentSetup.table.exitsOnRetreat .cardAuthorization = true ∧
      PaymentSetup.cardAuthorization ≠ Flow.terminal ∧
      let walked := (start PaymentSetup.table).run
        [.next, .next, .back, .next, .next, .next, .next, .back, .back, .next]
      walked.2 =
          [.advance .paymentMethods, .advance .cardDetails, .retreat] ++
            [.advance .cardDetails, .advance .cardAuthorization] ++
            .advance .pendingActivation ::
              [.advance .ending, .retreat, .finish .dismiss,
                .finish .dismiss] ∧
        walked.2.count (.advance .pendingActivation) ≤ 1 ∧
        .advance .cardDetails ∉
          [.advance .ending, .retreat, .finish .dismiss,
            (.finish .dismiss : Action PaymentSetup)] := by
  have enumerated : Flow.Enumerated PaymentSetup :=
    FlowKind.enumerated .paymentSetup
  have valid : PaymentSetup.table.fault? = none :=
    FlowKind.fault?_table .paymentSetup
  obtain ⟨exits, -⟩ := exit_passed_at_most_once enumerated valid
  obtain ⟨place, onward, there, unique, leads, holds⟩ :=
    exits .cardAuthorization rfl (by decide)
  obtain rfl : onward = .pendingActivation := by
    cases leads
    rfl
  obtain rfl : 3 = place := unique 3 rfl
  obtain ⟨once, never, -⟩ := holds
    [.next, .next, .back, .next, .next, .next, .next, .back, .back, .next]
  exact ⟨enumerated, valid, rfl, by decide, rfl, once,
    never
      ([.advance .paymentMethods, .advance .cardDetails, .retreat] ++
        [.advance .cardDetails, .advance .cardAuthorization])
      _ rfl 2 (by omega) .cardDetails rfl⟩

end Machine

end ScreenFlow
