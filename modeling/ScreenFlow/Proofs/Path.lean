import Mathlib.Data.List.Nodup
import ScreenFlow.Catalog
import ScreenFlow.Proofs.Chain

/-!
# Tables that are one path

A table without a fault is a path: its steps lead through all states in one
order, from the initial to the terminal one, and only the terminal state ends
the flow.  The chain of the table is that order, and stops where it ends.
-/

namespace ScreenFlow

variable {State : Type} [DecidableEq State] [Flow State]

namespace Table

/-- The steps of a table lead through all states in the given order, and the
last of them ends the flow. -/
structure IsPath (table : Table State) (order : List State)
    (ending : Ending) : Prop where
  nodup : order.Nodup
  complete : ∀ state, state ∈ order
  head?_eq : order.head? = some Flow.initial
  getLast?_eq : order.getLast? = some Flow.terminal
  step_eq : ∀ {index : Nat} {state target : State},
    order[index]? = some state → order[index + 1]? = some target →
      table.step state = some (.next target)
  finishes : table.step Flow.terminal = some (.finish ending)

/-! ## The chain of a path -/

private theorem chain_eq_getElem? {table : Table State} {order : List State}
    (first : order.head? = some Flow.initial)
    (last : order.getLast? = some Flow.terminal)
    (steps : ∀ {index : Nat} {state target : State},
      order[index]? = some state → order[index + 1]? = some target →
        table.step state = some (.next target))
    (stops : table.next? Flow.terminal = none) (index : Nat) :
    table.chain index = order[index]? := by
  induction index with
  | zero =>
      rw [← List.head?_eq_getElem?, first]
      rfl
  | succ index ih =>
      simp only [chain, ih]
      cases here : order[index]? with
      | none =>
          have short := List.getElem?_eq_none_iff.mp here
          have beyond : order[index + 1]? = none :=
            List.getElem?_eq_none_iff.mpr (Nat.le_succ_of_le short)
          simp [beyond]
      | some state =>
          cases there : order[index + 1]? with
          | some target =>
              simp [next?, steps here there, Step.target?]
          | none =>
              have inside := (List.getElem?_eq_some_iff.mp here).1
              have short := List.getElem?_eq_none_iff.mp there
              have lastIndex : order.length - 1 = index := by omega
              rw [List.getLast?_eq_getElem?, lastIndex, here] at last
              obtain rfl : state = Flow.terminal := Option.some.inj last
              simpa using stops

theorem chain_add_eq {table : Table State} {first second : Nat}
    (same : table.chain first = table.chain second) (further : Nat) :
    table.chain (first + further) = table.chain (second + further) := by
  induction further with
  | zero => exact same
  | succ further ih => exact congrArg (Option.bind · table.next?) ih

/-- A chain that ends meets no state twice: it would not end otherwise. -/
private theorem nodup_of_chain_eq {table : Table State} {order : List State}
    (chain_eq : ∀ index, table.chain index = order[index]?) :
    order.Nodup := by
  apply List.nodup_iff_getElem?_ne_getElem?.mpr
  intro first second before inside same
  rw [← chain_eq, ← chain_eq] at same
  have shifted := chain_add_eq same (order.length - second)
  rw [chain_eq, chain_eq,
    show second + (order.length - second) = order.length by omega,
    List.getElem?_length, List.getElem?_eq_none_iff] at shifted
  omega

namespace IsPath

variable {table : Table State} {order : List State} {ending : Ending}

theorem chain_eq (path : table.IsPath order ending) (index : Nat) :
    table.chain index = order[index]? := by
  apply chain_eq_getElem? path.head?_eq path.getLast?_eq path.step_eq
  simp [next?, path.finishes, Step.target?]

theorem perm_states (path : table.IsPath order ending)
    (enumerated : Flow.Enumerated State) : order.Perm Flow.states := by
  apply (List.perm_ext_iff_of_nodup path.nodup enumerated.1).mpr
  intro state
  exact ⟨fun _ => enumerated.2 state, fun _ => path.complete state⟩

theorem length_pos (path : table.IsPath order ending) : 0 < order.length :=
  List.length_pos_of_mem (path.complete Flow.initial)

theorem getElem?_eq_terminal_iff (path : table.IsPath order ending)
    {index : Nat} :
    order[index]? = some Flow.terminal ↔ index + 1 = order.length := by
  have last := path.getLast?_eq
  have positive := path.length_pos
  rw [List.getLast?_eq_getElem?] at last
  constructor
  · intro here
    have inside := (List.getElem?_eq_some_iff.mp here).1
    have same := (List.getElem?_inj inside path.nodup).mp
      (here.trans last.symm)
    omega
  · intro length
    rwa [show order.length - 1 = index by omega] at last

theorem current_eq_terminal_iff (path : table.IsPath order ending)
    {history : History State} {count : Nat}
    (trail : history.trail = order.take (count + 1)) :
    history.current = Flow.terminal ↔ order.length ≤ count + 1 := by
  have current : (order.take (count + 1)).getLast? = some history.current := by
    simp [← trail, History.trail]
  rw [List.getLast?_take] at current
  by_cases inside : count < order.length
  · have here : order[count]? = some history.current := by
      simpa [inside] using current
    have terminal : order[count]? = some Flow.terminal ↔
        count + 1 = order.length := path.getElem?_eq_terminal_iff
    rw [here, Option.some.injEq] at terminal
    rw [terminal]
    omega
  · have short := List.getElem?_eq_none_iff.mpr (Nat.le_of_not_lt inside)
    simp only [Nat.add_one_ne_zero, if_false, Nat.add_sub_cancel, short,
      Option.none_or, path.getLast?_eq, Option.some.injEq] at current
    exact iff_of_true current.symm (by omega)

end IsPath

/-! ## Tables without a fault -/

omit [Flow State] in
theorem lookup_without (entries : List (State × Step State))
    (state other : State) :
    (without entries state).lookup other =
      if other = state then none else entries.lookup other := by
  induction entries with
  | nil => simp [without]
  | cons entry rest ih =>
      obtain ⟨key, held⟩ := entry
      unfold without at ih ⊢
      by_cases dropped : key = state
      · subst dropped
        by_cases same : other = key
        · simpa [same] using ih
        · have different : (other == key) = false := by simpa using same
          simpa [List.lookup_cons, different, same] using ih
      · by_cases found : other = key
        · subst found
          simp [dropped]
        · have different : (other == key) = false := by simpa using found
          simpa [List.filter_cons, List.lookup_cons, dropped, different]
            using ih

omit [Flow State] in
theorem head?_follow (entries : List (State × Step State)) (state : State) :
    (follow entries state).head? = some state := by
  rw [follow]
  split <;> rfl

omit [Flow State] in
theorem lookup_of_follow {entries : List (State × Step State)}
    {start : State} {index : Nat} {state target : State}
    (here : (follow entries start)[index]? = some state)
    (there : (follow entries start)[index + 1]? = some target) :
    entries.lookup state = some (.next target) := by
  fun_induction follow entries start generalizing index with
  | case1 entries start next leads ih =>
      cases index with
      | zero =>
          rw [List.getElem?_cons_succ, ← List.head?_eq_getElem?,
            head?_follow] at there
          cases here
          cases there
          exact leads
      | succ index =>
          have later := ih here there
          rw [lookup_without] at later
          split at later
          next => cases later
          next => exact later
  | case2 => simp at there

theorem fault?_eq_none_iff {table : Table State} :
    table.fault? = none ↔
      (∀ state ∈ (Flow.states : List State), table.step state ≠ none) ∧
        table.next? Flow.terminal = none ∧
          ∀ state ∈ (Flow.states : List State),
            state ∈ follow table.entries Flow.initial := by
  unfold fault?
  cases missing : (Flow.states : List State).find? fun state =>
      (table.step state).isNone with
  | some state =>
      have found := List.find?_some missing
      have presented := List.mem_of_find?_eq_some missing
      simp only [reduceCtorEq, false_iff, not_and]
      intro steps
      exact absurd (by simpa using found) (steps state presented)
  | none =>
      have steps := List.find?_eq_none.mp missing
      cases leads : table.next? Flow.terminal with
      | some target => simp
      | none =>
          have led : ∀ state ∈ (Flow.states : List State),
              table.step state ≠ none := by
            simpa using steps
          simpa [List.find?_eq_none] using fun _ => led

/-- A table without a fault is a path: the terminal state is among those that
are met, and since it leads nowhere it is the last of them. -/
theorem exists_isPath (enumerated : Flow.Enumerated State)
    {table : Table State} (valid : table.fault? = none) :
    ∃ order ending, table.IsPath order ending := by
  obtain ⟨steps, stops, met⟩ := fault?_eq_none_iff.mp valid
  let order := follow table.entries Flow.initial
  have complete (state : State) : state ∈ order :=
    met state (enumerated.2 state)
  have head : order.head? = some Flow.initial :=
    head?_follow table.entries Flow.initial
  have last : order.getLast? = some Flow.terminal := by
    obtain ⟨index, inside, here⟩ :=
      List.mem_iff_getElem.mp (complete Flow.terminal)
    have terminal : order[index]? = some Flow.terminal := by
      rw [List.getElem?_eq_getElem inside, here]
    cases there : order[index + 1]? with
    | some target =>
        have leads := lookup_of_follow terminal there
        simp [next?, step, leads, Step.target?] at stops
    | none =>
        have short := List.getElem?_eq_none_iff.mp there
        rwa [List.getLast?_eq_getElem?,
          show order.length - 1 = index by omega]
  obtain ⟨ending, finishes⟩ :
      ∃ ending, table.step Flow.terminal = some (.finish ending) := by
    cases leads : table.step Flow.terminal with
    | none => exact absurd leads (steps _ (enumerated.2 _))
    | some taken =>
        cases taken with
        | next target => simp [next?, leads, Step.target?] at stops
        | finish ending => exact ⟨ending, rfl⟩
  have chain := chain_eq_getElem? head last lookup_of_follow stops
  exact ⟨order, ending, nodup_of_chain_eq chain, complete, head, last,
    lookup_of_follow, finishes⟩

end Table

namespace FlowKind

theorem enumerated (kind : FlowKind) : Flow.Enumerated kind.State := by
  cases kind with
  | custodyWithdrawal =>
      have each (state : CustodyWithdrawal) : state ∈ Flow.states := by
        cases state <;> decide
      exact ⟨by decide, each⟩
  | backupFunds =>
      have each (state : BackupFunds) : state ∈ Flow.states := by
        cases state <;> decide
      exact ⟨by decide, each⟩
  | paymentSetup =>
      have each (state : PaymentSetup) : state ∈ Flow.states := by
        cases state <;> decide
      exact ⟨by decide, each⟩

/-- No flow of the wallet has a fault in its table. -/
theorem fault?_table (kind : FlowKind) : kind.table.fault? = none := by
  cases kind <;> decide +kernel

end FlowKind

end ScreenFlow
