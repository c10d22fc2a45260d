import Mathlib.Data.List.Perm.Subperm
import ScreenFlow.Proofs.Path

/-!
# What is wrong with a table

A table has no fault exactly if its steps are one path through all states.
Three conditions are looked at one state at a time; that they make a path is
`Table.exists_isPath`, and here a path is shown to meet them.  The states that
are met when steps are followed are those of the chain, so the fault of any
other table can be read off its steps and its chain.
-/

namespace ScreenFlow

variable {State : Type} [DecidableEq State] [Flow State]

omit [DecidableEq State] in
/-- A state is the first one in presentation order of which something
holds. -/
def Flow.IsFirst (holds : State → Prop) (state : State) : Prop :=
  holds state ∧ ∃ before after,
    (Flow.states : List State) = before ++ state :: after ∧
      ∀ earlier ∈ before, ¬ holds earlier

omit [DecidableEq State] in
theorem Flow.find?_states_eq_some_iff {holds : State → Prop}
    {decided : State → Bool} (decides : ∀ state, decided state ↔ holds state)
    {state : State} :
    (Flow.states : List State).find? decided = some state ↔
      Flow.IsFirst holds state := by
  simp [List.find?_eq_some_iff_append, Flow.IsFirst, ← decides]

namespace Table

/-! ## The states that are met -/

omit [Flow State] in
/-- Whatever is met leads to something that is met as well.  A state that has
been left by its step has been met, and so has its target. -/
theorem target_mem_follow {entries : List (State × Step State)}
    {start state target : State} (met : state ∈ follow entries start)
    (leads : entries.lookup state = some (.next target)) :
    target ∈ follow entries start := by
  fun_induction follow entries start with
  | case1 entries start next first ih =>
      have nextMet : next ∈ follow (without entries start) next :=
        List.mem_of_mem_head? (head?_follow (without entries start) next)
      by_cases same : state = start
      · subst same
        rw [first] at leads
        cases leads
        exact List.mem_cons_of_mem _ nextMet
      · have later := List.mem_of_ne_of_mem same met
        have kept : (without entries start).lookup state =
            some (.next target) := by
          rw [lookup_without, if_neg same, leads]
        exact List.mem_cons_of_mem _ (ih later kept)
  | case2 entries start stops =>
      obtain rfl := List.mem_singleton.mp met
      exact absurd leads (stops target)

theorem mem_follow_iff {table : Table State} {state : State} :
    state ∈ follow table.entries Flow.initial ↔
      ∃ count, table.chain count = some state := by
  constructor
  · intro met
    have along (index : Nat) {state : State}
        (here : (follow table.entries Flow.initial)[index]? = some state) :
        table.chain index = some state := by
      induction index generalizing state with
      | zero =>
          rw [← List.head?_eq_getElem?, head?_follow] at here
          exact here
      | succ index ih =>
          have inside := (List.getElem?_eq_some_iff.mp here).1
          have before := List.getElem?_eq_getElem (Nat.lt_of_succ_lt inside)
          have leads := lookup_of_follow before here
          simp [chain, ih before, next?, step, leads, Step.target?]
    obtain ⟨index, here⟩ := List.mem_iff_getElem?.mp met
    exact ⟨index, along index here⟩
  · rintro ⟨count, reached⟩
    induction count generalizing state with
    | zero =>
        cases reached
        exact List.mem_of_mem_head? (head?_follow table.entries Flow.initial)
    | succ count ih =>
        obtain ⟨before, earlier, next⟩ := Option.bind_eq_some_iff.mp reached
        obtain ⟨taken, leads, target⟩ := Option.bind_eq_some_iff.mp next
        cases taken with
        | next other =>
            cases target
            exact target_mem_follow (ih earlier) leads
        | finish ending => cases target

omit [Flow State] in
/-- No state is met twice before the last one: its step has been used. -/
theorem nodup_dropLast_follow (entries : List (State × Step State))
    (start : State) : (follow entries start).dropLast.Nodup := by
  fun_induction follow entries start with
  | case1 entries start next leads ih =>
      have someMet : follow (without entries start) next ≠ [] := by
        intro none
        have head := head?_follow (without entries start) next
        simp [none] at head
      rw [List.dropLast_cons_of_ne_nil someMet, List.nodup_cons]
      refine ⟨?_, ih⟩
      intro again
      obtain ⟨index, here⟩ := List.mem_iff_getElem?.mp again
      have inside := (List.getElem?_eq_some_iff.mp here).1
      rw [List.length_dropLast] at inside
      rw [List.getElem?_dropLast, if_pos inside] at here
      have there := List.getElem?_eq_getElem (by omega :
        index + 1 < (follow (without entries start) next).length)
      have used := lookup_of_follow here there
      simp [lookup_without] at used
  | case2 => exact List.nodup_nil

theorem length_follow_le (enumerated : Flow.Enumerated State)
    (table : Table State) :
    (follow table.entries Flow.initial).length ≤
      (Flow.states : List State).length + 1 := by
  have distinct := nodup_dropLast_follow table.entries Flow.initial
  have fewer : (follow table.entries Flow.initial).dropLast.length ≤
      (Flow.states : List State).length :=
    (List.subperm_of_subset distinct fun state _ =>
      enumerated.2 state).length_le
  rw [List.length_dropLast] at fewer
  omega

/-! ## Paths have no fault -/

namespace IsPath

variable {table : Table State} {order : List State} {ending : Ending}

/-- In a path every state but the last one leads to the next one. -/
theorem step_cases (path : table.IsPath order ending) (state : State) :
    (state = Flow.terminal ∧ table.step state = some (.finish ending)) ∨
      ∃ (index : Nat) (target : State), order[index]? = some state ∧
        order[index + 1]? = some target ∧
        table.step state = some (.next target) := by
  obtain ⟨index, here⟩ := List.mem_iff_getElem?.mp (path.complete state)
  cases there : order[index + 1]? with
  | some target =>
      exact .inr ⟨index, target, here, there, path.step_eq here there⟩
  | none =>
      have inside := (List.getElem?_eq_some_iff.mp here).1
      have short := List.getElem?_eq_none_iff.mp there
      have last : order[index]? = some Flow.terminal :=
        path.getElem?_eq_terminal_iff.mpr (by omega)
      obtain rfl : state = Flow.terminal :=
        Option.some.inj (here.symm.trans last)
      exact .inl ⟨rfl, path.finishes⟩

theorem fault?_eq_none (path : table.IsPath order ending) :
    table.fault? = none := by
  refine fault?_eq_none_iff.mpr ⟨?_, ?_, ?_⟩
  · intro state _
    rcases path.step_cases state with ⟨-, leaves⟩ | ⟨_, _, -, -, leads⟩
    · simp [leaves]
    · simp [leads]
  · simp [next?, path.finishes, Step.target?]
  · intro state _
    obtain ⟨index, here⟩ := List.mem_iff_getElem?.mp (path.complete state)
    exact mem_follow_iff.mpr ⟨index, (path.chain_eq index).trans here⟩

theorem eq_terminal_of_finish (path : table.IsPath order ending)
    {state : State} {other : Ending}
    (leaves : table.step state = some (.finish other)) :
    state = Flow.terminal := by
  rcases path.step_cases state with ⟨last, -⟩ | ⟨_, _, -, -, leads⟩
  · exact last
  · cases leads.symm.trans leaves

theorem eq_of_next (path : table.IsPath order ending)
    {first second target : State}
    (leads : table.step first = some (.next target))
    (alsoLeads : table.step second = some (.next target)) :
    first = second := by
  have placed {state : State} (leads : table.step state = some (.next target)) :
      ∃ index, order[index]? = some state ∧
        order[index + 1]? = some target := by
    rcases path.step_cases state with
      ⟨-, leaves⟩ | ⟨index, other, here, there, step⟩
    · cases leads.symm.trans leaves
    · cases leads.symm.trans step
      exact ⟨index, here, there⟩
  obtain ⟨index, here, there⟩ := placed leads
  obtain ⟨other, alsoHere, alsoThere⟩ := placed alsoLeads
  have inside := (List.getElem?_eq_some_iff.mp there).1
  have same : index + 1 = other + 1 :=
    (List.getElem?_inj inside path.nodup).mp (there.trans alsoThere.symm)
  obtain rfl : index = other := Nat.succ.inj same
  exact Option.some.inj (here.symm.trans alsoHere)

end IsPath

/-! ## Reading off the fault -/

omit [Flow State] in
theorem next?_eq_some_iff {table : Table State} {state target : State} :
    table.next? state = some target ↔
      table.step state = some (.next target) := by
  unfold next?
  cases table.step state with
  | none => simp
  | some taken => cases taken <;> simp [Step.target?]

/-- Whether every state has a step. -/
def IsTotal (table : Table State) : Prop :=
  ∀ state, table.step state ≠ none

/-- Whether a state is on the way that leads from the initial one. -/
def Reaches (table : Table State) (state : State) : Prop :=
  ∃ count, table.chain count = some state

/-- The faults of a table; one that stands further down counts only if those
above it are absent. -/
inductive HasFault (table : Table State) : TableFault State → Prop where
  | missingStep {state : State}
      (first : Flow.IsFirst (fun state => table.step state = none) state) :
      HasFault table (.missingStep state)
  | terminalAdvances {target : State} (total : table.IsTotal)
      (leads : table.step Flow.terminal = some (.next target)) :
      HasFault table (.terminalAdvances Flow.terminal)
  | unreachable {state : State} (total : table.IsTotal)
      (stops : ∀ target, table.step Flow.terminal ≠ some (.next target))
      (first : Flow.IsFirst (fun state => ¬ table.Reaches state) state) :
      HasFault table (.unreachable state)

section

variable {table : Table State} {fault : TableFault State}

theorem find?_missing_eq_some_iff {state : State} :
    ((Flow.states : List State).find? fun state =>
        (table.step state).isNone) = some state ↔
      Flow.IsFirst (fun state => table.step state = none) state :=
  Flow.find?_states_eq_some_iff fun _ => Option.isNone_iff_eq_none

theorem find?_unmet_eq_some_iff {state : State} :
    ((Flow.states : List State).find? fun state =>
        decide (state ∉ follow table.entries Flow.initial)) = some state ↔
      Flow.IsFirst (fun state => ¬ table.Reaches state) state :=
  Flow.find?_states_eq_some_iff fun _ => by simp [mem_follow_iff, Reaches]

theorem find?_missing_eq_none_iff (enumerated : Flow.Enumerated State) :
    ((Flow.states : List State).find? fun state =>
        (table.step state).isNone) = none ↔ table.IsTotal := by
  simp [IsTotal, enumerated.2]

theorem next?_terminal_eq_none_iff :
    table.next? Flow.terminal = none ↔
      ∀ target, table.step Flow.terminal ≠ some (.next target) := by
  simp [Option.eq_none_iff_forall_ne_some, next?_eq_some_iff]

theorem HasFault.fault?_eq (enumerated : Flow.Enumerated State)
    (faulty : table.HasFault fault) : table.fault? = some fault := by
  cases faulty with
  | missingStep first =>
      simp [fault?, find?_missing_eq_some_iff.mpr first]
  | terminalAdvances total leads =>
      simp [fault?, (find?_missing_eq_none_iff enumerated).mpr total,
        next?_eq_some_iff.mpr leads]
  | unreachable total stops first =>
      have found := find?_unmet_eq_some_iff.mpr first
      simp only [fault?, (find?_missing_eq_none_iff enumerated).mpr total,
        next?_terminal_eq_none_iff.mpr stops, found]
      rfl

theorem hasFault_of_fault? (enumerated : Flow.Enumerated State)
    (found : table.fault? = some fault) : table.HasFault fault := by
  unfold fault? at found
  split at found
  next state missing =>
    cases found
    exact .missingStep (find?_missing_eq_some_iff.mp missing)
  next noneMissing =>
    have total := (find?_missing_eq_none_iff enumerated).mp noneMissing
    split at found
    next advances =>
      cases found
      obtain ⟨target, leads⟩ := Option.isSome_iff_exists.mp advances
      exact .terminalAdvances total (next?_eq_some_iff.mp leads)
    next stays =>
      have stops : table.next? Flow.terminal = none := by simpa using stays
      obtain ⟨state, unmet, rfl⟩ := Option.map_eq_some_iff.mp found
      exact .unreachable total (next?_terminal_eq_none_iff.mp stops)
        (find?_unmet_eq_some_iff.mp unmet)

/-- What a table is blamed for depends on its steps alone. -/
theorem HasFault.congr (faulty : table.HasFault fault) {other : Table State}
    (same : ∀ state, other.step state = table.step state) :
    other.HasFault fault := by
  have chain (count : Nat) : other.chain count = table.chain count := by
    induction count with
    | zero => rfl
    | succ count ih =>
        have next : other.next? = table.next? := by
          funext state
          simp only [next?, same]
        simp only [Table.chain, ih, next]
  cases faulty with
  | missingStep first => exact .missingStep (by simpa only [same] using first)
  | terminalAdvances total leads =>
      exact .terminalAdvances (by simpa only [IsTotal, same] using total)
        ((same _).trans leads)
  | unreachable total stops first =>
      refine .unreachable (by simpa only [IsTotal, same] using total)
        (by simpa only [same] using stops) ?_
      simpa only [Reaches, chain] using first

end

/-- A table has no fault exactly if there is an order of all states in which
each of them leads to the next one, from the initial state to the terminal
one, which ends the flow; then no other state ends it, and no two states lead
to the same one.  Otherwise the fault that is found is the first one of those
that `HasFault` lists.  Looking for it follows no more steps than there are
states, and nothing but the steps counts, so back exits do not. -/
theorem fault?_decides_path (enumerated : Flow.Enumerated State)
    (table : Table State) :
    (table.fault? = none ↔ ∃ order ending, table.IsPath order ending) ∧
      (table.fault? = none →
        (∀ state ending, table.step state = some (.finish ending) →
          state = Flow.terminal) ∧
        ∀ first second target, table.step first = some (.next target) →
          table.step second = some (.next target) → first = second) ∧
      (∀ fault, table.fault? = some fault ↔ table.HasFault fault) ∧
      (follow table.entries Flow.initial).length ≤
        (Flow.states : List State).length + 1 ∧
      ∀ other : Table State, (∀ state, other.step state = table.step state) →
        other.fault? = table.fault? := by
  have reported (table : Table State) (fault : TableFault State) :
      table.fault? = some fault ↔ table.HasFault fault :=
    ⟨hasFault_of_fault? enumerated, HasFault.fault?_eq enumerated⟩
  refine ⟨⟨exists_isPath enumerated, ?_⟩, ?_, reported table,
    length_follow_le enumerated table, ?_⟩
  · rintro ⟨order, ending, path⟩
    exact path.fault?_eq_none
  · intro valid
    obtain ⟨order, ending, path⟩ := exists_isPath enumerated valid
    exact ⟨fun state other => path.eq_terminal_of_finish,
      fun first second target => path.eq_of_next⟩
  · intro other same
    apply Option.ext
    intro fault
    rw [reported, reported]
    exact ⟨fun faulty => faulty.congr fun state => (same state).symm,
      fun faulty => faulty.congr same⟩

/-- A backup whose last screen leads back to the first state: the way from the
initial state has no end, and it leaves the terminal state out. -/
theorem fault?_decides_path_backup :
    let table := BackupFunds.table.withStep .verification (.next .start)
    Flow.Enumerated BackupFunds ∧
      table.fault? = some (.unreachable .ending) ∧
      Flow.IsFirst (fun state => ¬ table.Reaches state) BackupFunds.ending ∧
      (follow table.entries BackupFunds.start).length ≤ 6 := by
  intro table
  have enumerated := FlowKind.backupFunds.enumerated
  obtain ⟨-, -, reported, short, -⟩ := fault?_decides_path enumerated table
  have found : table.fault? = some (.unreachable .ending) := by
    decide +kernel
  cases (reported _).mp found with
  | unreachable total stops first => exact ⟨enumerated, found, first, short⟩

end Table

end ScreenFlow
