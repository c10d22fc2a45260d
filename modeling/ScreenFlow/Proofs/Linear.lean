import ScreenFlow.Proofs.Counting
import ScreenFlow.Proofs.Faults

/-!
# Tables built from a list

A linear table is built by going through a list of states and letting each of
them lead to its neighbour.  A later entry covers an earlier one, so where the
list repeats a state its last occurrence decides.  A list without repetitions
is therefore the path of its table exactly if it begins with the initial
state, ends with the terminal state and leaves no state out, and no other such
list gives a table without a fault.
-/

namespace ScreenFlow

variable {State : Type} [DecidableEq State]

theorem Machine.ending_run_replicate_next [Flow State] {table : Table State}
    {order : List State} {ending : Ending} (path : table.IsPath order ending)
    (count : Nat) :
    ((start table).run (List.replicate count .next)).1.ending =
      if order.length ≤ count then some ending else none := by
  obtain ⟨-, actions⟩ := run_replicate_next path count
  have onward : (((order.drop 1).take count).map Action.advance).findSome?
      Action.ending? = none := by
    apply List.findSome?_eq_none_iff.mpr
    intro action member
    obtain ⟨target, -, rfl⟩ := List.mem_map.mp member
    rfl
  rw [run_ending, actions, List.findSome?_append, onward]
  by_cases through : order.length ≤ count
  · rw [Nat.succ_sub through, if_pos through]
    rfl
  · simp [start, through, Nat.sub_eq_zero_of_le (Nat.lt_of_not_le through)]

namespace Table

/-! ## Where a state of the list leads -/

section

variable {table : Table State} {ending : Ending}

theorem step_withPath_of_not_mem {order : List State} {state : State}
    (absent : state ∉ order) :
    (table.withPath ending order).step state = table.step state := by
  fun_induction withPath table ending order with
  | case1 => rfl
  | case2 table last =>
      have other : state ≠ last := by simpa using absent
      simp [other]
  | case3 table first following rest ih =>
      obtain ⟨other, later⟩ := List.ne_and_not_mem_of_not_mem_cons absent
      rw [ih later]
      simp [other]

/-- The last occurrence of a state decides.  If nothing comes after it the
state ends the flow. -/
theorem step_withPath_append_singleton (before : List State) (state : State) :
    (table.withPath ending (before ++ [state])).step state =
      some (.finish ending) := by
  induction before generalizing table with
  | nil => simp [withPath]
  | cons first rest ih =>
      cases rest with
      | nil => exact ih
      | cons second rest => exact ih

theorem step_withPath_append_cons (before : List State)
    {state following : State} {after : List State}
    (last : state ∉ following :: after) :
    (table.withPath ending (before ++ state :: following :: after)).step
      state = some (.next following) := by
  induction before generalizing table with
  | nil =>
      have kept : ((table.withStep state (.next following)).withPath ending
          (following :: after)).step state = some (.next following) := by
        simp [step_withPath_of_not_mem last]
      exact kept
  | cons first rest ih =>
      cases rest with
      | nil => exact ih
      | cons second rest => exact ih

end

variable {order : List State} {ending : Ending}

theorem step_linear_of_not_mem {state : State} (absent : state ∉ order) :
    (linear order ending).step state = none :=
  step_withPath_of_not_mem absent

theorem step_linear_of_getLast? {state : State}
    (last : order.getLast? = some state) :
    (linear order ending).step state = some (.finish ending) := by
  obtain ⟨before, rfl⟩ := List.getLast?_eq_some_iff.mp last
  exact step_withPath_append_singleton before state

/-! ## Lists without repetitions -/

section

variable (distinct : order.Nodup)
include distinct

/-- In a list without repetitions every state but the last one leads to the
next one. -/
theorem step_linear_of_getElem? {index : Nat} {state target : State}
    (here : order[index]? = some state)
    (there : order[index + 1]? = some target) :
    (linear order ending).step state = some (.next target) := by
  obtain ⟨inside, rfl⟩ := List.getElem?_eq_some_iff.mp here
  obtain ⟨further, rfl⟩ := List.getElem?_eq_some_iff.mp there
  have split : order = order.take index ++
      order[index] :: order[index + 1] :: order.drop (index + 2) := by
    rw [← List.drop_eq_getElem_cons further, ← List.drop_eq_getElem_cons inside,
      List.take_append_drop]
  have last : order[index] ∉ order[index + 1] :: order.drop (index + 2) := by
    have apart := distinct
    rw [split, List.nodup_append] at apart
    exact (List.nodup_cons.mp apart.2.1).1
  have leads : (empty.withPath ending (order.take index ++
      order[index] :: order[index + 1] :: order.drop (index + 2))).step
        order[index] = some (.next order[index + 1]) :=
    step_withPath_append_cons _ last
  rwa [← split] at leads

theorem head?_ne_of_next {state target : State}
    (leads : (linear order ending).step state = some (.next target)) :
    order.head? ≠ some target := by
  intro first
  have present : state ∈ order := by
    by_contra absent
    cases leads.symm.trans (step_linear_of_not_mem absent)
  obtain ⟨index, here⟩ := List.mem_iff_getElem?.mp present
  cases there : order[index + 1]? with
  | some other =>
      cases leads.symm.trans (step_linear_of_getElem? distinct here there)
      have further := (List.getElem?_eq_some_iff.mp there).1
      rw [List.head?_eq_getElem?] at first
      have same := (List.getElem?_inj further distinct).mp
        (there.trans first.symm)
      exact absurd same (Nat.succ_ne_zero index)
  | none =>
      have inside := (List.getElem?_eq_some_iff.mp here).1
      have short := List.getElem?_eq_none_iff.mp there
      have last : order.getLast? = some state := by
        rwa [List.getLast?_eq_getElem?,
          show order.length - 1 = index by omega]
      cases leads.symm.trans (step_linear_of_getLast? last)

variable [Flow State]

theorem isPath_linear (complete : ∀ state, state ∈ order)
    (first : order.head? = some Flow.initial)
    (last : order.getLast? = some Flow.terminal) :
    (linear order ending).IsPath order ending where
  nodup := distinct
  complete := complete
  head?_eq := first
  getLast?_eq := last
  step_eq := step_linear_of_getElem? distinct
  finishes := step_linear_of_getLast? last

theorem IsPath.ends_of_linear {path : List State} {other : Ending}
    (isPath : (linear order ending).IsPath path other) :
    order.head? = some Flow.initial ∧
      order.getLast? = some Flow.terminal := by
  have complete (state : State) : state ∈ order := by
    by_contra absent
    have none : (linear order ending).step state = none :=
      step_linear_of_not_mem absent
    rcases isPath.step_cases state with ⟨-, leaves⟩ | ⟨_, _, -, -, leads⟩
    · cases none.symm.trans leaves
    · cases none.symm.trans leads
  have filled : order ≠ [] := List.ne_nil_of_mem (complete Flow.initial)
  constructor
  · have head := List.head?_eq_some_head filled
    obtain ⟨index, here⟩ :=
      List.mem_iff_getElem?.mp (isPath.complete (order.head filled))
    cases index with
    | zero =>
        rw [← List.head?_eq_getElem?, isPath.head?_eq] at here
        exact head.trans here.symm
    | succ index =>
        have inside := (List.getElem?_eq_some_iff.mp here).1
        have before := List.getElem?_eq_getElem (Nat.lt_of_succ_lt inside)
        exact absurd head
          (head?_ne_of_next distinct (isPath.step_eq before here))
  · have last := List.getLast?_eq_some_getLast filled
    rw [last, isPath.eq_terminal_of_finish (step_linear_of_getLast? last)]

end

variable [Flow State]

/-- A list without repetitions makes a table without a fault exactly if it
goes through all states, from the initial to the terminal one. -/
theorem fault?_linear_eq_none_iff (enumerated : Flow.Enumerated State)
    (distinct : order.Nodup) :
    (linear order ending).fault? = none ↔
      order.Perm Flow.states ∧ order.head? = some Flow.initial ∧
        order.getLast? = some Flow.terminal := by
  constructor
  · intro valid
    obtain ⟨path, other, isPath⟩ := exists_isPath enumerated valid
    obtain ⟨first, last⟩ := isPath.ends_of_linear distinct
    have total := (fault?_eq_none_iff.mp valid).1
    refine ⟨(List.perm_ext_iff_of_nodup distinct enumerated.1).mpr ?_, first,
      last⟩
    intro state
    refine ⟨fun _ => enumerated.2 state, fun presented => ?_⟩
    by_contra absent
    exact total state presented (step_linear_of_not_mem absent)
  · rintro ⟨perm, first, last⟩
    have complete (state : State) : state ∈ order :=
      perm.mem_iff.mpr (enumerated.2 state)
    exact (isPath_linear distinct complete first last).fault?_eq_none

/-- A list of states makes the table that it says.  A state that it leaves out
has no step, its last state ends the flow, and any other state leads to the
one that follows its last occurrence.  A list without repetitions makes a
table without a fault exactly if it goes through all states from the initial
to the terminal one, in whatever order they are presented; then advances go
through the list and end the flow as the table says. -/
theorem linear_builds_path (order : List State) (ending : Ending) :
    let table := linear order ending
    (∀ state, state ∉ order → table.step state = none) ∧
      (∀ before state, order = before ++ [state] →
        table.step state = some (.finish ending)) ∧
      (∀ before state following after,
        order = before ++ state :: following :: after →
        state ∉ following :: after →
          table.step state = some (.next following)) ∧
      (Flow.Enumerated State → order.Nodup →
        (table.fault? = none ↔
          order.Perm Flow.states ∧ order.head? = some Flow.initial ∧
            order.getLast? = some Flow.terminal) ∧
        (table.fault? = none → ∀ count,
          let walked :=
            (Machine.start table).run (List.replicate count .next)
          walked.1.history.trail = order.take (count + 1) ∧
            walked.2 = ((order.drop 1).take count).map .advance ++
              List.replicate (count + 1 - order.length) (.finish ending) ∧
            walked.1.ending =
              if order.length ≤ count then some ending else none)) := by
  intro table
  refine ⟨fun state => step_linear_of_not_mem, ?_, ?_, ?_⟩
  · rintro before state rfl
    exact step_withPath_append_singleton before state
  · rintro before state following after rfl last
    exact step_withPath_append_cons before last
  · intro enumerated distinct
    have sound : table.fault? = none ↔ order.Perm Flow.states ∧
        order.head? = some Flow.initial ∧
          order.getLast? = some Flow.terminal :=
      fault?_linear_eq_none_iff enumerated distinct
    refine ⟨sound, ?_⟩
    intro valid count walked
    obtain ⟨perm, first, last⟩ := sound.mp valid
    have complete (state : State) : state ∈ order :=
      perm.mem_iff.mpr (enumerated.2 state)
    have path : table.IsPath order ending :=
      isPath_linear distinct complete first last
    obtain ⟨trail, actions⟩ := Machine.run_replicate_next path count
    exact ⟨trail, actions, Machine.ending_run_replicate_next path count⟩

/-- The steps to set up a card, given in another order than that in which its
states are presented. -/
theorem linear_builds_path_payment :
    let order : List PaymentSetup :=
      [.start, .cardDetails, .paymentMethods, .pendingActivation,
        .cardAuthorization, .ending]
    Flow.Enumerated PaymentSetup ∧ order.Nodup ∧
      order ≠ Flow.states ∧ (linear order .complete).fault? = none ∧
      (linear order .complete).step .paymentMethods =
        some (.next .pendingActivation) ∧
      ((Machine.start (linear order .complete)).run
          (List.replicate 6 .next)).1.history.trail = order ∧
      ((Machine.start (linear order .complete)).run
          (List.replicate 6 .next)).1.ending = some .complete := by
  intro order
  have enumerated : Flow.Enumerated PaymentSetup :=
    FlowKind.enumerated .paymentSetup
  have distinct : order.Nodup := by decide
  obtain ⟨-, -, next, sound⟩ := linear_builds_path order .complete
  obtain ⟨decides, walks⟩ := sound enumerated distinct
  have valid := decides.mpr (by decide)
  obtain ⟨trail, -, ending⟩ := walks valid 6
  exact ⟨enumerated, distinct, by decide, valid,
    next [.start, .cardDetails] .paymentMethods .pendingActivation
      [.cardAuthorization, .ending] rfl (by decide),
    trail, ending⟩

end Table

end ScreenFlow
