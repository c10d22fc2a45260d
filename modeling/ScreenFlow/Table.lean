import ScreenFlow.Flow

/-!
# Tables of steps

Where each state of a flow leads, and from which states going back leaves the
flow.  `Table.step` is the view of a table: every builder comes with the lemma
that says what it does to the view.  `Table.fault?` finds the first reason why
the steps of a table are not one path through all states, and `Table.chain`
is that path, followed from the initial state for as long as it goes.
-/

namespace ScreenFlow

/-- Where walking on from a state leads. -/
inductive Step (State : Type) where
  | next (target : State)
  | finish (ending : Ending)
  deriving DecidableEq, Repr

/-- The state a step leads to, if it stays in the flow. -/
def Step.target? {State : Type} : Step State → Option State
  | .next target => some target
  | .finish _ => none

/-- The steps of a flow and its back exits: the states whose arrival by going
back leaves the flow.  Of two entries for one state the first one counts.  The
initial and the terminal state are back exits of every table, so only the
others are listed. -/
structure Table (State : Type) where
  entries : List (State × Step State)
  backExits : List State

/-- Why the steps of a table are not one path through all states. -/
inductive TableFault (State : Type) where
  | missingStep (state : State)
  | terminalAdvances (state : State)
  | unreachable (state : State)
  deriving DecidableEq, Repr

/-- What is said about a table with a fault. -/
def TableFault.message {State : Type} [Flow State] : TableFault State → String
  | missingStep state => s!"state {Flow.label state} has no outgoing step"
  | terminalAdvances state =>
      s!"terminal state {Flow.label state} must finish the flow"
  | unreachable state =>
      s!"state {Flow.label state} is unreachable from the initial state"

namespace Table

variable {State : Type} [DecidableEq State]

/-- Where a state leads, if the table says so. -/
def step (table : Table State) (state : State) : Option (Step State) :=
  table.entries.lookup state

/-- The state after `state`, if walking on stays in the flow. -/
def next? (table : Table State) (state : State) : Option State :=
  (table.step state).bind Step.target?

/-- Whether going back to `state` leaves the flow. -/
def exitsOnRetreat [Flow State] (table : Table State) (state : State) : Bool :=
  state = Flow.initial ∨ state = Flow.terminal ∨ state ∈ table.backExits

/-- Let `state` lead where `step` says, whatever was said before. -/
def withStep (table : Table State) (state : State) (step : Step State) :
    Table State :=
  { table with entries := (state, step) :: table.entries }

/-- Let going back to `state` leave the flow. -/
def withBackExit (table : Table State) (state : State) : Table State :=
  { table with backExits := state :: table.backExits }

@[simp]
theorem step_withStep (table : Table State) (state other : State)
    (step : Step State) :
    (table.withStep state step).step other =
      if other = state then some step else table.step other := by
  by_cases same : other = state
  · simp [withStep, Table.step, same]
  · have different : (other == state) = false := by simpa using same
    simp [withStep, Table.step, List.lookup_cons, same, different]

@[simp]
theorem step_withBackExit (table : Table State) (state other : State) :
    (table.withBackExit state).step other = table.step other := rfl

@[simp]
theorem exitsOnRetreat_withStep [Flow State] (table : Table State)
    (state other : State) (step : Step State) :
    (table.withStep state step).exitsOnRetreat other =
      table.exitsOnRetreat other := rfl

@[simp]
theorem exitsOnRetreat_withBackExit [Flow State] (table : Table State)
    (state other : State) :
    (table.withBackExit state).exitsOnRetreat other =
      (decide (other = state) || table.exitsOnRetreat other) := by
  rw [Bool.eq_iff_iff]
  simp [withBackExit, exitsOnRetreat]
  grind

@[simp]
theorem exitsOnRetreat_initial [Flow State] (table : Table State) :
    table.exitsOnRetreat Flow.initial = true := by
  simp [exitsOnRetreat]

@[simp]
theorem exitsOnRetreat_terminal [Flow State] (table : Table State) :
    table.exitsOnRetreat Flow.terminal = true := by
  simp [exitsOnRetreat]

/-- What is left of the entries when a state has been used. -/
def without (entries : List (State × Step State)) (state : State) :
    List (State × Step State) :=
  entries.filter fun entry => entry.1 ≠ state

theorem length_without_lt {entries : List (State × Step State)}
    {state : State} {step : Step State}
    (found : entries.lookup state = some step) :
    (without entries state).length < entries.length := by
  induction entries with
  | nil => simp at found
  | cons entry rest ih =>
      obtain ⟨key, held⟩ := entry
      by_cases same : state = key
      · subst same
        simpa [without] using Nat.lt_succ_of_le (List.length_filter_le _ _)
      · have different : (state == key) = false := by simpa using same
        rw [List.lookup_cons, different] at found
        have kept : key ≠ state := fun equal => same equal.symm
        simpa [without, List.filter_cons, kept] using ih found

/-- The states met when steps are followed from `state`, each step being used
at most once. -/
def follow (entries : List (State × Step State)) (state : State) :
    List State :=
  match _ : entries.lookup state with
  | some (.next target) => state :: follow (without entries state) target
  | _ => [state]
termination_by entries.length
decreasing_by exact length_without_lt (by assumption)

variable [Flow State]

/-- A table in which no state leads anywhere. -/
def empty : Table State :=
  { entries := [], backExits := [] }

/-- Let each state of `order` lead to its right neighbour and the last one out
of the flow.  Where a state is repeated, its last occurrence counts. -/
def withPath (table : Table State) (ending : Ending) :
    List State → Table State
  | [] => table
  | [last] => table.withStep last (.finish ending)
  | state :: following :: rest =>
      withPath (table.withStep state (.next following)) ending
        (following :: rest)

/-- The table whose steps are one path: each state of `order` leads to its
right neighbour and the last one out of the flow. -/
def linear (order : List State) (ending : Ending) : Table State :=
  empty.withPath ending order

/-- The steps of a table in presentation order. -/
def steps (table : Table State) : List (State × Step State) :=
  Flow.states.filterMap fun state =>
    (table.step state).map fun step => (state, step)

/-- The state that is reached from the initial one by walking on `count`
times. -/
def chain (table : Table State) : Nat → Option State
  | 0 => some Flow.initial
  | count + 1 => (table.chain count).bind table.next?

/-- The first reason why the steps are not one path from the initial to the
terminal state through all states: a state without a step before a terminal
state that leads on, and both before a state that the path leaves out. -/
def fault? (table : Table State) : Option (TableFault State) :=
  match Flow.states.find? fun state => (table.step state).isNone with
  | some state => some (.missingStep state)
  | none =>
      if (table.next? Flow.terminal).isSome then
        some (.terminalAdvances Flow.terminal)
      else
        let met := follow table.entries Flow.initial
        (Flow.states.find? fun state => state ∉ met).map .unreachable

end Table

end ScreenFlow
