import ScreenFlow.Machine

/-!
# What one transition does

`Machine.Obeys` lists everything that can come of telling a machine something.
Statements about whole runs split on it instead of unfolding the machine.
-/

namespace ScreenFlow

namespace Machine

variable {State : Type} [DecidableEq State] [Flow State]

/-- How a state is left for good by walking on: through its last step, or
because it leads nowhere. -/
def LeavesWith (machine : Machine State) (ending : Ending) : Prop :=
  machine.table.step machine.history.current = some (.finish ending) ∨
    machine.table.step machine.history.current = none ∧ ending = .dismiss

/-- What a machine makes of a command. -/
inductive Obeys (machine : Machine State) :
    Command → Machine State × Action State → Prop where
  /-- A flow that is over stays over. -/
  | again {command : Command} {ending : Ending}
      (finished : machine.ending = some ending) :
      Obeys machine command (machine, .finish ending)
  | forward {target : State} (running : machine.ending = none)
      (leads : machine.table.step machine.history.current =
        some (.next target)) :
      Obeys machine .advance
        ({ machine with history := machine.history.append target },
          .advance target)
  | leave {ending : Ending} (running : machine.ending = none)
      (leaves : machine.LeavesWith ending) :
      Obeys machine .advance (machine.finish ending)
  | back (running : machine.ending = none)
      (visited : machine.history.previous ≠ [])
      (stays : machine.table.exitsOnRetreat
        (machine.history.removeLast Flow.terminal).current = false) :
      Obeys machine .retreat
        ({ machine with
            history := machine.history.removeLast Flow.terminal },
          .retreat)
  | backOut (running : machine.ending = none)
      (exits : machine.table.exitsOnRetreat
        (machine.history.removeLast Flow.terminal).current = true) :
      Obeys machine .retreat
        (finish
          { machine with
            history := machine.history.removeLast Flow.terminal }
          .dismiss)

theorem obeys_advance (machine : Machine State) :
    machine.Obeys .advance machine.advance := by
  unfold advance
  split
  next ending finished => exact .again finished
  next running =>
    split
    next target leads => exact .forward running leads
    next ending leads => exact .leave running (.inl leads)
    next stuck => exact .leave running (.inr ⟨stuck, rfl⟩)

theorem obeys_retreat (machine : Machine State) :
    machine.Obeys .retreat machine.retreat := by
  unfold retreat
  split
  next ending finished => exact .again finished
  next running =>
    by_cases exits : machine.table.exitsOnRetreat
        (machine.history.removeLast Flow.terminal).current = true
    · simp only [exits, if_true]
      exact .backOut running exits
    · simp only [exits, Bool.false_eq_true, if_false]
      refine .back running ?_ (by simpa using exits)
      -- Without a state to go back to, the terminal state would be the exit.
      intro fresh
      rw [History.removeLast_of_previous_eq_nil fresh] at exits
      exact exits (Table.exitsOnRetreat_terminal machine.table)

theorem obeys (machine : Machine State) (command : Command) :
    machine.Obeys command (machine.obey command) := by
  cases command with
  | advance => exact machine.obeys_advance
  | retreat => exact machine.obeys_retreat

theorem take_of_command (machine : Machine State) {trigger : Trigger}
    {command : Command} (told : trigger.command? = some command) :
    machine.take trigger =
      ((machine.obey command).1, some (machine.obey command).2) := by
  simp [take, told, Prod.map]

theorem run_cons_of_command (machine : Machine State) {trigger : Trigger}
    {command : Command} (told : trigger.command? = some command)
    (rest : List Trigger) :
    machine.run (trigger :: rest) =
      (((machine.obey command).1.run rest).1,
        (machine.obey command).2 :: ((machine.obey command).1.run rest).2) := by
  simp [run, told]

theorem run_concat_of_command (machine : Machine State)
    (triggers : List Trigger) {trigger : Trigger} {command : Command}
    (told : trigger.command? = some command) :
    machine.run (triggers ++ [trigger]) =
      (((machine.run triggers).1.obey command).1,
        (machine.run triggers).2 ++
          [((machine.run triggers).1.obey command).2]) := by
  simp [run_append, run_cons_of_command _ told, run_nil]

/-- A machine is over from the first action that ends the flow. -/
theorem obey_ending (machine : Machine State) (command : Command) :
    (machine.obey command).1.ending =
      machine.ending.or (machine.obey command).2.ending? := by
  have obeyed := machine.obeys command
  generalize machine.obey command = moved at obeyed ⊢
  cases obeyed with
  | again finished => simp [finished]
  | forward running => simp [running, Action.ending?]
  | leave running => simp [running, finish, Action.ending?]
  | back running => simp [running, Action.ending?]
  | backOut running => simp [running, finish, Action.ending?]

theorem obeyAll_ending (machine : Machine State) (commands : List Command) :
    (machine.obeyAll commands).1.ending =
      machine.ending.or
        ((machine.obeyAll commands).2.findSome? Action.ending?) := by
  induction commands generalizing machine with
  | nil => simp
  | cons command rest ih =>
      simp only [obeyAll_cons, ih, obey_ending, List.findSome?_cons]
      cases (machine.obey command).2.ending? <;> simp

theorem run_ending (machine : Machine State) (triggers : List Trigger) :
    (machine.run triggers).1.ending =
      machine.ending.or
        ((machine.run triggers).2.findSome? Action.ending?) :=
  machine.obeyAll_ending _

theorem ending?_eq_none_of_running {machine : Machine State}
    {triggers : List Trigger}
    (running : (machine.run triggers).1.ending = none) :
    ∀ action ∈ (machine.run triggers).2, action.ending? = none := by
  rw [run_ending] at running
  exact List.findSome?_eq_none_iff.mp (Option.or_eq_none_iff.mp running).2

/-! ## A flow that is running -/

section

variable {machine : Machine State} (running : machine.ending = none)
include running

theorem obey_advance_of_next {target : State}
    (leads : machine.table.step machine.history.current =
      some (.next target)) :
    machine.obey .advance =
      ({ machine with history := machine.history.append target },
        .advance target) := by
  simp [obey, advance, running, leads]

theorem obey_advance_of_finish {ending : Ending}
    (leads : machine.table.step machine.history.current =
      some (.finish ending)) :
    machine.obey .advance = machine.finish ending := by
  simp [obey, advance, running, leads]

theorem obey_retreat :
    (machine.obey .retreat).1.history =
        machine.history.removeLast Flow.terminal ∧
      (machine.obey .retreat).2 =
        if machine.table.exitsOnRetreat
            (machine.history.removeLast Flow.terminal).current then
          .finish .dismiss
        else
          .retreat := by
  simp only [obey, retreat, running]
  split <;> exact ⟨rfl, rfl⟩

end

/-! ## A flow that is over -/

section

variable {machine : Machine State} {ending : Ending}

theorem obey_of_finished (finished : machine.ending = some ending)
    (command : Command) :
    machine.obey command = (machine, .finish ending) := by
  cases command with
  | advance => simp [obey, advance, finished]
  | retreat => simp [obey, retreat, finished]

theorem take_of_finished (finished : machine.ending = some ending)
    (trigger : Trigger) :
    machine.take trigger =
      (machine, trigger.command?.map fun _ => .finish ending) := by
  unfold take
  cases trigger.command? with
  | none => rfl
  | some command => simp [obey_of_finished finished]

theorem obeyAll_of_finished (finished : machine.ending = some ending)
    (commands : List Command) :
    machine.obeyAll commands =
      (machine, List.replicate commands.length (.finish ending)) := by
  induction commands with
  | nil => rfl
  | cons command rest ih =>
      simp [obey_of_finished finished, ih, List.replicate_succ]

theorem run_of_finished (finished : machine.ending = some ending)
    (triggers : List Trigger) :
    machine.run triggers =
      (machine,
        List.replicate (triggers.filterMap Trigger.command?).length
          (.finish ending)) :=
  obeyAll_of_finished finished _

end

end Machine

end ScreenFlow
