import ScreenFlow.Proofs.Transitions
import ScreenFlow.Recorder

/-!
# The recorder mirrors the history

A recorder sees only the actions of a machine.  `Mirrors` says what it still
knows of the machine's history: while the flow is running, its entries are the
states of the walk without the initial one, and once the flow is over it has
none.  Every transition preserves this, so the screens that are shown are
always those of the walk.
-/

namespace ScreenFlow

namespace Recorder

variable {State : Type} [DecidableEq State] [Flow State]

/-- A recorder has been given the actions of a machine. -/
structure Mirrors (recorder : Recorder State) (machine : Machine State) :
    Prop where
  trail_eq : machine.ending = none →
    machine.history.trail = Flow.initial :: recorder.entries
  unwound : machine.ending ≠ none → recorder.entries = []
  completed_iff : recorder.isCompleted = true ↔
    machine.ending = some .complete

omit [DecidableEq State] in
theorem mirrors_start (table : Table State) :
    Recorder.fresh.Mirrors (Machine.start table) where
  trail_eq _ := rfl
  unwound finished := absurd rfl finished
  completed_iff := by simp [fresh, Machine.start]

@[simp]
theorem applyAll_nil (recorder : Recorder State) :
    recorder.applyAll [] = recorder := rfl

@[simp]
theorem applyAll_cons (recorder : Recorder State) (action : Action State)
    (rest : List (Action State)) :
    recorder.applyAll (action :: rest) =
      (recorder.apply action).applyAll rest := rfl

private theorem pop_of_entries_ne_nil {recorder : Recorder State}
    (filled : recorder.entries ≠ []) :
    recorder.pop.entries = recorder.entries.dropLast ∧
      recorder.pop.isCompleted = recorder.isCompleted ∧
      recorder.pop.log.length = recorder.log.length + 1 := by
  simp [pop, List.getLast?_eq_some_getLast filled]

/-- Whatever ends a flow unwinds the stack and reports the right ending. -/
private theorem mirrors_finish {recorder : Recorder State}
    {machine : Machine State} {ending : Ending}
    (isOver : machine.ending = some ending)
    (completed : recorder.isCompleted = true → ending = .complete) :
    (recorder.apply (.finish ending)).Mirrors machine := by
  cases ending with
  | dismiss =>
      have unreported : recorder.isCompleted = false := by
        simpa using mt completed (by simp)
      constructor <;> simp [apply, dismiss, isOver, unreported]
  | complete => constructor <;> simp [apply, complete, isOver]

namespace Mirrors

variable {recorder : Recorder State} {machine : Machine State}

omit [DecidableEq State] in
/-- Going back finds a state to take away: a walk that can go back has one
besides the initial state. -/
theorem entries_ne_nil_of_visited (mirrors : recorder.Mirrors machine)
    (running : machine.ending = none)
    (visited : machine.history.previous ≠ []) :
    recorder.entries ≠ [] := by
  intro bare
  have single := mirrors.trail_eq running
  rw [bare] at single
  have length := congrArg List.length single
  simp [History.length, visited] at length

theorem entries_ne_nil_of_retreat (mirrors : recorder.Mirrors machine)
    {command : Command} (retreats : (machine.obey command).2 = .retreat) :
    recorder.entries ≠ [] := by
  have obeyed := machine.obeys command
  generalize machine.obey command = moved at obeyed retreats
  cases obeyed with
  | again finished => cases retreats
  | forward running => cases retreats
  | leave running => cases retreats
  | back running visited =>
      exact mirrors.entries_ne_nil_of_visited running visited
  | backOut running => cases retreats

theorem apply_obey (mirrors : recorder.Mirrors machine) (command : Command) :
    (recorder.apply (machine.obey command).2).Mirrors
      (machine.obey command).1 := by
  have obeyed := machine.obeys command
  generalize machine.obey command = moved at obeyed ⊢
  -- While the flow is running it has not been reported as completed.
  have unreported : machine.ending = none → ∀ ending,
      recorder.isCompleted = true → ending = Ending.complete := by
    intro running ending completed
    simp [mirrors.completed_iff, running] at completed
  cases obeyed with
  | again finished =>
      refine mirrors_finish finished fun completed => ?_
      simpa [finished] using mirrors.completed_iff.mp completed
  | @forward target running leads =>
      have trail := mirrors.trail_eq running
      constructor
      · intro _
        simp [apply, push, trail]
      · simp [running]
      · simpa [apply, push, running] using mirrors.completed_iff
  | leave running leaves =>
      exact mirrors_finish rfl (unreported running _)
  | back running visited stays =>
      have filled := mirrors.entries_ne_nil_of_visited running visited
      obtain ⟨entries, completed, _⟩ := pop_of_entries_ne_nil filled
      constructor
      · intro _
        simp only [apply, entries]
        rw [History.trail_removeLast_of_previous_ne_nil visited,
          mirrors.trail_eq running, List.dropLast_cons_of_ne_nil filled]
      · simp [running]
      · simpa [apply, completed] using mirrors.completed_iff
  | backOut running exits =>
      exact mirrors_finish rfl (unreported running _)

theorem length_log_apply_obey (mirrors : recorder.Mirrors machine)
    (command : Command) :
    (recorder.apply (machine.obey command).2).log.length =
      recorder.log.length + 1 := by
  cases action : (machine.obey command).2 with
  | advance target => simp [apply, push]
  | retreat =>
      have filled := mirrors.entries_ne_nil_of_retreat action
      exact (pop_of_entries_ne_nil filled).2.2
  | finish ending => cases ending <;> simp [apply, dismiss, complete]

theorem applyAll_obeyAll (mirrors : recorder.Mirrors machine)
    (commands : List Command) :
    (recorder.applyAll (machine.obeyAll commands).2).Mirrors
      (machine.obeyAll commands).1 := by
  induction commands generalizing recorder machine with
  | nil => exact mirrors
  | cons command rest ih => exact ih (mirrors.apply_obey command)

theorem length_log_applyAll_obeyAll (mirrors : recorder.Mirrors machine)
    (commands : List Command) :
    (recorder.applyAll (machine.obeyAll commands).2).log.length =
      recorder.log.length + (machine.obeyAll commands).2.length := by
  induction commands generalizing recorder machine with
  | nil => rfl
  | cons command rest ih =>
      have tail := ih (mirrors.apply_obey command)
      have head := mirrors.length_log_apply_obey command
      simp only [Machine.obeyAll_cons, applyAll_cons, List.length_cons]
      omega

theorem entries_ne_nil_before_retreat (mirrors : recorder.Mirrors machine)
    {commands : List Command} {before after : List (Action State)}
    (split : (machine.obeyAll commands).2 = before ++ .retreat :: after) :
    (recorder.applyAll before).entries ≠ [] := by
  induction commands generalizing recorder machine before with
  | nil => simp at split
  | cons command rest ih =>
      rw [Machine.obeyAll_cons] at split
      cases before with
      | nil =>
          exact mirrors.entries_ne_nil_of_retreat
            (List.cons.inj split).1
      | cons action before =>
          obtain ⟨rfl, tail⟩ := List.cons.inj split
          exact ih (mirrors.apply_obey command) tail

theorem stack_eq (mirrors : recorder.Mirrors machine)
    (running : machine.ending = none) :
    recorder.stack = machine.history.trail.filter Flow.hasScreen := by
  rw [mirrors.trail_eq running]
  simp [stack, Flow.hasScreen]

theorem stack_eq_nil (mirrors : recorder.Mirrors machine)
    (finished : machine.ending ≠ none) : recorder.stack = [] := by
  simp [stack, mirrors.unwound finished]

end Mirrors

theorem applyAll_run_mirrors (table : Table State) (triggers : List Trigger) :
    (fresh.applyAll ((Machine.start table).run triggers).2).Mirrors
      ((Machine.start table).run triggers).1 :=
  (mirrors_start table).applyAll_obeyAll _

/-- A recorder that is given every action of a walk shows the screens of the
walk's history for as long as the flow is running, with the last of them on
top.  It logs one step for each action, since whatever is taken away was there.
Once the flow is over it shows nothing, whatever is asked of the flow later,
and it reports completion exactly when that is how the flow ended. -/
theorem stack_mirrors_history (table : Table State)
    (triggers : List Trigger) :
    let walked := (Machine.start table).run triggers
    let recorder := (fresh : Recorder State).applyAll walked.2
    (walked.1.ending = none →
      recorder.stack = walked.1.history.trail.filter Flow.hasScreen ∧
        recorder.top =
          (walked.1.history.trail.filter Flow.hasScreen).getLast?) ∧
      (∀ before after, walked.2 = before ++ .retreat :: after →
        ((fresh : Recorder State).applyAll before).entries ≠ []) ∧
      recorder.log.length = walked.2.length ∧
      walked.1.ending = walked.2.findSome? Action.ending? ∧
      (walked.1.ending ≠ none → ∀ later,
        ((fresh : Recorder State).applyAll
          ((Machine.start table).run (triggers ++ later)).2).stack = []) ∧
      (recorder.isCompleted = true ↔
        walked.2.findSome? Action.ending? = some .complete) := by
  intro walked recorder
  have mirrors : recorder.Mirrors walked.1 :=
    applyAll_run_mirrors table triggers
  have ending : walked.1.ending = walked.2.findSome? Action.ending? :=
    ((Machine.start table).run_ending triggers).trans (Option.none_or)
  refine ⟨?_, ?_, ?_, ending, ?_, ?_⟩
  · intro running
    have stack := mirrors.stack_eq running
    exact ⟨stack, by rw [top_eq_getLast?_stack, stack]⟩
  · intro before after split
    exact (mirrors_start table).entries_ne_nil_before_retreat split
  · exact ((mirrors_start table).length_log_applyAll_obeyAll _).trans
      (Nat.zero_add _)
  · intro finished later
    apply (applyAll_run_mirrors table (triggers ++ later)).stack_eq_nil
    rw [Machine.run_append]
    intro undecided
    have both := (walked.1.run_ending later).symm.trans undecided
    exact finished (Option.or_eq_none_iff.mp both).1
  · rw [← ending]
    exact mirrors.completed_iff

end Recorder

end ScreenFlow
