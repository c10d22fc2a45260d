import ScreenFlow.Recorder

/-!
# The log tells the stack

A recorder may be asked anything in any order.  It does one thing at a time and
logs it, or else there was nothing to take away and it does nothing.  What it
logs of a state without a screen says nothing about the screens, and neither
does that state: so whoever replays the log has the screens that are shown.
-/

namespace ScreenFlow

/-- What can be asked of a recorder. -/
inductive Recorder.Request (State : Type) where
  | push (state : State)
  | pop
  | dismiss
  | complete
  | apply (action : Action State)
  deriving DecidableEq, Repr

namespace Recorder

variable {State : Type} [DecidableEq State] [Flow State]

def answer (recorder : Recorder State) : Request State → Recorder State
  | .push state => recorder.push state
  | .pop => recorder.pop
  | .dismiss => recorder.dismiss
  | .complete => recorder.complete
  | .apply action => recorder.apply action

def answerAll (recorder : Recorder State) (requests : List (Request State)) :
    Recorder State :=
  requests.foldl answer recorder

/-! ## One request -/

/-- A recorder does what it logs as the next step.  A screen that it takes away
was the topmost one. -/
structure Logs (recorder : Recorder State) (step : NavigationStep State)
    (next : Recorder State) : Prop where
  log_eq : next.log = recorder.log ++ [step]
  stack_eq : next.stack = step.replay recorder.stack
  shown : ∀ screen, step = .popped screen →
    ∃ below, recorder.stack = below ++ [screen]
  completed_iff : next.isCompleted = true ↔
    recorder.isCompleted = true ∨ step = .completed

variable {recorder next : Recorder State} {step : NavigationStep State}

theorem exists_logs_push (recorder : Recorder State) (state : State) :
    ∃ step, recorder.Logs step (recorder.push state) := by
  by_cases screen : Flow.hasScreen state
  · refine ⟨.pushed state, ?_⟩
    constructor <;> simp [push, stack, screen, NavigationStep.replay]
  · refine ⟨.skipped state, ?_⟩
    constructor <;> simp [push, stack, screen, NavigationStep.replay]

theorem pop_logs (recorder : Recorder State) :
    recorder.pop = recorder ∨ ∃ step, recorder.Logs step recorder.pop := by
  rcases List.eq_nil_or_concat recorder.entries with bare | ⟨below, top, split⟩
  · left
    simp [pop, bare]
  · right
    rw [List.concat_eq_append] at split
    by_cases screen : Flow.hasScreen top
    · refine ⟨.popped top, ?_, ?_, ?_, ?_⟩
      · simp [pop, split, screen]
      · simp [pop, stack, split, screen, NavigationStep.replay]
      · rintro _ ⟨⟩
        exact ⟨below.filter Flow.hasScreen, by simp [stack, split, screen]⟩
      · simp [pop, split]
    · refine ⟨.skipped top, ?_⟩
      constructor <;>
        simp [pop, stack, split, screen, NavigationStep.replay]

theorem logs_dismiss (recorder : Recorder State) :
    recorder.Logs .dismissed recorder.dismiss := by
  constructor <;> simp [dismiss, stack, NavigationStep.replay]

theorem logs_complete (recorder : Recorder State) :
    recorder.Logs .completed recorder.complete := by
  constructor <;> simp [complete, stack, NavigationStep.replay]

theorem answer_logs (recorder : Recorder State) (request : Request State) :
    recorder.answer request = recorder ∨
      ∃ step, recorder.Logs step (recorder.answer request) := by
  cases request with
  | push state => exact .inr (recorder.exists_logs_push state)
  | pop => exact recorder.pop_logs
  | dismiss => exact .inr ⟨_, recorder.logs_dismiss⟩
  | complete => exact .inr ⟨_, recorder.logs_complete⟩
  | apply action =>
      cases action with
      | advance target => exact .inr (recorder.exists_logs_push target)
      | retreat => exact recorder.pop_logs
      | finish ending =>
          cases ending with
          | dismiss => exact .inr ⟨_, recorder.logs_dismiss⟩
          | complete => exact .inr ⟨_, recorder.logs_complete⟩

/-! ## Any number of requests -/

omit [DecidableEq State] [Flow State] in
@[simp]
theorem replay_concat (log : List (NavigationStep State))
    (step : NavigationStep State) :
    replay (log ++ [step]) = step.replay (replay log) := by
  simp [replay]

/-- The log of a recorder tells its stack.  Whatever it says was taken away is
on top where it says so, and it says when success was reported. -/
structure IsTold (recorder : Recorder State) : Prop where
  replay_eq : replay recorder.log = recorder.stack
  shown : ∀ before screen after,
    recorder.log = before ++ .popped screen :: after →
    ∃ below, replay before = below ++ [screen]
  completed_iff : recorder.isCompleted = true ↔ .completed ∈ recorder.log

theorem isTold_fresh : (fresh : Recorder State).IsTold := by
  constructor <;> simp [fresh, replay, stack]

theorem IsTold.logs (told : recorder.IsTold) (logs : recorder.Logs step next) :
    next.IsTold where
  replay_eq := by
    rw [logs.log_eq, replay_concat, told.replay_eq, logs.stack_eq]
  shown before screen after split := by
    rw [logs.log_eq] at split
    -- The screen is taken away by the last step or by an earlier one.
    rcases List.eq_nil_or_concat after with rfl | ⟨middle, last, rfl⟩
    · obtain ⟨rfl, same⟩ := List.append_inj' split rfl
      rw [told.replay_eq]
      exact logs.shown screen (List.singleton_inj.mp same)
    · rw [List.concat_eq_append, ← List.cons_append, ← List.append_assoc]
        at split
      obtain ⟨earlier, -⟩ := List.append_inj' split rfl
      exact told.shown before screen middle earlier
  completed_iff := by
    rw [logs.completed_iff, logs.log_eq, told.completed_iff]
    simp [eq_comm]

theorem IsTold.answer (told : recorder.IsTold) (request : Request State) :
    (recorder.answer request).IsTold := by
  rcases recorder.answer_logs request with same | ⟨step, logs⟩
  · rwa [same]
  · exact told.logs logs

theorem IsTold.answerAll (told : recorder.IsTold)
    (requests : List (Request State)) : (recorder.answerAll requests).IsTold := by
  induction requests generalizing recorder with
  | nil => exact told
  | cons request rest ih => exact ih (told.answer request)

/-- Whatever has been asked of a recorder, replaying its log gives the screens
that it shows.  Each screen that the log takes away is the last one there, the
top is the last screen, and success was reported exactly if the log says so. -/
theorem log_tells_stack (requests : List (Request State)) :
    let recorder := (fresh : Recorder State).answerAll requests
    replay recorder.log = recorder.stack ∧
      (∀ before screen after,
        recorder.log = before ++ .popped screen :: after →
        ∃ below, replay before = below ++ [screen] ∧
          replay (before ++ [.popped screen]) = below) ∧
      recorder.top = recorder.stack.getLast? ∧
      (recorder.isCompleted = true ↔ .completed ∈ recorder.log) := by
  intro recorder
  have told : recorder.IsTold := isTold_fresh.answerAll requests
  refine ⟨told.replay_eq, ?_, recorder.top_eq_getLast?_stack,
    told.completed_iff⟩
  intro before screen after split
  obtain ⟨below, shown⟩ := told.shown before screen after split
  refine ⟨below, shown, ?_⟩
  rw [replay_concat, shown, NavigationStep.replay, List.dropLast_concat]

end Recorder

end ScreenFlow
