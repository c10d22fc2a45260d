import ScreenFlow.Action

/-!
# Recorded navigation

A recorder performs actions on a stack of screens that exists only in memory
and keeps a log of what it did.  The initial and the terminal state have no
screen: they stay on the stack, so that a later retreat takes them away rather
than a real screen, but they are never reported as screens.  `replay` reads the
log alone, as someone would who never saw the stack.
-/

namespace ScreenFlow

/-- An entry of the log. -/
inductive NavigationStep (State : Type) where
  | pushed (screen : State)
  | popped (screen : State)
  /-- A state without a screen came or went. -/
  | skipped (state : State)
  | dismissed
  | completed
  deriving DecidableEq, Repr

namespace NavigationStep

variable {State : Type}

def key : NavigationStep State → String
  | pushed _ => "pushed"
  | popped _ => "popped"
  | skipped _ => "skipped"
  | dismissed => "dismissed"
  | completed => "completed"

/-- The state that came or went. -/
def state? : NavigationStep State → Option State
  | pushed state | popped state | skipped state => some state
  | dismissed | completed => none

/-- What an entry says about the screens that are shown. -/
def replay (screens : List State) : NavigationStep State → List State
  | pushed screen => screens ++ [screen]
  | popped _ => screens.dropLast
  | skipped _ => screens
  | dismissed | completed => []

end NavigationStep

/-- A stack of states, bottom first, with the log of all that was done to it. -/
structure Recorder (State : Type) where
  entries : List State
  log : List (NavigationStep State)
  isCompleted : Bool
  deriving DecidableEq, Repr

namespace Recorder

variable {State : Type} [DecidableEq State] [Flow State]

def fresh : Recorder State :=
  { entries := [], log := [], isCompleted := false }

/-- The screens that are shown, bottom first. -/
def stack (recorder : Recorder State) : List State :=
  recorder.entries.filter Flow.hasScreen

/-- The screen that the user sees. -/
def top (recorder : Recorder State) : Option State :=
  recorder.entries.reverse.find? Flow.hasScreen

def push (recorder : Recorder State) (state : State) : Recorder State :=
  { recorder with
    entries := recorder.entries ++ [state]
    log := recorder.log ++
      [if Flow.hasScreen state then .pushed state else .skipped state] }

/-- Take the topmost state away; an empty stack stays as it is and nothing is
logged. -/
def pop (recorder : Recorder State) : Recorder State :=
  match recorder.entries.getLast? with
  | none => recorder
  | some state =>
      { recorder with
        entries := recorder.entries.dropLast
        log := recorder.log ++
          [if Flow.hasScreen state then .popped state else .skipped state] }

def dismiss (recorder : Recorder State) : Recorder State :=
  { recorder with entries := [], log := recorder.log ++ [.dismissed] }

/-- Unwind the stack and report success. -/
def complete (recorder : Recorder State) : Recorder State :=
  { entries := [], log := recorder.log ++ [.completed], isCompleted := true }

def apply (recorder : Recorder State) : Action State → Recorder State
  | .advance target => recorder.push target
  | .retreat => recorder.pop
  | .finish .dismiss => recorder.dismiss
  | .finish .complete => recorder.complete

def applyAll (recorder : Recorder State) (actions : List (Action State)) :
    Recorder State :=
  actions.foldl apply recorder

/-- The screens that a log says are shown. -/
def replay (log : List (NavigationStep State)) : List State :=
  log.foldl NavigationStep.replay []

theorem top_eq_getLast?_stack (recorder : Recorder State) :
    recorder.top = recorder.stack.getLast? := by
  simp [top, stack, List.getLast?_filter]

end Recorder

end ScreenFlow
