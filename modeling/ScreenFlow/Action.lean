import ScreenFlow.Flow

/-!
# Actions

What a flow asks of the navigation after one of its transitions.
-/

namespace ScreenFlow

/-- What a transition asks of the navigation. -/
inductive Action (State : Type) where
  /-- Present the screen of a state. -/
  | advance (target : State)
  /-- Take the topmost screen away. -/
  | retreat
  /-- Unwind every screen of the flow. -/
  | finish (ending : Ending)
  deriving DecidableEq, Repr

namespace Action

variable {State : Type}

def ending? : Action State → Option Ending
  | finish ending => some ending
  | _ => none

/-- Whether the flow is over once the action has been emitted. -/
def isFinishing (action : Action State) : Bool :=
  action.ending?.isSome

/-- The name of an action in a structured report. -/
def key : Action State → String
  | advance _ => "advance"
  | retreat => "retreat"
  | finish ending => ending.key

/-- The state whose screen an action presents. -/
def target? : Action State → Option State
  | advance target => some target
  | _ => none

/-- The name of an action in a report for readers. -/
def label [Flow State] : Action State → String
  | advance target => s!"Advance({Flow.label target})"
  | retreat => "Retreat"
  | finish ending => ending.label

@[simp]
theorem ending?_eq_some_iff {action : Action State} {ending : Ending} :
    action.ending? = some ending ↔ action = finish ending := by
  cases action <;> simp [ending?]

end Action

end ScreenFlow
