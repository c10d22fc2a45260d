/-!
# Flows

A flow is a fixed set of states, most of which show a screen, walked forward
and back by the user.  This module holds what is known about a flow before any
table of steps is chosen: its name, where it begins, where it stops, and in
which order its states are presented.
-/

namespace ScreenFlow

/-- How a flow is over: its screens are unwound, and `complete` also reports
success to whoever presented the flow. -/
inductive Ending where
  | dismiss
  | complete
  deriving DecidableEq, Repr

namespace Ending

def key : Ending → String
  | dismiss => "dismiss"
  | complete => "complete"

def label : Ending → String
  | dismiss => "Dismiss"
  | complete => "Complete"

end Ending

/-- The identity of a flow.  The order between states comes from a table of
steps, never from `states`, which only fixes how the flow is presented. -/
class Flow (State : Type) where
  /-- The flow's name in messages and on the command line. -/
  name : String
  initial : State
  /-- The state that ends the flow when it is left forward. -/
  terminal : State
  /-- The states in presentation order. -/
  states : List State
  key : State → String
  label : State → String

namespace Flow

/-- Every state is presented, and presented once. -/
def Enumerated (State : Type) [Flow State] : Prop :=
  (states : List State).Nodup ∧ ∀ state : State, state ∈ (states : List State)

variable {State : Type} [DecidableEq State] [Flow State]

/-- The initial and the terminal state have no screen of their own. -/
def hasScreen (state : State) : Bool :=
  state ≠ initial ∧ state ≠ terminal

/-- The state presented under a lower-case name. -/
def ofKey? (text : String) : Option State :=
  (states : List State).find? fun state => key state == text

end Flow

end ScreenFlow
