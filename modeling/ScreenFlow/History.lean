/-!
# Histories

The state a flow is in together with the states visited before it.  `trail`
lists all of them; the lemmas say what walking forward and back does to it.
-/

namespace ScreenFlow

/-- The current state and the states left behind, oldest first. -/
structure History (State : Type) where
  current : State
  previous : List State
  deriving DecidableEq, Repr

namespace History

variable {State : Type}

/-- A walk that has only just begun. -/
def start (state : State) : History State :=
  { current := state, previous := [] }

/-- All states of the walk, oldest first, the current one last. -/
def trail (history : History State) : List State :=
  history.previous ++ [history.current]

def length (history : History State) : Nat :=
  history.previous.length + 1

def append (history : History State) (state : State) : History State :=
  { current := state, previous := history.previous ++ [history.current] }

/-- Go back to the state before the current one, or to `fallback` when there
is none. -/
def removeLast (history : History State) (fallback : State) : History State :=
  { current := history.previous.getLast?.getD fallback
    previous := history.previous.dropLast }

@[simp]
theorem trail_start (state : State) : (start state).trail = [state] := rfl

@[simp]
theorem trail_append (history : History State) (state : State) :
    (history.append state).trail = history.trail ++ [state] := rfl

@[simp]
theorem length_trail (history : History State) :
    history.trail.length = history.length := by
  simp [trail, length]

theorem removeLast_of_previous_eq_nil
    {history : History State} (fresh : history.previous = [])
    (fallback : State) :
    history.removeLast fallback = start fallback := by
  simp [removeLast, fresh, start]

theorem trail_removeLast_of_previous_ne_nil
    {history : History State} (visited : history.previous ≠ [])
    (fallback : State) :
    (history.removeLast fallback).trail = history.trail.dropLast := by
  simp [removeLast, trail, List.getLast?_eq_some_getLast visited,
    List.dropLast_concat_getLast visited]

@[simp]
theorem removeLast_append (history : History State)
    (state fallback : State) :
    (history.append state).removeLast fallback = history := by
  cases history
  simp [removeLast, append]

end History

end ScreenFlow
