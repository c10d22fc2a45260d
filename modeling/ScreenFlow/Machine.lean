import ScreenFlow.Action
import ScreenFlow.History
import ScreenFlow.Signal
import ScreenFlow.Table

/-!
# The machine that walks a flow

A machine follows a table, remembers where it has been, and answers each
trigger with an action.  Once a flow is over its ending is final: the machine
stays where it is and answers every trigger with that same ending.
-/

namespace ScreenFlow

/-- A walk through a flow, with the ending it has come to, if any. -/
structure Machine (State : Type) where
  table : Table State
  history : History State
  ending : Option Ending

/-- What a handle can be asked to pass on. -/
inductive Trigger where
  | next
  | back
  | signal (signal : Signal)
  deriving DecidableEq, Repr

/-- What a machine can be told to do. -/
inductive Command where
  | advance
  | retreat
  deriving DecidableEq, Repr

/-- What a trigger tells the machine: an idle signal nothing, any other signal
the same as asking for the next screen. -/
def Trigger.command? : Trigger → Option Command
  | next => some .advance
  | back => some .retreat
  | signal reported => if reported.isIdle then none else some .advance

namespace Machine

variable {State : Type} [DecidableEq State] [Flow State]

/-- A walk that has not left the initial state. -/
def start (table : Table State) : Machine State :=
  { table, history := .start Flow.initial, ending := none }

/-- Come to an ending that is final from now on. -/
def finish (machine : Machine State) (ending : Ending) :
    Machine State × Action State :=
  ({ machine with ending := some ending }, .finish ending)

/-- Walk on to the next state.  A state that leads nowhere dismisses the
flow. -/
def advance (machine : Machine State) : Machine State × Action State :=
  match machine.ending with
  | some ending => (machine, .finish ending)
  | none =>
      match machine.table.step machine.history.current with
      | some (.next target) =>
          ({ machine with history := machine.history.append target },
            .advance target)
      | some (.finish ending) => machine.finish ending
      | none => machine.finish .dismiss

/-- Go back to the state before the current one.  From the first state of a
walk, and on arrival at a back exit, the flow is dismissed. -/
def retreat (machine : Machine State) : Machine State × Action State :=
  match machine.ending with
  | some ending => (machine, .finish ending)
  | none =>
      let history := machine.history.removeLast Flow.terminal
      let moved := { machine with history }
      if machine.table.exitsOnRetreat history.current then
        moved.finish .dismiss
      else
        (moved, .retreat)

/-- Do what a command says. -/
def obey (machine : Machine State) : Command → Machine State × Action State
  | .advance => machine.advance
  | .retreat => machine.retreat

/-- Obey commands in order, with the actions they lead to. -/
def obeyAll (machine : Machine State) :
    List Command → Machine State × List (Action State)
  | [] => (machine, [])
  | command :: rest =>
      let (moved, action) := machine.obey command
      let (final, actions) := moved.obeyAll rest
      (final, action :: actions)

/-- Take a trigger.  One that tells the machine nothing leads to no action. -/
def take (machine : Machine State) (trigger : Trigger) :
    Machine State × Option (Action State) :=
  match trigger.command? with
  | none => (machine, none)
  | some command => (machine.obey command).map id some

/-- Take triggers in order, with the actions they lead to. -/
def run (machine : Machine State) (triggers : List Trigger) :
    Machine State × List (Action State) :=
  machine.obeyAll (triggers.filterMap Trigger.command?)

@[simp]
theorem obeyAll_nil (machine : Machine State) :
    machine.obeyAll [] = (machine, []) := rfl

@[simp]
theorem obeyAll_cons (machine : Machine State) (command : Command)
    (rest : List Command) :
    machine.obeyAll (command :: rest) =
      let moved := machine.obey command
      let final := moved.1.obeyAll rest
      (final.1, moved.2 :: final.2) := rfl

theorem obeyAll_append (machine : Machine State)
    (earlier later : List Command) :
    machine.obeyAll (earlier ++ later) =
      let moved := machine.obeyAll earlier
      let final := moved.1.obeyAll later
      (final.1, moved.2 ++ final.2) := by
  induction earlier generalizing machine with
  | nil => rfl
  | cons command rest ih => simp [ih]

theorem run_append (machine : Machine State)
    (earlier later : List Trigger) :
    machine.run (earlier ++ later) =
      let moved := machine.run earlier
      let final := moved.1.run later
      (final.1, moved.2 ++ final.2) := by
  simp [run, obeyAll_append]

theorem run_nil (machine : Machine State) : machine.run [] = (machine, []) :=
  rfl

theorem run_cons (machine : Machine State) (trigger : Trigger)
    (rest : List Trigger) :
    machine.run (trigger :: rest) =
      let (moved, action) := machine.take trigger
      let (final, actions) := moved.run rest
      (final, action.toList ++ actions) := by
  cases command : trigger.command? <;>
    simp [run, take, command]

end Machine

end ScreenFlow
