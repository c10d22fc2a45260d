/-!
# Polling

A poll repeats a fetch until its value is accepted.  One fetch is outstanding
at a time, and a wait of one interval comes before each.  No fetch is made
after the deadline, and one that has not answered by then is given up.

Time is a number of milliseconds.  A poll is a value that says what it waits
for; `react` lets it go on at an instant.  `runAlone` moves the clock from one
such instant to the next, for a poll whose token is cancelled at a given time
or never.
-/

namespace ScreenFlow

/-- What a poll does with a fetch that fails. -/
inductive ErrorPolicy where
  /-- Poll on, as if the value had not been accepted. -/
  | proceed
  | abort
  deriving DecidableEq, Repr

namespace ErrorPolicy

def key : ErrorPolicy → String
  | proceed => "continue"
  | abort => "abort"

def label : ErrorPolicy → String
  | proceed => "Continue"
  | abort => "Abort"

end ErrorPolicy

/-- How long a poll may take, and what it does meanwhile. -/
structure PollSettings where
  timeout : Nat := 60000
  interval : Nat := 1000
  onError : ErrorPolicy := .proceed
  deriving DecidableEq, Repr

/-- When a fetch cancels a token.  A fetch is made first, and then its answer is
asked for.  One that cancels later, while its answer is awaited, is not told
apart from those who cancel from outside. -/
inductive CancelMoment where
  | asMade
  | asAsked
  deriving DecidableEq, Repr

/-- A fetch as the poll sees it. -/
structure Fetch (Value Error : Type) where
  /-- When the fetch cancels a token, if it cancels one. -/
  cancelling : Option CancelMoment := none
  /-- How long the answer takes, and the answer, if there ever is one. -/
  reply : Option (Nat × Except Error Value)

/-- Whether a fetch cancels a token. -/
def Fetch.cancels {Value Error : Type} (fetch : Fetch Value Error) : Bool :=
  fetch.cancelling.isSome

/-- The fetches of a poll in order, counted from zero. -/
abbrev Script (Value Error : Type) :=
  Nat → Fetch Value Error

namespace Script

variable {Value Error : Type}

/-- A fetch that is never answered. -/
def silence : Fetch Value Error :=
  { reply := none }

/-- The script that goes through a list and repeats its last fetch.  A fetch
may depend on its number, counted from one. -/
def ofList (fetches : List (Nat → Fetch Value Error)) : Script Value Error :=
  fun index =>
    (fetches[index]?.getD (fetches.getLast?.getD fun _ => silence)) (index + 1)

end Script

/-- What a poll comes to. -/
inductive PollResult (Value Error : Type) where
  | matched (value : Value)
  | timedOut
  | cancelled
  /-- The fetch with this number, counted from one, failed. -/
  | failed (attempt : Nat) (error : Error)
  deriving DecidableEq, Repr

namespace PollResult

variable {Value Error : Type}

def value? : PollResult Value Error → Option Value
  | matched value => some value
  | _ => none

/-- What is said about a poll that a failed fetch has ended. -/
def failureMessage (attempt : Nat) (cause : String) : String :=
  s!"fetch attempt {attempt} failed: {cause}"

end PollResult

/-- What a poll waits for, or what it has come to. -/
inductive PollPhase (Value Error : Type) where
  | waiting (due : Nat)
  /-- The answer to a fetch, which comes at the given time or never. -/
  | fetching (reply : Option (Nat × Except Error Value))
  | over (time : Nat) (result : PollResult Value Error)

/-- A poll with the instants at which it has fetched so far. -/
structure Poll (Value Error : Type) where
  settings : PollSettings
  deadline : Nat
  /-- When the fetches were made, oldest first. -/
  calls : Array Nat
  phase : PollPhase Value Error

namespace Poll

variable {Value Error : Type}

def stop (poll : Poll Value Error) (now : Nat)
    (result : PollResult Value Error) : Poll Value Error :=
  { poll with phase := .over now result }

/-- Go on to the next fetch, unless the token is cancelled or the fetch would
come after the deadline. -/
def rest (poll : Poll Value Error) (now : Nat) (isCancelled : Bool) :
    Poll Value Error :=
  if isCancelled then
    poll.stop now .cancelled
  else if poll.deadline < now + poll.settings.interval then
    poll.stop now .timedOut
  else
    { poll with phase := .waiting (now + poll.settings.interval) }

/-- Begin a poll, which a cancelled token ends at once. -/
def start (settings : PollSettings) (now : Nat) (isCancelled : Bool) :
    Poll Value Error :=
  rest
    { settings
      deadline := now + settings.timeout
      calls := #[]
      phase := .waiting now }
    now isCancelled

/-- Judge an answer: an accepted value ends the poll, and so does an error
under a policy that gives up. -/
def judge (poll : Poll Value Error) (accepts : Value → Bool)
    (answer : Except Error Value) (now : Nat) (isCancelled : Bool) :
    Poll Value Error :=
  match answer with
  | .ok value =>
      if accepts value then poll.stop now (.matched value)
      else poll.rest now isCancelled
  | .error error =>
      match poll.settings.onError with
      | .proceed => poll.rest now isCancelled
      | .abort => poll.stop now (.failed poll.calls.size error)

/-- Ask a fetch that has been made for its answer.  One that answers at once is
judged at once, even if it cancels the poll as it is asked; one that does not
is given up at the deadline. -/
def ask (poll : Poll Value Error) (accepts : Value → Bool)
    (fetch : Fetch Value Error) (now : Nat) (isCancelled : Bool) :
    Poll Value Error :=
  match fetch.reply with
  | some (0, answer) => poll.judge accepts answer now isCancelled
  | some (delay, answer) =>
      if poll.deadline ≤ now then poll.stop now .timedOut
      else { poll with phase := .fetching (some (now + delay, answer)) }
  | none =>
      if poll.deadline ≤ now then poll.stop now .timedOut
      else { poll with phase := .fetching none }

/-- Make a fetch and ask it for its answer.  One that cancels the poll as it is
made is not asked. -/
def call (poll : Poll Value Error) (accepts : Value → Bool)
    (fetch : Fetch Value Error) (now : Nat) (isCancelled : Bool) :
    Poll Value Error :=
  let called := { poll with calls := poll.calls.push now }
  if isCancelled ∧ fetch.cancelling = some .asMade then
    called.stop now .cancelled
  else
    called.ask accepts fetch now isCancelled

/-- The time at which a poll goes on by itself, unless it is over.  A fetch is
waited for until the deadline. -/
def due? (poll : Poll Value Error) : Option Nat :=
  match poll.phase with
  | .waiting due => some due
  | .fetching (some (time, _)) => some (min time poll.deadline)
  | .fetching none => some poll.deadline
  | .over _ _ => none

/-- Let a poll go on at an instant.  A cancelled token comes before all else,
and an answer before the deadline.  The token that the fetches cancel need not
be that of the poll; `reaches` says whether it is.  The second part of the
result says whether a fetch was made that cancels it. -/
def react (poll : Poll Value Error) (accepts : Value → Bool)
    (script : Script Value Error) (now : Nat) (isCancelled reaches : Bool) :
    Poll Value Error × Bool :=
  match poll.phase with
  | .over _ _ => (poll, false)
  | .waiting due =>
      if isCancelled then
        (poll.stop now .cancelled, false)
      else if due ≤ now then
        let fetch := script poll.calls.size
        (poll.call accepts fetch now (fetch.cancels && reaches),
          fetch.cancels)
      else
        (poll, false)
  | .fetching reply =>
      if isCancelled then
        (poll.stop now .cancelled, false)
      else
        match reply.filter fun answered => answered.1 ≤ now with
        | some (_, answer) => (poll.judge accepts answer now false, false)
        | none =>
            if poll.deadline ≤ now then (poll.stop now .timedOut, false)
            else (poll, false)

/-- An upper bound for the number of times that a poll goes on before it ends.
If there is no pause between its fetches, all but `lead` of them must take
time or end the poll. -/
def reactionBound (settings : PollSettings) (lead : Nat) : Nat :=
  2 * (settings.timeout / max settings.interval 1 + lead) + 4

/-- Let a poll go on, at most `fuel` times, until it ends.  Its token is
cancelled at the time `cutoff`, or when a fetch cancels it.  The second part
is the time at which the token is cancelled after all. -/
def runAlone (accepts : Value → Bool) (script : Script Value Error) :
    Nat → Option Nat → Poll Value Error → Poll Value Error × Option Nat
  | 0, cutoff, poll => (poll, cutoff)
  | fuel + 1, cutoff, poll =>
      match poll.due? with
      | none => (poll, cutoff)
      | some due =>
          match cutoff.filter (· ≤ due) with
          | some time =>
              let (stopped, _) := poll.react accepts script time true true
              runAlone accepts script fuel cutoff stopped
          | none =>
              let (moved, cancels) := poll.react accepts script due false true
              runAlone accepts script fuel
                (if cancels then some due else cutoff) moved

end Poll

end ScreenFlow
