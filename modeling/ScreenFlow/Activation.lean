import ScreenFlow.Card

/-!
# Waiting for the activation of a card

An activation service makes polls, here called waits, for cards whose
activation is decided.  Waits may overlap.  All of them run under the token
that was current when they began; when a wait returns and the current token is
cancelled, a fresh one takes its place.

Waits share a clock.  `wake` lets one of them go on at an instant, and `runAll`
moves the clock from one such instant to the next.  What is due at the same
instant goes on in the order in which the waits began.
-/

namespace ScreenFlow

/-- Why the backend gave no answer about a card. -/
inductive ClientError where
  | notFound (card : String)
  | network (detail : String)
  /-- The answer could not be read, for a reason that may be known. -/
  | undecodable (detail : Option String)
  deriving DecidableEq, Repr

namespace ClientError

/-- What is said about an error of the backend. -/
def message : ClientError → String
  | notFound card => s!"card {card} not found"
  | network detail => s!"network error: {detail}"
  | undecodable (some detail) => s!"unexpected response: {detail}"
  | undecodable none => "unexpected response: not a card"

def key : ClientError → String
  | notFound _ => "not_found"
  | network _ => "network"
  | undecodable _ => "decode"

end ClientError

/-- A request for a card as a check of its activation.  The backend is not
turned to before the answer is asked for. -/
def Fetch.activation (fetch : Fetch CardPayload ClientError) :
    Fetch Activation ClientError :=
  { cancelling := fetch.cancelling.map fun _ => .asAsked
    reply := fetch.reply.map fun (delay, answer) =>
      (delay, answer.map .ofPayload) }

/-- What is said about a wait that an error has ended. -/
def activationFailureMessage (attempt : Nat) (error : ClientError) : String :=
  "card activation check failed: " ++
    PollResult.failureMessage attempt error.message

/-- The tokens of an activation service, each known by its number.  Those
below the current one were current before. -/
structure CancelTokens where
  current : Nat
  cancelled : List Nat
  deriving DecidableEq, Repr

namespace CancelTokens

/-- A first token that nobody has cancelled. -/
def fresh : CancelTokens :=
  { current := 0, cancelled := [] }

def isCancelled (tokens : CancelTokens) (token : Nat) : Bool :=
  token ∈ tokens.cancelled

def cancel (tokens : CancelTokens) (token : Nat) : CancelTokens :=
  { tokens with cancelled := token :: tokens.cancelled }

/-- Put a fresh token in place of the current one if that is cancelled. -/
def rearm (tokens : CancelTokens) : CancelTokens :=
  if tokens.isCancelled tokens.current then
    { tokens with current := tokens.current + 1 }
  else
    tokens

end CancelTokens

/-- A poll for a decided activation, with the token that can stop it. -/
structure Wait where
  /-- The token it runs under. -/
  token : Nat
  /-- The token that its fetches cancel, if they cancel any. -/
  target : Nat
  script : Script Activation ClientError
  poll : Poll Activation ClientError

namespace Wait

/-- A decided activation ends a wait. -/
def accepts (activation : Activation) : Bool :=
  !activation.isPending

def isOver (wait : Wait) : Bool :=
  match wait.poll.phase with
  | .over _ _ => true
  | .waiting _ | .fetching _ => false

/-- When a wait goes on: at once if its token is cancelled. -/
def due? (wait : Wait) (tokens : CancelTokens) (now : Nat) : Option Nat :=
  wait.poll.due?.map fun due =>
    if tokens.isCancelled wait.token then now else due

/-- Let a wait go on at an instant.  If it returns, a cancelled current token
is replaced. -/
def wake (wait : Wait) (tokens : CancelTokens) (now : Nat) :
    Wait × CancelTokens :=
  let (poll, cancels) :=
    wait.poll.react accepts wait.script now (tokens.isCancelled wait.token)
      (wait.target = wait.token)
  let moved := { wait with poll }
  let told := if cancels then tokens.cancel wait.target else tokens
  (moved, if moved.isOver then told.rearm else told)

/-- Begin a wait under the current token.  It may return at once. -/
def start (settings : PollSettings) (target : Nat)
    (script : Script Activation ClientError) (tokens : CancelTokens)
    (now : Nat) : Wait × CancelTokens :=
  let wait : Wait :=
    { token := tokens.current
      target
      script
      poll := .start settings now (tokens.isCancelled tokens.current) }
  (wait, if wait.isOver then tokens.rearm else tokens)

/-- Let a wait go on at an instant, at most `fuel` times, for as long as its
own clock has it due and its token is not cancelled. -/
def settle (wait : Wait) (tokens : CancelTokens) (now : Nat) :
    Nat → Wait × CancelTokens
  | 0 => (wait, tokens)
  | fuel + 1 =>
      if wait.poll.due?.any (· ≤ now) && !tokens.isCancelled wait.token then
        let (moved, told) := wait.wake tokens now
        moved.settle told now fuel
      else
        (wait, tokens)

end Wait

/-- Waits that share a clock, in the order in which they began. -/
structure Waits where
  now : Nat
  tokens : CancelTokens
  waits : List Wait
  /-- When the current token will be cancelled from outside, soonest first. -/
  cancels : List Nat

namespace Waits

/-- Begin a wait after those that have begun already. -/
def begin (running : Waits) (settings : PollSettings) (target : Nat)
    (script : Script Activation ClientError) (lead : Nat) : Waits :=
  let (wait, tokens) := Wait.start settings target script running.tokens running.now
  let (moved, told) :=
    wait.settle tokens running.now (Poll.reactionBound settings lead)
  { running with tokens := told, waits := running.waits ++ [moved] }

/-- The soonest instant at which a wait goes on, and the first wait that goes
on then. -/
def soonest? (running : Waits) : Option (Nat × Nat) :=
  running.waits.zipIdx.foldl
    (fun best entry =>
      match entry.1.due? running.tokens running.now with
      | none => best
      | some due =>
          match best with
          | none => some (due, entry.2)
          | some (time, index) =>
              if due < time then some (due, entry.2) else some (time, index))
    none

/-- Let the wait at a position go on at an instant. -/
def wakeAt (running : Waits) (time index : Nat) : Waits :=
  match running.waits[index]? with
  | none => { running with now := time }
  | some wait =>
      let (moved, tokens) := wait.wake running.tokens time
      { running with
        now := time
        tokens
        waits := running.waits.set index moved }

/-- Let waits go on and outside cancellations happen as they come, at most
`fuel` times, until all waits have returned. -/
def runAll (running : Waits) : Nat → Waits
  | 0 => running
  | fuel + 1 =>
      match running.soonest? with
      | none => running
      | some (time, index) =>
          match running.cancels with
          | [] => (running.wakeAt time index).runAll fuel
          | moment :: later =>
              if moment ≤ time then
                runAll
                  { running with
                    now := max running.now moment
                    tokens := running.tokens.cancel running.tokens.current
                    cancels := later }
                  fuel
              else
                (running.wakeAt time index).runAll fuel

end Waits

/-- What one service waits with, and the instant it has come to. -/
structure ActivationService where
  settings : PollSettings
  tokens : CancelTokens
  now : Nat

namespace ActivationService

def fresh (settings : PollSettings) : ActivationService :=
  { settings, tokens := .fresh, now := 0 }

/-- Stop the running waits, or the next one if none is running. -/
def cancel (service : ActivationService) : ActivationService :=
  { service with tokens := service.tokens.cancel service.tokens.current }

/-- The token of the running waits, or of the next one. -/
def handle (service : ActivationService) : Nat :=
  service.tokens.current

/-- Cancel a token that was handed out. -/
def cancelHandle (service : ActivationService) (token : Nat) :
    ActivationService :=
  { service with tokens := service.tokens.cancel token }

def isCancelled (service : ActivationService) (token : Nat) : Bool :=
  service.tokens.isCancelled token

/-- Begin a wait for each list of fetches, all at the same instant, and run
them until all have returned.  The service is cancelled from outside at the
given times, counted from that instant.  A fetch that cancels stops the waits
under the token that was current at that instant. -/
def waitAll (service : ActivationService)
    (scripts : List (List (Nat → Fetch Activation ClientError)))
    (cancels : List Nat) : ActivationService × List (Poll Activation ClientError) :=
  let quiet : Waits :=
    { now := service.now
      tokens := service.tokens
      waits := []
      cancels := cancels.mergeSort.map (service.now + ·) }
  let begun := scripts.foldl
    (fun running fetches =>
      running.begin service.settings service.handle (.ofList fetches)
        fetches.length)
    quiet
  let lead := (scripts.map List.length).foldl (· + ·) 0
  let ended := begun.runAll
    (scripts.length * Poll.reactionBound service.settings lead +
      cancels.length)
  ({ service with tokens := ended.tokens, now := ended.now },
    ended.waits.map (·.poll))

/-- Wait for cards, each of which the backend is asked for with a list of
requests. -/
def waitForCards (service : ActivationService)
    (requests : List (List (Nat → Fetch CardPayload ClientError)))
    (cancels : List Nat) : ActivationService × List (Poll Activation ClientError) :=
  service.waitAll
    (requests.map (·.map fun request number => (request number).activation))
    cancels

end ActivationService

end ScreenFlow
