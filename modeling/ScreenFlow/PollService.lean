import ScreenFlow.Poll

/-!
# Poll services

A poll service makes polls one after another under one token.  Once the token
is cancelled it stays cancelled, and every later poll ends at once.  The token
may be related to one that the caller holds, the outer token; cancelling a
token also cancels those that were made from it, never the one it was made
from.
-/

namespace ScreenFlow

/-- How the token of a service is related to the outer token. -/
inductive TokenLink where
  | own
  | shared
  | child
  deriving DecidableEq, Repr

/-- Whether the token of a service and the outer token are cancelled. -/
structure Tokens where
  link : TokenLink
  service : Bool
  outer : Bool
  deriving DecidableEq, Repr

namespace Tokens

def fresh (link : TokenLink) : Tokens :=
  { link, service := false, outer := false }

/-- Cancel the token of the service, with all that hangs on it. -/
def cancelService (tokens : Tokens) : Tokens :=
  match tokens.link with
  | .own | .child => { tokens with service := true }
  | .shared => { tokens with service := true, outer := true }

/-- Cancel the outer token, with all that hangs on it. -/
def cancelOuter (tokens : Tokens) : Tokens :=
  match tokens.link with
  | .own => { tokens with outer := true }
  | .shared | .child => { tokens with service := true, outer := true }

end Tokens

/-- A service that makes polls, all of them under one token. -/
structure PollService (Value : Type) where
  accepts : Value → Bool
  onError : ErrorPolicy
  tokens : Tokens

/-- When tokens are cancelled from outside while a poll runs, counted from its
start. -/
structure Interruptions where
  service : List Nat := []
  outer : List Nat := []

/-- The first time at which interruptions reach the token of the service. -/
def Interruptions.cutoff (interruptions : Interruptions) (link : TokenLink) :
    Option Nat :=
  match link with
  | .own => interruptions.service.min?
  | .shared | .child => (interruptions.service ++ interruptions.outer).min?

namespace PollService

variable {Value Error : Type}

def isCancelled (service : PollService Value) : Bool :=
  service.tokens.service

/-- Cancel the service for good. -/
def cancel (service : PollService Value) : PollService Value :=
  { service with tokens := service.tokens.cancelService }

def cancelOuter (service : PollService Value) : PollService Value :=
  { service with tokens := service.tokens.cancelOuter }

def label (service : PollService Value) : String :=
  s!"PollService \x7b on_error: {service.onError.label}, cancelled: {service.isCancelled} \x7d"

/-- Cancel whatever the interruptions reach up to a time. -/
def interrupt (service : PollService Value) (interruptions : Interruptions)
    (time : Nat) : PollService Value :=
  let outer := interruptions.outer.filter (· ≤ time)
  let own := interruptions.service.filter (· ≤ time)
  let afterOuter := outer.foldl (fun service _ => service.cancelOuter) service
  own.foldl (fun service _ => service.cancel) afterOuter

/-- Poll through a list of fetches, the last of which is repeated.  The poll
runs under the settings' own error policy. -/
def poll (service : PollService Value) (settings : PollSettings)
    (fetches : List (Nat → Fetch Value Error)) (interruptions : Interruptions) :
    PollService Value × Poll Value Error :=
  let (ended, cutoff) :=
    Poll.runAlone service.accepts (.ofList fetches)
      (Poll.reactionBound settings fetches.length)
      (interruptions.cutoff service.tokens.link)
      (.start settings 0 service.isCancelled)
  match ended.phase with
  | .over time _ =>
      let interrupted := service.interrupt interruptions time
      if cutoff.any (· ≤ time) then (interrupted.cancel, ended)
      else (interrupted, ended)
  | .waiting _ | .fetching _ => (service, ended)

/-- Poll through a list of fetches under the service's own error policy. -/
def pollWithin (service : PollService Value) (timeout interval : Nat)
    (fetches : List (Nat → Fetch Value Error)) (interruptions : Interruptions) :
    PollService Value × Poll Value Error :=
  service.poll { timeout, interval, onError := service.onError } fetches
    interruptions

end PollService

end ScreenFlow
