import Mathlib.Logic.ExistsUnique
import ScreenFlow.Proofs.Interleaving

/-!
# What one cancellation stops

Cancelling the current token stops every wait that runs under it, and besides
them the first wait that begins before the token is replaced.  So a
cancellation stops exactly one wait if one wait runs under the token and none
begins before that one returns, or if none runs and one begins in time.
Overlapping waits share a token; one cancellation stops them all.  A wait whose
own fetch cancels may still return the answer to that fetch, and then it is
not among those that the cancellation stops.
-/

namespace ScreenFlow

/-- When and how a poll has ended. -/
def Poll.ending? {Value Error : Type} (poll : Poll Value Error) :
    Option (Nat × PollResult Value Error) :=
  match poll.phase with
  | .over time result => some (time, result)
  | .waiting _ | .fetching _ => none

namespace Waits

variable {settings : PollSettings} {running told later : Waits}
  {token index : Nat} {wait : Wait}

/-- A wait at a position has not returned and runs under a token. -/
def RunsAt (running : Waits) (token index : Nat) : Prop :=
  ∃ wait, running.waits[index]? = some wait ∧ wait.token = token ∧
    wait.isOver = false

/-- A wait at a position was stopped by the cancellation of a token. -/
def StoppedAt (running : Waits) (token index : Nat) : Prop :=
  ∃ wait, running.waits[index]? = some wait ∧ wait.token = token ∧
    wait.Stopped

/-- A wait at a position under a token has not returned anything but that it
was stopped. -/
def PendsAt (running : Waits) (token index : Nat) : Prop :=
  ∃ wait, running.waits[index]? = some wait ∧ wait.token = token ∧
    (wait.isOver = true → wait.Stopped)

/-- A wait at a position has begun under a token since some earlier time. -/
def JoinsAt (before later : Waits) (token index : Nat) : Prop :=
  before.waits[index]? = none ∧
    ∃ wait, later.waits[index]? = some wait ∧ wait.token = token

theorem not_joinsAt_self (running : Waits) :
    ¬ running.JoinsAt running token index := by
  rintro ⟨new, wait, there, -⟩
  simp [new] at there

theorem StoppedAt.follows (stopped : running.StoppedAt token index)
    (follows : running.Follows later) : later.StoppedAt token index := by
  obtain ⟨wait, there, under, stopped⟩ := stopped
  obtain ⟨moved, found, followed⟩ := follows.kept there
  obtain rfl := followed.kept stopped.isOver
  exact ⟨moved, found, under, stopped⟩

/-- A wait that joins joined before, or it is the newest one and runs under the
token that was current when it began. -/
theorem Happens.joinsAt (happened : Happens settings told later)
    (joins : running.JoinsAt later token index) :
    running.JoinsAt told token index ∨
      told.waits[index]? = none ∧ index = told.waits.length ∧
        token = told.tokens.current := by
  obtain ⟨new, wait, there, under⟩ := joins
  cases before : told.waits[index]? with
  | none =>
      obtain ⟨position, current, -, -⟩ := happened.joined before there
      exact .inr ⟨rfl, position, under.symm.trans current⟩
  | some earlier =>
      left
      have followed := happened.follows.wait_follows before there
      exact ⟨new, earlier, before, followed.token.symm.trans under⟩

theorem current_le_of_joinsAt
    (run : Relation.ReflTransGen (Happens settings) running later)
    (joins : running.JoinsAt later token index) :
    running.tokens.current ≤ token := by
  induction run with
  | refl => exact absurd joins running.not_joinsAt_self
  | tail earlier happened ih =>
      rcases happened.joinsAt joins with before | ⟨-, -, rfl⟩
      · exact ih before
      · exact (follows_of_run earlier).grows.current_le

/-! ## Who is stopped -/

/-- A wait that begins under a token that is cancelled already is stopped, and
the token is replaced. -/
theorem stoppedAt_of_joinsAt
    (cancelled : running.tokens.isCancelled token = true)
    (run : Relation.ReflTransGen (Happens settings) running later)
    (joins : running.JoinsAt later token index) :
    later.StoppedAt token index ∧ token < later.tokens.current := by
  induction run with
  | refl => exact absurd joins running.not_joinsAt_self
  | @tail told later earlier happened ih =>
      rcases happened.joinsAt joins with before | ⟨new, -, rfl⟩
      · obtain ⟨stopped, replaced⟩ := ih before
        exact ⟨stopped.follows happened.follows,
          Nat.lt_of_lt_of_le replaced happened.follows.grows.current_le⟩
      · obtain ⟨-, wait, there, under⟩ := joins
        obtain ⟨-, -, atOnce, -⟩ := happened.joined new there
        have still : told.tokens.isCancelled wait.token = true := by
          rw [under]
          exact (follows_of_run earlier).grows.cancelled cancelled
        obtain ⟨stopped, replaced⟩ := atOnce still
        exact ⟨⟨wait, there, under, stopped⟩, replaced⟩

theorem joinsAt_unique
    (cancelled : running.tokens.isCancelled token = true)
    (run : Relation.ReflTransGen (Happens settings) running later)
    {first second : Nat} (firstJoins : running.JoinsAt later token first)
    (secondJoins : running.JoinsAt later token second) :
    first = second := by
  induction run with
  | refl => exact absurd firstJoins running.not_joinsAt_self
  | @tail told later earlier happened ih =>
      have replaced {index : Nat}
          (joins : running.JoinsAt told token index) :
          token < told.tokens.current :=
        (stoppedAt_of_joinsAt cancelled earlier joins).2
      rcases happened.joinsAt firstJoins with
          firstBefore | ⟨-, firstPosition, firstCurrent⟩ <;>
        rcases happened.joinsAt secondJoins with
          secondBefore | ⟨-, secondPosition, secondCurrent⟩
      · exact ih firstBefore secondBefore
      · exact absurd secondCurrent (Nat.ne_of_lt (replaced firstBefore))
      · exact absurd firstCurrent (Nat.ne_of_lt (replaced secondBefore))
      · exact firstPosition.trans secondPosition.symm

/-- If no wait runs, the next one to begin is one under the current token. -/
theorem joinsAt_of_idle (idle : ∀ wait ∈ running.waits, wait.isOver = true)
    (run : Relation.ReflTransGen (Happens settings) running later) :
    later.waits = running.waits ∧
        later.tokens.current = running.tokens.current ∨
      running.JoinsAt later running.tokens.current
        running.waits.length := by
  have new : running.waits[running.waits.length]? = none := by simp
  induction run with
  | refl => exact .inl ⟨rfl, rfl⟩
  | @tail told later earlier happened ih =>
      rcases ih with ⟨same, current⟩ | ⟨-, wait, there, under⟩
      · rcases happened.idle (same ▸ idle) with began | ⟨still, kept⟩
        · right
          rw [same] at began
          obtain ⟨wait, there⟩ : ∃ wait,
              later.waits[running.waits.length]? = some wait :=
            ⟨_, List.getElem?_eq_getElem began⟩
          obtain ⟨-, under, -, -⟩ := happened.joined (same ▸ new) there
          exact ⟨new, wait, there, under.trans current⟩
        · exact .inl ⟨still.trans same, kept.trans current⟩
      · right
        obtain ⟨moved, found, followed⟩ := happened.follows.kept there
        exact ⟨new, moved, found, followed.token.trans under⟩

/-- Once a token is cancelled, a wait under it that has not returned anything
is stopped when it returns. -/
theorem stoppedAt_of_pendsAt
    (cancelled : told.tokens.isCancelled token = true)
    (follows : told.Follows later) (pends : told.PendsAt token index)
    (returned : ¬ later.RunsAt token index) :
    later.StoppedAt token index := by
  obtain ⟨wait, there, rfl, nothingElse⟩ := pends
  obtain ⟨moved, found, followed⟩ := follows.kept there
  refine ⟨moved, found, followed.token, ?_⟩
  cases before : wait.isOver with
  | true =>
      obtain rfl := followed.kept before
      exact nothingElse before
  | false =>
      cases finished : moved.isOver with
      | false => exact absurd ⟨moved, found, followed.token, finished⟩ returned
      | true => exact followed.stops cancelled before finished

theorem pendsAt_or_joinsAt_of_stoppedAt (follows : told.Follows later)
    (stopped : later.StoppedAt token index) :
    told.PendsAt token index ∨ told.JoinsAt later token index := by
  obtain ⟨moved, found, under, stopped⟩ := stopped
  cases before : told.waits[index]? with
  | none => exact .inr ⟨before, moved, found, under⟩
  | some wait =>
      left
      have followed := follows.wait_follows before found
      refine ⟨wait, before, followed.token.symm.trans under, ?_⟩
      intro finished
      rwa [← followed.kept finished]

theorem Sound.pendsAt_iff_runsAt (sound : running.Sound)
    (uncancelled : running.tokens.isCancelled token = false) :
    running.PendsAt token index ↔ running.RunsAt token index := by
  constructor
  · rintro ⟨wait, there, rfl, nothingElse⟩
    refine ⟨wait, there, rfl, ?_⟩
    cases finished : wait.isOver with
    | false => rfl
    | true =>
        have caused := sound.cause there (nothingElse finished)
        rw [uncancelled] at caused
        exact caused.symm
  · rintro ⟨wait, there, under, runs⟩
    refine ⟨wait, there, under, ?_⟩
    intro finished
    simp [runs] at finished

theorem stopped_of_token_le (sound : told.Sound)
    (cancelled : told.tokens.isCancelled token = true)
    (known : token ≤ told.tokens.current)
    (run : Relation.ReflTransGen (Happens settings) told later)
    (there : later.waits[index]? = some wait) (early : wait.token ≤ token)
    (finished : wait.isOver = true) :
    wait.Stopped ∨ told.waits[index]? = some wait := by
  have already : told.tokens.isCancelled wait.token = true := by
    rcases Nat.lt_or_eq_of_le early with before | same
    · exact sound.isCancelled_of_lt (Nat.lt_of_lt_of_le before known)
    · rwa [same]
  cases before : told.waits[index]? with
  | none =>
      obtain ⟨⟨same, found, -, stopped⟩, -⟩ :=
        stoppedAt_of_joinsAt already run ⟨before, wait, there, rfl⟩
      obtain rfl : same = wait := by simpa [there] using found.symm
      exact .inl stopped
  | some earlier =>
      have followed := (follows_of_run run).wait_follows before there
      cases ended : earlier.isOver with
      | true => exact .inr (congrArg some (followed.kept ended).symm)
      | false =>
          rw [followed.token] at already
          exact .inl (followed.stops already ended finished)

private theorem existsUnique_or_iff {Ran Joined : Nat → Prop}
    (apart : ∀ index, Ran index → ¬ Joined index)
    (unique : ∀ first second, Joined first → Joined second →
      first = second) :
    (∃! index, Ran index ∨ Joined index) ↔
      (∃! index, Ran index) ∧ (¬ ∃ index, Joined index) ∨
        (¬ ∃ index, Ran index) ∧ ∃ index, Joined index := by
  constructor
  · rintro ⟨only, holds, others⟩
    rcases holds with ran | joined
    · refine .inl ⟨⟨only, ran, fun index also => others index (.inl also)⟩, ?_⟩
      rintro ⟨index, joined⟩
      obtain rfl := others index (.inr joined)
      exact apart index ran joined
    · refine .inr ⟨?_, only, joined⟩
      rintro ⟨index, ran⟩
      obtain rfl := others index (.inl ran)
      exact apart index ran joined
  · rintro (⟨⟨only, ran, others⟩, none⟩ | ⟨none, only, joined⟩)
    · refine ⟨only, .inl ran, ?_⟩
      rintro index (also | joined)
      · exact others index also
      · exact absurd ⟨index, joined⟩ none
    · refine ⟨only, .inr joined, ?_⟩
      rintro index (ran | also)
      · exact absurd ⟨index, ran⟩ none
      · exact unique index only also joined

/-- What comes of cancelling the current token, be it from outside or by a
fetch, once all waits under it have returned.  The stopped waits are those that
had not returned anything when the token was cancelled, and those that have
begun under it since; there is at most one of the latter.  No wait under this
token or an earlier one returns anything else from then on.  If no wait is left
and the token has not been replaced, the next wait to begin is stopped; if it
has been replaced, none joins.  So exactly one wait is stopped if one was left
and none joined it, or if none was left and one joined, and not otherwise. -/
theorem cancel_stops_one_iff (reachable : Reachable settings running)
    (uncancelled :
      running.tokens.isCancelled running.tokens.current = false)
    (happened : Happens settings running told)
    (cancelled :
      told.tokens.isCancelled running.tokens.current = true)
    (run : Relation.ReflTransGen (Happens settings) told later)
    (returned : ∀ index, ¬ later.RunsAt running.tokens.current index) :
    let token := running.tokens.current
    let Stopped := later.StoppedAt token
    let Pends := told.PendsAt token
    let Joins := told.JoinsAt later token
    (told.waits = running.waits →
        ∀ index, Pends index ↔ running.RunsAt token index) ∧
      (∀ index, Stopped index ↔ Pends index ∨ Joins index) ∧
      (∀ first second, Joins first → Joins second → first = second) ∧
      (∀ (index : Nat) (wait : Wait), later.waits[index]? = some wait →
        wait.token ≤ token → wait.isOver = true →
          wait.Stopped ∨ told.waits[index]? = some wait) ∧
      (told.tokens.current = token →
        (∀ wait ∈ told.waits, wait.isOver = true) →
          told.waits.length < later.waits.length →
            Stopped told.waits.length) ∧
      (told.tokens.current ≠ token → ¬ ∃ index, Joins index) ∧
      ((∃! index, Stopped index) ↔
        (∃! index, Pends index) ∧ (¬ ∃ index, Joins index) ∨
          (¬ ∃ index, Pends index) ∧ ∃ index, Joins index) := by
  intro token Stopped Pends Joins
  have known : token ≤ told.tokens.current :=
    happened.follows.grows.current_le
  have joined {index : Nat} (joins : Joins index) : Stopped index :=
    (stoppedAt_of_joinsAt cancelled run joins).1
  have stopped (index : Nat) : Stopped index ↔ Pends index ∨ Joins index := by
    constructor
    · exact pendsAt_or_joinsAt_of_stoppedAt (follows_of_run run)
    · rintro (pends | joins)
      · exact stoppedAt_of_pendsAt cancelled (follows_of_run run) pends
          (returned index)
      · exact joined joins
  have unique (first second : Nat) (firstJoins : Joins first)
      (secondJoins : Joins second) : first = second :=
    joinsAt_unique cancelled run firstJoins secondJoins
  refine ⟨?_, stopped, unique, ?_, ?_, ?_, ?_⟩
  · intro same index
    have unchanged : Pends index ↔ running.PendsAt token index := by
      simp only [Pends, PendsAt, same]
    exact unchanged.trans (reachable.sound.pendsAt_iff_runsAt uncancelled)
  · intro index wait there early finished
    exact stopped_of_token_le (happened.sound reachable.sound) cancelled known
      run there early finished
  · intro current idle began
    rcases joinsAt_of_idle idle run with ⟨same, -⟩ | joins
    · have length : later.waits.length = told.waits.length :=
        congrArg List.length same
      omega
    · rw [current] at joins
      exact joined joins
  · rintro replaced ⟨index, joins⟩
    exact replaced (Nat.le_antisymm (current_le_of_joinsAt run joins) known)
  · simp only [stopped]
    refine existsUnique_or_iff ?_ unique
    rintro index ⟨wait, there, -⟩ ⟨new, -⟩
    simp [new] at there

/-- Two waits overlap when the token is cancelled, and both are stopped. -/
theorem cancel_stops_one_iff_overlapping :
    let settings : PollSettings := { timeout := 30, interval := 10 }
    let script : Script Activation ClientError := fun _ =>
      { reply := some (0, .ok .pending) }
    let idle : Waits :=
      { now := 0, tokens := .fresh, waits := [], cancels := [] }
    let running :=
      (idle.begin settings 0 script 1).begin settings 0 script 1
    let told := { running with tokens := running.tokens.cancel 0 }
    let later := (told.wakeAt 15 0).wakeAt 15 1
    Reachable settings running ∧
      running.tokens.isCancelled running.tokens.current = false ∧
      Happens settings running told ∧
      told.tokens.isCancelled running.tokens.current = true ∧
      Relation.ReflTransGen (Happens settings) told later ∧
      (∀ index, ¬ later.RunsAt running.tokens.current index) ∧
      later.StoppedAt 0 0 ∧ later.StoppedAt 0 1 ∧
      ¬ ∃! index, later.StoppedAt 0 index := by
  intro settings script idle running told later
  have reachable : Reachable settings running := by
    refine ⟨idle, .refl _, rfl, ?_⟩
    exact .tail (.single (.begin (Nat.zero_le _) script 1))
      (.begin (Nat.zero_le _) script 1)
  have happened : Happens settings running told := .cancel (Nat.zero_le _)
  have run : Relation.ReflTransGen (Happens settings) told later :=
    .tail (.single (.wake rfl rfl 15)) (.wake rfl rfl 15)
  have finished : later.waits.map Wait.isOver = [true, true] := by
    decide +kernel
  have returned (index : Nat) : ¬ later.RunsAt 0 index := by
    rintro ⟨wait, there, -, runs⟩
    have member : false ∈ later.waits.map Wait.isOver :=
      List.mem_map.mpr ⟨wait, List.mem_of_getElem? there, runs⟩
    simp [finished] at member
  obtain ⟨ran, stopped, -⟩ :=
    cancel_stops_one_iff reachable rfl happened rfl run returned
  have first : later.StoppedAt 0 0 :=
    (stopped 0).mpr (.inl ((ran rfl 0).mpr ⟨_, rfl, rfl, rfl⟩))
  have second : later.StoppedAt 0 1 :=
    (stopped 1).mpr (.inl ((ran rfl 1).mpr ⟨_, rfl, rfl, rfl⟩))
  refine ⟨reachable, rfl, happened, rfl, run, returned, first, second, ?_⟩
  rintro ⟨only, -, others⟩
  have same := (others 0 first).trans (others 1 second).symm
  cases same

end Waits

namespace ActivationService

/-- One cancellation from outside stops both of two overlapping waits. -/
theorem waitAll_overlapping_stopped :
    let pending : Nat → Fetch Activation ClientError := fun _ =>
      { reply := some (0, .ok .pending) }
    let service := fresh { timeout := 3000, interval := 1000 }
    (service.waitAll [[pending], [pending]] [1500]).2.map (·.ending?) =
      [some (1500, .cancelled), some (1500, .cancelled)] := by
  simp only [waitAll, List.mergeSort_singleton]
  decide +kernel

/-- A wait may use up the cancellation that its own fetch has made. -/
example :
    let decided : Nat → Fetch Activation ClientError := fun _ =>
      { cancelling := some .asAsked, reply := some (0, .ok (.inactive none)) }
    let service := fresh { timeout := 3000, interval := 1000 }
    let waited := service.waitAll [[decided]] []
    waited.2.map (·.ending?) = [some (1000, .matched (.inactive none))] ∧
      waited.1.tokens = { current := 1, cancelled := [0] } := by
  simp only [waitAll, List.mergeSort_nil]
  decide +kernel

end ActivationService

end ScreenFlow
