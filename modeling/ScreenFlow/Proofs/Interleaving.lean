import Mathlib.Logic.Relation
import ScreenFlow.Activation

/-!
# Waits in any order

Waits may overlap: they begin, go on and return in any order, and tokens are
cancelled at any time in between.  `Waits.Happens` lists what may happen next.
`Waits.Follows` says what has become of the tokens, and of each wait that had
begun; `Waits.Happens.joined` says which waits are new.
-/

namespace ScreenFlow

namespace CancelTokens

variable {tokens told : CancelTokens}

/-- What may become of tokens: more of them are cancelled, and a current one is
replaced only after it was cancelled. -/
structure Grows (tokens told : CancelTokens) : Prop where
  current_le : tokens.current ≤ told.current
  cancelled {token : Nat} :
    tokens.isCancelled token = true → told.isCancelled token = true
  retired {token : Nat} :
    tokens.current ≤ token → token < told.current →
      told.isCancelled token = true

theorem Grows.refl (tokens : CancelTokens) : tokens.Grows tokens where
  current_le := Nat.le_refl _
  cancelled := id
  retired := fun above below => absurd below (Nat.not_lt.mpr above)

theorem Grows.trans {between : CancelTokens} (first : tokens.Grows between)
    (second : between.Grows told) : tokens.Grows told where
  current_le := Nat.le_trans first.current_le second.current_le
  cancelled := second.cancelled ∘ first.cancelled
  retired := by
    intro token above below
    rcases Nat.lt_or_ge token between.current with early | late
    · exact second.cancelled (first.retired above early)
    · exact second.retired late below

@[simp]
theorem isCancelled_cancel (tokens : CancelTokens) (cancelled token : Nat) :
    (tokens.cancel cancelled).isCancelled token =
      (decide (token = cancelled) || tokens.isCancelled token) := by
  simp [cancel, isCancelled]

theorem grows_cancel (tokens : CancelTokens) (token : Nat) :
    tokens.Grows (tokens.cancel token) where
  current_le := Nat.le_refl _
  cancelled := by
    intro other cancelled
    simp [cancelled]
  retired := fun above below => absurd below (Nat.not_lt.mpr above)

@[simp]
theorem isCancelled_rearm (tokens : CancelTokens) (token : Nat) :
    tokens.rearm.isCancelled token = tokens.isCancelled token := by
  unfold rearm
  split <;> rfl

theorem current_lt_rearm
    (cancelled : tokens.isCancelled tokens.current = true) :
    tokens.current < tokens.rearm.current := by
  simp [rearm, cancelled]

theorem grows_rearm (tokens : CancelTokens) : tokens.Grows tokens.rearm := by
  cases cancelled : tokens.isCancelled tokens.current with
  | false =>
      have same : tokens.rearm = tokens := by simp [rearm, cancelled]
      rw [same]
      exact .refl tokens
  | true =>
      refine ⟨Nat.le_of_lt (current_lt_rearm cancelled), ?_, ?_⟩
      · intro token already
        rwa [isCancelled_rearm]
      · intro token above below
        have replaced : tokens.rearm.current = tokens.current + 1 := by
          simp [rearm, cancelled]
        obtain rfl : token = tokens.current := by omega
        rwa [isCancelled_rearm]

end CancelTokens

/-! ## Why a poll is cancelled -/

namespace Poll

variable {Value Error : Type} {poll : Poll Value Error} {now time : Nat}
  {isCancelled : Bool}

theorem isCancelled_of_rest
    (stopped : (poll.rest now isCancelled).phase = .over time .cancelled) :
    isCancelled = true := by
  unfold rest at stopped
  split at stopped
  next cancelled => exact cancelled
  next => split at stopped <;> simp [stop] at stopped

theorem isCancelled_of_judge {accepts : Value → Bool}
    {answer : Except Error Value}
    (stopped : (poll.judge accepts answer now isCancelled).phase =
      .over time .cancelled) :
    isCancelled = true := by
  unfold judge at stopped
  cases answer with
  | ok value =>
      by_cases accepted : accepts value = true
      · simp [accepted, stop] at stopped
      · exact isCancelled_of_rest (by simpa [accepted] using stopped)
  | error error =>
      cases policy : poll.settings.onError with
      | proceed => exact isCancelled_of_rest (by simpa [policy] using stopped)
      | abort => simp [policy, stop] at stopped

theorem isCancelled_of_ask {accepts : Value → Bool}
    {fetch : Fetch Value Error}
    (stopped : (poll.ask accepts fetch now isCancelled).phase =
      .over time .cancelled) :
    isCancelled = true := by
  unfold ask at stopped
  split at stopped
  next => exact isCancelled_of_judge stopped
  next => split at stopped <;> simp [stop] at stopped
  next => split at stopped <;> simp [stop] at stopped

theorem isCancelled_of_call {accepts : Value → Bool}
    {fetch : Fetch Value Error}
    (stopped : (poll.call accepts fetch now isCancelled).phase =
      .over time .cancelled) :
    isCancelled = true := by
  unfold call at stopped
  dsimp only at stopped
  split at stopped
  next unasked => exact unasked.1
  next => exact isCancelled_of_ask stopped

theorem isCancelled_of_react {accepts : Value → Bool}
    {script : Script Value Error} {reaches : Bool}
    (runs : ∀ time result, poll.phase ≠ .over time result)
    (stopped : (poll.react accepts script now isCancelled reaches).1.phase =
      .over time .cancelled) :
    isCancelled = true ∨
      (poll.react accepts script now isCancelled reaches).2 = true ∧
        reaches = true := by
  cases isCancelled with
  | true => exact .inl rfl
  | false =>
      right
      match phase : poll.phase with
      | .over time result => exact absurd phase (runs time result)
      | .waiting due =>
          by_cases ready : due ≤ now
          · have called :
                (poll.call accepts (script poll.calls.size) now
                  ((script poll.calls.size).cancels && reaches)).phase =
                    .over time .cancelled := by
              simpa [react, phase, ready] using stopped
            have both := isCancelled_of_call called
            simpa [react, phase, ready] using both
          · simp [react, phase, ready] at stopped
      | .fetching reply =>
          simp only [react, phase, Bool.false_eq_true, if_false] at stopped
          split at stopped
          next => exact absurd (isCancelled_of_judge stopped) Bool.false_ne_true
          next => split at stopped <;> simp [stop, phase] at stopped

end Poll

/-! ## One wait -/

namespace Wait

variable {tokens told : CancelTokens} {wait later : Wait}

/-- A wait that has returned because its token was cancelled. -/
def Stopped (wait : Wait) : Prop :=
  ∃ time, wait.poll.phase = .over time .cancelled

theorem Stopped.isOver (stopped : wait.Stopped) : wait.isOver = true := by
  obtain ⟨time, phase⟩ := stopped
  simp [Wait.isOver, phase]

theorem phase_ne_over (runs : wait.isOver = false) (time : Nat)
    (result : PollResult Activation ClientError) :
    wait.poll.phase ≠ .over time result := by
  intro phase
  simp [isOver, phase] at runs

theorem isOver_of_due? {due : Nat} (waits : wait.poll.due? = some due) :
    wait.isOver = false := by
  match phase : wait.poll.phase with
  | .over time result => simp [Poll.due?, phase] at waits
  | .waiting time => simp [isOver, phase]
  | .fetching reply => simp [isOver, phase]

/-- What may become of a wait while the tokens change. -/
structure Follows (tokens told : CancelTokens) (wait later : Wait) : Prop where
  token : later.token = wait.token
  kept : wait.isOver = true → later = wait
  /-- Under a cancelled token it can only return as cancelled. -/
  stops : tokens.isCancelled wait.token = true → wait.isOver = false →
    later.isOver = true → later.Stopped
  cause : wait.isOver = false → later.Stopped →
    told.isCancelled later.token = true

theorem Follows.refl (tokens told : CancelTokens) (wait : Wait) :
    wait.Follows tokens told wait where
  token := rfl
  kept := fun _ => rfl
  stops := by
    intro _ runs finished
    simp [runs] at finished
  cause := by
    intro runs stopped
    have finished := stopped.isOver
    simp [runs] at finished

theorem Follows.trans {between : CancelTokens} {moved : Wait}
    (grew : tokens.Grows between) (grown : between.Grows told)
    (first : wait.Follows tokens between moved)
    (second : moved.Follows between told later) :
    wait.Follows tokens told later where
  token := second.token.trans first.token
  kept := by
    intro finished
    obtain rfl := first.kept finished
    exact second.kept finished
  stops := by
    intro cancelled runs finished
    cases still : moved.isOver with
    | true =>
        rw [second.kept still]
        exact first.stops cancelled runs still
    | false =>
        have remains : between.isCancelled moved.token = true := by
          rw [first.token]
          exact grew.cancelled cancelled
        exact second.stops remains still finished
  cause := by
    intro runs stopped
    cases still : moved.isOver with
    | true =>
        obtain rfl := second.kept still
        exact grown.cancelled (first.cause runs stopped)
    | false => exact second.cause still stopped

theorem wake_of_isCancelled (runs : wait.isOver = false)
    (cancelled : tokens.isCancelled wait.token = true) (now : Nat) :
    wait.wake tokens now =
      ({ wait with poll := wait.poll.stop now .cancelled },
        tokens.rearm) := by
  have reacted (reaches : Bool) :
      wait.poll.react accepts wait.script now true reaches =
        (wait.poll.stop now .cancelled, false) := by
    match phase : wait.poll.phase with
    | .over time result => exact absurd phase (phase_ne_over runs time result)
    | .waiting due => simp [Poll.react, phase]
    | .fetching reply => simp [Poll.react, phase]
  simp [wake, cancelled, reacted, isOver, Poll.stop]

theorem grows_wake (wait : Wait) (tokens : CancelTokens) (now : Nat) :
    tokens.Grows (wait.wake tokens now).2 := by
  have kept (cancels : Bool) : tokens.Grows
      (if cancels then tokens.cancel wait.target else tokens) := by
    cases cancels with
    | false => exact .refl tokens
    | true => exact tokens.grows_cancel wait.target
  unfold wake
  dsimp only
  split
  next => exact (kept _).trans (CancelTokens.grows_rearm _)
  next => exact kept _

theorem isCancelled_of_wake {now : Nat} (runs : wait.isOver = false)
    (stopped : (wait.wake tokens now).1.Stopped) :
    (wait.wake tokens now).2.isCancelled wait.token = true := by
  cases cancelled : tokens.isCancelled wait.token with
  | true => exact (wait.grows_wake tokens now).cancelled cancelled
  | false =>
      obtain ⟨time, phase⟩ := stopped
      rcases Poll.isCancelled_of_react (phase_ne_over runs) phase with
        before | ⟨cancels, reaches⟩
      · simp [cancelled] at before
      · have same : wait.target = wait.token := of_decide_eq_true reaches
        unfold wake
        simp only [cancels, if_true]
        split <;> simp [same]

theorem follows_wake (tokens : CancelTokens) (now : Nat)
    (runs : wait.isOver = false) :
    wait.Follows tokens (wait.wake tokens now).2
      (wait.wake tokens now).1 where
  token := rfl
  kept := by
    intro finished
    simp [runs] at finished
  stops := by
    intro cancelled _ _
    rw [wake_of_isCancelled runs cancelled now]
    exact ⟨now, rfl⟩
  cause := fun _ stopped => isCancelled_of_wake runs stopped

/-- Settling repeats `wake`, so what `wake` preserves it preserves. -/
theorem follows_settle (wait : Wait) (tokens : CancelTokens)
    (now fuel : Nat) :
    tokens.Grows (wait.settle tokens now fuel).2 ∧
      wait.Follows tokens (wait.settle tokens now fuel).2
        (wait.settle tokens now fuel).1 := by
  induction fuel generalizing wait tokens with
  | zero => exact ⟨.refl tokens, .refl tokens tokens wait⟩
  | succ fuel ih =>
      unfold settle
      split
      next ready =>
        obtain ⟨due, waits, -⟩ : ∃ due, wait.poll.due? = some due ∧
            decide (due ≤ now) = true := by
          simpa [Option.any_eq_true] using (Bool.and_eq_true_iff.mp ready).1
        have runs := isOver_of_due? waits
        obtain ⟨grown, follows⟩ :=
          ih (wait.wake tokens now).1 (wait.wake tokens now).2
        have grew := wait.grows_wake tokens now
        exact ⟨grew.trans grown,
          .trans grew grown (follows_wake tokens now runs) follows⟩
      next => exact ⟨.refl tokens, .refl tokens tokens wait⟩

/-! ## A wait that begins -/

section

variable (settings : PollSettings) (target : Nat)
  (script : Script Activation ClientError) (tokens : CancelTokens)
  (now lead : Nat)

theorem grows_start :
    tokens.Grows (start settings target script tokens now).2 := by
  unfold start
  dsimp only
  split
  next => exact tokens.grows_rearm
  next => exact .refl tokens

theorem isCancelled_of_start
    (stopped : (start settings target script tokens now).1.Stopped) :
    tokens.isCancelled tokens.current = true := by
  obtain ⟨time, phase⟩ := stopped
  exact Poll.isCancelled_of_rest phase

/-- A wait that begins under a cancelled token returns at once, and the token
is replaced. -/
theorem start_of_isCancelled
    (cancelled : tokens.isCancelled tokens.current = true) :
    (start settings target script tokens now).1.Stopped ∧
      (start settings target script tokens now).2 = tokens.rearm := by
  have stopped : (start settings target script tokens now).1.Stopped :=
    ⟨now, by simp [start, Poll.start, Poll.rest, Poll.stop, cancelled]⟩
  exact ⟨stopped, if_pos stopped.isOver⟩

/-- A wait that has begun and has gone on as far as it can at that instant. -/
def begun : Wait × CancelTokens :=
  let started := start settings target script tokens now
  started.1.settle started.2 now (Poll.reactionBound settings lead)

theorem grows_begun :
    tokens.Grows (begun settings target script tokens now lead).2 :=
  (grows_start settings target script tokens now).trans
    (follows_settle _ _ _ _).1

@[simp]
theorem token_begun :
    (begun settings target script tokens now lead).1.token =
      tokens.current :=
  (follows_settle _ _ _ _).2.token

theorem begun_of_isCancelled
    (cancelled : tokens.isCancelled tokens.current = true) :
    (begun settings target script tokens now lead).1.Stopped ∧
      tokens.current <
        (begun settings target script tokens now lead).2.current := by
  obtain ⟨stopped, rearmed⟩ :=
    start_of_isCancelled settings target script tokens now cancelled
  let started := start settings target script tokens now
  obtain ⟨grows, follows⟩ := started.1.follows_settle started.2 now
    (Poll.reactionBound settings lead)
  constructor
  · unfold begun
    dsimp only
    rwa [follows.kept stopped.isOver]
  · have replaced : tokens.current < started.2.current :=
      rearmed ▸ CancelTokens.current_lt_rearm cancelled
    exact Nat.lt_of_lt_of_le replaced grows.current_le

theorem isCancelled_of_begun
    (stopped : (begun settings target script tokens now lead).1.Stopped) :
    (begun settings target script tokens now lead).2.isCancelled
      tokens.current = true := by
  let started := start settings target script tokens now
  obtain ⟨grows, follows⟩ := started.1.follows_settle started.2 now
    (Poll.reactionBound settings lead)
  cases finished : started.1.isOver with
  | true =>
      have atOnce : started.1.Stopped := follows.kept finished ▸ stopped
      exact (grows_begun settings target script tokens now lead).cancelled
        (isCancelled_of_start settings target script tokens now atOnce)
  | false =>
      have caused := follows.cause finished stopped
      rwa [follows.token] at caused

end

end Wait

/-! ## Waits together -/

namespace Waits

variable {settings : PollSettings} {running later : Waits} {index : Nat}
  {wait : Wait}

/-- Anything that may happen while waits run. -/
inductive Happens (settings : PollSettings) (running : Waits) :
    Waits → Prop where
  | begin {target : Nat} (known : target ≤ running.tokens.current)
      (script : Script Activation ClientError) (lead : Nat) :
      Happens settings running (running.begin settings target script lead)
  /-- One of the waits that have not returned goes on. -/
  | wake {index : Nat} {wait : Wait}
      (there : running.waits[index]? = some wait)
      (runs : wait.isOver = false) (time : Nat) :
      Happens settings running (running.wakeAt time index)
  /-- The current token is cancelled, or one that was current before. -/
  | cancel {token : Nat} (known : token ≤ running.tokens.current) :
      Happens settings running
        { running with tokens := running.tokens.cancel token }
  /-- Time passes, and cancellations are planned anew. -/
  | pass (now : Nat) (cancels : List Nat) :
      Happens settings running { running with now, cancels }

/-- What has become of the tokens, and of the waits that had begun. -/
structure Follows (running later : Waits) : Prop where
  grows : running.tokens.Grows later.tokens
  kept {index : Nat} {wait : Wait} (there : running.waits[index]? = some wait) :
    ∃ moved, later.waits[index]? = some moved ∧
      wait.Follows running.tokens later.tokens moved

theorem Follows.of_waits_eq (grows : running.tokens.Grows later.tokens)
    (same : later.waits = running.waits) : running.Follows later where
  grows := grows
  kept := by
    intro index wait there
    exact ⟨wait, same ▸ there, .refl _ _ wait⟩

theorem Follows.wait_follows {moved : Wait}
    (follows : running.Follows later)
    (before : running.waits[index]? = some wait)
    (there : later.waits[index]? = some moved) :
    wait.Follows running.tokens later.tokens moved := by
  obtain ⟨found, foundThere, followed⟩ := follows.kept before
  obtain rfl : found = moved := by simpa [there] using foundThere.symm
  exact followed

theorem Follows.trans {between : Waits} (first : running.Follows between)
    (second : between.Follows later) : running.Follows later where
  grows := first.grows.trans second.grows
  kept := by
    intro index wait there
    obtain ⟨moved, found, follows⟩ := first.kept there
    obtain ⟨last, foundLast, followsOn⟩ := second.kept found
    exact ⟨last, foundLast,
      follows.trans first.grows second.grows followsOn⟩

theorem begin_eq (running : Waits) (settings : PollSettings) (target : Nat)
    (script : Script Activation ClientError) (lead : Nat) :
    running.begin settings target script lead =
      let begun :=
        Wait.begun settings target script running.tokens running.now lead
      { running with
        tokens := begun.2, waits := running.waits ++ [begun.1] } :=
  rfl

theorem follows_begin (running : Waits) (settings : PollSettings)
    (target : Nat) (script : Script Activation ClientError) (lead : Nat) :
    running.Follows (running.begin settings target script lead) where
  grows := Wait.grows_begun settings target script _ _ lead
  kept := by
    intro index wait there
    have inside : index < running.waits.length :=
      (List.getElem?_eq_some_iff.mp there).1
    refine ⟨wait, ?_, .refl _ _ wait⟩
    simpa only [begin_eq, List.getElem?_append_left inside] using there

theorem follows_wakeAt (there : running.waits[index]? = some wait)
    (runs : wait.isOver = false) (time : Nat) :
    running.Follows (running.wakeAt time index) := by
  have woken : running.wakeAt time index =
      { running with
        now := time
        tokens := (wait.wake running.tokens time).2
        waits := running.waits.set index
          (wait.wake running.tokens time).1 } := by
    simp only [wakeAt, there]
  have inside : index < running.waits.length :=
    (List.getElem?_eq_some_iff.mp there).1
  rw [woken]
  refine ⟨wait.grows_wake running.tokens time, ?_⟩
  intro other found thereOther
  by_cases same : index = other
  · subst other
    obtain rfl : wait = found := by simpa [there] using thereOther
    exact ⟨_, List.getElem?_set_self inside, Wait.follows_wake _ time runs⟩
  · refine ⟨found, ?_, .refl _ _ found⟩
    rwa [List.getElem?_set_ne same]

theorem Happens.follows (happened : Happens settings running later) :
    running.Follows later := by
  cases happened with
  | begin known script lead => exact follows_begin _ _ _ _ _
  | wake there runs time => exact follows_wakeAt there runs time
  | cancel known =>
      exact .of_waits_eq (running.tokens.grows_cancel _) rfl
  | pass now cancels => exact .of_waits_eq (.refl _) rfl

theorem follows_of_run
    (run : Relation.ReflTransGen (Happens settings) running later) :
    running.Follows later := by
  induction run with
  | refl => exact .of_waits_eq (.refl _) rfl
  | tail _ happened ih => exact ih.trans happened.follows

@[simp]
theorem length_wakeAt (running : Waits) (time index : Nat) :
    (running.wakeAt time index).waits.length = running.waits.length := by
  unfold wakeAt
  split <;> simp

/-- A new wait runs under the current token.  If that is cancelled the wait
has returned at once, and the token was replaced. -/
theorem Happens.joined (happened : Happens settings running later)
    (new : running.waits[index]? = none)
    (there : later.waits[index]? = some wait) :
    index = running.waits.length ∧
      wait.token = running.tokens.current ∧
      (running.tokens.isCancelled wait.token = true →
        wait.Stopped ∧ running.tokens.current < later.tokens.current) ∧
      (wait.Stopped → later.tokens.isCancelled wait.token = true) := by
  cases happened with
  | @begin target known script lead =>
      have outside := List.getElem?_eq_none_iff.mp new
      rw [begin_eq] at there ⊢
      dsimp only at there ⊢
      rw [List.getElem?_append_right outside, List.getElem?_singleton] at there
      split at there
      next first =>
        cases there
        refine ⟨by omega, Wait.token_begun .., ?_, ?_⟩
        · rw [Wait.token_begun]
          exact Wait.begun_of_isCancelled _ _ _ _ _ _
        · rw [Wait.token_begun]
          exact Wait.isCancelled_of_begun _ _ _ _ _ _
      next => cases there
  | wake _ _ time =>
      have inside := (List.getElem?_eq_some_iff.mp there).1
      have outside := List.getElem?_eq_none_iff.mp new
      rw [length_wakeAt] at inside
      omega
  | cancel known => simp [new] at there
  | pass now cancels => simp [new] at there

theorem Happens.idle (happened : Happens settings running later)
    (idle : ∀ wait ∈ running.waits, wait.isOver = true) :
    running.waits.length < later.waits.length ∨
      later.waits = running.waits ∧
        later.tokens.current = running.tokens.current := by
  cases happened with
  | begin known script lead =>
      left
      rw [begin_eq]
      simp
  | @wake index wait there runs time =>
      have finished := idle wait (List.mem_of_getElem? there)
      simp [runs] at finished
  | cancel known => exact .inr ⟨rfl, rfl⟩
  | pass now cancels => exact .inr ⟨rfl, rfl⟩

/-! ## Runs of a service -/

/-- Waits of a service that is used for some time, none of which has begun when
it is first looked at. -/
def Reachable (settings : PollSettings) (running : Waits) : Prop :=
  ∃ idle : Waits, CancelTokens.fresh.Grows idle.tokens ∧ idle.waits = [] ∧
    Relation.ReflTransGen (Happens settings) idle running

/-- What holds of waits at all times. -/
structure Sound (running : Waits) : Prop where
  retired : CancelTokens.fresh.Grows running.tokens
  token_le {index : Nat} {wait : Wait}
    (there : running.waits[index]? = some wait) :
      wait.token ≤ running.tokens.current
  cause {index : Nat} {wait : Wait}
    (there : running.waits[index]? = some wait) (stopped : wait.Stopped) :
      running.tokens.isCancelled wait.token = true

theorem Happens.sound (happened : Happens settings running later)
    (sound : running.Sound) : later.Sound := by
  have follows := happened.follows
  have grows := follows.grows
  refine ⟨sound.retired.trans grows, ?_, ?_⟩
  · intro index moved there
    cases before : running.waits[index]? with
    | none =>
        obtain ⟨-, token, -, -⟩ := happened.joined before there
        rw [token]
        exact grows.current_le
    | some wait =>
        have followed := follows.wait_follows before there
        rw [followed.token]
        exact Nat.le_trans (sound.token_le before) grows.current_le
  · intro index moved there stopped
    cases before : running.waits[index]? with
    | none =>
        obtain ⟨-, -, -, cause⟩ := happened.joined before there
        exact cause stopped
    | some wait =>
        have followed := follows.wait_follows before there
        cases finished : wait.isOver with
        | false => exact followed.cause finished stopped
        | true =>
            obtain rfl := followed.kept finished
            exact grows.cancelled (sound.cause before stopped)

theorem Reachable.sound (reachable : Reachable settings running) :
    running.Sound := by
  obtain ⟨idle, retired, empty, run⟩ := reachable
  induction run with
  | refl => exact ⟨retired, by simp [empty], by simp [empty]⟩
  | tail _ happened ih => exact happened.sound ih

/-- Every token that was current before is cancelled. -/
theorem Sound.isCancelled_of_lt (sound : running.Sound) {token : Nat}
    (before : token < running.tokens.current) :
    running.tokens.isCancelled token = true :=
  sound.retired.retired (Nat.zero_le token) before

theorem runs_of_soonest? {time : Nat}
    (soonest : running.soonest? = some (time, index)) :
    ∃ wait, running.waits[index]? = some wait ∧ wait.isOver = false := by
  let Runs (best : Option (Nat × Nat)) : Prop := ∀ entry ∈ best,
    ∃ wait, running.waits[entry.2]? = some wait ∧ wait.isOver = false
  suffices runs : Runs running.soonest? from runs _ soonest
  unfold soonest?
  refine List.foldlRecOn _ _ (by simp [Runs]) ?_
  intro best known entry member
  have there := List.mem_zipIdx_iff_getElem?.mp member
  cases waits : entry.1.due? running.tokens running.now with
  | none => simpa only [waits] using known
  | some due =>
      obtain ⟨own, ownDue, -⟩ := Option.map_eq_some_iff.mp waits
      have picked : Runs (some (due, entry.2)) := by
        intro found same
        cases same
        exact ⟨entry.1, there, Wait.isOver_of_due? ownDue⟩
      cases best with
      | none => exact picked
      | some earlier =>
          dsimp only
          split
          next => exact picked
          next => exact known

/-- What `runAll` does is something that may happen. -/
theorem happens_runAll (settings : PollSettings) (running : Waits)
    (fuel : Nat) :
    Relation.ReflTransGen (Happens settings) running
      (running.runAll fuel) := by
  induction fuel generalizing running with
  | zero => exact .refl
  | succ fuel ih =>
      unfold runAll
      cases soonest : running.soonest? with
      | none => exact .refl
      | some next =>
          obtain ⟨time, index⟩ := next
          obtain ⟨wait, there, runs⟩ := running.runs_of_soonest? soonest
          have woken : Happens settings running (running.wakeAt time index) :=
            .wake there runs time
          cases planned : running.cancels with
          | nil => exact .head woken (ih _)
          | cons moment later =>
              dsimp only
              split
              next =>
                have cancelled : Happens settings running
                    { running with
                      tokens :=
                        running.tokens.cancel running.tokens.current } :=
                  .cancel (Nat.le_refl _)
                exact .head cancelled (.head (.pass _ later) (ih _))
              next => exact .head woken (ih _)

end Waits

namespace ActivationService

/-- The service that has waited once more has seen a run of its waits. -/
theorem waitAll_happens (service : ActivationService)
    (scripts : List (List (Nat → Fetch Activation ClientError)))
    (cancels : List Nat) :
    ∃ ended,
      Relation.ReflTransGen (Waits.Happens service.settings)
          { now := service.now, tokens := service.tokens, waits := []
            cancels := cancels.mergeSort.map (service.now + ·) }
          ended ∧
        (service.waitAll scripts cancels).1.tokens = ended.tokens ∧
        (service.waitAll scripts cancels).2 =
          ended.waits.map (·.poll) := by
  let idle : Waits :=
    { now := service.now, tokens := service.tokens, waits := []
      cancels := cancels.mergeSort.map (service.now + ·) }
  have begun : Relation.ReflTransGen (Waits.Happens service.settings) idle
      (scripts.foldl
        (fun running fetches =>
          running.begin service.settings service.handle (.ofList fetches)
            fetches.length)
        idle) := by
    refine List.foldlRecOn _ _ .refl ?_
    intro running run fetches _
    have known : service.handle ≤ running.tokens.current :=
      (Waits.follows_of_run run).grows.current_le
    exact run.tail (.begin known _ _)
  exact ⟨_, begun.trans (Waits.happens_runAll _ _ _), rfl, rfl⟩

end ActivationService

end ScreenFlow
