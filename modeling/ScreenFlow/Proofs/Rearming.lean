import ScreenFlow.Proofs.Cancellation
import ScreenFlow.Proofs.Renumbering

/-!
# Stale cancellations

A wait that returns leaves a current token that is not cancelled, since the
token that takes the place of a cancelled one was never handed out before.  So
a cancellation that comes before a wait has returned, or through a handle of a
token that has been replaced, does not stop the waits that begin afterwards.
-/

namespace ScreenFlow

namespace CancelTokens

variable {tokens : CancelTokens} {token : Nat}

/-- Only tokens that have been handed out are cancelled. -/
def Known (tokens : CancelTokens) : Prop :=
  ∀ token, tokens.isCancelled token = true → token ≤ tokens.current

theorem known_fresh : fresh.Known := by
  intro token cancelled
  simp [fresh, isCancelled] at cancelled

theorem Known.cancel (known : tokens.Known) (le : token ≤ tokens.current) :
    (tokens.cancel token).Known := by
  intro other cancelled
  rw [isCancelled_cancel, Bool.or_eq_true, decide_eq_true_eq] at cancelled
  rcases cancelled with rfl | before
  · exact le
  · exact known other before

theorem Known.rearm (known : tokens.Known) :
    tokens.rearm.Known ∧
      tokens.rearm.isCancelled tokens.rearm.current = false := by
  cases cancelled : tokens.isCancelled tokens.current with
  | false =>
      have same : tokens.rearm = tokens := by simp [CancelTokens.rearm, cancelled]
      rw [same]
      exact ⟨known, cancelled⟩
  | true =>
      have replaced : tokens.rearm.current = tokens.current + 1 := by
        simp [CancelTokens.rearm, cancelled]
      constructor
      · intro token before
        rw [isCancelled_rearm] at before
        have handedOut := known token before
        omega
      · rw [isCancelled_rearm, replaced, ← Bool.not_eq_true]
        intro early
        have handedOut := known _ early
        omega

end CancelTokens

namespace Wait

variable {tokens told : CancelTokens} {wait moved : Wait}

theorem settle_of_isOver (finished : wait.isOver = true) (tokens : CancelTokens)
    (now fuel : Nat) : wait.settle tokens now fuel = (wait, tokens) := by
  have rests : wait.poll.due? = none := by
    match phase : wait.poll.phase with
    | .over time result => simp [Poll.due?, phase]
    | .waiting due => simp [isOver, phase] at finished
    | .fetching reply => simp [isOver, phase] at finished
  cases fuel with
  | zero => rfl
  | succ fuel => simp [settle, rests]

/-- What a wait leaves behind that has gone on. -/
structure Leaves (wait moved : Wait) (told : CancelTokens) : Prop where
  known : told.Known
  target_eq : moved.target = wait.target
  rearmed : wait.isOver = false → moved.isOver = true →
    told.isCancelled told.current = false

theorem Leaves.refl (known : tokens.Known) (wait : Wait) :
    wait.Leaves wait tokens where
  known := known
  target_eq := rfl
  rearmed := by
    intro runs finished
    exact absurd (runs.symm.trans finished) Bool.false_ne_true

theorem leaves_wake (known : tokens.Known)
    (le : wait.target ≤ tokens.current) (now : Nat) :
    wait.Leaves (wait.wake tokens now).1 (wait.wake tokens now).2 := by
  have still : (wait.heard tokens now).Known := by
    unfold heard
    split
    · exact known.cancel le
    · exact known
  rw [wake_snd]
  cases finished : (wait.wake tokens now).1.isOver with
  | true => exact ⟨still.rearm.1, rfl, fun _ _ => still.rearm.2⟩
  | false => exact ⟨still, rfl, by simp [finished]⟩

theorem leaves_settle (known : tokens.Known)
    (le : wait.target ≤ tokens.current) (now fuel : Nat) :
    wait.Leaves (wait.settle tokens now fuel).1
      (wait.settle tokens now fuel).2 := by
  induction fuel generalizing wait tokens with
  | zero => exact .refl known wait
  | succ fuel ih =>
      unfold settle
      split
      next ready =>
        have first := leaves_wake known le now
        have grown := (wait.grows_wake tokens now).current_le
        let next := wait.wake tokens now
        let settled := next.1.settle next.2 now fuel
        have further : next.1.Leaves settled.1 settled.2 :=
          ih first.known (Nat.le_trans le grown)
        change wait.Leaves settled.1 settled.2
        refine ⟨further.known, further.target_eq.trans first.target_eq, ?_⟩
        intro runs finished
        cases still : next.1.isOver with
        | false => exact further.rearmed still finished
        | true =>
            have rests : settled = next := settle_of_isOver still ..
            rw [rests]
            exact first.rearmed runs still
      next => exact .refl known wait

section

variable (settings : PollSettings) (target : Nat)
  (script : Script Activation ClientError) (now lead : Nat)

theorem leaves_begun (known : tokens.Known) (le : target ≤ tokens.current) :
    let begun := begun settings target script tokens now lead
    begun.2.Known ∧ begun.1.target = target ∧
      (begun.1.isOver = true →
        begun.2.isCancelled begun.2.current = false) := by
  let first := start settings target script tokens now
  have left : first.2 = if first.1.isOver then tokens.rearm else tokens := rfl
  intro begun
  have begun_eq : begun =
      first.1.settle first.2 now (Poll.reactionBound settings lead) := rfl
  cases finished : first.1.isOver with
  | true =>
      rw [begun_eq, settle_of_isOver finished, left, if_pos finished]
      exact ⟨known.rearm.1, rfl, fun _ => known.rearm.2⟩
  | false =>
      have same : first.2 = tokens := left.trans (by simp [finished])
      have settled : first.1.Leaves begun.1 begun.2 :=
        leaves_settle (by rwa [same]) (by rwa [same]) now _
      exact ⟨settled.known, settled.target_eq, settled.rearmed finished⟩

end

end Wait

namespace Waits

variable {settings : PollSettings} {running told later : Waits}

/-- What holds of waits and tokens that have been used from the beginning. -/
structure Proper (running : Waits) : Prop where
  known : running.tokens.Known
  target_le : ∀ wait ∈ running.waits,
    wait.target ≤ running.tokens.current

/-- The wait at a position has returned just now. -/
structure ReturnsAt (running told : Waits) (index : Nat) : Prop where
  finished : ∃ wait, told.waits[index]? = some wait ∧ wait.isOver = true
  ran : ∀ wait, running.waits[index]? = some wait → wait.isOver = false

theorem ReturnsAt.not_kept {index : Nat}
    (returns : running.ReturnsAt told index) :
    told.waits[index]? ≠ running.waits[index]? := by
  intro same
  obtain ⟨wait, there, finished⟩ := returns.finished
  rw [same] at there
  exact Bool.false_ne_true ((returns.ran wait there).symm.trans finished)

theorem Happens.proper (happened : Happens settings running told)
    (proper : running.Proper) : told.Proper := by
  have grows := happened.follows.grows.current_le
  cases happened with
  | @begin target known script lead =>
      obtain ⟨handedOut, aimed, -⟩ := Wait.leaves_begun settings target
        script running.now lead proper.known known
      rw [begin_eq] at grows ⊢
      refine ⟨handedOut, fun wait among => ?_⟩
      rcases List.mem_append.mp among with before | new
      · exact Nat.le_trans (proper.target_le wait before) grows
      · obtain rfl := List.mem_singleton.mp new
        rw [aimed]
        exact Nat.le_trans known grows
  | @wake position wait there runs time =>
      have aimed := proper.target_le wait (List.mem_of_getElem? there)
      have left := Wait.leaves_wake proper.known aimed time
      simp only [wakeAt, there] at grows ⊢
      refine ⟨left.known, fun other among => ?_⟩
      rcases List.mem_or_eq_of_mem_set among with before | rfl
      · exact Nat.le_trans (proper.target_le other before) grows
      · rw [left.target_eq]
        exact Nat.le_trans aimed grows
  | cancel known => exact ⟨proper.known.cancel known, proper.target_le⟩
  | pass now cancels => exact ⟨proper.known, proper.target_le⟩

/-- When a wait has returned the current token is not cancelled. -/
theorem Happens.rearmed (happened : Happens settings running told)
    (proper : running.Proper) {index : Nat}
    (returns : running.ReturnsAt told index) :
    told.tokens.isCancelled told.tokens.current = false := by
  obtain ⟨wait, there, finished⟩ := returns.finished
  cases happened with
  | @begin target known script lead =>
      obtain ⟨-, -, rearmed⟩ := Wait.leaves_begun settings target
        script running.now lead proper.known known
      rw [begin_eq] at there ⊢
      by_cases inside : index < running.waits.length
      · exact absurd (List.getElem?_append_left inside) returns.not_kept
      · rw [List.getElem?_append_right (Nat.le_of_not_lt inside)] at there
        obtain rfl := List.mem_singleton.mp (List.mem_of_getElem? there)
        exact rearmed finished
  | @wake position woken before runs time =>
      have aimed := proper.target_le woken (List.mem_of_getElem? before)
      have left := Wait.leaves_wake proper.known aimed time
      have inside := (List.getElem?_eq_some_iff.mp before).1
      have kept := returns.not_kept
      simp only [wakeAt, before] at there kept ⊢
      by_cases same : position = index
      · subst index
        rw [List.getElem?_set_self inside] at there
        cases there
        exact left.rearmed runs finished
      · exact absurd (List.getElem?_set_ne same) kept
  | cancel known => exact absurd rfl returns.not_kept
  | pass now cancels => exact absurd rfl returns.not_kept

/-- Waits of a service that has been used from the beginning. -/
def Arises (settings : PollSettings) (running : Waits) : Prop :=
  ∃ idle : Waits, idle.tokens = .fresh ∧ idle.waits = [] ∧
    Relation.ReflTransGen (Happens settings) idle running

theorem Arises.reachable (arises : Arises settings running) :
    Reachable settings running := by
  obtain ⟨idle, tokens, empty, run⟩ := arises
  exact ⟨idle, tokens ▸ .refl _, empty, run⟩

theorem Arises.of_run (arises : Arises settings running)
    (run : Relation.ReflTransGen (Happens settings) running told) :
    Arises settings told := by
  obtain ⟨idle, tokens, empty, first⟩ := arises
  exact ⟨idle, tokens, empty, first.trans run⟩

theorem Arises.proper (arises : Arises settings running) :
    running.Proper := by
  obtain ⟨idle, tokens, empty, run⟩ := arises
  induction run with
  | refl =>
      exact ⟨tokens ▸ CancelTokens.known_fresh, by simp [empty]⟩
  | tail _ happened ih => exact happened.proper ih

theorem Proper.isCancelled_of_joinsAt (proper : told.Proper)
    (uncancelled : told.tokens.isCancelled told.tokens.current = false)
    (run : Relation.ReflTransGen (Happens settings) told later)
    {token index : Nat} (joins : told.JoinsAt later token index) :
    told.tokens.isCancelled token = false := by
  have late := current_le_of_joinsAt run joins
  rw [← Bool.not_eq_true]
  intro cancelled
  have early := proper.known token cancelled
  obtain rfl : token = told.tokens.current := Nat.le_antisymm early late
  exact Bool.false_ne_true (uncancelled.symm.trans cancelled)

/-- If the current token is not cancelled, the cancelled ones are those that
have been replaced. -/
theorem Arises.isCancelled_iff (arises : Arises settings running)
    (uncancelled : running.tokens.isCancelled running.tokens.current = false)
    (token : Nat) :
    running.tokens.isCancelled token = true ↔
      token < running.tokens.current := by
  constructor
  · intro cancelled
    refine Nat.lt_of_le_of_ne (arises.proper.known token cancelled) ?_
    rintro rfl
    exact Bool.false_ne_true (uncancelled.symm.trans cancelled)
  · exact arises.reachable.sound.isCancelled_of_lt

/-- Cancelling a token that has been replaced makes no difference. -/
theorem Sound.renumbered_cancel (sound : running.Sound) {token : Nat}
    (replaced : token < running.tokens.current) :
    Renumbered 0 { running with tokens := running.tokens.cancel token }
      running := by
  refine ⟨rfl, rfl, ⟨rfl, ?_⟩, (List.map_id running.waits).symm⟩
  intro other
  rw [CancelTokens.isCancelled_cancel]
  by_cases same : other = token
  · subst same
    simp [sound.isCancelled_of_lt replaced]
  · simp [same]

end Waits

/-! ## One wait after the other -/

namespace ActivationService

/-- A wait under a cancelled token is over at once, and the token is
replaced. -/
theorem waitAll_of_isCancelled (service : ActivationService)
    (cancelled : service.isCancelled service.handle = true)
    (fetches : List (Nat → Fetch Activation ClientError))
    (cancels : List Nat) :
    service.waitAll [fetches] cancels =
      ({ service with tokens := service.tokens.rearm },
        [.start service.settings service.now true]) := by
  let stopped : Wait :=
    { token := service.handle
      target := service.handle
      script := .ofList fetches
      poll := .start service.settings service.now true }
  have begun : Wait.begun service.settings service.handle (.ofList fetches)
      service.tokens service.now fetches.length =
        (stopped, service.tokens.rearm) := by
    have started : Wait.start service.settings service.handle
        (.ofList fetches) service.tokens service.now =
          (stopped, service.tokens.rearm) := by
      have known : service.tokens.isCancelled service.tokens.current = true :=
        cancelled
      simp only [Wait.start, known]
      rfl
    rw [Wait.begun, started]
    exact Wait.settle_of_isOver rfl _ _ _
  have rests (fuel : Nat) :
      Waits.runAll
        { now := service.now
          tokens := service.tokens.rearm
          waits := [stopped]
          cancels := cancels.mergeSort.map (service.now + ·) }
        fuel =
        { now := service.now
          tokens := service.tokens.rearm
          waits := [stopped]
          cancels := cancels.mergeSort.map (service.now + ·) } := by
    cases fuel <;> rfl
  simp only [waitAll, List.foldl_cons, List.foldl_nil, Waits.begin_eq, begun,
    List.nil_append, rests]
  rfl

theorem foldl_cancelHandle (service : ActivationService)
    (handles : List Nat) :
    ∃ tokens, handles.foldl cancelHandle service = { service with tokens } ∧
      tokens.current = service.tokens.current ∧
      ∀ token, tokens.isCancelled token = true ↔
        token ∈ handles ∨ service.tokens.isCancelled token = true := by
  induction handles generalizing service with
  | nil => exact ⟨service.tokens, rfl, rfl, by simp⟩
  | cons handle rest ih =>
      obtain ⟨tokens, told, current, cancelled⟩ :=
        ih (service.cancelHandle handle)
      refine ⟨tokens, told, current, fun token => ?_⟩
      rw [cancelled, cancelHandle, CancelTokens.isCancelled_cancel,
        List.mem_cons, Bool.or_eq_true, decide_eq_true_eq, or_left_comm,
        or_assoc]

/-- What is left of cancelling the current token is that the tokens have other
numbers. -/
theorem renumbered_rearm {tokens told : CancelTokens} {handles : List Nat}
    (replaced : ∀ token,
      tokens.isCancelled token = true ↔ token < tokens.current)
    (among : tokens.current ∈ handles)
    (known : ∀ token ∈ handles, token ≤ tokens.current)
    (current : told.current = tokens.current)
    (cancelled : ∀ token, told.isCancelled token = true ↔
      token ∈ handles ∨ tokens.isCancelled token = true) :
    tokens.Renumbered 1 told.rearm := by
  have upTo (token : Nat) : told.isCancelled token = true ↔
      token ≤ tokens.current := by
    rw [cancelled, replaced]
    constructor
    · rintro (handle | before)
      · exact known token handle
      · exact Nat.le_of_lt before
    · intro le
      rcases Nat.lt_or_eq_of_le le with before | rfl
      · exact .inr before
      · exact .inl among
  constructor
  case current_eq =>
    have stopped := (upTo told.current).mpr (Nat.le_of_eq current)
    rw [CancelTokens.rearm, if_pos stopped, current]
  case isCancelled_eq =>
    intro token
    rw [CancelTokens.isCancelled_rearm, Bool.eq_iff_iff, upTo, replaced]
    exact Nat.succ_le_iff

/-- Cancelling the current token, once or more and by any of its handles, stops
the next wait.  After that nothing but the numbers of the tokens has changed. -/
theorem exists_waitAll_eq_of_cancelled (service : ActivationService)
    (replaced : ∀ token, service.tokens.isCancelled token = true ↔
      token < service.tokens.current)
    {handles : List Nat} (among : service.tokens.current ∈ handles)
    (known : ∀ token ∈ handles, token ≤ service.tokens.current)
    (fetches : List (Nat → Fetch Activation ClientError))
    (cancels : List Nat) :
    ∃ tokens, service.tokens.Renumbered 1 tokens ∧
      (handles.foldl cancelHandle service).waitAll [fetches] cancels =
        ({ service with tokens },
          [.start service.settings service.now true]) := by
  obtain ⟨told, cancelled_eq, current, cancelled⟩ :=
    service.foldl_cancelHandle handles
  have stopped : told.isCancelled told.current = true :=
    (cancelled _).mpr (.inl (current ▸ among))
  refine ⟨told.rearm,
    renumbered_rearm replaced among known current cancelled, ?_⟩
  rw [cancelled_eq]
  exact { service with tokens := told }.waitAll_of_isCancelled stopped fetches
    cancels

end ActivationService

namespace Waits

/-- Cancellations do not outlast the token that they cancel.  When a wait has
returned the current token is not cancelled, so one that begins later is
stopped only by a cancellation that comes after that.  Cancelling a token that
has been replaced changes nothing of what may happen; in particular no wait
begins under it.  If the current token is cancelled once or more after one wait
has returned and before the next one begins, by any of its handles, that one is
stopped at once without a fetch, and the waits after it go on as if nothing had
been cancelled. -/
theorem stale_cancel_stops_no_later_wait {settings : PollSettings}
    {running : Waits} (arises : Arises settings running) :
    (∀ told index, Happens settings running told →
      running.ReturnsAt told index →
        told.tokens.isCancelled told.tokens.current = false ∧
          ∀ later token joined,
            Relation.ReflTransGen (Happens settings) told later →
            told.JoinsAt later token joined →
            later.StoppedAt token joined →
              told.tokens.isCancelled token = false ∧
                later.tokens.isCancelled token = true) ∧
    (∀ token < running.tokens.current,
      let told := { running with tokens := running.tokens.cancel token }
      (∀ other, told.tokens.isCancelled other =
        running.tokens.isCancelled other) ∧
      ∀ later, Relation.ReflTransGen (Happens settings) told later →
        (∃ undisturbed,
          Relation.ReflTransGen (Happens settings) running undisturbed ∧
            undisturbed.waits = later.waits ∧
            undisturbed.tokens.current = later.tokens.current ∧
            ∀ other, undisturbed.tokens.isCancelled other =
              later.tokens.isCancelled other) ∧
        ∀ joined index, told.JoinsAt later joined index → token < joined) ∧
    (running.tokens.isCancelled running.tokens.current = false →
      ∀ handles : List Nat, running.tokens.current ∈ handles →
        (∀ token ∈ handles, token ≤ running.tokens.current) →
          let service : ActivationService :=
            { settings, tokens := running.tokens, now := running.now }
          ∀ fetches cancels,
            let next := (handles.foldl .cancelHandle service).waitAll
              [fetches] cancels
            (∃ stopped, next.2 = [stopped] ∧
              stopped.phase = .over running.now .cancelled ∧
              stopped.calls = #[]) ∧
            next.1.isCancelled next.1.handle = false ∧
            ∀ scripts more, (next.1.waitAll scripts more).2 =
              (service.waitAll scripts more).2) := by
  refine ⟨?_, ?_, ?_⟩
  · intro told index happened returns
    have uncancelled := happened.rearmed arises.proper returns
    refine ⟨uncancelled, fun later token joined run joins stopped => ?_⟩
    have arose := arises.of_run (.single happened)
    refine ⟨arose.proper.isCancelled_of_joinsAt uncancelled run joins, ?_⟩
    obtain ⟨wait, there, rfl, stopped⟩ := stopped
    exact (arose.of_run run).reachable.sound.cause there stopped
  · intro token replaced told
    have alike : told.Renumbered 0 running :=
      arises.reachable.sound.renumbered_cancel replaced
    refine ⟨fun other => (alike.tokens.isCancelled_eq other).symm, ?_⟩
    intro later run
    obtain ⟨undisturbed, ran, same⟩ := alike.exists_run run
    refine ⟨⟨undisturbed, ran, ?_, same.tokens.current_eq,
      same.tokens.isCancelled_eq⟩, ?_⟩
    · exact same.waits_eq.trans (List.map_id later.waits)
    · intro joined index joins
      have late : told.tokens.current ≤ joined :=
        current_le_of_joinsAt run joins
      exact Nat.lt_of_lt_of_le replaced late
  · intro uncancelled handles among known service fetches cancels next
    obtain ⟨tokens, same, next_eq⟩ :=
      service.exists_waitAll_eq_of_cancelled
        (arises.isCancelled_iff uncancelled) among known fetches cancels
    rw [show next = _ from next_eq]
    refine ⟨⟨_, rfl, rfl, rfl⟩, ?_, ?_⟩
    · exact same.isCancelled_current.trans uncancelled
    · intro scripts more
      exact service.waitAll_renumbered same scripts more

/-- A wait is stopped at 15.  Then its token is cancelled again, and the next
one twice; that stops one more wait. -/
theorem stale_cancel_stops_no_later_wait_cancelled_twice :
    let settings : PollSettings := { timeout := 30, interval := 10 }
    let pending : Nat → Fetch Activation ClientError := fun _ =>
      { reply := some (0, .ok .pending) }
    let idle : Waits :=
      { now := 0, tokens := .fresh, waits := [], cancels := [] }
    let began := idle.begin settings 0 (.ofList [pending]) 1
    let running := { began with tokens := began.tokens.cancel 0 }
    let told := running.wakeAt 15 0
    let service : ActivationService :=
      { settings, tokens := told.tokens, now := told.now }
    let cancelled := [1, 0, 1].foldl .cancelHandle service
    Arises settings running ∧ running.ReturnsAt told 0 ∧
      told.tokens.isCancelled told.tokens.current = false ∧
      Arises settings told ∧
      (∃ stopped, (cancelled.waitAll [[pending]] []).2 = [stopped] ∧
        stopped.phase = .over 15 .cancelled ∧ stopped.calls = #[]) := by
  intro settings pending idle began running told service cancelled
  have arises : Arises settings running :=
    ⟨idle, rfl, rfl, .tail (.single (.begin (Nat.zero_le _) _ 1))
      (.cancel (Nat.zero_le _))⟩
  have happened : Happens settings running told := .wake rfl rfl 15
  have returns : running.ReturnsAt told 0 := by
    refine ⟨⟨_, rfl, rfl⟩, ?_⟩
    intro wait there
    cases there
    rfl
  have arose := arises.of_run (.single happened)
  have uncancelled :=
    ((stale_cancel_stops_no_later_wait arises).1 told 0 happened returns).1
  obtain ⟨stopped, -, -⟩ :=
    (stale_cancel_stops_no_later_wait arose).2.2 uncancelled [1, 0, 1]
      (by decide) (by decide) [pending] []
  exact ⟨arises, returns, uncancelled, arose, stopped⟩

end Waits

end ScreenFlow
