import ScreenFlow.Proofs.Ending

/-!
# The tokens of a poll service

A poll service acts under one token, which may be related to an outer one.
`PollService.actAll` lets a service act in any order: polls are made, during
which tokens may be cancelled from outside and by the fetches, and tokens are
cancelled between them.  What has become of the tokens in the end depends only
on which of them were cancelled themselves and on how they are related, and a
service that has been cancelled stays so.
-/

namespace ScreenFlow

variable {Value Error : Type}

/-! ## Tokens that are cancelled themselves -/

namespace TokenLink

/-- Whether the token of a service is reached if it is cancelled itself or the
outer one is. -/
def reaches (link : TokenLink) (own outer : Bool) : Bool :=
  match link with
  | .own => own
  | .shared | .child => own || outer

/-- Whether the outer token is reached then. -/
def reachesOuter (link : TokenLink) (own outer : Bool) : Bool :=
  match link with
  | .own | .child => outer
  | .shared => own || outer

variable (link : TokenLink)

@[simp]
theorem reaches_none : link.reaches false false = false := by
  cases link with
  | own => rfl
  | shared => rfl
  | child => rfl

@[simp]
theorem reachesOuter_none : link.reachesOuter false false = false := by
  cases link with
  | own => rfl
  | shared => rfl
  | child => rfl

theorem reaches_or (own outer laterOwn laterOuter : Bool) :
    link.reaches (own || laterOwn) (outer || laterOuter) =
      (link.reaches own outer || link.reaches laterOwn laterOuter) := by
  cases link with
  | own => rfl
  | shared => simp [reaches, Bool.or_assoc, Bool.or_left_comm]
  | child => simp [reaches, Bool.or_assoc, Bool.or_left_comm]

theorem reachesOuter_or (own outer laterOwn laterOuter : Bool) :
    link.reachesOuter (own || laterOwn) (outer || laterOuter) =
      (link.reachesOuter own outer ||
        link.reachesOuter laterOwn laterOuter) := by
  cases link with
  | own => rfl
  | shared => simp [reachesOuter, Bool.or_assoc, Bool.or_left_comm]
  | child => rfl

end TokenLink

namespace Tokens

/-- The tokens after each of them was cancelled itself or not. -/
def hit (tokens : Tokens) (own outer : Bool) : Tokens :=
  { tokens with
    service := tokens.service || tokens.link.reaches own outer
    outer := tokens.outer || tokens.link.reachesOuter own outer }

variable (tokens : Tokens)

@[simp]
theorem hit_none : tokens.hit false false = tokens := by
  simp [hit]

theorem hit_hit (own outer laterOwn laterOuter : Bool) :
    (tokens.hit own outer).hit laterOwn laterOuter =
      tokens.hit (own || laterOwn) (outer || laterOuter) := by
  simp [hit, TokenLink.reaches_or, TokenLink.reachesOuter_or, Bool.or_assoc]

theorem cancelService_eq : tokens.cancelService = tokens.hit true false := by
  unfold cancelService hit
  cases tokens.link with
  | own => simp [TokenLink.reaches, TokenLink.reachesOuter]
  | shared => simp [TokenLink.reaches, TokenLink.reachesOuter]
  | child => simp [TokenLink.reaches, TokenLink.reachesOuter]

theorem cancelOuter_eq : tokens.cancelOuter = tokens.hit false true := by
  unfold cancelOuter hit
  cases tokens.link with
  | own => simp [TokenLink.reaches, TokenLink.reachesOuter]
  | shared => simp [TokenLink.reaches, TokenLink.reachesOuter]
  | child => simp [TokenLink.reaches, TokenLink.reachesOuter]

end Tokens

namespace Interruptions

/-- What reaches a service through the link of its token, as interruptions of
the service alone. -/
def reaching (interruptions : Interruptions) : TokenLink → Interruptions
  | .own => { service := interruptions.service }
  | .shared | .child =>
      { service := interruptions.service ++ interruptions.outer }

variable (interruptions : Interruptions)

theorem cutoff_reaching (link : TokenLink) :
    (interruptions.reaching link).cutoff .own = interruptions.cutoff link := by
  cases link with
  | own => rfl
  | shared => rfl
  | child => rfl

theorem any_min? (times : List Nat) (now : Nat) :
    times.min?.any (· ≤ now) = times.any (· ≤ now) := by
  cases first : times.min? with
  | none => simp [List.min?_eq_none_iff.mp first]
  | some time =>
      obtain ⟨among, least⟩ := List.min?_eq_some_iff.mp first
      rw [Option.any_some, Bool.eq_iff_iff, List.any_eq_true]
      simp only [decide_eq_true_eq]
      constructor
      · exact fun come => ⟨time, among, come⟩
      · rintro ⟨other, otherAmong, come⟩
        exact Nat.le_trans (least other otherAmong) come

theorem any_cutoff (link : TokenLink) (now : Nat) :
    (interruptions.cutoff link).any (· ≤ now) =
      (interruptions.reaching link).service.any (· ≤ now) := by
  rw [← cutoff_reaching]
  exact any_min? _ now

end Interruptions

namespace PollService

/-- A service after each of its tokens was cancelled itself or not. -/
def hit (service : PollService Value) (own outer : Bool) :
    PollService Value :=
  { service with tokens := service.tokens.hit own outer }

@[simp]
theorem hit_none (service : PollService Value) :
    service.hit false false = service := by
  simp [hit]

theorem hit_hit (service : PollService Value)
    (own outer laterOwn laterOuter : Bool) :
    (service.hit own outer).hit laterOwn laterOuter =
      service.hit (own || laterOwn) (outer || laterOuter) := by
  simp [hit, Tokens.hit_hit]

theorem cancel_eq (service : PollService Value) :
    service.cancel = service.hit true false := by
  simp [cancel, hit, Tokens.cancelService_eq]

theorem cancelOuter_eq (service : PollService Value) :
    service.cancelOuter = service.hit false true := by
  simp [cancelOuter, hit, Tokens.cancelOuter_eq]

theorem foldl_cancel (service : PollService Value) (times : List Nat) :
    times.foldl (fun service _ => service.cancel) service =
      service.hit (!times.isEmpty) false := by
  induction times generalizing service with
  | nil => simp
  | cons time times ih =>
      rw [List.foldl_cons, ih, cancel_eq, hit_hit]
      simp

theorem foldl_cancelOuter (service : PollService Value) (times : List Nat) :
    times.foldl (fun service _ => service.cancelOuter) service =
      service.hit false (!times.isEmpty) := by
  induction times generalizing service with
  | nil => simp
  | cons time times ih =>
      rw [List.foldl_cons, ih, cancelOuter_eq, hit_hit]
      simp

theorem interrupt_eq (service : PollService Value)
    (interruptions : Interruptions) (time : Nat) :
    service.interrupt interruptions time =
      service.hit (interruptions.service.any (· ≤ time))
        (interruptions.outer.any (· ≤ time)) := by
  have come (times : List Nat) :
      (!(times.filter (· ≤ time)).isEmpty) = times.any (· ≤ time) := by
    rw [Bool.eq_iff_iff]
    simp [List.any_eq_true]
  simp only [interrupt, foldl_cancel, foldl_cancelOuter, hit_hit, come,
    Bool.false_or, Bool.or_false]

/-- Whether a fetch of a poll that ended cancelled its service. -/
def fetchCancels (fetches : List (Nat → Fetch Value Error))
    (ended : Poll Value Error) : Bool :=
  (List.range ended.calls.size).any fun index =>
    (Script.ofList fetches index).cancels

theorem fetchCancels_iff (fetches : List (Nat → Fetch Value Error))
    (ended : Poll Value Error) :
    fetchCancels fetches ended = true ↔
      Poll.CancelsFrom (.ofList fetches) 0 ended := by
  simp [fetchCancels, Poll.CancelsFrom, List.any_eq_true]

/-- What reaches the service through the link of its token need not be counted
twice. -/
theorem hit_hit_reaching (service : PollService Value)
    (interruptions : Interruptions) (now : Nat) (byFetch : Bool) :
    (service.hit (interruptions.service.any (· ≤ now))
        (interruptions.outer.any (· ≤ now))).hit
          ((interruptions.reaching service.tokens.link).service.any (· ≤ now)
            || byFetch) false =
      service.hit (interruptions.service.any (· ≤ now) || byFetch)
        (interruptions.outer.any (· ≤ now)) := by
  rw [hit_hit, Bool.or_false]
  simp only [hit, Tokens.hit]
  cases service.tokens.link with
  | own => simp [Interruptions.reaching]
  | shared =>
      simp only [Interruptions.reaching, List.any_append, TokenLink.reaches,
        TokenLink.reachesOuter]
      grind
  | child =>
      simp only [Interruptions.reaching, List.any_append, TokenLink.reaches,
        TokenLink.reachesOuter]
      grind

/-- Whether the token of a service was cancelled itself during a poll. -/
def pollHits (fetches : List (Nat → Fetch Value Error))
    (interruptions : Interruptions) (ended : Poll Value Error) : Bool :=
  interruptions.service.any (· ≤ ended.eventTime) ||
    fetchCancels fetches ended

section

variable (service : PollService Value) {settings : PollSettings}
  (fetches : List (Nat → Fetch Value Error)) (interruptions : Interruptions)

theorem poll_of_over {ended : Poll Value Error} {cutoff : Option Nat}
    (ran : Poll.runAlone service.accepts (.ofList fetches)
        (Poll.reactionBound settings fetches.length)
        (interruptions.cutoff service.tokens.link)
        (.start settings 0 service.isCancelled) = (ended, cutoff))
    {time : Nat} {result : PollResult Value Error}
    (finished : ended.phase = .over time result) :
    service.poll settings fetches interruptions =
      ((service.interrupt interruptions time).hit (cutoff.any (· ≤ time))
        false, ended) := by
  simp only [poll, ran, finished]
  cases cutoff.any (· ≤ time) with
  | false => simp
  | true => simp [cancel_eq]

/-- A poll ends, and up to then its service is told of what reaches it. -/
theorem poll_spec (positive : 0 < settings.interval) :
    let polled := service.poll settings fetches interruptions
    polled.2.IsOver ∧
      polled.1 = service.hit (pollHits fetches interruptions polled.2)
        (interruptions.outer.any (· ≤ polled.2.eventTime)) := by
  have ends := Poll.isOver_start service.accepts (.ofList fetches) settings 0
    fetches.length positive (interruptions.cutoff service.tokens.link)
    service.isCancelled
  have accounts := Poll.accounts_start service.accepts (.ofList fetches)
    settings 0 (Poll.reactionBound settings fetches.length)
    (interruptions.cutoff service.tokens.link) service.isCancelled
  obtain ⟨⟨ended, cutoff⟩, ran⟩ : ∃ run, Poll.runAlone service.accepts
      (.ofList fetches) (Poll.reactionBound settings fetches.length)
      (interruptions.cutoff service.tokens.link)
      (.start settings 0 service.isCancelled) = run := ⟨_, rfl⟩
  rw [ran] at ends accounts
  obtain ⟨time, result, finished⟩ := ends
  have ended_at : ended.eventTime = time := Poll.eventTime_of_over finished
  have told : cutoff.any (· ≤ time) =
      ((interruptions.reaching service.tokens.link).service.any (· ≤ time) ||
        fetchCancels fetches ended) := by
    rw [Bool.eq_iff_iff, Bool.or_eq_true, fetchCancels_iff,
      ← Interruptions.any_cutoff, ← ended_at]
    exact accounts
  rw [poll_of_over service fetches interruptions ran finished, told,
    interrupt_eq, hit_hit_reaching]
  refine ⟨⟨time, result, finished⟩, ?_⟩
  simp only [pollHits, ended_at]

theorem poll_of_isCancelled (cancelled : service.isCancelled = true) :
    let polled := service.poll settings fetches interruptions
    polled.2.phase = .over 0 .cancelled ∧ polled.2.calls = #[] := by
  intro polled
  have stopped : (Poll.start settings 0 true : Poll Value Error).phase =
      .over 0 .cancelled := rfl
  have ran : polled.2 = .start settings 0 true := by
    rw [← cancelled]
    refine (service.poll_eq_runAlone_cutoff settings fetches
      interruptions).trans ?_
    rw [cancelled, Poll.runAlone_of_over service.accepts _ stopped]
  rw [ran]
  exact ⟨stopped, rfl⟩

end

/-! ## Services in use -/

end PollService

/-- What can be done with a service and with the tokens. -/
inductive ServiceAct (Value Error : Type) where
  | status
  | cancel
  /-- Cancel the token of the service through a copy of it. -/
  | cancelByHandle
  | cancelOuter
  | poll (settings : PollSettings) (positive : 0 < settings.interval)
      (fetches : List (Nat → Fetch Value Error))
      (interruptions : Interruptions)

/-- What an act leads to: a poll, if it was one, and whether the service is
cancelled after it. -/
structure ServiceAnswer (Value Error : Type) where
  polled : Option (Poll Value Error) := none
  isCancelled : Bool

namespace ServiceAct

/-- An act as it reaches a service through the link of its token. -/
def reaching (act : ServiceAct Value Error) (link : TokenLink) :
    ServiceAct Value Error :=
  match act, link with
  | .cancelOuter, .own => .status
  | .cancelOuter, .shared | .cancelOuter, .child => .cancel
  | .poll settings positive fetches interruptions, link =>
      .poll settings positive fetches (interruptions.reaching link)
  | act, _ => act

/-- Whether the token of the service was itself cancelled in an act. -/
def hitsService : ServiceAct Value Error → Option (Poll Value Error) → Bool
  | .cancel, _ | .cancelByHandle, _ => true
  | .poll _ _ fetches interruptions, some ended =>
      PollService.pollHits fetches interruptions ended
  | _, _ => false

/-- Whether the outer token was itself cancelled in an act. -/
def hitsOuter : ServiceAct Value Error → Option (Poll Value Error) → Bool
  | .cancelOuter, _ => true
  | .poll _ _ _ interruptions, some ended =>
      interruptions.outer.any (· ≤ ended.eventTime)
  | _, _ => false

end ServiceAct

namespace PollService

/-- Let a service act. -/
def act (service : PollService Value) :
    ServiceAct Value Error → PollService Value × Option (Poll Value Error)
  | .status => (service, none)
  | .cancel | .cancelByHandle => (service.cancel, none)
  | .cancelOuter => (service.cancelOuter, none)
  | .poll settings _ fetches interruptions =>
      let (after, ended) := service.poll settings fetches interruptions
      (after, some ended)

/-- Let a service act again and again. -/
def actAll (service : PollService Value) :
    List (ServiceAct Value Error) →
      PollService Value × List (ServiceAnswer Value Error)
  | [] => (service, [])
  | first :: acts =>
      let (after, polled) := service.act first
      let (ended, answers) := after.actAll acts
      (ended, { polled, isCancelled := after.isCancelled } :: answers)

/-- A service under a token of its own that is as far. -/
def alone (service : PollService Value) : PollService Value :=
  { service with
    tokens := { link := .own, service := service.isCancelled, outer := false } }

section

variable (service : PollService Value)

theorem alone_hit (own outer : Bool) :
    (service.hit own outer).alone =
      service.alone.hit (service.tokens.link.reaches own outer) false :=
  rfl

/-- What one act does: its poll ends, and the tokens are told of it. -/
theorem act_spec (act : ServiceAct Value Error) :
    let acted := service.act act
    (∀ poll ∈ acted.2, poll.IsOver) ∧
      acted.1 = service.hit (act.hitsService acted.2)
        (act.hitsOuter acted.2) := by
  cases act with
  | status => exact ⟨nofun, service.hit_none.symm⟩
  | cancel => exact ⟨nofun, service.cancel_eq⟩
  | cancelByHandle => exact ⟨nofun, service.cancel_eq⟩
  | cancelOuter => exact ⟨nofun, service.cancelOuter_eq⟩
  | poll settings positive fetches interruptions =>
      obtain ⟨ends, told⟩ :=
        service.poll_spec fetches interruptions positive
      refine ⟨?_, told⟩
      rintro poll ⟨⟩
      exact ends

theorem alone_cancel : service.cancel.alone = service.alone.cancel := by
  rw [cancel_eq, cancel_eq, alone_hit]
  cases service.tokens.link with
  | own => rfl
  | shared => rfl
  | child => rfl

theorem poll_reaching (settings : PollSettings)
    (fetches : List (Nat → Fetch Value Error))
    (interruptions : Interruptions) :
    (service.alone.poll settings fetches
        (interruptions.reaching service.tokens.link)).2 =
      (service.poll settings fetches interruptions).2 := by
  rw [poll_eq_runAlone_cutoff, poll_eq_runAlone_cutoff]
  exact congrArg
    (fun cutoff => (Poll.runAlone service.accepts (.ofList fetches)
      (Poll.reactionBound settings fetches.length) cutoff
      (.start settings 0 service.isCancelled)).1)
    (interruptions.cutoff_reaching service.tokens.link)

theorem pollHits_reaching (link : TokenLink)
    (fetches : List (Nat → Fetch Value Error))
    (interruptions : Interruptions) (ended : Poll Value Error) :
    pollHits fetches (interruptions.reaching link) ended =
      link.reaches (pollHits fetches interruptions ended)
        (interruptions.outer.any (· ≤ ended.eventTime)) := by
  cases link with
  | own => rfl
  | shared =>
      simp [pollHits, Interruptions.reaching, TokenLink.reaches,
        Bool.or_right_comm]
  | child =>
      simp [pollHits, Interruptions.reaching, TokenLink.reaches,
        Bool.or_right_comm]

theorem outer_reaching (link : TokenLink) (interruptions : Interruptions) :
    (interruptions.reaching link).outer = [] := by
  cases link with
  | own => rfl
  | shared => rfl
  | child => rfl

/-- An act on a service whose token is linked is one on a service alone. -/
theorem act_reaching (act : ServiceAct Value Error) :
    service.alone.act (act.reaching service.tokens.link) =
      ((service.act act).1.alone, (service.act act).2) := by
  cases act with
  | status => rfl
  | cancel => exact congrArg (·, none) service.alone_cancel.symm
  | cancelByHandle => exact congrArg (·, none) service.alone_cancel.symm
  | cancelOuter =>
      simp only [PollService.act, cancelOuter_eq, alone_hit]
      cases service.tokens.link with
      | own => simp [ServiceAct.reaching, TokenLink.reaches, hit]
      | shared => exact congrArg (·, none) service.alone.cancel_eq
      | child => exact congrArg (·, none) service.alone.cancel_eq
  | poll settings positive fetches interruptions =>
      have same := service.poll_reaching settings fetches interruptions
      refine Prod.ext ?_ (congrArg some same)
      calc
        (service.alone.poll settings fetches
            (interruptions.reaching service.tokens.link)).1 =
            service.alone.hit
              (pollHits fetches
                (interruptions.reaching service.tokens.link)
                (service.poll settings fetches interruptions).2) false := by
          rw [(service.alone.poll_spec fetches _ positive).2, same,
            outer_reaching, List.any_nil]
        _ = (service.poll settings fetches interruptions).1.alone := by
          rw [(service.poll_spec fetches interruptions positive).2, alone_hit,
            pollHits_reaching]

/-- In one act a cancelled service stays cancelled and fetches nothing. -/
theorem act_of_isCancelled (cancelled : service.isCancelled = true)
    (act : ServiceAct Value Error) :
    (service.act act).1.isCancelled = true ∧
      ∀ poll ∈ (service.act act).2,
        poll.phase = .over 0 .cancelled ∧ poll.calls = #[] := by
  refine ⟨?_, ?_⟩
  · rw [(service.act_spec act).2]
    exact Bool.or_eq_true_iff.mpr (.inl cancelled)
  · cases act with
    | poll settings positive fetches interruptions =>
        rintro poll ⟨⟩
        exact service.poll_of_isCancelled fetches interruptions cancelled
    | _ => exact nofun

variable (acts : List (ServiceAct Value Error))

/-- Whether a token was cancelled itself in one of several acts. -/
def anyHits (hits : ServiceAct Value Error → Option (Poll Value Error) → Bool)
    (acts : List (ServiceAct Value Error))
    (answers : List (ServiceAnswer Value Error)) : Bool :=
  (acts.zip answers).any fun done => hits done.1 done.2.polled

theorem actAll_spec :
    let acted := service.actAll acts
    (∀ answer ∈ acted.2, ∀ poll ∈ answer.polled, poll.IsOver) ∧
      acted.1 = service.hit (anyHits ServiceAct.hitsService acts acted.2)
        (anyHits ServiceAct.hitsOuter acts acted.2) := by
  induction acts generalizing service with
  | nil => exact ⟨by simp [actAll], by simp [actAll, anyHits]⟩
  | cons first acts ih =>
      obtain ⟨ends, told⟩ := service.act_spec first
      obtain ⟨laterEnds, laterTold⟩ := ih (service.act first).1
      refine ⟨?_, ?_⟩
      · intro answer among
        rcases List.mem_cons.mp among with rfl | among
        · exact ends
        · exact laterEnds answer among
      · have joined (own outer : Bool) :
            (service.act first).1.hit own outer =
              service.hit
                (first.hitsService (service.act first).2 || own)
                (first.hitsOuter (service.act first).2 || outer) := by
          rw [← hit_hit, ← told]
        exact laterTold.trans (joined _ _)

theorem actAll_reaching :
    service.alone.actAll (acts.map (·.reaching service.tokens.link)) =
      ((service.actAll acts).1.alone, (service.actAll acts).2) := by
  induction acts generalizing service with
  | nil => rfl
  | cons first acts ih =>
      have linked : (service.act first).1.tokens.link =
          service.tokens.link := by
        rw [(service.act_spec first).2]
        rfl
      have later := ih (service.act first).1
      rw [linked] at later
      simp only [List.map_cons, actAll, service.act_reaching first, later]
      rfl

theorem actAll_of_isCancelled (cancelled : service.isCancelled = true) :
    (service.actAll acts).1.isCancelled = true ∧
      ∀ answer ∈ (service.actAll acts).2, answer.isCancelled = true ∧
        ∀ poll ∈ answer.polled,
          poll.phase = .over 0 .cancelled ∧ poll.calls = #[] := by
  induction acts generalizing service with
  | nil => exact ⟨cancelled, by simp [actAll]⟩
  | cons first acts ih =>
      obtain ⟨stays, stopped⟩ := service.act_of_isCancelled cancelled first
      obtain ⟨stillStays, laterStopped⟩ := ih (service.act first).1 stays
      refine ⟨stillStays, fun answer among => ?_⟩
      rcases List.mem_cons.mp among with rfl | among
      · exact ⟨stays, stopped⟩
      · exact laterStopped answer among

end

/-- A service that was made with tokens that nobody has cancelled yet. -/
def begun (accepts : Value → Bool) (onError : ErrorPolicy)
    (link : TokenLink) : PollService Value :=
  { accepts, onError, tokens := .fresh link }

/-- Whatever is done with a service, each of its polls ends, and once it is
cancelled it stays so: every later poll is over at once, without a fetch.  If
its token is its own, each of the two tokens is cancelled exactly if it was
cancelled itself, by hand or by a fetch.  A shared token is cancelled together
with the outer one.  A child is cancelled if one of the two was cancelled
itself, and the outer token only if it was that one.  Apart from that a service
behaves like one on its own to which only that is done which reaches it. -/
theorem cancelled_for_good (accepts : Value → Bool) (onError : ErrorPolicy)
    (link : TokenLink) (acts : List (ServiceAct Value Error)) :
    let (reached, answers) := (begun accepts onError link).actAll acts
    let own := anyHits ServiceAct.hitsService acts answers
    let outer := anyHits ServiceAct.hitsOuter acts answers
    (∀ answer ∈ answers, ∀ poll ∈ answer.polled, poll.IsOver) ∧
      (reached.isCancelled = true →
        ∀ more : List (ServiceAct Value Error),
          (reached.actAll more).1.isCancelled = true ∧
            ∀ answer ∈ (reached.actAll more).2, answer.isCancelled = true ∧
              ∀ poll ∈ answer.polled,
                poll.phase = .over 0 .cancelled ∧ poll.calls = #[]) ∧
      reached.tokens =
        (match link with
        | .own => { link, service := own, outer }
        | .shared => { link, service := own || outer, outer := own || outer }
        | .child => { link, service := own || outer, outer }) ∧
      answers = ((begun accepts onError .own).actAll
        (acts.map (·.reaching link))).2 := by
  have spec := (begun accepts onError link).actAll_spec acts
  have alike := (begun accepts onError link).actAll_reaching acts
  refine ⟨spec.1, fun cancelled more => ?_, ?_, ?_⟩
  · exact actAll_of_isCancelled _ more cancelled
  · rw [spec.2]
    cases link with
    | own => rfl
    | shared => rfl
    | child => rfl
  · exact (congrArg Prod.snd alike).symm

/-- A child token is cancelled in the middle of a poll, through the outer one.
A fetch that would cancel the service is not made any more. -/
theorem cancelled_for_good_child :
    let poll (interruptions : Interruptions) : ServiceAct Nat String :=
      .poll { timeout := 60, interval := 10 } (by decide)
        [fun _ => { reply := some (2, .ok 0) },
          fun _ => { cancelling := some .asAsked, reply := some (0, .ok 7) }]
        interruptions
    let service := begun (7 ≤ ·) .proceed .child
    let reached := (service.actAll [.status, poll { outer := [20] }]).1
    reached.isCancelled = true ∧
      reached.tokens = { link := .child, service := true, outer := true } ∧
      ∀ answer ∈ (reached.actAll [poll {}, .status]).2,
        answer.isCancelled = true ∧ ∀ poll ∈ answer.polled,
          poll.phase = .over 0 .cancelled ∧ poll.calls = #[] := by
  intro poll service reached
  obtain ⟨-, stays, tokens, -⟩ := cancelled_for_good (7 ≤ ·) .proceed .child
    [.status, poll { outer := [20] }]
  have cancelled : reached.isCancelled = true := by decide
  exact ⟨cancelled, tokens, (stays cancelled [poll {}, .status]).2⟩

end PollService

end ScreenFlow
