import ScreenFlow.Proofs.Cutoff

/-!
# Cancelling cuts a poll short

A poll whose token is cancelled runs as it would have run without that, up to
the time of the cancellation, and ends there.  A fetch that cancels its own
poll as it is asked for its answer is different if it answers at once: its
answer is judged first.  One that cancels its poll as it is made is not asked.
`Poll.runAlone_cut_short` says so for every poll.
-/

namespace ScreenFlow

variable {Value Error : Type}

theorem Fetch.silent_or_later (fetch : Fetch Value Error)
    (later : ∀ answer, fetch.reply ≠ some (0, answer)) :
    fetch.reply = none ∨
      ∃ delay answer, fetch.reply = some (delay + 1, answer) := by
  match reply : fetch.reply with
  | none => exact .inl rfl
  | some (0, answer) => exact absurd reply (later answer)
  | some (delay + 1, answer) => exact .inr ⟨delay, answer, rfl⟩

namespace Script

/-- The same answers from fetches that cancel nothing. -/
def quieted (script : Script Value Error) : Script Value Error :=
  fun index => { script index with cancelling := none }

@[simp]
theorem cancels_quieted (script : Script Value Error) (index : Nat) :
    (script.quieted index).cancels = false :=
  rfl

@[simp]
theorem dueAt_quieted (script : Script Value Error) (settings : PollSettings)
    (index : Nat) :
    script.quieted.dueAt settings index = script.dueAt settings index := by
  induction index with
  | zero => rfl
  | succ index ih => simp only [dueAt, ih]; rfl

theorem verdict?_quieted (script : Script Value Error)
    (settings : PollSettings) (accepts : Value → Bool) (index : Nat) :
    script.quieted.verdict? settings accepts index =
      script.verdict? settings accepts index := by
  simp only [verdict?, dueAt_quieted]
  rfl

theorem decides_quieted (script : Script Value Error)
    (settings : PollSettings) (accepts : Value → Bool) (index : Nat) :
    script.quieted.Decides settings accepts index ↔
      script.Decides settings accepts index := by
  rw [← verdict?_isSome_iff, verdict?_quieted, verdict?_isSome_iff]

theorem callsBefore_quieted (script : Script Value Error)
    (settings : PollSettings) (now index : Nat) :
    script.quieted.callsBefore settings now index =
      script.callsBefore settings now index := by
  simp only [callsBefore, dueAt_quieted]

theorem getElem?_callsBefore_eq_some (script : Script Value Error)
    (settings : PollSettings) {now count index time : Nat} :
    (script.callsBefore settings now count)[index]? = some time ↔
      index < count ∧ time = now + script.dueAt settings index := by
  by_cases within : index < count
  · simp [callsBefore, within, eq_comm]
  · simp [callsBefore, within]

theorem take_callsBefore (script : Script Value Error)
    (settings : PollSettings) (now : Nat) {count index : Nat}
    (few : index ≤ count) :
    (script.callsBefore settings now count).toList.take index =
      (script.callsBefore settings now index).toList := by
  simp [callsBefore, ← List.map_take, List.take_range, Nat.min_eq_left few]

end Script

namespace Poll

/-! ## What is cut short -/

section

variable (accepts : Value → Bool) (script : Script Value Error)
  (settings : PollSettings) (now index : Nat)

theorem pausing_quieted :
    pausing script.quieted settings now index =
      pausing script settings now index := by
  simp only [pausing, underWay, Script.dueAt_quieted,
    Script.callsBefore_quieted]

theorem concluded_quieted :
    concluded accepts script.quieted settings now index =
      concluded accepts script settings now index := by
  simp only [concluded, afterAttempt, underWay, pausing_quieted,
    Script.dueAt_quieted, Script.verdict?_quieted,
    Script.callsBefore_quieted]

theorem calls_pausing :
    (pausing script settings now index).calls =
      script.callsBefore settings now index := by
  unfold pausing
  split <;> rfl

theorem calls_afterAttempt :
    (afterAttempt script settings accepts now index).calls =
      script.callsBefore settings now (index + 1) := by
  unfold afterAttempt
  split
  · rfl
  · exact calls_pausing script settings now (index + 1)

/-- If nobody cancels it a poll comes to its deciding attempt. -/
theorem runAlone_quieted (lead : Nat) (positive : 0 < settings.interval) :
    ∃ last, script.Decides settings accepts last ∧
      (∀ index < last, ¬ script.Decides settings accepts index) ∧
      2 * last + 2 ≤ reactionBound settings lead ∧
      (runAlone accepts script.quieted (reactionBound settings lead) none
        (start settings now false)).1 =
          concluded accepts script settings now last := by
  obtain ⟨last, few, decides, earlier⟩ :=
    script.exists_first_decides settings accepts positive
  have bound : 2 * last + 2 ≤ reactionBound settings lead := by
    unfold reactionBound
    rw [Nat.max_eq_left positive]
    omega
  have ran := runAlone_pausing now (fun index => rfl)
    ((script.decides_quieted settings accepts last).mpr decides)
    (fun index before decided => earlier index before
      ((script.decides_quieted settings accepts index).mp decided))
    last bound (Nat.zero_add last)
  rw [← start_eq_pausing, concluded_quieted] at ran
  exact ⟨last, decides, earlier, bound, congrArg Prod.fst ran⟩

variable {accepts script settings now}

theorem exists_concluded_over {last : Nat}
    (decides : script.Decides settings accepts last) :
    ∃ finish result,
      (concluded accepts script settings now last).phase =
        .over finish result := by
  by_cases late : settings.timeout < script.dueAt settings last
  · have finished : concluded accepts script settings now last =
        underWay script settings now last
          (.over (now + (script.dueAt settings last - settings.interval))
            .timedOut) := by
      rw [concluded, if_pos late, pausing, if_pos late]
    exact ⟨_, _, congrArg Poll.phase finished⟩
  · obtain ⟨⟨time, result⟩, verdict⟩ := Option.isSome_iff_exists.mp
      ((script.verdict?_isSome_iff settings accepts last).mpr decides)
    rw [concluded_of_verdict now last (Nat.le_of_not_lt late) verdict]
    exact ⟨_, _, rfl⟩

theorem of_getElem?_calls_concluded {last index time : Nat}
    (earlier : ∀ index < last, ¬ script.Decides settings accepts index)
    (made : (concluded accepts script settings now last).calls[index]? =
      some time) :
    index ≤ last ∧ script.dueAt settings index ≤ settings.timeout ∧
      time = now + script.dueAt settings index := by
  have before (ahead : index < last) :
      script.dueAt settings index ≤ settings.timeout :=
    Nat.le_of_not_lt fun late => earlier index ahead (.inl late)
  unfold concluded at made
  split at made
  next late =>
    rw [calls_pausing, Script.getElem?_callsBefore_eq_some] at made
    exact ⟨Nat.le_of_lt made.1, before made.1, made.2⟩
  next inTime =>
    rw [calls_afterAttempt, Script.getElem?_callsBefore_eq_some] at made
    obtain ⟨within, rfl⟩ := made
    rcases Nat.lt_or_eq_of_le (Nat.le_of_lt_succ within) with ahead | rfl
    · exact ⟨Nat.le_of_lt ahead, before ahead, rfl⟩
    · exact ⟨Nat.le_refl _, Nat.le_of_not_lt inTime, rfl⟩

theorem take_calls_concluded {last index : Nat} (few : index ≤ last)
    (inTime : script.dueAt settings index ≤ settings.timeout) :
    (concluded accepts script settings now last).calls.toList.take
        (index + 1) =
      (script.callsBefore settings now (index + 1)).toList := by
  unfold concluded
  split
  next late =>
    rw [calls_pausing]
    apply script.take_callsBefore
    have other : index ≠ last := by
      rintro rfl
      omega
    omega
  next =>
    rw [calls_afterAttempt]
    apply script.take_callsBefore
    omega

end

/-! ## Cancelling from outside before any fetch does -/

theorem call_quieted (poll : Poll Value Error) (accepts : Value → Bool)
    (script : Script Value Error) (index now : Nat) :
    poll.call accepts (script.quieted index) now false =
      poll.call accepts (script index) now false := by
  simp [call, ask, Script.quieted]

section

variable {accepts : Value → Bool} {script : Script Value Error}

/-- Only a fetch that is made before the cut can cancel a poll before it.  The
two polls go on alike until then. -/
theorem runAlone_eq_quieted {cut : Nat} (fuel : Nat) (poll : Poll Value Error)
    (quiet : ∀ index time,
      (runAlone accepts script.quieted fuel none poll).1.calls[index]? =
        some time → time < cut → (script index).cancels = false) :
    runAlone accepts script fuel (some cut) poll =
      runAlone accepts script.quieted fuel (some cut) poll := by
  induction fuel generalizing poll with
  | zero => rfl
  | succ fuel ih =>
      rcases next_cases poll (some cut) with
        ⟨time, result, finished⟩ | ⟨waits, ⟨other, same, due⟩ | ahead⟩
      · simp only [runAlone_of_over accepts _ finished]
      · cases same
        simp only [runAlone_of_cut_le waits due]
      · rw [runAlone_of_waits waits (by simp)] at quiet
        rw [runAlone_of_waits waits ahead, runAlone_of_waits waits ahead]
        rcases react_cases accepts waits with made | ⟨heard, -, heardAll⟩
        · simp only [made, Script.cancels_quieted, Bool.false_eq_true,
            if_false, call_quieted] at quiet ⊢
          obtain ⟨present, calls⟩ :=
            @call_keeps _ _ poll poll.eventTime accepts
              (script poll.calls.size) false
          have harmless : (script poll.calls.size).cancels = false := by
            refine quiet _ _ ?_ (ahead cut rfl)
            refine getElem?_calls_runAlone fuel present (by simp) ?_
            rw [calls, Array.getElem?_push_size]
          simp only [harmless, Bool.false_eq_true, if_false]
          exact ih _ quiet
        · simp only [heardAll, Bool.false_eq_true, if_false] at quiet ⊢
          exact ih heard quiet

/-- A poll that one of its fetches cancels does not notice that it is cancelled
from outside after that. -/
theorem runAlone_eq_uncut {cutoff : Option Nat} {index time : Nat}
    (cancels : (script index).cancels = true)
    (later : ∀ cut ∈ cutoff, time < cut) (fuel : Nat)
    (poll : Poll Value Error) (unmade : poll.calls.size ≤ index)
    (made : (runAlone accepts script fuel none poll).1.calls[index]? =
      some time) :
    runAlone accepts script fuel cutoff poll =
      runAlone accepts script fuel none poll := by
  have absent {other : Poll Value Error} (few : other.calls.size ≤ index) :
      other.calls[index]? ≠ some time := by
    rw [Array.getElem?_eq_none few]
    exact nofun
  induction fuel generalizing poll with
  | zero => exact absurd made (absent unmade)
  | succ fuel ih =>
      rcases over_or_due poll with ⟨finish, result, finished⟩ | waits
      · rw [runAlone_of_over accepts script finished] at made
        exact absurd made (absent unmade)
      · have before : poll.eventTime ≤ time := by
          obtain ⟨-, more, extended, after⟩ :=
            runAlone_later accepts script (fuel + 1) poll
          refine after time ?_
          rw [← Array.getElem?_toList, extended, List.getElem?_append_right
            (by simpa using unmade)] at made
          exact List.mem_of_getElem? made
        have ahead : ∀ cut ∈ cutoff, poll.eventTime < cut :=
          fun cut among => Nat.lt_of_le_of_lt before (later cut among)
        have uncut : ∀ cut ∈ (none : Option Nat), poll.eventTime < cut := by
          simp
        rw [runAlone_of_waits waits uncut] at made
        rw [runAlone_of_waits waits ahead, runAlone_of_waits waits uncut]
        rcases react_cases accepts waits with called | ⟨heard, same, heardAll⟩
        · simp only [called] at made ⊢
          cases itself : (script poll.calls.size).cancels with
          | true => rfl
          | false =>
              simp only [itself, Bool.false_eq_true, if_false] at made ⊢
              refine ih _ ?_ made
              have other : index ≠ poll.calls.size := by
                rintro rfl
                exact Bool.false_ne_true (itself.symm.trans cancels)
              rw [size_calls_call]
              omega
        · simp only [heardAll, Bool.false_eq_true, if_false] at made ⊢
          exact ih heard (same ▸ unmade) made

end

/-! ## Cancelling from inside -/

section

variable {accepts : Value → Bool} {script : Script Value Error}
  {settings : PollSettings} {now index : Nat}

theorem runAlone_reaches
    (undecided : ∀ earlier < index, ¬ script.Decides settings accepts earlier)
    (quiet : ∀ earlier < index, (script earlier).cancels = false) :
    ∃ spent ≤ 2 * index, ∀ fuel,
      runAlone accepts script (fuel + spent) none
          (start settings now false) =
        runAlone accepts script fuel none
          (pausing script settings now index) := by
  induction index with
  | zero =>
      refine ⟨0, Nat.le_refl 0, fun fuel => ?_⟩
      rw [start_eq_pausing script settings now]
      rfl
  | succ index ih =>
      obtain ⟨spent, few, reached⟩ := ih
        (fun earlier before => undecided earlier (Nat.lt_succ_of_lt before))
        (fun earlier before => quiet earlier (Nat.lt_succ_of_lt before))
      obtain ⟨more, two, passed⟩ := runAlone_pausing_of_not_decides now index
        (quiet index (Nat.lt_succ_self index))
        (undecided index (Nat.lt_succ_self index))
      refine ⟨more + spent, by omega, fun fuel => ?_⟩
      rw [← Nat.add_assoc, reached, passed]

/-- A poll right after it made a fetch that cancels it. -/
def cutByFetch (accepts : Value → Bool) (script : Script Value Error)
    (settings : PollSettings) (now index : Nat) : Poll Value Error :=
  (underWay script settings now index
      (.waiting (now + script.dueAt settings index))).call accepts
    (script index) (now + script.dueAt settings index) true

theorem cutByFetch_keeps :
    (cutByFetch accepts script settings now index).IsAt
        (now + script.dueAt settings index) ∧
      (cutByFetch accepts script settings now index).calls =
        script.callsBefore settings now (index + 1) := by
  obtain ⟨present, made⟩ := call_keeps accepts (script index) true
  exact ⟨present, made.trans (script.push_callsBefore settings now index)⟩

theorem runAlone_start_of_cancels
    (undecided : ∀ earlier < index, ¬ script.Decides settings accepts earlier)
    (quiet : ∀ earlier < index, (script earlier).cancels = false)
    (inTime : script.dueAt settings index ≤ settings.timeout)
    (cancels : (script index).cancels = true) {fuel : Nat}
    (enough : 2 * index + 2 ≤ fuel) :
    ∃ left,
      runAlone accepts script fuel none (start settings now false) =
        runAlone accepts script (left + 1)
          (some (now + script.dueAt settings index))
          (cutByFetch accepts script settings now index) := by
  obtain ⟨spent, few, reached⟩ := runAlone_reaches undecided quiet
  obtain ⟨left, rfl⟩ : ∃ left, fuel = left + 1 + 1 + spent :=
    ⟨fuel - spent - 2, by omega⟩
  have paused : pausing script settings now index =
      underWay script settings now index
        (.waiting (now + script.dueAt settings index)) := by
    rw [pausing, if_neg (Nat.not_lt.mpr inTime)]
  have reacted :
      (pausing script settings now index).react accepts script
          (now + script.dueAt settings index) false true =
        (cutByFetch accepts script settings now index, true) := by
    simp [paused, underWay, react, cancels, cutByFetch]
  have waits : (pausing script settings now index).due? =
      some (now + script.dueAt settings index) := by
    rw [paused]
    rfl
  refine ⟨left, ?_⟩
  rw [reached, runAlone, waits]
  simp only [Option.filter_none, reacted, if_true]

theorem runAlone_cutByFetch_of_not_over
    (unsettled : ∀ result,
      (cutByFetch accepts script settings now index).phase ≠
        .over (now + script.dueAt settings index) result)
    (left : Nat) :
    (runAlone accepts script (left + 1)
        (some (now + script.dueAt settings index))
        (cutByFetch accepts script settings now index)).1 =
      (cutByFetch accepts script settings now index).stop
        (now + script.dueAt settings index) .cancelled := by
  rcases cutByFetch_keeps.1 with ⟨result, finished⟩ | ⟨waits, later⟩
  · exact absurd finished (unsettled result)
  · exact congrArg Prod.fst (runAlone_of_cut_le waits later left)

theorem cutByFetch_of_asMade
    (unasked : (script index).cancelling = some .asMade) :
    cutByFetch accepts script settings now index =
      underWay script settings now (index + 1)
        (.over (now + script.dueAt settings index) .cancelled) := by
  simp [cutByFetch, call, unasked, stop, underWay, Script.push_callsBefore]

section

variable (asked : (script index).cancelling = some .asAsked)
include asked

theorem cutByFetch_of_asAsked :
    cutByFetch accepts script settings now index =
      (underWay script settings now (index + 1)
        (.waiting (now + script.dueAt settings index))).ask accepts
          (script index) (now + script.dueAt settings index) true := by
  simp [cutByFetch, call, asked, underWay, Script.push_callsBefore]

theorem cutByFetch_of_accepted {value : Value}
    (reply : (script index).reply = some (0, .ok value))
    (accepted : accepts value = true) :
    cutByFetch accepts script settings now index =
      underWay script settings now (index + 1)
        (.over (now + script.dueAt settings index) (.matched value)) := by
  rw [cutByFetch_of_asAsked asked]
  simp [ask, reply, judge, accepted, stop, underWay]

theorem cutByFetch_of_abort {error : Error}
    (reply : (script index).reply = some (0, .error error))
    (policy : settings.onError = .abort) :
    cutByFetch accepts script settings now index =
      underWay script settings now (index + 1)
        (.over (now + script.dueAt settings index)
          (.failed (index + 1) error)) := by
  rw [cutByFetch_of_asAsked asked]
  simp [ask, reply, judge, policy, stop, underWay]

theorem cutByFetch_of_passed {answer : Except Error Value}
    (reply : (script index).reply = some (0, answer))
    (refused : ∀ value, answer = .ok value → accepts value = false)
    (goesOn : ∀ error, answer = .error error →
      settings.onError = .proceed) :
    cutByFetch accepts script settings now index =
      underWay script settings now (index + 1)
        (.over (now + script.dueAt settings index) .cancelled) := by
  rw [cutByFetch_of_asAsked asked]
  cases answer with
  | ok value => simp [ask, reply, judge, refused value rfl, rest, stop, underWay]
  | error error =>
      simp [ask, reply, judge, goesOn error rfl, rest, stop, underWay]

theorem cutByFetch_of_late
    (later : ∀ answer, (script index).reply ≠ some (0, answer))
    (late : settings.timeout ≤ script.dueAt settings index) :
    cutByFetch accepts script settings now index =
      underWay script settings now (index + 1)
        (.over (now + script.dueAt settings index) .timedOut) := by
  rw [cutByFetch_of_asAsked asked]
  rcases (script index).silent_or_later later with
    reply | ⟨delay, answer, reply⟩
  · simp [ask, reply, underWay, stop, late]
  · simp [ask, reply, underWay, stop, late]

theorem cutByFetch_of_early
    (later : ∀ answer, (script index).reply ≠ some (0, answer))
    (early : script.dueAt settings index < settings.timeout)
    (result : PollResult Value Error) :
    (cutByFetch accepts script settings now index).phase ≠
      .over (now + script.dueAt settings index) result := by
  have pending : ¬ settings.timeout ≤ script.dueAt settings index :=
    Nat.not_le.mpr early
  rw [cutByFetch_of_asAsked asked]
  rcases (script index).silent_or_later later with
    reply | ⟨delay, answer, reply⟩
  · simp [ask, reply, underWay, pending]
  · simp [ask, reply, underWay, pending]

end

end

/-- How a poll that began at `now` ends if the fetch with the number `index`,
made at `time`, cancels it as it is asked for its answer, compared with the
same poll undisturbed. -/
structure EndsByFetch (accepts : Value → Bool) (script : Script Value Error)
    (settings : PollSettings) (now : Nat)
    (undisturbed ended : Poll Value Error) (index time : Nat) : Prop where
  matched : ∀ value, (script index).reply = some (0, .ok value) →
    accepts value = true →
      ended = undisturbed ∧ ended.phase = .over time (.matched value)
  failed : ∀ error, (script index).reply = some (0, .error error) →
    settings.onError = .abort →
      ended = undisturbed ∧ ended.phase = .over time (.failed (index + 1) error)
  /-- An answer that is there at once and settles nothing. -/
  passed : ∀ answer, (script index).reply = some (0, answer) →
    (∀ value, answer = .ok value → accepts value = false) →
    (∀ error, answer = .error error → settings.onError = .proceed) →
      ended.phase = .over time .cancelled ∧
        ended.calls.toList = undisturbed.calls.toList.take (index + 1)
  /-- An answer that is not there at once is not waited for. -/
  waited : (∀ answer, (script index).reply ≠ some (0, answer)) →
    time < now + settings.timeout →
      ended.phase = .over time .cancelled ∧
        ended.calls.toList = undisturbed.calls.toList.take (index + 1)
  timedOut : (∀ answer, (script index).reply ≠ some (0, answer)) →
    time = now + settings.timeout →
      ended = undisturbed ∧ ended.phase = .over time .timedOut

section

variable {accepts : Value → Bool} {script : Script Value Error}
  {settings : PollSettings} {now last index : Nat}

theorem concluded_of_made
    (earlier : ∀ index < last, ¬ script.Decides settings accepts index)
    (few : index ≤ last)
    (inTime : script.dueAt settings index ≤ settings.timeout)
    {time : Nat} {result : PollResult Value Error}
    (verdict : script.verdict? settings accepts index =
      some (time, result)) :
    concluded accepts script settings now last =
      underWay script settings now (index + 1)
        (.over (now + time) result) := by
  have decides : script.Decides settings accepts index := by
    rw [← Script.verdict?_isSome_iff, verdict]
    rfl
  obtain rfl : index = last := by
    rcases Nat.lt_or_eq_of_le few with before | same
    · exact absurd decides (earlier index before)
    · exact same
  exact concluded_of_verdict now index inTime verdict

theorem runAlone_cutByFetch_of_settled
    (earlier : ∀ index < last, ¬ script.Decides settings accepts index)
    (few : index ≤ last)
    (inTime : script.dueAt settings index ≤ settings.timeout)
    {result : PollResult Value Error}
    (verdict : script.verdict? settings accepts index =
      some (script.dueAt settings index, result))
    (settled : cutByFetch accepts script settings now index =
      underWay script settings now (index + 1)
        (.over (now + script.dueAt settings index) result))
    (fuel : Nat) (cutoff : Option Nat) :
    let ended := (runAlone accepts script fuel cutoff
      (cutByFetch accepts script settings now index)).1
    ended = concluded accepts script settings now last ∧
      ended.phase = .over (now + script.dueAt settings index) result := by
  rw [concluded_of_made earlier few inTime verdict, settled,
    runAlone_of_over accepts script rfl]
  exact ⟨rfl, rfl⟩

/-- The poll makes the fetch when it would make it undisturbed, since nothing
cancelled it before.  So it is not noticed if the poll is cancelled from
outside after that. -/
theorem runAlone_start_of_later
    (earlier : ∀ index < last, ¬ script.Decides settings accepts index)
    (few : index ≤ last)
    (inTime : script.dueAt settings index ≤ settings.timeout)
    (cancels : (script index).cancels = true)
    (quiet : ∀ earlier < index, (script earlier).cancels = false)
    {fuel : Nat} (enough : 2 * index + 2 ≤ fuel) {cutoff : Option Nat}
    (later : ∀ cut ∈ cutoff, now + script.dueAt settings index < cut) :
    ∃ left,
      runAlone accepts script fuel cutoff (start settings now false) =
        runAlone accepts script (left + 1)
          (some (now + script.dueAt settings index))
          (cutByFetch accepts script settings now index) := by
  obtain ⟨left, ran⟩ := runAlone_start_of_cancels
    (fun other before => earlier other (Nat.lt_of_lt_of_le before few))
    quiet inTime cancels enough
  obtain ⟨present, calls⟩ :=
    @cutByFetch_keeps _ _ accepts script settings now index
  have unmade : (start settings now false : Poll Value Error).calls = #[] :=
    (rest_keeps false).2
  refine ⟨left, Eq.trans ?_ ran⟩
  refine runAlone_eq_uncut cancels later fuel _ (by simp [unmade]) ?_
  rw [ran]
  refine getElem?_calls_runAlone _ present (by simp) ?_
  rw [calls, Script.getElem?_callsBefore_eq_some]
  exact ⟨Nat.lt_succ_self index, rfl⟩

/-- The reply to a fetch that cancels its poll as it is asked says how the poll
ends. -/
theorem endsByFetch
    (earlier : ∀ index < last, ¬ script.Decides settings accepts index)
    (few : index ≤ last)
    (inTime : script.dueAt settings index ≤ settings.timeout)
    (asked : (script index).cancelling = some .asAsked) (left : Nat) :
    EndsByFetch accepts script settings now
      (concluded accepts script settings now last)
      (runAlone accepts script (left + 1)
        (some (now + script.dueAt settings index))
        (cutByFetch accepts script settings now index)).1 index
      (now + script.dueAt settings index) := by
  have counted : (concluded accepts script settings now last).calls.toList.take
      (index + 1) = (script.callsBefore settings now (index + 1)).toList :=
    take_calls_concluded few inTime
  constructor
  case matched =>
    intro value reply accepted
    have decides : script.Decides settings accepts index :=
      .inr (.inr (.inl ⟨0, value, reply, accepted⟩))
    exact runAlone_cutByFetch_of_settled earlier few inTime
      (script.verdict?_of_value settings accepts decides reply inTime)
      (cutByFetch_of_accepted asked reply accepted) _ _
  case failed =>
    intro error reply policy
    have decides : script.Decides settings accepts index :=
      .inr (.inr (.inr ⟨0, error, reply, policy⟩))
    exact runAlone_cutByFetch_of_settled earlier few inTime
      (script.verdict?_of_error settings accepts decides reply inTime)
      (cutByFetch_of_abort asked reply policy) _ _
  case passed =>
    intro answer reply refused goesOn
    rw [cutByFetch_of_passed asked reply refused goesOn,
      runAlone_of_over accepts script rfl, counted]
    exact ⟨rfl, rfl⟩
  case waited =>
    intro later early
    -- The fetch is still being waited for when its token is seen to be
    -- cancelled, at the same time.
    have inside : script.dueAt settings index < settings.timeout :=
      Nat.lt_of_add_lt_add_left early
    rw [runAlone_cutByFetch_of_not_over
      (cutByFetch_of_early asked later inside), counted]
    exact ⟨rfl, congrArg Array.toList cutByFetch_keeps.2⟩
  case timedOut =>
    intro later reached
    have due : script.dueAt settings index = settings.timeout := by omega
    have unheard : ∀ delay answer,
        (script index).reply = some (delay, answer) →
          settings.timeout < script.dueAt settings index + delay := by
      intro delay answer reply
      have positive : delay ≠ 0 := by
        rintro rfl
        exact later answer reply
      omega
    have verdict := script.verdict?_of_unheard settings accepts inTime unheard
    rw [← due] at verdict
    exact runAlone_cutByFetch_of_settled earlier few inTime verdict
      (cutByFetch_of_late asked later (Nat.le_of_eq due.symm)) _ _

end

/-- Cancelling a poll cuts it short and changes nothing before that.  If no
fetch that is made before cancels it, a poll that is cancelled from outside is
the same as undisturbed if it ends before that, and otherwise ends at that time
with the fetches it made before; one that is cancelled before it starts makes
none.  The first fetch that cancels its poll ends it there if it does so as it
is made; if it does so as it is asked for its answer, see `EndsByFetch`.
Either way it does not matter whether the poll is cancelled again later. -/
theorem runAlone_cut_short (accepts : Value → Bool)
    (script : Script Value Error) (settings : PollSettings) (now lead : Nat)
    (positive : 0 < settings.interval) :
    let run (script : Script Value Error) (cutoff : Option Nat)
        (isCancelled : Bool) : Poll Value Error :=
      (runAlone accepts script (reactionBound settings lead) cutoff
        (start settings now isCancelled)).1
    let undisturbed := run script.quieted none false
    let QuietBefore (cut : Nat) : Prop :=
      ∀ index time, undisturbed.calls[index]? = some time → time < cut →
        (script index).cancels = false
    ∃ finish result, undisturbed.phase = .over finish result ∧
      (∀ cut, finish < cut → QuietBefore cut →
        run script (some cut) false = undisturbed) ∧
      (∀ cut, now ≤ cut → cut < finish → QuietBefore cut →
        (run script (some cut) false).phase = .over cut .cancelled ∧
          (run script (some cut) false).calls.toList =
            undisturbed.calls.toList.filter (· < cut)) ∧
      (∀ cutoff,
        (run script cutoff true).phase = .over now .cancelled ∧
          (run script cutoff true).calls = #[]) ∧
      ∀ index time cutoff, undisturbed.calls[index]? = some time →
        (script index).cancels = true →
        (∀ earlier < index, (script earlier).cancels = false) →
        (∀ cut ∈ cutoff, time < cut) →
          ((script index).cancelling = some .asMade →
            (run script cutoff false).phase = .over time .cancelled ∧
              (run script cutoff false).calls.toList =
                undisturbed.calls.toList.take (index + 1)) ∧
          ((script index).cancelling = some .asAsked →
            EndsByFetch accepts script settings now undisturbed
              (run script cutoff false) index time) := by
  intro run undisturbed QuietBefore
  obtain ⟨last, decides, earlier, enough, concludes⟩ :=
    runAlone_quieted accepts script settings now lead positive
  have undisturbed_eq :
      undisturbed = concluded accepts script settings now last := concludes
  obtain ⟨finish, result, ends⟩ :
      ∃ finish result, undisturbed.phase = .over finish result := by
    rw [undisturbed_eq]
    exact exists_concluded_over decides
  have run_eq {cut : Nat} (quiet : QuietBefore cut) :
      run script (some cut) false = run script.quieted (some cut) false :=
    congrArg Prod.fst (runAlone_eq_quieted _ _ quiet)
  refine ⟨finish, result, ends, ?_, ?_, ?_, ?_⟩
  · intro cut after quiet
    rw [run_eq quiet]
    exact runAlone_of_cut_after (fun index => rfl) after _ _ ends
  · intro cut began before quiet
    rw [run_eq quiet]
    exact runAlone_start_of_cut_before (fun index => rfl) began before ends
  · intro cutoff
    have stopped : run script cutoff true = start settings now true :=
      congrArg Prod.fst (runAlone_of_over accepts script rfl _ cutoff)
    rw [stopped]
    exact ⟨rfl, rfl⟩
  · intro index time cutoff made cancels quiet later
    rw [undisturbed_eq] at made ⊢
    obtain ⟨few, inTime, rfl⟩ := of_getElem?_calls_concluded earlier made
    have fuel : 2 * index + 2 ≤ reactionBound settings lead := by omega
    obtain ⟨left, ran⟩ :=
      runAlone_start_of_later earlier few inTime cancels quiet fuel later
    have cut_eq : run script cutoff false =
        (runAlone accepts script (left + 1)
          (some (now + script.dueAt settings index))
          (cutByFetch accepts script settings now index)).1 :=
      congrArg Prod.fst ran
    rw [cut_eq]
    constructor
    · intro unasked
      rw [cutByFetch_of_asMade unasked, runAlone_of_over accepts script rfl,
        take_calls_concluded few inTime]
      exact ⟨rfl, rfl⟩
    · intro asked
      exact endsByFetch earlier few inTime asked left

/-- The second fetch would be answered with an accepted value at 125.  The poll
may be cancelled before that fetch, or by it. -/
theorem runAlone_cut_short_second_fetch :
    let settings : PollSettings := { timeout := 25, interval := 10 }
    let script : Script Nat String := fun index =>
      { cancelling := if index = 1 then some .asAsked else none
        reply := some (if index = 0 then (3, .ok 0) else (2, .ok 7)) }
    let run (script : Script Nat String) (cutoff : Option Nat) :
        Poll Nat String :=
      (runAlone (7 ≤ ·) script (reactionBound settings 2) cutoff
        (start settings 100 false)).1
    0 < settings.interval ∧
      (run script.quieted none).phase = .over 125 (.matched 7) ∧
      (run script (some 120)).phase = .over 120 .cancelled ∧
      (run script (some 120)).calls.toList = [110] ∧
      (run script (some 130)).phase = .over 123 .cancelled ∧
      (run script (some 130)).calls.toList = [110, 123] := by
  intro settings script run
  have undisturbed :
      (runAlone (7 ≤ ·) script.quieted (reactionBound settings 2) none
          (start settings 100 false)).1 =
        { settings
          deadline := 125
          calls := #[110, 123]
          phase := .over 125 (.matched 7) } := rfl
  have short := runAlone_cut_short (7 ≤ ·) script settings 100 2 (by decide)
  simp only [undisturbed] at short
  obtain ⟨finish, result, ends, -, cut, -, own⟩ := short
  cases ends
  have quiet : ∀ index time, #[110, 123][index]? = some time → time < 120 →
      (script index).cancels = false
    | 0, _, _, _ => rfl
    | 1, _, rfl, early => absurd early (by decide)
  obtain ⟨stopped, made⟩ := cut 120 (by decide) (by decide) quiet
  obtain ⟨itself, counted⟩ :=
    ((own 1 123 (some 130) rfl rfl (by decide) (by simp)).2 rfl).waited
      (by simp [script]) (by decide)
  simp only [run, undisturbed]
  exact ⟨by decide, trivial, stopped, made, itself, counted⟩

/-- A fetch that cancels its poll as it is made is not asked for the accepted
value that it would give at once.  And a poll that one of its fetches cancels
is cut short though it is cancelled from outside only after it would have
ended. -/
theorem runAlone_cut_short_unasked :
    let settings : PollSettings := { timeout := 25, interval := 10 }
    let script (moment : CancelMoment) (delay : Nat) : Script Nat String :=
      fun _ => { cancelling := some moment, reply := some (delay, .ok 7) }
    let phase (script : Script Nat String) (cutoff : Option Nat) :
        PollPhase Nat String :=
      (runAlone (7 ≤ ·) script (reactionBound settings 1) cutoff
        (start settings 100 false)).1.phase
    phase (script .asMade 0).quieted none = .over 110 (.matched 7) ∧
      phase (script .asMade 0) none = .over 110 .cancelled ∧
      phase (script .asAsked 2).quieted none = .over 112 (.matched 7) ∧
      phase (script .asAsked 2) (some 130) = .over 110 .cancelled :=
  ⟨rfl, rfl, rfl, rfl⟩

end Poll

namespace PollService

/-- What a service polls is a run that is cancelled when the interruptions
reach its token. -/
theorem poll_eq_runAlone_cutoff (service : PollService Value)
    (settings : PollSettings) (fetches : List (Nat → Fetch Value Error))
    (interruptions : Interruptions) :
    (service.poll settings fetches interruptions).2 =
      (Poll.runAlone service.accepts (.ofList fetches)
        (Poll.reactionBound settings fetches.length)
        (interruptions.cutoff service.tokens.link)
        (.start settings 0 service.isCancelled)).1 := by
  unfold poll
  simp only
  split <;> (try split) <;> rfl

end PollService

end ScreenFlow
