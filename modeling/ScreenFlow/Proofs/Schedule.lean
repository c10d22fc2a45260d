import Mathlib.Data.Nat.Find
import ScreenFlow.PollService

/-!
# The schedule of a poll

When a poll makes its fetches, and how it ends, can be read off its settings
and the answers it gets: each fetch comes one interval after the answer to the
one before, and the first attempt that settles the matter is the last one.
`Poll.runAlone_follows_schedule` says that a poll that nobody cancels runs
exactly like that.
-/

namespace ScreenFlow

variable {Value Error : Type}

/-- How long a fetch takes, if it answers at all. -/
def Fetch.delay (fetch : Fetch Value Error) : Nat :=
  (fetch.reply.map Prod.fst).getD 0

namespace Script

/-- When a fetch is due, counted from the start of the poll. -/
def dueAt (script : Script Value Error) (settings : PollSettings) :
    Nat → Nat
  | 0 => settings.interval
  | index + 1 =>
      script.dueAt settings index + (script index).delay + settings.interval

/-- Whether an attempt is the last one if the poll comes to it: it would be too
late, its answer does not come in time, or its answer ends the poll. -/
def Decides (script : Script Value Error) (settings : PollSettings)
    (accepts : Value → Bool) (index : Nat) : Prop :=
  settings.timeout < script.dueAt settings index ∨
    (∀ delay answer, (script index).reply = some (delay, answer) →
      settings.timeout < script.dueAt settings index + delay) ∨
    (∃ delay value, (script index).reply = some (delay, .ok value) ∧
      accepts value = true) ∨
    ∃ delay error, (script index).reply = some (delay, .error error) ∧
      settings.onError = .abort

/-- When and how a poll ends with an attempt, if it does. -/
def verdict? (script : Script Value Error) (settings : PollSettings)
    (accepts : Value → Bool) (index : Nat) :
    Option (Nat × PollResult Value Error) :=
  let due := script.dueAt settings index
  if settings.timeout < due then
    some (due - settings.interval, .timedOut)
  else
    match (script index).reply with
    | none => some (settings.timeout, .timedOut)
    | some (delay, answer) =>
        if settings.timeout < due + delay then
          some (settings.timeout, .timedOut)
        else
          match answer with
          | .ok value =>
              if accepts value then some (due + delay, .matched value)
              else none
          | .error error =>
              match settings.onError with
              | .proceed => none
              | .abort => some (due + delay, .failed (index + 1) error)

variable (script : Script Value Error) (settings : PollSettings)
  (accepts : Value → Bool)

theorem verdict?_isSome_iff (index : Nat) :
    (script.verdict? settings accepts index).isSome = true ↔
      script.Decides settings accepts index := by
  unfold verdict? Decides
  by_cases late : settings.timeout < script.dueAt settings index
  · simp [late]
  · cases reply : (script index).reply with
    | none => simp [late]
    | some answered =>
        obtain ⟨delay, answer⟩ := answered
        by_cases unheard :
            settings.timeout < script.dueAt settings index + delay
        · simp [late, unheard]
        · cases answer with
          | ok value => simp [late, unheard, and_assoc]
          | error error =>
              cases policy : settings.onError <;> simp [late, unheard]

theorem verdict?_of_unheard {index : Nat}
    (inTime : script.dueAt settings index ≤ settings.timeout)
    (unheard : ∀ delay answer, (script index).reply = some (delay, answer) →
      settings.timeout < script.dueAt settings index + delay) :
    script.verdict? settings accepts index =
      some (settings.timeout, .timedOut) := by
  have due : ¬ settings.timeout < script.dueAt settings index := by omega
  unfold verdict?
  cases reply : (script index).reply with
  | none => simp [due]
  | some answered =>
      obtain ⟨delay, answer⟩ := answered
      simp [due, unheard delay answer reply]

theorem verdict?_of_value {index delay : Nat} {value : Value}
    (decides : script.Decides settings accepts index)
    (reply : (script index).reply = some (delay, .ok value))
    (heard : script.dueAt settings index + delay ≤ settings.timeout) :
    script.verdict? settings accepts index =
      some (script.dueAt settings index + delay, .matched value) := by
  have due : ¬ settings.timeout < script.dueAt settings index := by omega
  have answered :
      ¬ settings.timeout < script.dueAt settings index + delay := by
    omega
  rw [← script.verdict?_isSome_iff settings accepts index] at decides
  cases accepted : accepts value with
  | false => simp [verdict?, due, reply, answered, accepted] at decides
  | true => simp [verdict?, due, reply, answered, accepted]

theorem verdict?_of_error {index delay : Nat} {error : Error}
    (decides : script.Decides settings accepts index)
    (reply : (script index).reply = some (delay, .error error))
    (heard : script.dueAt settings index + delay ≤ settings.timeout) :
    script.verdict? settings accepts index =
      some (script.dueAt settings index + delay,
        .failed (index + 1) error) := by
  have due : ¬ settings.timeout < script.dueAt settings index := by omega
  have answered :
      ¬ settings.timeout < script.dueAt settings index + delay := by
    omega
  rw [← script.verdict?_isSome_iff settings accepts index] at decides
  cases policy : settings.onError with
  | proceed => simp [verdict?, due, reply, answered, policy] at decides
  | abort => simp [verdict?, due, reply, answered, policy]

theorem mul_interval_le_dueAt (index : Nat) :
    (index + 1) * settings.interval ≤ script.dueAt settings index := by
  induction index with
  | zero => simp [dueAt]
  | succ index ih =>
      calc
        (index + 1 + 1) * settings.interval =
            (index + 1) * settings.interval + settings.interval :=
          Nat.succ_mul _ _
        _ ≤ script.dueAt settings (index + 1) := by
          simp only [dueAt]
          omega

theorem interval_le_dueAt (index : Nat) :
    settings.interval ≤ script.dueAt settings index := by
  cases index <;> simp [dueAt]

/-- The attempt that would come after the whole timeout has been spent on
pauses comes too late. -/
theorem decides_timeout_div_interval (positive : 0 < settings.interval) :
    script.Decides settings accepts
      (settings.timeout / settings.interval) := by
  have late := Nat.lt_mul_div_succ settings.timeout positive
  have due := script.mul_interval_le_dueAt settings
    (settings.timeout / settings.interval)
  rw [Nat.mul_comm] at due
  exact .inl (Nat.lt_of_lt_of_le late due)

theorem exists_first_decides (positive : 0 < settings.interval) :
    ∃ last ≤ settings.timeout / settings.interval,
      script.Decides settings accepts last ∧
        ∀ index < last, ¬ script.Decides settings accepts index := by
  classical
  have bound := script.decides_timeout_div_interval settings accepts positive
  have found : ∃ index, script.Decides settings accepts index := ⟨_, bound⟩
  exact ⟨Nat.find found, Nat.find_min' found bound, Nat.find_spec found,
    fun index earlier => Nat.find_min found earlier⟩

/-- When the fetches before an attempt are made in a poll that starts at
`now`. -/
def callsBefore (now index : Nat) : Array Nat :=
  ((List.range index).map fun earlier =>
    now + script.dueAt settings earlier).toArray

@[simp]
theorem size_callsBefore (now index : Nat) :
    (script.callsBefore settings now index).size = index := by
  simp [callsBefore]

@[simp]
theorem push_callsBefore (now index : Nat) :
    (script.callsBefore settings now index).push
        (now + script.dueAt settings index) =
      script.callsBefore settings now (index + 1) := by
  simp [callsBefore, List.range_succ]

end Script

namespace Poll

section

variable (script : Script Value Error) (settings : PollSettings)
  (accepts : Value → Bool) (now index : Nat)

/-- A poll that began at `now` and has come to an attempt. -/
def underWay (phase : PollPhase Value Error) : Poll Value Error :=
  { settings
    deadline := now + settings.timeout
    calls := script.callsBefore settings now index
    phase }

/-- A poll that has paused before an attempt, unless that would come too
late. -/
def pausing : Poll Value Error :=
  if settings.timeout < script.dueAt settings index then
    underWay script settings now index
      (.over (now + (script.dueAt settings index - settings.interval))
        .timedOut)
  else
    underWay script settings now index
      (.waiting (now + script.dueAt settings index))

/-- A poll after an attempt: over, or about to pause before the next one. -/
def afterAttempt : Poll Value Error :=
  match script.verdict? settings accepts index with
  | some (time, result) =>
      underWay script settings now (index + 1) (.over (now + time) result)
  | none => pausing script settings now (index + 1)

theorem rest_underWay (phase : PollPhase Value Error) :
    (underWay script settings now index phase).rest
        (now + (script.dueAt settings index - settings.interval)) false =
      pausing script settings now index := by
  have pause := script.interval_le_dueAt settings index
  have paused :
      now + (script.dueAt settings index - settings.interval) +
        settings.interval = now + script.dueAt settings index := by
    omega
  simp [rest, pausing, underWay, stop, paused]

theorem start_eq_pausing :
    start settings now false = pausing script settings now 0 := by
  have rested := rest_underWay script settings now 0 (.waiting now)
  simpa [Script.dueAt, start, underWay, Script.callsBefore] using rested

theorem judge_underWay {delay : Nat} {answer : Except Error Value}
    (reply : (script index).reply = some (delay, answer))
    (heard : script.dueAt settings index + delay ≤ settings.timeout)
    (phase : PollPhase Value Error) :
    (underWay script settings now (index + 1) phase).judge accepts answer
        (now + (script.dueAt settings index + delay)) false =
      afterAttempt script settings accepts now index := by
  have inTime : ¬ settings.timeout < script.dueAt settings index := by omega
  have answered :
      ¬ settings.timeout < script.dueAt settings index + delay := by
    omega
  have rested := rest_underWay script settings now (index + 1) phase
  simp only [Script.dueAt, Fetch.delay, reply, Option.map_some,
    Option.getD_some, Nat.add_sub_cancel] at rested
  unfold afterAttempt Script.verdict? judge
  cases answer with
  | ok value =>
      by_cases accepted : accepts value = true
      · simp [inTime, reply, answered, accepted, underWay, stop]
      · simpa [inTime, reply, answered, accepted] using rested
  | error error =>
      cases policy : settings.onError with
      | proceed =>
          have kept : (underWay script settings now (index + 1)
              phase).settings.onError = .proceed := policy
          simpa [inTime, reply, answered, policy, kept] using rested
      | abort =>
          simp [inTime, reply, answered, policy, underWay, stop]

theorem afterAttempt_of_unheard
    (inTime : script.dueAt settings index ≤ settings.timeout)
    (unheard : ∀ delay answer, (script index).reply = some (delay, answer) →
      settings.timeout < script.dueAt settings index + delay) :
    afterAttempt script settings accepts now index =
      underWay script settings now (index + 1)
        (.over (now + settings.timeout) .timedOut) := by
  have verdict := script.verdict?_of_unheard settings accepts inTime unheard
  simp [afterAttempt, verdict]

end

/-! ## One attempt after the other -/

section

variable (accepts : Value → Bool) (script : Script Value Error)

theorem runAlone_of_over {poll : Poll Value Error} {time : Nat}
    {result : PollResult Value Error} (finished : poll.phase = .over time result)
    (fuel : Nat) (cutoff : Option Nat) :
    runAlone accepts script fuel cutoff poll = (poll, cutoff) := by
  cases fuel with
  | zero => rfl
  | succ fuel => simp [runAlone, due?, finished]

theorem runAlone_of_due (poll : Poll Value Error) (due : Nat)
    (waits : poll.due? = some due)
    (quiet : (poll.react accepts script due false true).2 = false)
    (fuel : Nat) :
    runAlone accepts script (fuel + 1) none poll =
      runAlone accepts script fuel none
        (poll.react accepts script due false true).1 := by
  simp [runAlone, waits, quiet]

theorem react_of_heard (poll : Poll Value Error) {time : Nat}
    {answer : Except Error Value}
    (fetching : poll.phase = .fetching (some (time, answer))) :
    poll.react accepts script time false true =
      (poll.judge accepts answer time false, false) := by
  simp [react, fetching, Option.filter_some]

theorem react_of_unheard (poll : Poll Value Error)
    {reply : Option (Nat × Except Error Value)}
    (fetching : poll.phase = .fetching reply)
    (silent : ∀ time answer, reply = some (time, answer) →
      poll.deadline < time) :
    poll.react accepts script poll.deadline false true =
      (poll.stop poll.deadline .timedOut, false) := by
  cases reply with
  | none => simp [react, fetching]
  | some answered =>
      obtain ⟨time, answer⟩ := answered
      have late := silent time answer rfl
      simp [react, fetching, Option.filter_some, Nat.not_le.mpr late]

variable (settings : PollSettings) (now index : Nat)

theorem react_underWay_waiting (quiet : (script index).cancels = false)
    (due : Nat) :
    (underWay script settings now index (.waiting due)).react accepts script
        due false true =
      ((underWay script settings now index (.waiting due)).call accepts
        (script index) due false, false) := by
  simp [react, underWay, quiet]

theorem call_underWay_at_once {answer : Except Error Value}
    (reply : (script index).reply = some (0, answer))
    (inTime : script.dueAt settings index ≤ settings.timeout)
    (phase : PollPhase Value Error) :
    (underWay script settings now index phase).call accepts (script index)
        (now + script.dueAt settings index) false =
      afterAttempt script settings accepts now index := by
  have judged := judge_underWay script settings accepts now index reply
    inTime phase
  simpa [call, ask, reply, underWay] using judged

theorem call_underWay_later
    (later : ∀ answer, (script index).reply ≠ some (0, answer))
    (phase : PollPhase Value Error) :
    (underWay script settings now index phase).call accepts (script index)
        (now + script.dueAt settings index) false =
      if settings.timeout ≤ script.dueAt settings index then
        underWay script settings now (index + 1)
          (.over (now + script.dueAt settings index) .timedOut)
      else
        underWay script settings now (index + 1)
          (.fetching ((script index).reply.map fun answered =>
            (now + script.dueAt settings index + answered.1,
              answered.2))) := by
  cases reply : (script index).reply with
  | none => simp [call, ask, reply, underWay, stop]
  | some answered =>
      obtain ⟨delay, answer⟩ := answered
      cases delay with
      | zero => exact absurd reply (later answer)
      | succ delay => simp [call, ask, reply, underWay, stop]

/-- A fetch that is waited for is judged when it answers, or given up at the
deadline. -/
theorem runAlone_fetching
    (inTime : script.dueAt settings index ≤ settings.timeout) (fuel : Nat) :
    runAlone accepts script (fuel + 1) none
        (underWay script settings now (index + 1)
          (.fetching ((script index).reply.map fun answered =>
            (now + script.dueAt settings index + answered.1,
              answered.2)))) =
      runAlone accepts script fuel none
        (afterAttempt script settings accepts now index) := by
  by_cases heard : ∃ delay answer,
      (script index).reply = some (delay, answer) ∧
        script.dueAt settings index + delay ≤ settings.timeout
  · obtain ⟨delay, answer, reply, heard⟩ := heard
    let waiting := underWay script settings now (index + 1)
      (.fetching (some (now + (script.dueAt settings index + delay), answer)))
    have due : waiting.due? =
        some (now + (script.dueAt settings index + delay)) := by
      simp only [waiting, due?, underWay, Option.some.injEq]
      omega
    have reacted := react_of_heard accepts script waiting rfl
    simp only [reply, Option.map_some, Nat.add_assoc]
    rw [runAlone_of_due accepts script waiting _ due
        (congrArg Prod.snd reacted), reacted,
      judge_underWay script settings accepts now index reply heard]
  · have silent : ∀ delay answer,
        (script index).reply = some (delay, answer) →
          settings.timeout < script.dueAt settings index + delay :=
      fun delay answer reply => Nat.lt_of_not_le
        fun early => heard ⟨delay, answer, reply, early⟩
    let waiting := underWay script settings now (index + 1)
      (.fetching ((script index).reply.map fun answered =>
        (now + script.dueAt settings index + answered.1, answered.2)))
    have due : waiting.due? = some (now + settings.timeout) := by
      cases reply : (script index).reply with
      | none => simp [waiting, due?, underWay, reply]
      | some answered =>
          have late := silent answered.1 answered.2 reply
          simp only [waiting, due?, underWay, reply, Option.map_some,
            Option.some.injEq]
          omega
    have reacted := react_of_unheard accepts script waiting rfl (by
      intro time answer answered
      obtain ⟨⟨delay, given⟩, reply, same⟩ :=
        Option.map_eq_some_iff.mp answered
      cases same
      have late := silent delay given reply
      simp only [waiting, underWay]
      omega)
    rw [runAlone_of_due accepts script waiting _ due
        (congrArg Prod.snd reacted),
      afterAttempt_of_unheard script settings accepts now index inTime silent]
    exact congrArg (runAlone accepts script fuel none)
      (congrArg Prod.fst reacted)

/-- An attempt takes at most two reactions: one to make the fetch, and one to
hear the answer. -/
theorem runAlone_attempt (quiet : (script index).cancels = false)
    (inTime : script.dueAt settings index ≤ settings.timeout) :
    ∃ spent ≤ 2, ∀ fuel,
      runAlone accepts script (fuel + spent) none
          (underWay script settings now index
            (.waiting (now + script.dueAt settings index))) =
        runAlone accepts script fuel none
          (afterAttempt script settings accepts now index) := by
  have reacted := react_underWay_waiting accepts script settings now index
    quiet (now + script.dueAt settings index)
  have called := runAlone_of_due accepts script
    (underWay script settings now index
      (.waiting (now + script.dueAt settings index)))
    _ rfl (congrArg Prod.snd reacted)
  simp only [reacted] at called
  by_cases atOnce : ∃ answer, (script index).reply = some (0, answer)
  · obtain ⟨answer, reply⟩ := atOnce
    refine ⟨1, by omega, fun fuel => ?_⟩
    rw [called, call_underWay_at_once accepts script settings now index reply
      inTime]
  · have later : ∀ answer, (script index).reply ≠ some (0, answer) :=
      fun answer reply => atOnce ⟨answer, reply⟩
    have waited := call_underWay_later accepts script settings now index later
      (.waiting (now + script.dueAt settings index))
    by_cases due : settings.timeout ≤ script.dueAt settings index
    · refine ⟨1, by omega, fun fuel => ?_⟩
      rw [called, waited, if_pos due,
        afterAttempt_of_unheard script settings accepts now index inTime,
        Nat.le_antisymm inTime due]
      intro delay answer reply
      have positive : delay ≠ 0 := by
        rintro rfl
        exact later answer reply
      omega
    · refine ⟨2, by omega, fun fuel => ?_⟩
      rw [called, waited, if_neg due,
        runAlone_fetching accepts script settings now index inTime]

/-- A poll after the attempt that decides it: that attempt was too late to be
made, or it was made. -/
def concluded : Poll Value Error :=
  if settings.timeout < script.dueAt settings index then
    pausing script settings now index
  else
    afterAttempt script settings accepts now index

variable {accepts script settings}

theorem concluded_of_verdict
    (inTime : script.dueAt settings index ≤ settings.timeout)
    {time : Nat} {result : PollResult Value Error}
    (verdict : script.verdict? settings accepts index =
      some (time, result)) :
    concluded accepts script settings now index =
      underWay script settings now (index + 1)
        (.over (now + time) result) := by
  simp [concluded, Nat.not_lt.mpr inTime, afterAttempt, verdict]

theorem runAlone_pausing_of_decides
    (quiet : (script index).cancels = false)
    (decides : script.Decides settings accepts index)
    {fuel : Nat} (enough : 2 ≤ fuel) :
    runAlone accepts script fuel none
        (pausing script settings now index) =
      (concluded accepts script settings now index, none) := by
  unfold concluded
  split
  next late =>
    unfold pausing
    rw [if_pos late]
    exact runAlone_of_over accepts script rfl fuel none
  next inTime =>
    obtain ⟨spent, few, attempted⟩ := runAlone_attempt accepts script settings
      now index quiet (Nat.le_of_not_lt inTime)
    obtain ⟨left, rfl⟩ : ∃ left, fuel = left + spent :=
      ⟨fuel - spent, by omega⟩
    obtain ⟨⟨time, result⟩, verdict⟩ := Option.isSome_iff_exists.mp
      ((script.verdict?_isSome_iff settings accepts index).mpr decides)
    unfold pausing
    rw [if_neg inTime, attempted]
    apply runAlone_of_over
    simp only [afterAttempt, verdict]
    rfl

theorem runAlone_pausing_of_not_decides
    (quiet : (script index).cancels = false)
    (undecided : ¬ script.Decides settings accepts index) :
    ∃ spent ≤ 2, ∀ fuel,
      runAlone accepts script (fuel + spent) none
          (pausing script settings now index) =
        runAlone accepts script fuel none
          (pausing script settings now (index + 1)) := by
  have inTime : ¬ settings.timeout < script.dueAt settings index :=
    fun late => undecided (.inl late)
  have verdict : script.verdict? settings accepts index = none := by
    rw [← script.verdict?_isSome_iff settings accepts index] at undecided
    simpa using undecided
  obtain ⟨spent, few, attempted⟩ := runAlone_attempt accepts script settings
    now index quiet (Nat.le_of_not_lt inTime)
  refine ⟨spent, few, fun fuel => ?_⟩
  have after : afterAttempt script settings accepts now index =
      pausing script settings now (index + 1) := by
    simp [afterAttempt, verdict]
  rw [← after, ← attempted]
  unfold pausing
  rw [if_neg inTime]

/-- The run of a whole poll, by induction on the attempts that are left before
the deciding one. -/
theorem runAlone_pausing (quiet : ∀ index, (script index).cancels = false)
    {last : Nat} (decides : script.Decides settings accepts last)
    (earlier : ∀ index < last, ¬ script.Decides settings accepts index)
    (left : Nat) {fuel : Nat} (enough : 2 * left + 2 ≤ fuel)
    {index : Nat} (ahead : index + left = last) :
    runAlone accepts script fuel none (pausing script settings now index) =
      (concluded accepts script settings now last, none) := by
  induction left generalizing index fuel with
  | zero =>
      obtain rfl : index = last := ahead
      exact runAlone_pausing_of_decides now index (quiet index) decides enough
  | succ left ih =>
      obtain ⟨spent, few, moved⟩ := runAlone_pausing_of_not_decides
        now index (quiet index) (earlier index (by omega))
      obtain ⟨rest, rfl⟩ : ∃ rest, fuel = rest + spent :=
        ⟨fuel - spent, by omega⟩
      rw [moved]
      exact ih (by omega) (by omega)

end

/-- A poll whose token is never cancelled keeps its schedule.  Some attempt
decides it, after no more pauses than fit into the timeout and one.  All
attempts before that one are made when they are due, and so is the last one if
it is not too late.  If it is too late the poll times out without waiting for
the deadline; if its answer does not come in time the poll times out at the
deadline; otherwise the answer ends the poll when it comes. -/
theorem runAlone_follows_schedule (accepts : Value → Bool)
    (script : Script Value Error) (settings : PollSettings) (now lead : Nat)
    (positive : 0 < settings.interval)
    (quiet : ∀ index, (script index).cancels = false) :
    let due := script.dueAt settings
    let made (count : Nat) : List Nat :=
      (List.range count).map fun index => now + due index
    let ended := (runAlone accepts script (reactionBound settings lead) none
      (start settings now false)).1
    ∃ last ≤ settings.timeout / settings.interval,
      script.Decides settings accepts last ∧
      (∀ index < last, ¬ script.Decides settings accepts index) ∧
      (settings.timeout < due last →
        ended.calls.toList = made last ∧
          ended.phase =
            .over (now + (due last - settings.interval)) .timedOut) ∧
      (due last ≤ settings.timeout →
        ended.calls.toList = made (last + 1) ∧
          ((∀ delay answer, (script last).reply = some (delay, answer) →
              settings.timeout < due last + delay) →
            ended.phase = .over (now + settings.timeout) .timedOut) ∧
          (∀ delay value, (script last).reply = some (delay, .ok value) →
            due last + delay ≤ settings.timeout →
            ended.phase =
              .over (now + (due last + delay)) (.matched value)) ∧
          ∀ delay error, (script last).reply = some (delay, .error error) →
            due last + delay ≤ settings.timeout →
            ended.phase =
              .over (now + (due last + delay)) (.failed (last + 1) error)) := by
  intro due made ended
  obtain ⟨last, few, decides, earlier⟩ :=
    script.exists_first_decides settings accepts positive
  have concludes : ended = concluded accepts script settings now last := by
    have bound : 2 * last + 2 ≤ reactionBound settings lead := by
      unfold reactionBound
      rw [Nat.max_eq_left positive]
      omega
    have ran := runAlone_pausing now quiet decides earlier last bound
      (Nat.zero_add last)
    rw [← start_eq_pausing] at ran
    exact congrArg Prod.fst ran
  refine ⟨last, few, decides, earlier, ?_, ?_⟩
  · intro late
    rw [concludes]
    simp [concluded, pausing, due, late, underWay, Script.callsBefore, made]
  · intro inTime
    have concluding {time : Nat} {result : PollResult Value Error}
        (verdict : script.verdict? settings accepts last =
          some (time, result)) :
        ended = underWay script settings now (last + 1)
          (.over (now + time) result) :=
      concludes.trans (concluded_of_verdict now last inTime verdict)
    refine ⟨?_, ?_, ?_, ?_⟩
    · obtain ⟨⟨time, result⟩, verdict⟩ := Option.isSome_iff_exists.mp
        ((script.verdict?_isSome_iff settings accepts last).mpr decides)
      rw [concluding verdict]
      simp [underWay, Script.callsBefore, made, due]
    · intro unheard
      rw [concluding (script.verdict?_of_unheard settings accepts inTime
        unheard)]
      rfl
    · intro delay value reply heard
      rw [concluding (script.verdict?_of_value settings accepts decides reply
        heard)]
      rfl
    · intro delay error reply heard
      rw [concluding (script.verdict?_of_error settings accepts decides reply
        heard)]
      rfl

/-- The first fetch is answered with a value that is not accepted, and the
second one with one that is, just in time. -/
theorem runAlone_follows_schedule_second_fetch :
    let settings : PollSettings := { timeout := 25, interval := 10 }
    let script : Script Nat String := fun index =>
      { reply := some (if index = 0 then (3, .ok 0) else (2, .ok 7)) }
    let ended := (runAlone (7 ≤ ·) script (reactionBound settings 2) none
      (start settings 100 false)).1
    0 < settings.interval ∧ (∀ index, (script index).cancels = false) ∧
      ended.calls.toList = [110, 123] ∧
        ended.phase = .over 125 (.matched 7) := by
  intro settings script ended
  obtain ⟨last, few, decides, earlier, -, made⟩ :=
    runAlone_follows_schedule (7 ≤ ·) script settings 100 2 (by decide)
      fun _ => rfl
  have second : script.Decides settings (7 ≤ ·) 1 :=
    (script.verdict?_isSome_iff settings (7 ≤ ·) 1).mp rfl
  have first : ¬ script.Decides settings (7 ≤ ·) 0 := by
    rw [← script.verdict?_isSome_iff settings (7 ≤ ·) 0]
    exact Bool.false_ne_true
  obtain rfl : last = 1 := by
    have notFirst : last ≠ 0 := by
      rintro rfl
      exact first decides
    have notLater : ¬ 1 < last := fun later => earlier 1 later second
    omega
  obtain ⟨calls, -, matched, -⟩ := made (by decide)
  exact ⟨by decide, fun _ => rfl, calls, matched 2 7 rfl (by decide)⟩

end Poll

namespace PollService

/-- A poll of a service that nobody cancels is one that runs alone, so it keeps
its schedule. -/
theorem poll_eq_runAlone (service : PollService Value)
    (settings : PollSettings) (fetches : List (Nat → Fetch Value Error))
    (quiet : service.isCancelled = false) :
    (service.poll settings fetches {}).2 =
      (Poll.runAlone service.accepts (.ofList fetches)
        (Poll.reactionBound settings fetches.length) none
        (.start settings 0 false)).1 := by
  have never (link : TokenLink) : Interruptions.cutoff {} link = none := by
    cases link <;> rfl
  unfold poll
  simp only [never, quiet]
  split <;> (try split) <;> rfl

end PollService

end ScreenFlow
