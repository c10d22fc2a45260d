import ScreenFlow.Proofs.Counted
import ScreenFlow.Proofs.Reports

/-!
# Limits of the settings

The settings have no bounds of their own, but a machine has.  Polls that begin
at some reading of the clock run on a machine just if their settings fit it:
`PollSettings.runs_iff_fits`.  A flow can be walked just if a channel can be
made for it.  `Settings.carried_out_iff` puts this together for all settings.
-/

namespace ScreenFlow

variable {Value Error : Type}

namespace Counted

/-- A poll on a machine, from its start on. -/
def runFrom (accepts : Value → Bool) (script : Script Value Error)
    (settings : PollSettings) (now fuel : Nat) (cutoff : Option Nat)
    (isCancelled : Bool) :
    Except Overflow (Counted Value Error × Option Nat) := do
  let counted ← start settings now isCancelled
  runAlone accepts script fuel cutoff counted

section

variable {settings : PollSettings} {now fuel : Nat} {cutoff : Option Nat}
  {accepts : Value → Bool} {script : Script Value Error} {isCancelled : Bool}

variable (accepts script) in
theorem runFrom_of_fits (fits : settings.Fits now) (fuel : Nat)
    (cutoff : Option Nat) (isCancelled : Bool) :
    let run := Poll.runAlone accepts script fuel cutoff
      (.start settings now isCancelled)
    runFrom accepts script settings now fuel cutoff isCancelled =
        .ok (ofPoll run.1, run.2) ∧
      run.1.IsPaced settings now := by
  unfold runFrom
  rw [start_eq fits.deadline fits.first isCancelled]
  exact runAlone_ofPoll fits accepts script
    (Poll.isPaced_start settings now isCancelled) fuel cutoff

theorem rest_of_le {counted : Counted Value Error}
    (beyond : Clock.limit ≤ now + counted.poll.settings.interval) :
    counted.rest now false = .error .clock := by
  simp only [rest, Clock.ahead_of_le beyond]
  rfl

theorem runFrom_of_deadline (beyond : Clock.limit ≤ now + settings.timeout) :
    runFrom accepts script settings now fuel cutoff isCancelled =
      .error .clock := by
  simp only [runFrom, start, Clock.ahead_of_le beyond]
  rfl

theorem runFrom_of_first (inTime : now + settings.timeout < Clock.limit)
    (beyond : Clock.limit ≤ now + settings.interval) :
    runFrom accepts script settings now fuel cutoff false =
      .error .clock := by
  unfold runFrom
  rw [start_of_lt inTime, rest_of_le beyond]
  rfl

section

variable {counted : Counted Value Error} {value : Value}

theorem runAlone_of_react {due : Nat} (waits : counted.poll.due? = some due)
    {moved : Counted Value Error}
    (reacted : counted.react accepts script due false = .ok (moved, false)) :
    runAlone accepts script (fuel + 1) none counted =
      runAlone accepts script fuel none moved := by
  simp only [runAlone, waits, Option.filter_none, reacted]
  rfl

theorem runAlone_of_failed {due : Nat} (waits : counted.poll.due? = some due)
    {overflow : Overflow}
    (failed : counted.react accepts script due false = .error overflow) :
    runAlone accepts script (fuel + 1) none counted = .error overflow := by
  simp only [runAlone, waits, Option.filter_none, failed]
  rfl

theorem judge_of_le
    (beyond : Clock.limit ≤ now + counted.poll.settings.interval) :
    counted.judge (fun _ => false) (.ok value) now false = .error .clock := by
  simp only [judge, Bool.false_eq_true, if_false]
  exact rest_of_le beyond

end

/-! ## An answer at the deadline -/

/-- A poll before its first fetch, if that is not too late. -/
def beforeFirst (settings : PollSettings) (now : Nat) : Poll Value Error :=
  { settings
    deadline := now + settings.timeout
    calls := #[]
    phase := .waiting (now + settings.interval) }

/-- A value that comes at the deadline if it is fetched as soon as
possible. -/
def lateAnswer (settings : PollSettings) (value : Value) :
    Fetch Value Error :=
  { reply := some (settings.timeout - settings.interval, .ok value) }

/-- The same poll while it waits for a value that comes at the deadline. -/
def duringFirst (settings : PollSettings) (now : Nat) (value : Value) :
    Poll Value Error :=
  { settings
    deadline := now + settings.timeout
    calls := #[now + settings.interval]
    phase := .fetching (some (now + settings.timeout, .ok value)) }

theorem runFrom_eq (inTime : now + settings.timeout < Clock.limit)
    (first : now + settings.interval < Clock.limit)
    (one : settings.interval ≤ settings.timeout) :
    runFrom accepts script settings now fuel none false =
      runAlone accepts script fuel none
        (ofPoll (beforeFirst settings now)) := by
  have begun : Poll.start settings now false =
      (beforeFirst settings now : Poll Value Error) := by
    simp [Poll.start, Poll.rest, beforeFirst, Nat.not_lt.mpr one]
  unfold runFrom
  rw [start_eq inTime first, begun]
  rfl

theorem numbered_beforeFirst (settings : PollSettings) (now : Nat) :
    (ofPoll (beforeFirst settings now : Poll Value Error)).attempt.toNat + 1 <
      UInt32.size := by
  have unmade : (ofPoll (beforeFirst settings now :
      Poll Value Error)).attempt.toNat = 0 := rfl
  rw [unmade]
  decide

theorem call_lateAnswer_of_eq (value : Value)
    (same : settings.interval = settings.timeout)
    (beyond : Clock.limit ≤ now + settings.timeout + settings.interval) :
    (ofPoll (beforeFirst settings now)).call (fun _ => false)
        (lateAnswer settings value : Fetch Value Error)
        (now + settings.interval) false = .error .clock := by
  simp only [call, if_pos (numbered_beforeFirst settings now),
    Bool.false_eq_true, false_and, if_false, ask, lateAnswer, same,
    Nat.sub_self]
  exact judge_of_le beyond

theorem call_lateAnswer_of_lt (value : Value)
    (less : settings.interval < settings.timeout) :
    (ofPoll (beforeFirst settings now)).call (fun _ => false)
        (lateAnswer settings value : Fetch Value Error)
        (now + settings.interval) false =
      .ok (ofPoll (duringFirst settings now value)) := by
  obtain ⟨delay, later⟩ : ∃ delay,
      settings.timeout - settings.interval = delay + 1 :=
    Nat.exists_eq_add_one_of_ne_zero (Nat.sub_ne_zero_of_lt less)
  have answered : now + settings.interval + (delay + 1) =
      now + settings.timeout := by omega
  have pending : ¬ now + settings.timeout ≤ now + settings.interval := by
    omega
  rw [call, if_pos (numbered_beforeFirst settings now)]
  simp only [Bool.false_eq_true, false_and, if_false, ask, lateAnswer, later,
    Poll.ask, poll_ofPoll, beforeFirst, if_neg pending, answered]
  rfl

theorem runFrom_of_last (value : Value)
    (inTime : now + settings.timeout < Clock.limit)
    (first : now + settings.interval < Clock.limit)
    (one : settings.interval ≤ settings.timeout)
    (beyond : Clock.limit ≤ now + settings.timeout + settings.interval) :
    runFrom (fun _ => false)
        (fun _ => (lateAnswer settings value : Fetch Value Error)) settings
        now 2 none false = .error .clock := by
  rw [runFrom_eq inTime first one]
  rcases Nat.eq_or_lt_of_le one with same | less
  · refine runAlone_of_failed rfl ?_
    rw [react_of_waiting rfl]
    exact congrArg (Except.map (·, false))
      (call_lateAnswer_of_eq value same beyond)
  · have reacted : (ofPoll (beforeFirst settings now)).react (fun _ => false)
        (fun _ => (lateAnswer settings value : Fetch Value Error))
        (now + settings.interval) false =
          .ok (ofPoll (duringFirst settings now value), false) := by
      rw [react_of_waiting rfl]
      exact congrArg (Except.map (·, false))
        (call_lateAnswer_of_lt value less)
    have waits : (ofPoll (duringFirst settings now value :
        Poll Value Error)).poll.due? = some (now + settings.timeout) := by
      simp [duringFirst, Poll.due?]
    rw [runAlone_of_react rfl reacted]
    refine runAlone_of_failed waits ?_
    rw [react_of_heard rfl (Option.filter_some_pos (by simp))]
    exact congrArg (Except.map (·, false)) (judge_of_le beyond)

end

end Counted

/-! ## A fetch for each interval -/

namespace Poll

variable (Error) (settings : PollSettings)

/-- A value that is there at once. -/
def promptAnswer {Error : Type} (value : Value) : Fetch Value Error :=
  { reply := some (0, .ok value) }

theorem dueAt_promptAnswer (value : Value) (index : Nat) :
    Script.dueAt (fun _ => (promptAnswer value : Fetch Value Error)) settings
      index = (index + 1) * settings.interval := by
  induction index with
  | zero => simp [Script.dueAt]
  | succ index ih =>
      rw [Script.dueAt, ih, Nat.succ_mul (index + 1)]
      simp [promptAnswer, Fetch.delay]

/-- A poll whose fetches are all refused at once makes any number of fetches
for which it has the time. -/
theorem exists_size_calls_eq (now : Nat)
    (value : Value) {count : Nat}
    (many : count * settings.interval ≤ settings.timeout) :
    ∃ fuel, (runAlone (fun _ => false)
      (fun _ => (promptAnswer value : Fetch Value Error)) fuel none
      (start settings now false)).1.calls.size = count := by
  have undecided : ∀ earlier < count,
      ¬ Script.Decides (fun _ => (promptAnswer value : Fetch Value Error))
        settings (fun _ => false) earlier := by
    intro earlier before
    have inTime : (earlier + 1) * settings.interval ≤ settings.timeout :=
      Nat.le_trans (Nat.mul_le_mul_right _ before) many
    have due := dueAt_promptAnswer Error settings value earlier
    rw [← due] at inTime
    simpa [Script.Decides, promptAnswer] using inTime
  obtain ⟨spent, -, reached⟩ := @runAlone_reaches _ _ _ _ settings now count
    undecided fun _ _ => rfl
  refine ⟨spent, ?_⟩
  rw [← Nat.zero_add spent, reached, runAlone, calls_pausing,
    Script.size_callsBefore]

end Poll

/-! ## Settings that fit a machine -/

namespace PollSettings

/-- Polls with these settings that begin at a reading of the clock run on a
machine as they run without limits, whatever the fetches do and whoever cancels
them and when.  The number of the last fetch is then the number of fetches that
were made. -/
def Runs (Value Error : Type) (settings : PollSettings) (now : Nat) : Prop :=
  ∀ (accepts : Value → Bool) (script : Script Value Error) (fuel : Nat)
    (cutoff : Option Nat) (isCancelled : Bool),
    let run := Poll.runAlone accepts script fuel cutoff
      (.start settings now isCancelled)
    ∃ attempt : UInt32,
      Counted.runFrom accepts script settings now fuel cutoff isCancelled =
          .ok ({ poll := run.1, attempt }, run.2) ∧
        attempt.toNat = run.1.calls.size ∧
        ∀ time number error,
          run.1.phase = .over time (.failed number error) →
            number = attempt.toNat

variable {settings : PollSettings} {now : Nat}

theorem Fits.runs (fits : settings.Fits now) :
    settings.Runs Value Error now := by
  intro accepts script fuel cutoff isCancelled run
  obtain ⟨ran, paced⟩ := Counted.runFrom_of_fits accepts script fits fuel
    cutoff isCancelled
  have counted := Counted.toNat_attempt_ofPoll (fits.lt_size paced.few)
  refine ⟨(Counted.ofPoll run.1).attempt, ran, counted, ?_⟩
  intro time number error failed
  rw [counted]
  exact paced.number_eq failed

/-- Each bound is needed: beyond it some poll has no number to go on with. -/
theorem Runs.fits (value : Value) (runs : settings.Runs Value Error now) :
    settings.Fits now := by
  have deadline : now + settings.timeout < Clock.limit := by
    by_contra beyond
    obtain ⟨attempt, ran, -⟩ := runs (fun _ => false)
      (fun _ => Poll.promptAnswer value) 0 none false
    rw [Counted.runFrom_of_deadline (Nat.le_of_not_lt beyond)] at ran
    cases ran
  have first : now + settings.interval < Clock.limit := by
    by_contra beyond
    obtain ⟨attempt, ran, -⟩ := runs (fun _ => false)
      (fun _ => Poll.promptAnswer value) 0 none false
    rw [Counted.runFrom_of_first deadline (Nat.le_of_not_lt beyond)] at ran
    cases ran
  refine ⟨deadline, first, fun one => ?_, ?_⟩
  · by_contra beyond
    obtain ⟨attempt, ran, -⟩ := runs (fun _ => false)
      (fun _ => Counted.lateAnswer settings value) 2 none false
    rw [Counted.runFrom_of_last value deadline first one
      (Nat.le_of_not_lt beyond)] at ran
    cases ran
  · by_contra many
    obtain ⟨fuel, size_eq⟩ := Poll.exists_size_calls_eq Error settings now
      value (Nat.le_of_not_lt many)
    obtain ⟨attempt, -, counted, -⟩ := runs (fun _ => false)
      (fun _ => Poll.promptAnswer value) fuel none false
    rw [size_eq] at counted
    exact Nat.ne_of_lt attempt.toNat_lt counted

theorem runs_iff_fits (value : Value) :
    settings.Runs Value Error now ↔ settings.Fits now :=
  ⟨Runs.fits value, Fits.runs⟩

end PollSettings

/-- The settings are carried out on a machine just if their numbers fit it.
For polls that depends on the reading of the clock at which they begin; a flow
can be walked, whatever the words are, if a channel can be made for it. -/
theorem Settings.carried_out_iff (settings : Settings) (now : Nat)
    (value : Value) :
    (settings.pollSettings.Runs Value Error now ↔
        settings.pollSettings.Fits now) ∧
      (settings.cardPollSettings.Runs Value Error now ↔
        settings.cardPollSettings.Fits now) ∧
      ∀ flow words json, (∀ word ∈ words, Program.IsKnown flow word) →
        if settings.flows.actionBuffer.toNat ≤ Program.greatestBuffer then
          ∃ text, Program.carryOut settings (.walk flow words json) =
            .ok (.print text)
        else
          Program.carryOut settings (.walk flow words json) =
            .error .bufferTooLarge := by
  refine ⟨PollSettings.runs_iff_fits value, PollSettings.runs_iff_fits value,
    ?_⟩
  intro flow words json known
  obtain ⟨triggers, read⟩ := Program.mapM_of_known known
  have walked := Program.walk_of_known read json
    settings.flows.actionBuffer.toNat
  simp only [Program.carryOut, walked]
  by_cases fits : settings.flows.actionBuffer.toNat ≤ Program.greatestBuffer
  · rw [if_pos fits, if_pos fits]
    exact ⟨_, rfl⟩
  · rw [if_neg fits, if_neg fits]
    rfl

/-- The greatest channel, and as many seconds as there are numbers for fetches
in each millisecond. -/
theorem Settings.carried_out_iff_greatest :
    let settings : Settings :=
      { flows := { actionBuffer := 2305843009213693951 }
        cards :=
          { activationTimeoutSeconds := 4294967
            activationIntervalMillis := 1 } }
    (∀ word ∈ [TriggerWord.next],
        Program.IsKnown .custodyWithdrawal word) ∧
      settings.pollSettings.Runs Nat String 0 ∧
      settings.cardPollSettings.Runs Nat String 0 ∧
      ∃ text, Program.carryOut settings
        (.walk .custodyWithdrawal [.next] false) = .ok (.print text) := by
  intro settings
  obtain ⟨polls, cards, walks⟩ :=
    @Settings.carried_out_iff Nat String settings 0 0
  have known : ∀ word ∈ [TriggerWord.next],
      Program.IsKnown .custodyWithdrawal word := by
    simp only [List.forall_mem_cons, List.not_mem_nil, false_implies,
      implies_true, and_true]
    exact ⟨.next, rfl⟩
  exact ⟨known, polls.mpr (by decide), cards.mpr (by decide),
    walks .custodyWithdrawal [.next] false known⟩

/-- Settings for which there are no numbers: a channel that is one too large, a
deadline at the end of the clock, and one more second of fetches. -/
theorem Settings.not_carried_out :
    let settings : Settings :=
      { flows := { actionBuffer := 2305843009213693952 }
        polling := { timeoutSeconds := 9223372036854775808 }
        cards :=
          { activationTimeoutSeconds := 4294968
            activationIntervalMillis := 1 } }
    Program.carryOut settings (.walk .custodyWithdrawal [.next] false) =
        .error .bufferTooLarge ∧
      ¬ settings.pollSettings.Runs Nat String 0 ∧
      ¬ settings.cardPollSettings.Runs Nat String 0 := by
  intro settings
  have polls : ¬ settings.pollSettings.Fits 0 := by decide
  have cards : ¬ settings.cardPollSettings.Fits 0 := by decide
  exact ⟨rfl, fun runs => polls (runs.fits 0), fun runs => cards (runs.fits 0)⟩

end ScreenFlow
