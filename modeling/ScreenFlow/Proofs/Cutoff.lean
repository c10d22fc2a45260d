import ScreenFlow.Proofs.Schedule

/-!
# Cancelling a poll from outside

What happens to a poll happens in the order of time.  So a poll whose token is
cancelled at some time runs as it would have run without that up to then, and
ends there.  This is for polls whose fetches cancel nothing themselves.
-/

namespace ScreenFlow

variable {Value Error : Type}

namespace Poll

/-! ## Time only goes forward -/

/-- When something happens to a poll next, or when it was over. -/
def eventTime (poll : Poll Value Error) : Nat :=
  match poll.phase with
  | .waiting due => due
  | .fetching (some (time, _)) => min time poll.deadline
  | .fetching none => poll.deadline
  | .over time _ => time

section

variable {poll : Poll Value Error} {now : Nat}

theorem eventTime_of_over {time : Nat} {result : PollResult Value Error}
    (finished : poll.phase = .over time result) : poll.eventTime = time := by
  simp [eventTime, finished]

/-- Whether a poll is over. -/
def IsOver (poll : Poll Value Error) : Prop :=
  ∃ time result, poll.phase = .over time result

theorem isOver_stop (poll : Poll Value Error) (now : Nat)
    (result : PollResult Value Error) : (poll.stop now result).IsOver :=
  ⟨now, result, rfl⟩

theorem over_or_due (poll : Poll Value Error) :
    (∃ time result, poll.phase = .over time result) ∨
      poll.due? = some poll.eventTime := by
  match phase : poll.phase with
  | .over time result => exact .inl ⟨time, result, rfl⟩
  | .waiting due => simp [due?, eventTime, phase]
  | .fetching none => simp [due?, eventTime, phase]
  | .fetching (some (time, answer)) => simp [due?, eventTime, phase]

theorem react_of_isCancelled {due : Nat} (waits : poll.due? = some due)
    (accepts : Value → Bool) (script : Script Value Error) (reaches : Bool) :
    poll.react accepts script now true reaches =
      (poll.stop now .cancelled, false) := by
  match phase : poll.phase with
  | .over time result => simp [due?, phase] at waits
  | .waiting time => simp [react, phase]
  | .fetching reply => simp [react, phase]

/-- A poll at an instant has just ended, or waits for something that does not
lie in the past. -/
def IsAt (poll : Poll Value Error) (now : Nat) : Prop :=
  (∃ result, poll.phase = .over now result) ∨
    poll.due? = some poll.eventTime ∧ now ≤ poll.eventTime

theorem IsAt.le_eventTime (present : poll.IsAt now) :
    now ≤ poll.eventTime := by
  rcases present with ⟨result, finished⟩ | ⟨-, later⟩
  · exact Nat.le_of_eq (eventTime_of_over finished).symm
  · exact later

theorem IsAt.eq_of_over (present : poll.IsAt now) {time : Nat}
    {result : PollResult Value Error}
    (finished : poll.phase = .over time result) : time = now := by
  rcases present with ⟨other, same⟩ | ⟨waits, -⟩
  · rw [finished] at same
    cases same
    rfl
  · simp [due?, finished] at waits

theorem isAt_eventTime (poll : Poll Value Error) :
    poll.IsAt poll.eventTime := by
  rcases over_or_due poll with ⟨time, result, finished⟩ | waits
  · rw [eventTime_of_over finished]
    exact .inl ⟨result, finished⟩
  · exact .inr ⟨waits, Nat.le_refl _⟩

theorem isAt_stop (poll : Poll Value Error) (now : Nat)
    (result : PollResult Value Error) : (poll.stop now result).IsAt now :=
  .inl ⟨result, rfl⟩

theorem rest_keeps (isCancelled : Bool) :
    (poll.rest now isCancelled).IsAt now ∧
      (poll.rest now isCancelled).calls = poll.calls := by
  unfold rest
  split
  · exact ⟨isAt_stop poll now _, rfl⟩
  · split
    · exact ⟨isAt_stop poll now _, rfl⟩
    · exact ⟨.inr ⟨rfl, Nat.le_add_right now _⟩, rfl⟩

theorem judge_keeps (accepts : Value → Bool) (answer : Except Error Value)
    (isCancelled : Bool) :
    (poll.judge accepts answer now isCancelled).IsAt now ∧
      (poll.judge accepts answer now isCancelled).calls = poll.calls := by
  unfold judge
  cases answer with
  | ok value =>
      simp only
      split
      · exact ⟨isAt_stop poll now _, rfl⟩
      · exact rest_keeps isCancelled
  | error error =>
      simp only
      split
      · exact rest_keeps isCancelled
      · exact ⟨isAt_stop poll now _, rfl⟩

theorem ask_keeps (accepts : Value → Bool) (fetch : Fetch Value Error)
    (isCancelled : Bool) :
    (poll.ask accepts fetch now isCancelled).IsAt now ∧
      (poll.ask accepts fetch now isCancelled).calls = poll.calls := by
  unfold ask
  split
  · exact judge_keeps accepts _ isCancelled
  · split
    · exact ⟨.inl ⟨_, rfl⟩, rfl⟩
    next early =>
      refine ⟨.inr ⟨rfl, ?_⟩, rfl⟩
      simp only [eventTime]
      omega
  · split
    · exact ⟨.inl ⟨_, rfl⟩, rfl⟩
    next early => exact ⟨.inr ⟨rfl, Nat.le_of_not_le early⟩, rfl⟩

theorem call_keeps (accepts : Value → Bool) (fetch : Fetch Value Error)
    (isCancelled : Bool) :
    (poll.call accepts fetch now isCancelled).IsAt now ∧
      (poll.call accepts fetch now isCancelled).calls =
        poll.calls.push now := by
  unfold call
  dsimp only
  split
  · exact ⟨isAt_stop _ now _, rfl⟩
  · exact ask_keeps accepts fetch isCancelled

theorem size_calls_call (poll : Poll Value Error) (accepts : Value → Bool)
    (fetch : Fetch Value Error) (now : Nat) (isCancelled : Bool) :
    (poll.call accepts fetch now isCancelled).calls.size =
      poll.calls.size + 1 := by
  rw [(call_keeps accepts fetch isCancelled).2, Array.size_push]

/-- A poll that goes on when something happens to it is then at that time, and
has made a fetch at that time or none. -/
theorem react_keeps (poll : Poll Value Error) (accepts : Value → Bool)
    (script : Script Value Error) (reaches : Bool) :
    let moved := (poll.react accepts script poll.eventTime false reaches).1
    moved.IsAt poll.eventTime ∧
      (moved.calls = poll.calls ∨
        moved.calls = poll.calls.push poll.eventTime) := by
  unfold react
  match phase : poll.phase with
  | .over time result =>
      have finished : poll.phase = .over poll.eventTime result := by
        rw [eventTime_of_over phase]
        exact phase
      exact ⟨.inl ⟨result, finished⟩, .inl rfl⟩
  | .waiting due =>
      have reached : due ≤ poll.eventTime := by simp [eventTime, phase]
      simp only [Bool.false_eq_true, if_false, reached, if_true]
      obtain ⟨present, made⟩ := call_keeps accepts
        (script poll.calls.size) ((script poll.calls.size).cancels && reaches)
      exact ⟨present, .inr made⟩
  | .fetching reply =>
      simp only [Bool.false_eq_true, if_false]
      split
      · obtain ⟨present, kept⟩ := judge_keeps accepts _ false
        exact ⟨present, .inl kept⟩
      next silent =>
        have given : poll.deadline ≤ poll.eventTime := by
          cases reply with
          | none => simp [eventTime, phase]
          | some answered =>
              have late : ¬ answered.1 ≤ poll.eventTime := by
                intro early
                simp [Option.filter_some, early] at silent
              simp only [eventTime, phase] at late ⊢
              omega
        rw [if_pos given]
        exact ⟨isAt_stop poll _ _, .inl rfl⟩

end

/-- A poll that goes on makes its next fetch, or hears of the last one.  What
it hears does not depend on which fetches cancel it. -/
theorem react_cases (accepts : Value → Bool) {poll : Poll Value Error}
    (waits : poll.due? = some poll.eventTime) :
    (∀ script : Script Value Error,
      poll.react accepts script poll.eventTime false true =
        (poll.call accepts (script poll.calls.size) poll.eventTime
          (script poll.calls.size).cancels,
          (script poll.calls.size).cancels)) ∨
      ∃ heard : Poll Value Error, heard.calls = poll.calls ∧
        ∀ script : Script Value Error,
          poll.react accepts script poll.eventTime false true =
            (heard, false) := by
  match phase : poll.phase with
  | .over time result => simp [due?, phase] at waits
  | .waiting due =>
      left
      intro script
      simp [react, eventTime, phase]
  | .fetching reply =>
      right
      cases heard : reply.filter (·.1 ≤ poll.eventTime) with
      | some answered =>
          refine ⟨poll.judge accepts answered.2 poll.eventTime false,
            (judge_keeps accepts _ false).2, fun script => ?_⟩
          simp [react, phase, heard]
      | none =>
          by_cases given : poll.deadline ≤ poll.eventTime
          · refine ⟨poll.stop poll.eventTime .timedOut, rfl, fun script => ?_⟩
            simp [react, phase, heard, given]
          · refine ⟨poll, rfl, fun script => ?_⟩
            simp [react, phase, heard, given]

/-- What is to happen to a poll next: it is over, or it is cancelled before it
goes on, or it goes on. -/
theorem next_cases (poll : Poll Value Error) (cutoff : Option Nat) :
    poll.IsOver ∨
      poll.due? = some poll.eventTime ∧
        ((∃ cut, cutoff = some cut ∧ cut ≤ poll.eventTime) ∨
          ∀ cut ∈ cutoff, poll.eventTime < cut) := by
  rcases over_or_due poll with finished | waits
  · exact .inl finished
  · refine .inr ⟨waits, ?_⟩
    cases cutoff with
    | none => exact .inr fun _ absent => by cases absent
    | some cut =>
        rcases Nat.lt_or_ge poll.eventTime cut with later | sooner
        · exact .inr fun _ same => Option.some.inj same ▸ later
        · exact .inl ⟨cut, rfl, sooner⟩

/-! ## Cancelling from outside -/

section

variable {accepts : Value → Bool} {script : Script Value Error}
  {poll : Poll Value Error}

theorem mem_calls_react {time : Nat}
    (among : time ∈
      (poll.react accepts script poll.eventTime false true).1.calls.toList) :
    time ∈ poll.calls.toList ∨ time = poll.eventTime := by
  obtain ⟨-, calls⟩ := react_keeps poll accepts script true
  rcases calls with kept | pushed
  · rw [kept] at among
    exact .inl among
  · rw [pushed, Array.toList_push, List.mem_append,
      List.mem_singleton] at among
    exact among

theorem filter_of_ahead {cutoff : Option Nat} {now : Nat}
    (ahead : ∀ cut ∈ cutoff, now < cut) :
    cutoff.filter (· ≤ now) = none := by
  simp only [Option.filter_eq_none_iff, decide_eq_true_eq, Nat.not_le]
  exact ahead

theorem runAlone_of_waits
    (waits : poll.due? = some poll.eventTime) {cutoff : Option Nat}
    (ahead : ∀ cut ∈ cutoff, poll.eventTime < cut) (fuel : Nat) :
    let moved := poll.react accepts script poll.eventTime false true
    runAlone accepts script (fuel + 1) cutoff poll =
      runAlone accepts script fuel
        (if moved.2 then some poll.eventTime else cutoff) moved.1 := by
  simp only [runAlone, waits, filter_of_ahead ahead]

theorem runAlone_of_cut_le {cut : Nat}
    (waits : poll.due? = some poll.eventTime) (due : cut ≤ poll.eventTime)
    (fuel : Nat) :
    runAlone accepts script (fuel + 1) (some cut) poll =
      (poll.stop cut .cancelled, some cut) := by
  have reached : (some cut).filter (· ≤ poll.eventTime) = some cut := by
    simp [Option.filter_some, due]
  simp only [runAlone, waits, reached, react_of_isCancelled waits]
  exact runAlone_of_over accepts script rfl fuel (some cut)

theorem le_of_mem_next {cutoff : Option Nat} {now : Nat} {cancels : Bool}
    (later : ∀ cut ∈ cutoff, now < cut) :
    ∀ cut ∈ (if cancels then some now else cutoff), now ≤ cut := by
  intro cut among
  split at among
  · exact Nat.le_of_eq (Option.some.inj among)
  · exact Nat.le_of_lt (later cut among)

variable (accepts script) in
/-- A run goes forward in time, and adds fetches to those that were made: each
step leads to a later one, so this is by induction on the steps. -/
theorem runAlone_forward (fuel : Nat) {poll : Poll Value Error} {now : Nat}
    (present : poll.IsAt now) {cutoff : Option Nat}
    (ahead : ∀ cut ∈ cutoff, now ≤ cut) :
    let ended := (runAlone accepts script fuel cutoff poll).1
    now ≤ ended.eventTime ∧
      ∃ made, ended.calls.toList = poll.calls.toList ++ made ∧
        ∀ time ∈ made, now ≤ time := by
  induction fuel generalizing poll now cutoff with
  | zero => exact ⟨present.le_eventTime, [], by simp [runAlone]⟩
  | succ fuel ih =>
      rcases next_cases poll cutoff with
        ⟨time, result, finished⟩ | ⟨waits, ⟨cut, rfl, due⟩ | later⟩
      · rw [runAlone_of_over accepts script finished]
        exact ⟨present.le_eventTime, [], by simp⟩
      · rw [runAlone_of_cut_le waits due]
        exact ⟨ahead cut rfl, [], by simp [stop]⟩
      · rw [runAlone_of_waits waits later]
        obtain ⟨reached, calls⟩ := react_keeps poll accepts script true
        obtain ⟨forward, made, extended, after⟩ :=
          ih reached (le_of_mem_next later)
        have sooner := present.le_eventTime
        refine ⟨Nat.le_trans sooner forward, ?_⟩
        rcases calls with kept | pushed
        · exact ⟨made, by rw [extended, kept],
            fun time among => Nat.le_trans sooner (after time among)⟩
        · refine ⟨poll.eventTime :: made, by simp [extended, pushed], ?_⟩
          intro time among
          rcases List.mem_cons.mp among with rfl | among
          · exact sooner
          · exact Nat.le_trans sooner (after time among)

variable (accepts script) in
/-- Nothing happens to a poll before its next event. -/
theorem runAlone_later (fuel : Nat) (poll : Poll Value Error) :
    let ended := (runAlone accepts script fuel none poll).1
    poll.eventTime ≤ ended.eventTime ∧
      ∃ made, ended.calls.toList = poll.calls.toList ++ made ∧
        ∀ time ∈ made, poll.eventTime ≤ time :=
  runAlone_forward accepts script fuel (isAt_eventTime poll) (by simp)

theorem getElem?_calls_runAlone (fuel : Nat) {now : Nat}
    (present : poll.IsAt now) {cutoff : Option Nat}
    (ahead : ∀ cut ∈ cutoff, now ≤ cut) {index time : Nat}
    (made : poll.calls[index]? = some time) :
    (runAlone accepts script fuel cutoff poll).1.calls[index]? =
      some time := by
  obtain ⟨-, more, extended, -⟩ :=
    runAlone_forward accepts script fuel present ahead
  rw [← Array.getElem?_toList] at made ⊢
  rw [extended]
  exact List.getElem?_append_left (List.getElem?_eq_some_iff.mp made).1 ▸ made

variable (quiet : ∀ index, (script index).cancels = false)
include quiet

theorem react_of_quiet (poll : Poll Value Error) (now : Nat) :
    (poll.react accepts script now false true).2 = false := by
  unfold react
  match phase : poll.phase with
  | .over time result => rfl
  | .waiting due =>
      simp only [quiet, Bool.false_eq_true, if_false]
      split
      · rfl
      · rfl
  | .fetching reply =>
      simp only [Bool.false_eq_true, if_false]
      split
      · rfl
      · split
        · rfl
        · rfl

theorem runAlone_of_quiet (waits : poll.due? = some poll.eventTime)
    (fuel : Nat) :
    runAlone accepts script (fuel + 1) none poll =
      runAlone accepts script fuel none
        (poll.react accepts script poll.eventTime false true).1 :=
  runAlone_of_due accepts script poll poll.eventTime waits
    (react_of_quiet quiet poll _) fuel

theorem runAlone_of_lt_cut {cut : Nat}
    (waits : poll.due? = some poll.eventTime) (ahead : poll.eventTime < cut)
    (fuel : Nat) :
    runAlone accepts script (fuel + 1) (some cut) poll =
      runAlone accepts script fuel (some cut)
        (poll.react accepts script poll.eventTime false true).1 := by
  rw [runAlone_of_waits waits fun _ same => Option.some.inj same ▸ ahead,
    react_of_quiet quiet]
  rfl

variable {finish cut : Nat} {result : PollResult Value Error}

/-- A poll that ends before its token is cancelled does not notice. -/
theorem runAlone_of_cut_after (after : finish < cut) (fuel : Nat)
    (poll : Poll Value Error)
    (ends : (runAlone accepts script fuel none poll).1.phase =
      .over finish result) :
    (runAlone accepts script fuel (some cut) poll).1 =
      (runAlone accepts script fuel none poll).1 := by
  induction fuel generalizing poll with
  | zero => rfl
  | succ fuel ih =>
      rcases over_or_due poll with ⟨time, other, finished⟩ | waits
      · simp only [runAlone_of_over accepts script finished]
      · obtain ⟨later, -⟩ := runAlone_later accepts script (fuel + 1) poll
        rw [eventTime_of_over ends] at later
        rw [runAlone_of_quiet quiet waits] at ends ⊢
        rw [runAlone_of_lt_cut quiet waits (Nat.lt_of_le_of_lt later after)]
        exact ih _ ends

/-- A poll that would go on after its token is cancelled ends when the token
is cancelled, with the fetches it made before that.  Both polls go on alike
until the next event comes after the cut; none of the fetches from there on is
made in time. -/
theorem runAlone_of_cut_before (before : cut < finish) (fuel : Nat)
    (poll : Poll Value Error) (waits : poll.due? = some poll.eventTime)
    (early : ∀ time ∈ poll.calls.toList, time < cut)
    (ends : (runAlone accepts script fuel none poll).1.phase =
      .over finish result) :
    (runAlone accepts script fuel (some cut) poll).1.phase =
        .over cut .cancelled ∧
      (runAlone accepts script fuel (some cut) poll).1.calls.toList =
        (runAlone accepts script fuel none poll).1.calls.toList.filter
          (· < cut) := by
  induction fuel generalizing poll with
  | zero =>
      have finished : poll.phase = .over finish result := ends
      simp [due?, finished] at waits
  | succ fuel ih =>
      by_cases due : cut ≤ poll.eventTime
      · obtain ⟨-, made, extended, after⟩ :=
          runAlone_later accepts script (fuel + 1) poll
        have none_early : made.filter (· < cut) = [] := by
          rw [List.filter_eq_nil_iff]
          intro time among
          have late := after time among
          simp only [decide_eq_true_eq]
          omega
        have all_early : poll.calls.toList.filter (· < cut) =
            poll.calls.toList := by
          rw [List.filter_eq_self]
          intro time among
          exact decide_eq_true (early time among)
        rw [runAlone_of_cut_le waits due, extended, List.filter_append,
          none_early, all_early, List.append_nil]
        exact ⟨rfl, rfl⟩
      · rw [runAlone_of_quiet quiet waits] at ends ⊢
        rw [runAlone_of_lt_cut quiet waits (Nat.lt_of_not_le due)]
        obtain ⟨present, -⟩ := react_keeps poll accepts script true
        rcases over_or_due (poll.react accepts script poll.eventTime
          false true).1 with ⟨time, other, finished⟩ | goes
        · -- Then the poll ends before the cut.
          rw [runAlone_of_over accepts script finished, finished] at ends
          cases ends
          have reached := present.eq_of_over finished
          omega
        · refine ih _ goes ?_ ends
          intro time among
          rcases mem_calls_react among with sooner | rfl
          · exact early time sooner
          · exact Nat.lt_of_not_le due

theorem runAlone_start_of_cut_before {settings : PollSettings} {now : Nat}
    (began : now ≤ cut) (before : cut < finish) {fuel : Nat}
    (ends : (runAlone accepts script fuel none
      (start settings now false)).1.phase = .over finish result) :
    (runAlone accepts script fuel (some cut)
        (start settings now false)).1.phase = .over cut .cancelled ∧
      (runAlone accepts script fuel (some cut)
          (start settings now false)).1.calls.toList =
        (runAlone accepts script fuel none
          (start settings now false)).1.calls.toList.filter (· < cut) := by
  obtain ⟨present, unmade⟩ :
      (start settings now false : Poll Value Error).IsAt now ∧
        (start settings now false : Poll Value Error).calls = #[] :=
    rest_keeps false
  rcases present with ⟨other, finished⟩ | ⟨waits, -⟩
  · -- The deadline leaves no time for a fetch, or for the cut.
    rw [runAlone_of_over accepts script finished, finished] at ends
    cases ends
    omega
  · refine runAlone_of_cut_before quiet before fuel _ waits ?_ ends
    simp [unmade]

end

end Poll

end ScreenFlow
