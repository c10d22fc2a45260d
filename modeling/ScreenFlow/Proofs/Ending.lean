import ScreenFlow.Proofs.CutShort

/-!
# How polls end

A poll with a pause between its fetches ends, whoever cancels it and when.  By
then its token is cancelled if it was to be cancelled from outside up to that
time, or if one of the fetches that were made cancelled it.
-/

namespace ScreenFlow

variable {Value Error : Type}

namespace Poll

/-! ## One reaction under a token that a fetch may cancel -/

section

variable {accepts : Value → Bool} {poll : Poll Value Error} {now : Nat}

theorem isOver_judge_of_isCancelled (answer : Except Error Value) :
    (poll.judge accepts answer now true).IsOver := by
  cases answer with
  | ok value =>
      unfold judge
      dsimp only
      split
      · exact isOver_stop poll now _
      · exact isOver_stop poll now _
  | error error =>
      unfold judge
      dsimp only
      split
      · exact isOver_stop poll now _
      · exact isOver_stop poll now _

theorem isOver_ask_of_isCancelled {fetch : Fetch Value Error}
    (ends : (poll.ask accepts fetch now false).IsOver) :
    (poll.ask accepts fetch now true).IsOver := by
  by_cases atOnce : ∃ answer, fetch.reply = some (0, answer)
  · obtain ⟨answer, reply⟩ := atOnce
    simp only [ask, reply]
    exact isOver_judge_of_isCancelled answer
  · rcases fetch.silent_or_later fun answer reply => atOnce ⟨answer, reply⟩ with
      reply | ⟨delay, answer, reply⟩
    · simpa only [ask, reply] using ends
    · simpa only [ask, reply] using ends

theorem isOver_call_of_isCancelled {fetch : Fetch Value Error}
    (ends : (poll.call accepts fetch now false).IsOver) :
    (poll.call accepts fetch now true).IsOver := by
  simp only [call, Bool.false_eq_true, false_and, if_false] at ends
  unfold call
  dsimp only
  split
  · exact isOver_stop _ now _
  · exact isOver_ask_of_isCancelled ends

end

/-! ## A whole poll -/

section

variable {accepts : Value → Bool} {script : Script Value Error}

theorem isOver_runAlone_of_cut {poll : Poll Value Error} {cut : Nat}
    (due : cut ≤ poll.eventTime) (fuel : Nat) :
    (runAlone accepts script (fuel + 1) (some cut) poll).1.IsOver := by
  rcases over_or_due poll with ⟨time, result, finished⟩ | waits
  · rw [runAlone_of_over accepts script finished]
    exact ⟨time, result, finished⟩
  · rw [runAlone_of_cut_le waits due]
    exact isOver_stop poll cut _

/-- A poll that would end if nobody cancelled it also ends otherwise. -/
theorem isOver_runAlone {fuel : Nat} {poll : Poll Value Error}
    (ends : (runAlone accepts script.quieted fuel none poll).1.IsOver)
    (cutoff : Option Nat) :
    (runAlone accepts script fuel cutoff poll).1.IsOver := by
  induction fuel generalizing poll cutoff with
  | zero => exact ends
  | succ fuel ih =>
      rcases next_cases poll cutoff with
        ⟨time, result, finished⟩ | ⟨waits, ⟨cut, rfl, due⟩ | ahead⟩
      · rw [runAlone_of_over accepts script finished]
        exact ⟨time, result, finished⟩
      · exact isOver_runAlone_of_cut due fuel
      · rw [runAlone_of_waits waits (by simp)] at ends
        rw [runAlone_of_waits waits ahead]
        rcases react_cases accepts waits with made | ⟨heard, -, heardAll⟩
        · simp only [made, Script.cancels_quieted, call_quieted,
            Bool.false_eq_true, if_false] at ends ⊢
          cases cancels : (script poll.calls.size).cancels with
          | false => exact ih ends cutoff
          | true =>
              cases fuel with
              | zero => exact isOver_call_of_isCancelled ends
              | succ fuel =>
                  exact isOver_runAlone_of_cut
                    (call_keeps accepts _ true).1.le_eventTime fuel
        · simp only [heardAll, Bool.false_eq_true, if_false] at ends ⊢
          exact ih ends cutoff

/-- Every poll with a pause between its fetches ends. -/
theorem isOver_start (accepts : Value → Bool) (script : Script Value Error)
    (settings : PollSettings) (now lead : Nat)
    (positive : 0 < settings.interval) (cutoff : Option Nat)
    (isCancelled : Bool) :
    (runAlone accepts script (reactionBound settings lead) cutoff
      (start settings now isCancelled)).1.IsOver := by
  cases isCancelled with
  | true =>
      rw [runAlone_of_over accepts script rfl]
      exact ⟨now, .cancelled, rfl⟩
  | false =>
      obtain ⟨last, decides, -, -, ran⟩ :=
        runAlone_quieted accepts script settings now lead positive
      refine isOver_runAlone ?_ cutoff
      rw [ran]
      exact exists_concluded_over decides

/-- From its fetch with the number `first` on, a poll that ended made one that
cancels it. -/
def CancelsFrom (script : Script Value Error) (first : Nat)
    (ended : Poll Value Error) : Prop :=
  ∃ index, first ≤ index ∧ index < ended.calls.size ∧
    (script index).cancels = true

theorem not_cancelsFrom_size (ended : Poll Value Error) :
    ¬ CancelsFrom script ended.calls.size ended := by
  rintro ⟨index, after, before, -⟩
  omega

theorem cancelsFrom_iff {ended : Poll Value Error} {first : Nat}
    (made : first < ended.calls.size) :
    CancelsFrom script first ended ↔
      (script first).cancels = true ∨
        CancelsFrom script (first + 1) ended := by
  constructor
  · rintro ⟨index, after, before, cancels⟩
    rcases Nat.eq_or_lt_of_le after with rfl | later
    · exact .inl cancels
    · exact .inr ⟨index, later, before, cancels⟩
  · rintro (cancels | ⟨index, after, before, cancels⟩)
    · exact ⟨first, Nat.le_refl first, made, cancels⟩
    · exact ⟨index, Nat.le_of_succ_le after, before, cancels⟩

/-- By its end the token of a poll is cancelled if it was to be cancelled from
outside by then, or if one of the fetches that were made cancelled it. -/
def Accounts (script : Script Value Error) (first : Nat)
    (cutoff : Option Nat) (run : Poll Value Error × Option Nat) : Prop :=
  run.2.any (· ≤ run.1.eventTime) = true ↔
    cutoff.any (· ≤ run.1.eventTime) = true ∨
      CancelsFrom script first run.1

theorem Accounts.of_moved {first now : Nat} {cutoff : Option Nat}
    {run : Poll Value Error × Option Nat} (forward : now ≤ run.1.eventTime)
    (made : first < run.1.calls.size)
    (after : Accounts script (first + 1)
      (if (script first).cancels then some now else cutoff) run) :
    Accounts script first cutoff run := by
  unfold Accounts at after ⊢
  rw [after, cancelsFrom_iff made]
  cases (script first).cancels with
  | false => simp
  | true => simp [forward]

variable (accepts script) in
theorem accounts_runAlone (fuel : Nat) (cutoff : Option Nat)
    (poll : Poll Value Error) :
    Accounts script poll.calls.size cutoff
      (runAlone accepts script fuel cutoff poll) := by
  induction fuel generalizing poll cutoff with
  | zero => simp [Accounts, runAlone, not_cancelsFrom_size]
  | succ fuel ih =>
      rcases next_cases poll cutoff with
        ⟨time, result, finished⟩ | ⟨waits, ⟨cut, rfl, due⟩ | later⟩
      · rw [runAlone_of_over accepts script finished]
        simp [Accounts, not_cancelsFrom_size]
      · rw [runAlone_of_cut_le waits due]
        have unmade : ¬ CancelsFrom script poll.calls.size
            (poll.stop cut .cancelled) :=
          not_cancelsFrom_size (poll.stop cut .cancelled)
        simp [Accounts, unmade]
      · rw [runAlone_of_waits waits later]
        rcases react_cases accepts waits with made | ⟨heard, same, heardAll⟩
        · simp only [made]
          have after := ih
            (if (script poll.calls.size).cancels then some poll.eventTime
              else cutoff)
            (poll.call accepts (script poll.calls.size) poll.eventTime
              (script poll.calls.size).cancels)
          obtain ⟨forward, more, extended, -⟩ := runAlone_forward accepts script
            fuel (call_keeps accepts _ _).1 (le_of_mem_next later)
          have grown := congrArg List.length extended
          rw [List.length_append, Array.length_toList, Array.length_toList,
            size_calls_call] at grown
          rw [size_calls_call] at after
          exact after.of_moved forward (by omega)
        · simp only [heardAll, Bool.false_eq_true, if_false]
          rw [← same]
          exact ih cutoff heard

variable (accepts script) in
theorem accounts_start (settings : PollSettings) (now fuel : Nat)
    (cutoff : Option Nat) (isCancelled : Bool) :
    Accounts script 0 cutoff
      (runAlone accepts script fuel cutoff
        (start settings now isCancelled)) := by
  have unmade : (start settings now isCancelled :
      Poll Value Error).calls = #[] := (rest_keeps isCancelled).2
  have accounts := accounts_runAlone accepts script fuel cutoff
    (start settings now isCancelled)
  rwa [unmade] at accounts

end

end Poll

end ScreenFlow
