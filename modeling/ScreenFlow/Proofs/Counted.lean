import Mathlib.Algebra.Group.Nat.Defs
import ScreenFlow.Proofs.Ending

/-!
# Polls on a machine

A machine has no number for an instant beyond the end of its clock, and none
for a fetch whose number needs more than 32 bits.  `Counted` is a poll on such
a machine: it fails where a number is missing, and goes on like the poll itself
everywhere else.  `PollSettings.Fits` says when no number is missing.  Then a
poll has made no more fetches at any time than intervals have passed
(`Poll.IsPaced`), and so it runs on a machine as it runs without limits.
-/

namespace ScreenFlow

variable {Value Error : Type}

/-- What a machine has no number for. -/
inductive Overflow where
  | clock
  | attempts
  deriving DecidableEq, Repr

namespace Clock

/-- The end of the clock, which counts its seconds in 63 bits. -/
def limit : Nat := 1000 * 2 ^ 63

/-- The reading of the clock when some time has passed. -/
def ahead (now span : Nat) : Except Overflow Nat :=
  if now + span < limit then .ok (now + span) else .error .clock

theorem ahead_of_lt {now span : Nat} (fits : now + span < limit) :
    ahead now span = .ok (now + span) :=
  if_pos fits

theorem ahead_of_le {now span : Nat} (beyond : limit ≤ now + span) :
    ahead now span = .error .clock :=
  if_neg (Nat.not_lt.mpr beyond)

end Clock

/-! ## Polls on a machine -/

/-- A poll and the number of its last fetch, counted from one. -/
structure Counted (Value Error : Type) where
  poll : Poll Value Error
  attempt : UInt32

namespace Counted

def stop (counted : Counted Value Error) (now : Nat)
    (result : PollResult Value Error) : Counted Value Error :=
  { counted with poll := counted.poll.stop now result }

def rest (counted : Counted Value Error) (now : Nat) (isCancelled : Bool) :
    Except Overflow (Counted Value Error) :=
  if isCancelled then
    .ok (counted.stop now .cancelled)
  else do
    let next ← Clock.ahead now counted.poll.settings.interval
    if counted.poll.deadline < next then
      return counted.stop now .timedOut
    else
      return { counted with
        poll := { counted.poll with phase := .waiting next } }

def start (settings : PollSettings) (now : Nat) (isCancelled : Bool) :
    Except Overflow (Counted Value Error) := do
  let deadline ← Clock.ahead now settings.timeout
  rest
    { poll := { settings, deadline, calls := #[], phase := .waiting now }
      attempt := 0 }
    now isCancelled

def judge (counted : Counted Value Error) (accepts : Value → Bool)
    (answer : Except Error Value) (now : Nat) (isCancelled : Bool) :
    Except Overflow (Counted Value Error) :=
  match answer with
  | .ok value =>
      if accepts value then .ok (counted.stop now (.matched value))
      else counted.rest now isCancelled
  | .error error =>
      match counted.poll.settings.onError with
      | .proceed => counted.rest now isCancelled
      | .abort =>
          .ok (counted.stop now (.failed counted.attempt.toNat error))

def ask (counted : Counted Value Error) (accepts : Value → Bool)
    (fetch : Fetch Value Error) (now : Nat) (isCancelled : Bool) :
    Except Overflow (Counted Value Error) :=
  match fetch.reply with
  | some (0, answer) => counted.judge accepts answer now isCancelled
  | _ =>
      .ok { counted with
        poll := counted.poll.ask accepts fetch now isCancelled }

def call (counted : Counted Value Error) (accepts : Value → Bool)
    (fetch : Fetch Value Error) (now : Nat) (isCancelled : Bool) :
    Except Overflow (Counted Value Error) :=
  if counted.attempt.toNat + 1 < UInt32.size then
    let called : Counted Value Error :=
      { poll := { counted.poll with calls := counted.poll.calls.push now }
        attempt := counted.attempt + 1 }
    if isCancelled ∧ fetch.cancelling = some .asMade then
      .ok (called.stop now .cancelled)
    else
      called.ask accepts fetch now isCancelled
  else
    .error .attempts

def react (counted : Counted Value Error) (accepts : Value → Bool)
    (script : Script Value Error) (now : Nat) (isCancelled : Bool) :
    Except Overflow (Counted Value Error × Bool) :=
  match counted.poll.phase with
  | .over _ _ => .ok (counted, false)
  | .waiting due =>
      if isCancelled then
        .ok (counted.stop now .cancelled, false)
      else if due ≤ now then do
        let fetch := script counted.poll.calls.size
        let called ← counted.call accepts fetch now fetch.cancels
        return (called, fetch.cancels)
      else
        .ok (counted, false)
  | .fetching reply =>
      if isCancelled then
        .ok (counted.stop now .cancelled, false)
      else
        match reply.filter fun answered => answered.1 ≤ now with
        | some (_, answer) => do
            let judged ← counted.judge accepts answer now false
            return (judged, false)
        | none =>
            if counted.poll.deadline ≤ now then
              .ok (counted.stop now .timedOut, false)
            else
              .ok (counted, false)

/-- Let a poll go on as `Poll.runAlone` does. -/
def runAlone (accepts : Value → Bool) (script : Script Value Error) :
    Nat → Option Nat → Counted Value Error →
      Except Overflow (Counted Value Error × Option Nat)
  | 0, cutoff, counted => .ok (counted, cutoff)
  | fuel + 1, cutoff, counted =>
      match counted.poll.due? with
      | none => .ok (counted, cutoff)
      | some due =>
          match cutoff.filter (· ≤ due) with
          | some time => do
              let (stopped, _) ← counted.react accepts script time true
              runAlone accepts script fuel cutoff stopped
          | none => do
              let (moved, cancels) ← counted.react accepts script due false
              runAlone accepts script fuel
                (if cancels then some due else cutoff) moved

/-- A poll whose fetches were counted right. -/
def ofPoll (poll : Poll Value Error) : Counted Value Error :=
  { poll, attempt := .ofNat poll.calls.size }

@[simp]
theorem poll_ofPoll (poll : Poll Value Error) : (ofPoll poll).poll = poll :=
  rfl

theorem toNat_attempt_ofPoll {poll : Poll Value Error}
    (few : poll.calls.size < UInt32.size) :
    (ofPoll poll).attempt.toNat = poll.calls.size :=
  Nat.mod_eq_of_lt few

/-! ## Where no number is missing -/

section

variable {poll : Poll Value Error} {now : Nat} {isCancelled : Bool}

theorem rest_ofPoll
    (fits : isCancelled = false → now + poll.settings.interval < Clock.limit) :
    (ofPoll poll).rest now isCancelled =
      .ok (ofPoll (poll.rest now isCancelled)) := by
  cases isCancelled with
  | true => rfl
  | false =>
      have ahead : Clock.ahead now (ofPoll poll).poll.settings.interval =
          .ok (now + poll.settings.interval) := Clock.ahead_of_lt (fits rfl)
      simp only [rest, Poll.rest, ahead, Bool.false_eq_true, if_false]
      by_cases late : poll.deadline < now + poll.settings.interval
      · rw [if_pos late]
        exact if_pos late
      · rw [if_neg late]
        exact if_neg late

theorem judge_ofPoll {accepts : Value → Bool} {answer : Except Error Value}
    (few : poll.calls.size < UInt32.size)
    (fits : isCancelled = false → now + poll.settings.interval < Clock.limit) :
    (ofPoll poll).judge accepts answer now isCancelled =
      .ok (ofPoll (poll.judge accepts answer now isCancelled)) := by
  cases answer with
  | ok value =>
      unfold judge Poll.judge
      dsimp only
      split
      · rfl
      · exact rest_ofPoll fits
  | error error =>
      unfold judge Poll.judge
      rw [toNat_attempt_ofPoll few]
      cases policy : poll.settings.onError with
      | proceed =>
        simp only [ofPoll, policy]
        exact rest_ofPoll fits
      | abort =>
        simp only [ofPoll, policy]
        rfl

theorem next_ofPoll {called : Poll Value Error}
    (one : called.calls.size = poll.calls.size + 1) :
    { poll := called, attempt := (ofPoll poll).attempt + 1 } =
      ofPoll called := by
  simp only [ofPoll, one, UInt32.ofNat_add]
  rfl

theorem ask_ofPoll {accepts : Value → Bool} {fetch : Fetch Value Error}
    (few : poll.calls.size < UInt32.size)
    (fits : isCancelled = false → now + poll.settings.interval < Clock.limit) :
    (ofPoll poll).ask accepts fetch now isCancelled =
      .ok (ofPoll (poll.ask accepts fetch now isCancelled)) := by
  unfold ask
  split
  next answer reply =>
    simp only [Poll.ask, reply]
    exact judge_ofPoll few fits
  next =>
    have kept : (poll.ask accepts fetch now isCancelled).calls = poll.calls :=
      (Poll.ask_keeps accepts fetch isCancelled).2
    simp only [ofPoll, kept]

theorem call_ofPoll {accepts : Value → Bool} {fetch : Fetch Value Error}
    (few : poll.calls.size + 1 < UInt32.size)
    (fits : isCancelled = false → now + poll.settings.interval < Clock.limit) :
    (ofPoll poll).call accepts fetch now isCancelled =
      .ok (ofPoll (poll.call accepts fetch now isCancelled)) := by
  have numbered : (ofPoll poll).attempt.toNat + 1 < UInt32.size := by
    rwa [toNat_attempt_ofPoll (Nat.lt_of_succ_lt few)]
  let called := { poll with calls := poll.calls.push now }
  have one : called.calls.size = poll.calls.size + 1 := Array.size_push ..
  have next : { poll := called, attempt := (ofPoll poll).attempt + 1 } =
      ofPoll called := next_ofPoll one
  simp only [call, if_pos numbered, poll_ofPoll, Poll.call]
  rw [next]
  split
  · rfl
  · exact ask_ofPoll (by rwa [one]) fits

end

end Counted

/-! ## The pace of a poll -/

/-- Polls with these settings that begin at a reading of the clock need no
number that is missing. -/
structure PollSettings.Fits (settings : PollSettings) (now : Nat) :
    Prop where
  deadline : now + settings.timeout < Clock.limit
  first : now + settings.interval < Clock.limit
  /-- The last answer may come right at the deadline. -/
  last : settings.interval ≤ settings.timeout →
    now + settings.timeout + settings.interval < Clock.limit
  attempts : settings.timeout < UInt32.size * settings.interval

namespace PollSettings.Fits

variable {settings : PollSettings} {now count : Nat}

theorem iff_and :
    settings.Fits now ↔
      now + settings.timeout < Clock.limit ∧
        now + settings.interval < Clock.limit ∧
        (settings.interval ≤ settings.timeout →
          now + settings.timeout + settings.interval < Clock.limit) ∧
        settings.timeout < UInt32.size * settings.interval :=
  ⟨fun fits => ⟨fits.deadline, fits.first, fits.last, fits.attempts⟩,
    fun ⟨deadline, first, last, attempts⟩ =>
      ⟨deadline, first, last, attempts⟩⟩

instance : Decidable (settings.Fits now) :=
  decidable_of_iff _ iff_and.symm

theorem lt_size (fits : settings.Fits now)
    (few : count * settings.interval ≤ settings.timeout) :
    count < UInt32.size :=
  Nat.lt_of_mul_lt_mul_right (Nat.lt_of_le_of_lt few fits.attempts)

theorem next_lt (fits : settings.Fits now) (positive : 0 < count)
    (few : count * settings.interval ≤ settings.timeout) {time : Nat}
    (inTime : time ≤ now + settings.timeout) :
    time + settings.interval < Clock.limit := by
  have one : settings.interval ≤ settings.timeout :=
    Nat.le_trans (Nat.le_mul_of_pos_left _ positive) few
  exact Nat.lt_of_le_of_lt (Nat.add_le_add_right inTime _) (fits.last one)

end PollSettings.Fits

namespace Poll

/-- A poll that began at `started` has come to an instant with no more fetches
than intervals. -/
structure IsOnTime (settings : PollSettings) (started now : Nat)
    (poll : Poll Value Error) : Prop where
  settings_eq : poll.settings = settings
  deadline_eq : poll.deadline = started + settings.timeout
  paced : started + poll.calls.size * settings.interval ≤ now
  inTime : now ≤ started + settings.timeout

/-- What a poll waits for comes in time, and an interval came before each of
its fetches. -/
inductive IsPaced (settings : PollSettings) (started : Nat)
    (poll : Poll Value Error) : Prop where
  | waiting {due : Nat} (phase : poll.phase = .waiting due)
      (onTime : poll.IsOnTime settings started due)
      (next : started + (poll.calls.size + 1) * settings.interval ≤ due)
  | fetching {reply : Option (Nat × Except Error Value)}
      (phase : poll.phase = .fetching reply)
      (onTime : poll.IsOnTime settings started poll.eventTime)
      (made : 0 < poll.calls.size)
  | ended {time : Nat} {result : PollResult Value Error}
      (phase : poll.phase = .over time result)
      (few : poll.calls.size * settings.interval ≤ settings.timeout)
      (numbered : ∀ attempt error, result = .failed attempt error →
        attempt = poll.calls.size)

section

variable {settings : PollSettings} {started now : Nat}
  {poll : Poll Value Error}

theorem IsOnTime.few (onTime : poll.IsOnTime settings started now) :
    poll.calls.size * settings.interval ≤ settings.timeout := by
  have paced := onTime.paced
  have inTime := onTime.inTime
  omega

theorem IsOnTime.stop (onTime : poll.IsOnTime settings started now)
    (time : Nat) {result : PollResult Value Error}
    (numbered : ∀ attempt error, result = .failed attempt error →
      attempt = poll.calls.size) :
    (poll.stop time result).IsPaced settings started :=
  .ended rfl onTime.few numbered

theorem IsPaced.few (paced : poll.IsPaced settings started) :
    poll.calls.size * settings.interval ≤ settings.timeout := by
  cases paced with
  | waiting phase onTime next => exact onTime.few
  | fetching phase onTime made => exact onTime.few
  | ended phase few numbered => exact few

theorem IsPaced.number_eq (paced : poll.IsPaced settings started)
    {time number : Nat} {error : Error}
    (failed : poll.phase = .over time (.failed number error)) :
    number = poll.calls.size := by
  cases paced with
  | waiting phase onTime next =>
      rw [failed] at phase
      cases phase
  | fetching phase onTime made =>
      rw [failed] at phase
      cases phase
  | ended phase few numbered =>
      rw [failed] at phase
      cases phase
      exact numbered number error rfl

theorem IsOnTime.later (onTime : poll.IsOnTime settings started now)
    {time : Nat} (forward : now ≤ time)
    (inTime : time ≤ started + settings.timeout)
    (phase : PollPhase Value Error) :
    { poll with phase }.IsOnTime settings started time :=
  ⟨onTime.settings_eq, onTime.deadline_eq,
    Nat.le_trans onTime.paced forward, inTime⟩

theorem IsOnTime.rest (onTime : poll.IsOnTime settings started now)
    (isCancelled : Bool) :
    (poll.rest now isCancelled).IsPaced settings started := by
  obtain rfl := onTime.settings_eq
  unfold Poll.rest
  split
  · exact onTime.stop now nofun
  · split
    · exact onTime.stop now nofun
    next early =>
      rw [onTime.deadline_eq] at early
      refine .waiting rfl
        (onTime.later (Nat.le_add_right now _) (Nat.le_of_not_lt early) _) ?_
      rw [Nat.succ_mul, ← Nat.add_assoc]
      exact Nat.add_le_add_right onTime.paced _

theorem isPaced_start (settings : PollSettings) (now : Nat)
    (isCancelled : Bool) :
    (start settings now isCancelled : Poll Value Error).IsPaced settings
      now := by
  have onTime : IsOnTime settings now now
      ({ settings, deadline := now + settings.timeout, calls := #[],
          phase := .waiting now } : Poll Value Error) :=
    ⟨rfl, rfl, by simp, Nat.le_add_right now settings.timeout⟩
  exact onTime.rest isCancelled

theorem IsOnTime.judge (onTime : poll.IsOnTime settings started now)
    (accepts : Value → Bool) (answer : Except Error Value)
    (isCancelled : Bool) :
    (poll.judge accepts answer now isCancelled).IsPaced settings started := by
  unfold Poll.judge
  cases answer with
  | ok value =>
      dsimp only
      split
      · exact onTime.stop now nofun
      · exact onTime.rest isCancelled
  | error error =>
      dsimp only
      split
      · exact onTime.rest isCancelled
      · exact onTime.stop now fun _ _ same => by cases same; rfl

theorem IsOnTime.ask (onTime : poll.IsOnTime settings started now)
    (made : 0 < poll.calls.size) (accepts : Value → Bool)
    (fetch : Fetch Value Error) (isCancelled : Bool) :
    (poll.ask accepts fetch now isCancelled).IsPaced settings started := by
  unfold Poll.ask
  split
  · exact onTime.judge accepts _ isCancelled
  · split
    · exact onTime.stop now nofun
    next early =>
      refine .fetching rfl (onTime.later ?_ ?_ _) made
      · simp only [eventTime]
        omega
      · exact onTime.deadline_eq ▸ Nat.min_le_right _ _
  · split
    · exact onTime.stop now nofun
    next early =>
      refine .fetching rfl (onTime.later ?_ ?_ _) made
      · exact Nat.le_of_not_le early
      · exact Nat.le_of_eq onTime.deadline_eq

theorem IsOnTime.call (onTime : poll.IsOnTime settings started now)
    (next : started + (poll.calls.size + 1) * settings.interval ≤ now)
    (accepts : Value → Bool) (fetch : Fetch Value Error)
    (isCancelled : Bool) :
    (poll.call accepts fetch now isCancelled).IsPaced settings started := by
  have called : IsOnTime settings started now
      { poll with calls := poll.calls.push now } :=
    ⟨onTime.settings_eq, onTime.deadline_eq,
      by rwa [Array.size_push], onTime.inTime⟩
  unfold Poll.call
  dsimp only
  split
  · exact called.stop now nofun
  · exact called.ask (by simp) accepts fetch isCancelled

end

end Poll

namespace Counted

section

variable {settings : PollSettings} {now : Nat} {poll : Poll Value Error}

theorem start_of_lt (inTime : now + settings.timeout < Clock.limit)
    (isCancelled : Bool) :
    (start settings now isCancelled :
      Except Overflow (Counted Value Error)) =
        rest
          { poll :=
              { settings
                deadline := now + settings.timeout
                calls := #[]
                phase := .waiting now }
            attempt := 0 }
          now isCancelled := by
  unfold start
  rw [Clock.ahead_of_lt inTime]
  rfl

theorem start_eq (inTime : now + settings.timeout < Clock.limit)
    (first : now + settings.interval < Clock.limit) (isCancelled : Bool) :
    (start settings now isCancelled :
      Except Overflow (Counted Value Error)) =
        .ok (ofPoll (Poll.start settings now isCancelled)) := by
  rw [start_of_lt inTime]
  exact rest_ofPoll fun _ => first

theorem react_of_isCancelled {due time : Nat} (waits : poll.due? = some due)
    (accepts : Value → Bool) (script : Script Value Error) :
    (ofPoll poll).react accepts script time true =
      .ok (ofPoll (poll.stop time .cancelled), false) := by
  match phase : poll.phase with
  | .over time result => simp [Poll.due?, phase] at waits
  | .waiting due =>
      simp only [react, ofPoll, phase, if_true]
      rfl
  | .fetching reply =>
      simp only [react, ofPoll, phase, if_true]
      rfl

section

variable {accepts : Value → Bool} {script : Script Value Error}

theorem react_of_waiting {counted : Counted Value Error}
    (phase : counted.poll.phase = .waiting now) :
    counted.react accepts script now false =
      let fetch := script counted.poll.calls.size
      (counted.call accepts fetch now fetch.cancels).map
        (·, fetch.cancels) := by
  simp only [react, phase, Bool.false_eq_true, if_false, Nat.le_refl, if_true]
  rfl

theorem react_of_heard {counted : Counted Value Error}
    {reply : Option (Nat × Except Error Value)}
    (phase : counted.poll.phase = .fetching reply)
    {answered : Nat × Except Error Value}
    (heard : reply.filter (·.1 ≤ now) = some answered) :
    counted.react accepts script now false =
      (counted.judge accepts answered.2 now false).map (·, false) := by
  simp only [react, phase, Bool.false_eq_true, if_false, heard]
  rfl

variable (fits : settings.Fits now)
include fits

theorem react_waiting_ofPoll {due : Nat} (phase : poll.phase = .waiting due)
    (onTime : poll.IsOnTime settings now due)
    (next : now + (poll.calls.size + 1) * settings.interval ≤ due) :
    let moved := poll.react accepts script due false true
    (ofPoll poll).react accepts script due false =
        .ok (ofPoll moved.1, moved.2) ∧
      moved.1.IsPaced settings now := by
  obtain rfl := onTime.settings_eq
  have few : (poll.calls.size + 1) * poll.settings.interval ≤
      poll.settings.timeout := by
    have inTime := onTime.inTime
    omega
  have called (isCancelled : Bool) :
      (ofPoll poll).call accepts (script poll.calls.size) due isCancelled =
        .ok (ofPoll (poll.call accepts (script poll.calls.size) due
          isCancelled)) :=
    call_ofPoll (fits.lt_size few)
      fun _ => fits.next_lt (Nat.succ_pos _) few onTime.inTime
  have moved : poll.react accepts script due false true =
      (poll.call accepts (script poll.calls.size) due
          (script poll.calls.size).cancels,
        (script poll.calls.size).cancels) := by
    simp [Poll.react, phase]
  rw [moved]
  refine ⟨?_, onTime.call next accepts _ _⟩
  rw [react_of_waiting phase]
  exact congrArg (Except.map (·, (script poll.calls.size).cancels)) (called _)

theorem react_fetching_ofPoll {reply : Option (Nat × Except Error Value)}
    (phase : poll.phase = .fetching reply)
    (onTime : poll.IsOnTime settings now poll.eventTime)
    (made : 0 < poll.calls.size) :
    let moved := poll.react accepts script poll.eventTime false true
    (ofPoll poll).react accepts script poll.eventTime false =
        .ok (ofPoll moved.1, moved.2) ∧
      moved.1.IsPaced settings now := by
  obtain rfl := onTime.settings_eq
  have phase_eq : (ofPoll poll).poll.phase = .fetching reply := phase
  cases heard : reply.filter (·.1 ≤ poll.eventTime) with
  | some answered =>
      have judged : (ofPoll poll).judge accepts answered.2 poll.eventTime
          false =
            .ok (ofPoll (poll.judge accepts answered.2 poll.eventTime
              false)) :=
        judge_ofPoll (fits.lt_size onTime.few)
          fun _ => fits.next_lt made onTime.few onTime.inTime
      have moved : poll.react accepts script poll.eventTime false true =
          (poll.judge accepts answered.2 poll.eventTime false, false) := by
        simp [Poll.react, phase, heard]
      rw [moved, react_of_heard phase_eq heard, judged]
      exact ⟨rfl, onTime.judge accepts answered.2 false⟩
  | none =>
      simp only [react, Poll.react, phase, phase_eq, Bool.false_eq_true,
        if_false, heard]
      by_cases given : poll.deadline ≤ poll.eventTime
      · simp only [if_pos given]
        exact ⟨if_pos given, onTime.stop _ (by simp)⟩
      · simp only [if_neg given]
        exact ⟨if_neg given, .fetching phase onTime made⟩

variable (accepts script) in
/-- A poll that keeps its pace goes on, and keeps it. -/
theorem react_ofPoll (paced : poll.IsPaced settings now) :
    let moved := poll.react accepts script poll.eventTime false true
    (ofPoll poll).react accepts script poll.eventTime false =
        .ok (ofPoll moved.1, moved.2) ∧
      moved.1.IsPaced settings now := by
  cases paced with
  | @waiting due phase onTime next =>
      have reached : poll.eventTime = due := by simp [Poll.eventTime, phase]
      rw [reached]
      exact react_waiting_ofPoll fits phase onTime next
  | fetching phase onTime made =>
      exact react_fetching_ofPoll fits phase onTime made
  | ended phase few numbered =>
      simp only [react, Poll.react, ofPoll, phase]
      exact ⟨trivial, .ended phase few numbered⟩

end

theorem runAlone_of_over (accepts : Value → Bool)
    (script : Script Value Error) (fuel : Nat) (cutoff : Option Nat)
    {time : Nat} {result : PollResult Value Error}
    (finished : poll.phase = .over time result) :
    runAlone accepts script fuel cutoff (ofPoll poll) =
      .ok (ofPoll poll, cutoff) := by
  cases fuel with
  | zero => rfl
  | succ fuel => simp only [runAlone, poll_ofPoll, Poll.due?, finished]

/-- What happens to a poll that keeps its pace happens to it on a machine as
well. -/
theorem runAlone_ofPoll (fits : settings.Fits now)
    (accepts : Value → Bool) (script : Script Value Error)
    {poll : Poll Value Error} (paced : poll.IsPaced settings now)
    (fuel : Nat) (cutoff : Option Nat) :
    let run := Poll.runAlone accepts script fuel cutoff poll
    runAlone accepts script fuel cutoff (ofPoll poll) =
        .ok (ofPoll run.1, run.2) ∧
      run.1.IsPaced settings now := by
  induction fuel generalizing poll cutoff with
  | zero => exact ⟨rfl, paced⟩
  | succ fuel ih =>
      rcases poll.next_cases cutoff with
        ⟨time, result, finished⟩ | ⟨waits, ⟨cut, rfl, due⟩ | later⟩
      · rw [Poll.runAlone_of_over accepts script finished]
        exact ⟨runAlone_of_over accepts script _ cutoff finished, paced⟩
      · rw [Poll.runAlone_of_cut_le waits due]
        have reached : (some cut).filter (· ≤ poll.eventTime) = some cut := by
          simp [due]
        simp only [runAlone, poll_ofPoll, waits, reached,
          react_of_isCancelled waits]
        exact ⟨runAlone_of_over accepts script fuel _ rfl,
          .ended rfl paced.few nofun⟩
      · obtain ⟨moved, stillPaced⟩ := react_ofPoll accepts script fits paced
        rw [Poll.runAlone_of_waits waits later]
        simp only [runAlone, poll_ofPoll, waits, Poll.filter_of_ahead later,
          moved]
        exact ih stillPaced _

end

end Counted

end ScreenFlow
