import ScreenFlow.Proofs.Independence

/-!
# What decides about a card

The backend answers one request for a card after the other, and the first
answer in time that settles the matter is the last one.  A card that is pending
settles nothing, whatever else is said about it, and neither does a failure
that polling goes on after.
-/

namespace ScreenFlow

/-! ## Reading answers -/

/-- A card that is active, with enough detail to be shown to the user. -/
def CardPayload.IsActive (payload : CardPayload) : Prop :=
  payload.state = .active ∧ payload.id ≠ "" ∧
    ∃ card, payload.card = some card ∧ card.number.utf8ByteSize = 4

theorem CardData.ofPayload?_isSome_iff (payload : CardPayload) :
    (ofPayload? payload).isSome = true ↔
      payload.id ≠ "" ∧
        ∃ card, payload.card = some card ∧ card.number.utf8ByteSize = 4 := by
  unfold ofPayload?
  cases payload.card with
  | none => simp
  | some card =>
      by_cases named : payload.id = ""
      · simp [named]
      · by_cases digits : card.number.utf8ByteSize = 4
        · simp [named, digits]
        · simp [named, digits]

namespace Activation

theorem ofPayload_eq_pending_iff (payload : CardPayload) :
    ofPayload payload = .pending ↔ payload.state = .pending := by
  unfold ofPayload
  cases payload.state with
  | active => cases CardData.ofPayload? payload <;> simp
  | _ => simp

theorem status_ofPayload_eq_activated_iff (payload : CardPayload) :
    CardStatus.ofResult?
        (.matched (ofPayload payload) : PollResult Activation ClientError) =
      some .activated ↔ payload.IsActive := by
  have shown := CardData.ofPayload?_isSome_iff payload
  unfold ofPayload CardPayload.IsActive
  rw [← shown]
  cases payload.state with
  | active =>
      cases CardData.ofPayload? payload with
      | none => simp [CardStatus.ofResult?]
      | some card => simp [CardStatus.ofResult?]
  | _ => simp [CardStatus.ofResult?]

theorem status_ofPayload_eq_failed_iff {payload : CardPayload}
    (settled : payload.state ≠ .pending) :
    CardStatus.ofResult?
        (.matched (ofPayload payload) : PollResult Activation ClientError) =
      some .failed ↔ ¬ payload.IsActive := by
  rw [← status_ofPayload_eq_activated_iff]
  rw [ne_eq, ← ofPayload_eq_pending_iff] at settled
  cases reading : ofPayload payload with
  | active card => simp [CardStatus.ofResult?]
  | pending => exact absurd reading settled
  | inactive card => simp [CardStatus.ofResult?]

end Activation

theorem Wait.accepts_ofPayload_iff (payload : CardPayload) :
    accepts (.ofPayload payload) = true ↔ payload.state ≠ .pending := by
  rw [ne_eq, ← Activation.ofPayload_eq_pending_iff]
  cases Activation.ofPayload payload <;> simp [accepts, Activation.isPending]

/-- Whether an answer of the backend, if it comes in time, is the last one. -/
def PollSettings.Settles (settings : PollSettings) :
    Except ClientError CardPayload → Prop
  | .ok payload => payload.state ≠ .pending
  | .error _ => settings.onError = .abort

namespace PollResult

/-- How a wait ends with the answer to a request, counted from zero. -/
def ofAnswer (index : Nat) :
    Except ClientError CardPayload → PollResult Activation ClientError
  | .ok payload => .matched (.ofPayload payload)
  | .error error => .failed (index + 1) error

variable {settings : PollSettings} {index : Nat}
  {answer : Except ClientError CardPayload}

theorem status_ofAnswer_eq_activated_iff :
    CardStatus.ofResult? (ofAnswer index answer) = some .activated ↔
      ∃ payload, answer = .ok payload ∧ payload.IsActive := by
  cases answer with
  | ok payload =>
      simpa [ofAnswer] using
        Activation.status_ofPayload_eq_activated_iff payload
  | error error => simp [ofAnswer, CardStatus.ofResult?]

theorem status_ofAnswer_eq_failed_iff (settles : settings.Settles answer) :
    CardStatus.ofResult? (ofAnswer index answer) = some .failed ↔
      ∃ payload, answer = .ok payload ∧ ¬ payload.IsActive := by
  cases answer with
  | ok payload =>
      simpa [ofAnswer] using
        Activation.status_ofPayload_eq_failed_iff settles
  | error error => simp [ofAnswer, CardStatus.ofResult?]

theorem ofAnswer_eq_failed_iff {attempt : Nat} {error : ClientError} :
    ofAnswer index answer = .failed attempt error ↔
      attempt = index + 1 ∧ answer = .error error := by
  cases answer <;> simp [ofAnswer, eq_comm]

theorem ofAnswer_ne_pending (settles : settings.Settles answer) :
    ofAnswer index answer ≠ .matched .pending := by
  cases answer with
  | ok payload =>
      have settled : payload.state ≠ .pending := settles
      simpa [ofAnswer, Activation.ofPayload_eq_pending_iff] using settled
  | error error => simp [ofAnswer]

end PollResult

/-! ## The answer that decides -/

namespace Script

/-- Requests for a card as checks of its activation. -/
def activations (requests : Script CardPayload ClientError) :
    Script Activation ClientError :=
  fun index => (requests index).activation

/-- A request that is answered without settling anything. -/
def Passes (requests : Script CardPayload ClientError)
    (settings : PollSettings) (index : Nat) : Prop :=
  ∃ delay answer, (requests index).reply = some (delay, answer) ∧
    ¬ settings.Settles answer

/-- The answer to a request is the first one that settles the matter, and comes
no later than the deadline. -/
structure IsDecisive (requests : Script CardPayload ClientError)
    (settings : PollSettings) (index delay : Nat)
    (answer : Except ClientError CardPayload) : Prop where
  reply_eq : (requests index).reply = some (delay, answer)
  inTime : requests.dueAt settings index + delay ≤ settings.timeout
  settles : settings.Settles answer
  earlier : ∀ before < index, requests.Passes settings before

variable {requests : Script CardPayload ClientError} {settings : PollSettings}

theorem ofList_activation
    (fetches : List (Nat → Fetch CardPayload ClientError)) :
    ofList (fetches.map fun request number => (request number).activation) =
      (ofList fetches).activations := by
  funext index
  cases there : fetches[index]? with
  | some request => simp [ofList, activations, there]
  | none =>
      cases last : fetches.getLast? with
      | some request => simp [ofList, activations, there, last]
      | none => simp [ofList, activations, there, last, silence, Fetch.activation]

@[simp]
theorem cancels_activations (index : Nat) :
    (requests.activations index).cancels = (requests index).cancels := by
  simp [activations, Fetch.activation, Fetch.cancels]

@[simp]
theorem dueAt_activations (index : Nat) :
    requests.activations.dueAt settings index =
      requests.dueAt settings index := by
  induction index with
  | zero => rfl
  | succ index ih =>
      have same : (requests.activations index).delay =
          (requests index).delay := by
        cases reply : (requests index).reply <;>
          simp [activations, Fetch.activation, Fetch.delay, reply]
      rw [dueAt, dueAt, ih, same]

theorem reply_activations {index delay : Nat}
    {answer : Except ClientError CardPayload}
    (reply : (requests index).reply = some (delay, answer)) :
    (requests.activations index).reply =
      some (delay, answer.map .ofPayload) := by
  simp [activations, Fetch.activation, reply]

theorem dueAt_add_delay_le {before index delay : Nat}
    {answer : Except ClientError CardPayload} (sooner : before < index)
    (reply : (requests before).reply = some (delay, answer)) :
    requests.dueAt settings before + delay ≤ requests.dueAt settings index := by
  induction index with
  | zero => omega
  | succ index ih =>
      rcases Nat.lt_or_eq_of_le (Nat.le_of_lt_succ sooner) with further | rfl
      · have reached := ih further
        simp only [dueAt]
        omega
      · simp only [dueAt, Fetch.delay, reply, Option.map_some,
          Option.getD_some]
        omega

theorem decides_activations_iff (index : Nat) :
    requests.activations.Decides settings Wait.accepts index ↔
      settings.timeout < requests.dueAt settings index ∨
        (∀ delay answer, (requests index).reply = some (delay, answer) →
          settings.timeout < requests.dueAt settings index + delay) ∨
        ∃ delay answer, (requests index).reply = some (delay, answer) ∧
          settings.Settles answer := by
  unfold Decides
  rw [dueAt_activations]
  cases reply : (requests index).reply with
  | none => simp [activations, Fetch.activation, reply]
  | some answered =>
      obtain ⟨delay, answer⟩ := answered
      cases answer with
      | error error =>
          simp [activations, Fetch.activation, reply, Except.map,
            PollSettings.Settles]
      | ok payload =>
          simp [activations, Fetch.activation, reply, Except.map,
            PollSettings.Settles, Wait.accepts_ofPayload_iff]

theorem of_not_decides {index : Nat}
    (undecided : ¬ requests.activations.Decides settings Wait.accepts index) :
    requests.dueAt settings index ≤ settings.timeout ∧
      requests.Passes settings index := by
  simp only [decides_activations_iff, not_or, not_forall, not_exists,
    not_and, Nat.not_lt] at undecided
  obtain ⟨inTime, ⟨delay, answer, reply, -⟩, unsettled⟩ := undecided
  exact ⟨inTime, delay, answer, reply, unsettled delay answer reply⟩

theorem Passes.not_decides {before index : Nat}
    (passes : requests.Passes settings before) (sooner : before < index)
    (inTime : requests.dueAt settings index ≤ settings.timeout) :
    ¬ requests.activations.Decides settings Wait.accepts before := by
  obtain ⟨delay, answer, reply, unsettled⟩ := passes
  have heard : requests.dueAt settings before + delay ≤
      requests.dueAt settings index := dueAt_add_delay_le sooner reply
  rw [decides_activations_iff]
  rintro (late | unheard | ⟨other, given, same, settles⟩)
  · omega
  · have later := unheard delay answer reply
    omega
  · rw [reply] at same
    cases same
    exact unsettled settles

section

variable {last : Nat}
  (decides : requests.activations.Decides settings Wait.accepts last)
  (earlier : ∀ index < last,
    ¬ requests.activations.Decides settings Wait.accepts index)
include decides

/-- A wait comes to a request that is due in time if all requests before it
pass. -/
theorem le_of_passes {index : Nat}
    (inTime : requests.dueAt settings index ≤ settings.timeout)
    (passed : ∀ before < index, requests.Passes settings before) :
    index ≤ last := by
  by_contra beyond
  have sooner := Nat.lt_of_not_le beyond
  exact (passed last sooner).not_decides sooner inTime decides

include earlier

theorem IsDecisive.eq_last {index delay : Nat}
    {answer : Except ClientError CardPayload}
    (decisive : requests.IsDecisive settings index delay answer) :
    index = last := by
  have inTime := decisive.inTime
  have reached := le_of_passes decides (by omega) decisive.earlier
  refine Nat.le_antisymm reached (Nat.le_of_not_lt fun sooner => ?_)
  obtain ⟨-, passes⟩ := of_not_decides (earlier index sooner)
  obtain ⟨other, given, reply, unsettled⟩ := passes
  rw [decisive.reply_eq] at reply
  cases reply
  exact unsettled decisive.settles

/-- The attempt that decides has a decisive answer, or it comes too late or is
not answered in time. -/
theorem decisive_or_late :
    (∃ delay answer, requests.IsDecisive settings last delay answer) ∨
      ∀ delay answer, (requests last).reply = some (delay, answer) →
        settings.timeout < requests.dueAt settings last + delay := by
  by_cases heard : ∃ delay answer,
      (requests last).reply = some (delay, answer) ∧
        requests.dueAt settings last + delay ≤ settings.timeout
  · obtain ⟨delay, answer, reply, inTime⟩ := heard
    refine .inl ⟨delay, answer, reply, inTime, ?_, fun index before =>
      (of_not_decides (earlier index before)).2⟩
    rcases (decides_activations_iff last).mp decides with
      late | unheard | ⟨other, given, same, settles⟩
    · omega
    · have later := unheard delay answer reply
      omega
    · rw [reply] at same
      cases same
      exact settles
  · refine .inr fun delay answer reply => Nat.lt_of_not_le fun inTime => ?_
    exact heard ⟨delay, answer, reply, inTime⟩

end

end Script

namespace Poll

variable {requests : Script CardPayload ClientError} {settings : PollSettings}
  (now : Nat)

theorem concluded_of_decisive {index delay : Nat}
    {answer : Except ClientError CardPayload}
    (decides : requests.activations.Decides settings Wait.accepts index)
    (decisive : requests.IsDecisive settings index delay answer) :
    concluded Wait.accepts requests.activations settings now index =
      underWay requests.activations settings now (index + 1)
        (.over (now + (requests.dueAt settings index + delay))
          (.ofAnswer index answer)) := by
  have heard : requests.activations.dueAt settings index + delay ≤
      settings.timeout := by
    rw [Script.dueAt_activations]
    exact decisive.inTime
  have reply := Script.reply_activations decisive.reply_eq
  have inTime : requests.activations.dueAt settings index ≤
      settings.timeout := by omega
  rw [← Script.dueAt_activations]
  cases answer with
  | ok payload =>
      exact concluded_of_verdict now index inTime
        (Script.verdict?_of_value _ _ _ decides reply heard)
  | error error =>
      exact concluded_of_verdict now index inTime
        (Script.verdict?_of_error _ _ _ decides reply heard)

theorem concluded_of_late {last : Nat}
    (late : ∀ delay answer, (requests last).reply = some (delay, answer) →
      settings.timeout < requests.dueAt settings last + delay) :
    ∃ finish,
      (concluded Wait.accepts requests.activations settings now last).phase =
        .over finish .timedOut := by
  by_cases inTime :
      requests.activations.dueAt settings last ≤ settings.timeout
  · have unheard : ∀ delay answer,
        (requests.activations last).reply = some (delay, answer) →
          settings.timeout <
            requests.activations.dueAt settings last + delay := by
      intro delay answer reply
      obtain ⟨⟨_, given⟩, asked, same⟩ := Option.map_eq_some_iff.mp reply
      cases same
      rw [Script.dueAt_activations]
      exact late delay given asked
    have verdict := requests.activations.verdict?_of_unheard settings
      Wait.accepts inTime unheard
    have concludes := concluded_of_verdict now last inTime verdict
    exact ⟨_, congrArg Poll.phase concludes⟩
  · have unmade := Nat.lt_of_not_le inTime
    rw [concluded, if_pos unmade, pausing, if_pos unmade]
    exact ⟨_, rfl⟩

theorem calls_concluded {last : Nat}
    (decides : requests.activations.Decides settings Wait.accepts last)
    (earlier : ∀ index < last,
      ¬ requests.activations.Decides settings Wait.accepts index) :
    let made :=
      (concluded Wait.accepts requests.activations settings now last).calls
    made = requests.callsBefore settings now made.size ∧
      ∀ index, index < made.size ↔
        requests.dueAt settings index ≤ settings.timeout ∧
          ∀ before < index, requests.Passes settings before := by
  have passed : ∀ before < last, requests.Passes settings before :=
    fun before sooner => (Script.of_not_decides (earlier before sooner)).2
  have same (count : Nat) : requests.activations.callsBefore settings now count =
      requests.callsBefore settings now count := by
    simp only [Script.callsBefore, Script.dueAt_activations]
  unfold concluded
  split
  next late =>
    rw [Script.dueAt_activations] at late
    simp only [calls_pausing, same, Script.size_callsBefore, true_and]
    intro index
    constructor
    · intro sooner
      exact ⟨(Script.of_not_decides (earlier index sooner)).1,
        fun before further => passed before (by omega)⟩
    · rintro ⟨inTime, passes⟩
      have reached := Script.le_of_passes decides inTime passes
      refine Nat.lt_of_le_of_ne reached ?_
      rintro rfl
      omega
  next inTime =>
    rw [Script.dueAt_activations] at inTime
    simp only [calls_afterAttempt, same, Script.size_callsBefore, true_and]
    intro index
    constructor
    · intro sooner
      refine ⟨?_, fun before further => passed before (by omega)⟩
      rcases Nat.lt_or_eq_of_le (Nat.le_of_lt_succ sooner) with further | rfl
      · exact (Script.of_not_decides (earlier index further)).1
      · exact Nat.le_of_not_lt inTime
    · rintro ⟨inTime, passes⟩
      have reached := Script.le_of_passes decides inTime passes
      omega

/-- What a wait that began at `now` reports about its requests.  It reports
that the card is active, or that a request failed, exactly if that is what
decides about the card; if something else decides, or nothing, the card has
failed.  The wait ends with the answer that decides, and up to there each
request that is due in time is made. -/
structure Reports (requests : Script CardPayload ClientError)
    (settings : PollSettings) (now : Nat) (poll : Poll Activation ClientError)
    (finish : Nat) (result : PollResult Activation ClientError) : Prop where
  finished : poll.phase = .over finish result
  activated_iff : CardStatus.ofResult? result = some .activated ↔
    ∃ index delay payload,
      requests.IsDecisive settings index delay (.ok payload) ∧
        payload.IsActive
  requestFailed_iff : ∀ attempt error, result = .failed attempt error ↔
    ∃ index delay, attempt = index + 1 ∧
      requests.IsDecisive settings index delay (.error error)
  failed_iff : CardStatus.ofResult? result = some .failed ↔
    (∀ index delay payload,
      requests.IsDecisive settings index delay (.ok payload) →
        ¬ payload.IsActive) ∧
    ∀ index delay error,
      ¬ requests.IsDecisive settings index delay (.error error)
  settled : result ≠ .matched .pending
  atDecision : ∀ index delay answer,
    requests.IsDecisive settings index delay answer →
      finish = now + (requests.dueAt settings index + delay) ∧
        poll.calls.size = index + 1
  calls_eq : poll.calls = requests.callsBefore settings now poll.calls.size
  made_iff : ∀ index, index < poll.calls.size ↔
    requests.dueAt settings index ≤ settings.timeout ∧
      ∀ before < index, requests.Passes settings before

/-- A wait goes on after an answer that says that the card is pending, whatever
else it says, as long as there is time for another request. -/
theorem Reports.goesOn_of_pending {now finish : Nat}
    {poll : Poll Activation ClientError}
    {result : PollResult Activation ClientError}
    (reports : poll.Reports requests settings now finish result)
    {index delay : Nat} {payload : CardPayload}
    (made : index < poll.calls.size)
    (reply : (requests index).reply = some (delay, .ok payload))
    (pending : payload.state = .pending)
    (inTime : requests.dueAt settings (index + 1) ≤ settings.timeout) :
    index + 1 < poll.calls.size := by
  refine (reports.made_iff (index + 1)).mpr ⟨inTime, fun before sooner => ?_⟩
  rcases Nat.lt_or_eq_of_le (Nat.le_of_lt_succ sooner) with further | rfl
  · exact ((reports.made_iff index).mp made).2 before further
  · exact ⟨delay, .ok payload, reply, fun settled => settled pending⟩

section

variable {now last : Nat}
  (decides : requests.activations.Decides settings Wait.accepts last)
  (earlier : ∀ index < last,
    ¬ requests.activations.Decides settings Wait.accepts index)
include decides earlier

theorem reports_of_decisive {delay : Nat}
    {answer : Except ClientError CardPayload}
    (decisive : requests.IsDecisive settings last delay answer) :
    Reports requests settings now
      (concluded Wait.accepts requests.activations settings now last)
      (now + (requests.dueAt settings last + delay))
      (.ofAnswer last answer) := by
  have only : ∀ index waited given,
      requests.IsDecisive settings index waited given ↔
        index = last ∧ waited = delay ∧ given = answer := by
    intro index waited given
    constructor
    · intro other
      obtain rfl := other.eq_last decides earlier
      have same := other.reply_eq.symm.trans decisive.reply_eq
      cases same
      exact ⟨rfl, rfl, rfl⟩
    · rintro ⟨rfl, rfl, rfl⟩
      exact decisive
  have concludes := concluded_of_decisive now decides decisive
  obtain ⟨calls, made⟩ := calls_concluded now decides earlier
  constructor
  case finished => exact congrArg Poll.phase concludes
  case activated_iff =>
    rw [PollResult.status_ofAnswer_eq_activated_iff]
    constructor
    · rintro ⟨payload, rfl, active⟩
      exact ⟨last, delay, payload, decisive, active⟩
    · rintro ⟨index, waited, payload, other, active⟩
      exact ⟨payload, ((only _ _ _).mp other).2.2.symm, active⟩
  case requestFailed_iff =>
    intro attempt error
    rw [PollResult.ofAnswer_eq_failed_iff]
    constructor
    · rintro ⟨counted, rfl⟩
      exact ⟨last, delay, counted, decisive⟩
    · rintro ⟨index, waited, counted, other⟩
      obtain ⟨rfl, -, same⟩ := (only _ _ _).mp other
      exact ⟨counted, same.symm⟩
  case failed_iff =>
    rw [PollResult.status_ofAnswer_eq_failed_iff decisive.settles]
    constructor
    · rintro ⟨payload, rfl, inactive⟩
      constructor
      · intro index waited given other
        cases ((only _ _ _).mp other).2.2
        exact inactive
      · intro index waited error other
        cases ((only _ _ _).mp other).2.2
    · rintro ⟨inactive, answered⟩
      cases answer with
      | ok payload => exact ⟨payload, rfl, inactive _ _ _ decisive⟩
      | error error => exact absurd decisive (answered _ _ _)
  case settled => exact PollResult.ofAnswer_ne_pending decisive.settles
  case atDecision =>
    intro index waited given other
    obtain ⟨rfl, rfl, -⟩ := (only _ _ _).mp other
    refine ⟨rfl, ?_⟩
    rw [concludes]
    exact Script.size_callsBefore _ _ _ _
  case calls_eq => exact calls
  case made_iff => exact made

theorem exists_reports_of_late
    (late : ∀ delay answer, (requests last).reply = some (delay, answer) →
      settings.timeout < requests.dueAt settings last + delay) :
    ∃ finish, Reports requests settings now
      (concluded Wait.accepts requests.activations settings now last)
      finish .timedOut := by
  have none_decides : ∀ index delay answer,
      ¬ requests.IsDecisive settings index delay answer := by
    intro index delay answer decisive
    obtain rfl := decisive.eq_last decides earlier
    exact Nat.not_le.mpr (late delay answer decisive.reply_eq)
      decisive.inTime
  obtain ⟨finish, timedOut⟩ := concluded_of_late now late
  obtain ⟨calls, made⟩ := calls_concluded now decides earlier
  refine ⟨finish, ?_⟩
  constructor
  case finished => exact timedOut
  case activated_iff => simp [none_decides, CardStatus.ofResult?]
  case requestFailed_iff => simp [none_decides]
  case failed_iff => simp [none_decides, CardStatus.ofResult?]
  case settled => exact nofun
  case atDecision => simp [none_decides]
  case calls_eq => exact calls
  case made_iff => exact made

end

end Poll

namespace ActivationService

variable {service : ActivationService}
  {fetches : List (Nat → Fetch CardPayload ClientError)}

/-- A wait for one card that nobody cancels comes to the request that decides
about the card. -/
theorem waitForCards_concluded (positive : 0 < service.settings.interval)
    (ready : service.isCancelled service.handle = false)
    (quiet : ∀ index, (Script.ofList fetches index).cancels = false) :
    let checks := (Script.ofList fetches).activations
    (service.waitForCards [fetches] []).1.tokens = service.tokens ∧
      ∃ last, checks.Decides service.settings Wait.accepts last ∧
        (∀ index < last,
          ¬ checks.Decides service.settings Wait.accepts index) ∧
        (service.waitForCards [fetches] []).2 =
          [Poll.concluded Wait.accepts checks service.settings service.now
            last] := by
  intro checks
  have silent (index : Nat) : (checks index).cancels = false :=
    (Script.cancels_activations index).trans (quiet index)
  let asked := fetches.map fun request number => (request number).activation
  have scripted : Script.ofList asked = checks :=
    Script.ofList_activation fetches
  obtain ⟨ends, tokens⟩ :
      (service.waitAll [asked] []).2 = [service.alone asked none] ∧
        ([] = [] → (service.waitAll [asked] []).1.tokens = service.tokens) :=
    waitAll_eq_map_alone positive ready (by simpa [scripted] using silent)
  obtain ⟨last, decides, earlier, -, concludes⟩ :=
    Poll.runAlone_quieted Wait.accepts checks service.settings service.now
      asked.length positive
  rw [Script.quieted_of_quiet silent] at concludes
  refine ⟨tokens rfl, last, decides, earlier, ends.trans ?_⟩
  rw [← concludes, ← scripted]
  rfl

end ActivationService

end ScreenFlow
