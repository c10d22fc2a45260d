import Mathlib.Data.List.Sort
import ScreenFlow.Proofs.Prospect

/-!
# Waits that run together do not disturb each other

Waits that begin together share a clock, a token and a list of planned
cancellations, and the first of them to return may replace the token.  Still
each of them ends as if it were the only one.
-/

namespace ScreenFlow

/-! ## Waits that begin together -/

namespace Wait

/-- A wait that has just begun under a token that is not cancelled. -/
def ready (settings : PollSettings) (token : Nat)
    (script : Script Activation ClientError) (now : Nat) : Wait :=
  { token, target := token, script, poll := .start settings now false }

variable {settings : PollSettings} {tokens : CancelTokens}

theorem begun_eq_ready (positive : 0 < settings.interval)
    (uncancelled : tokens.isCancelled tokens.current = false)
    (script : Script Activation ClientError) (now lead : Nat) :
    begun settings tokens.current script tokens now lead =
      (ready settings tokens.current script now, tokens) := by
  have rearmed : tokens.rearm = tokens := by
    simp [CancelTokens.rearm, uncancelled]
  have started : start settings tokens.current script tokens now =
      (ready settings tokens.current script now, tokens) := by
    simp [start, ready, uncancelled, rearmed]
  have early : (ready settings tokens.current script now).poll.due?.any
      (· ≤ now) = false := by
    cases waits : (ready settings tokens.current script now).poll.due? with
    | none => rfl
    | some due =>
        have later := Poll.lt_of_due?_start positive waits
        simpa using later
  simp only [begun, started, Poll.reactionBound]
  rw [settle, early]
  rfl

end Wait

namespace Waits

theorem foldl_begin {settings : PollSettings}
    (positive : 0 < settings.interval)
    (scripts : List (List (Nat → Fetch Activation ClientError)))
    {running : Waits} {token : Nat} (current : running.tokens.current = token)
    (uncancelled : running.tokens.isCancelled token = false) :
    scripts.foldl
        (fun running fetches =>
          running.begin settings token (.ofList fetches) fetches.length)
        running =
      { running with
        waits := running.waits ++ scripts.map fun fetches =>
          Wait.ready settings token (.ofList fetches) running.now } := by
  induction scripts generalizing running with
  | nil => simp
  | cons fetches rest ih =>
      subst current
      have first : running.begin settings running.tokens.current
          (.ofList fetches) fetches.length =
          { running with
            waits := running.waits ++
              [Wait.ready settings running.tokens.current (.ofList fetches)
                running.now] } := by
        rw [begin_eq, Wait.begun_eq_ready positive uncancelled]
      have others := @ih (running.begin settings running.tokens.current
        (.ofList fetches) fetches.length)
      rw [first] at others
      rw [List.foldl_cons, first, others rfl uncancelled]
      simp

end Waits

theorem head?_mergeSort (moments : List Nat) :
    moments.mergeSort.head? = moments.min? := by
  have same := moments.mergeSort_perm fun first second => first ≤ second
  cases sorted : moments.mergeSort with
  | nil =>
      rw [sorted] at same
      simp [same.symm.eq_nil]
  | cons first rest =>
      have ordered : moments.mergeSort.Pairwise (· ≤ ·) :=
        List.pairwise_mergeSort' (· ≤ ·) moments
      rw [sorted] at same ordered
      symm
      apply List.min?_eq_some_iff.mpr
      refine ⟨same.subset List.mem_cons_self, ?_⟩
      intro moment among
      rcases List.mem_cons.mp (same.symm.subset among) with rfl | later
      · exact Nat.le_refl moment
      · exact (List.pairwise_cons.mp ordered).1 moment later

theorem Poll.reactionBound_le {settings : PollSettings} {few many : Nat}
    (le : few ≤ many) :
    reactionBound settings few ≤ reactionBound settings many := by
  unfold reactionBound
  omega

namespace ActivationService

section

variable (service : ActivationService)
  (scripts : List (List (Nat → Fetch Activation ClientError)))
  (cancels : List Nat)

/-- A wait of a service that is the only one, under a token that is cancelled
some time after it begins, or never. -/
def alone (fetches : List (Nat → Fetch Activation ClientError))
    (cancel : Option Nat) : Poll Activation ClientError :=
  (Poll.runAlone Wait.accepts (.ofList fetches)
    (Poll.reactionBound service.settings fetches.length)
    (cancel.map (service.now + ·))
    (.start service.settings service.now false)).1

/-- What is to become of the waits that begin together. -/
def prospects : List Prospect :=
  scripts.map fun fetches =>
    { wait := .ready service.settings service.handle (.ofList fetches)
        service.now
      left := Poll.reactionBound service.settings fetches.length
      final := service.alone fetches cancels.min? }

/-- Waits of a service that have just begun together. -/
def begun : Waits :=
  { now := service.now
    tokens := service.tokens
    waits := (service.prospects scripts cancels).map Prospect.wait
    cancels := cancels.mergeSort.map (service.now + ·) }

/-- How often waits that begin together go on at most. -/
def fuel : Nat :=
  scripts.length * Poll.reactionBound service.settings
    ((scripts.map List.length).foldl (· + ·) 0) + cancels.length

theorem sum_left_le_fuel :
    ((service.prospects scripts cancels).map Prospect.left).sum +
        (service.begun scripts cancels).cancels.length ≤
      service.fuel scripts cancels := by
  have each : ∀ bound ∈ scripts.map fun fetches =>
      Poll.reactionBound service.settings fetches.length,
      bound ≤ Poll.reactionBound service.settings
        (scripts.map List.length).sum := by
    intro bound among
    obtain ⟨fetches, member, rfl⟩ := List.mem_map.mp among
    exact Poll.reactionBound_le
      (List.le_sum_of_mem (List.mem_map_of_mem member))
  have all := List.sum_le_card_nsmul _ _ each
  rw [fuel, ← List.sum_eq_foldl_nat]
  simpa [prospects, begun, Function.comp_def] using all

variable {service scripts cancels}
  (positive : 0 < service.settings.interval)
  (ready : service.isCancelled service.handle = false)
include positive ready

theorem waitAll_eq_runAll :
    service.waitAll scripts cancels =
      let ended := (service.begun scripts cancels).runAll
        (service.fuel scripts cancels)
      ({ service with tokens := ended.tokens, now := ended.now },
        ended.waits.map Wait.poll) := by
  have together : scripts.foldl
      (fun running fetches =>
        running.begin service.settings service.handle (.ofList fetches)
          fetches.length)
      { now := service.now
        tokens := service.tokens
        waits := []
        cancels := cancels.mergeSort.map (service.now + ·) } =
      service.begun scripts cancels := by
    refine Eq.trans (Waits.foldl_begin positive scripts rfl ?_) ?_
    · exact ready
    · simp [begun, prospects, handle]
  rw [waitAll, together]
  rfl

theorem foresees_begun
    (quiet : ∀ fetches ∈ scripts, ∀ index,
      (Script.ofList fetches index).cancels = false) :
    (service.begun scripts cancels).Foresees service.handle
      (cancels.min?.map (service.now + ·))
      (service.prospects scripts cancels) := by
  constructor
  case waits_eq => rfl
  case holds =>
    intro prospect among
    obtain ⟨fetches, member, rfl⟩ := List.mem_map.mp among
    obtain ⟨⟨time, result, finished⟩, kept⟩ := Poll.runAlone_start_over
      (quiet fetches member) service.settings positive service.now
      fetches.length (cancels.min?.map (service.now + ·))
    constructor
    case token_eq => rfl
    case target_eq => rfl
    case quiet => exact quiet fetches member
    case ahead =>
      exact fun due waits =>
        Nat.le_of_lt (Poll.lt_of_due?_start positive waits)
    case ends => exact Prod.ext rfl kept
    case finished => exact Poll.due?_of_over finished
  case planned =>
    intro uncancelled
    refine ⟨rfl, ?_, ?_⟩
    · simp only [begun, List.head?_map, head?_mergeSort]
    · intro cut among
      obtain ⟨moment, -, rfl⟩ := Option.map_eq_some_iff.mp among
      exact Nat.le_add_right service.now moment
  case done =>
    intro cancelled
    cases ready.symm.trans cancelled

/-- Each of the waits that begin together ends as it would end alone. -/
theorem waitAll_eq_map_alone
    (quiet : ∀ fetches ∈ scripts, ∀ index,
      (Script.ofList fetches index).cancels = false) :
    (service.waitAll scripts cancels).2 =
        scripts.map (fun fetches => service.alone fetches cancels.min?) ∧
      (cancels = [] →
        (service.waitAll scripts cancels).1.tokens = service.tokens) := by
  have foreseen : (service.begun scripts cancels).Foresees service.handle
      (cancels.min?.map (service.now + ·))
      (service.prospects scripts cancels) :=
    foresees_begun positive ready quiet
  rw [waitAll_eq_runAll positive ready]
  constructor
  · refine (foreseen.runAll (service.sum_left_le_fuel scripts cancels)).trans ?_
    simp [prospects]
  · rintro rfl
    exact foreseen.tokens_runAll ready (by simp [begun]) _

omit ready in
/-- A wait that is the only one is over at some time, and is cut short by a
cancellation before that. -/
theorem alone_cut_short {fetches : List (Nat → Fetch Activation ClientError)}
    (quiet : ∀ index, (Script.ofList fetches index).cancels = false) :
    ∃ finish result,
      (service.alone fetches none).phase = .over finish result ∧
      ∀ first,
        (finish < service.now + first ∨ finish = service.now →
          service.alone fetches (some first) = service.alone fetches none) ∧
        (service.now + first < finish →
          (service.alone fetches (some first)).phase =
              .over (service.now + first) .cancelled ∧
            (service.alone fetches (some first)).calls.toList =
              (service.alone fetches none).calls.toList.filter
                (· < service.now + first)) := by
  have ending : ∃ finish result,
      (service.alone fetches none).phase = .over finish result :=
    (Poll.runAlone_start_over quiet service.settings positive service.now
      fetches.length none).1
  let fresh : Poll Activation ClientError :=
    .start service.settings service.now false
  rcases Poll.over_or_due fresh with ⟨time, result, finished⟩ | waits
  · -- The deadline leaves no time for a fetch.
    have early : time = service.now :=
      (Poll.rest_keeps false).1.eq_of_over finished
    subst early
    have same (cancel : Option Nat) : service.alone fetches cancel = fresh :=
      congrArg Prod.fst (Poll.runAlone_of_over _ _ finished _ _)
    simp only [same]
    exact ⟨service.now, result, finished, fun first =>
      ⟨fun _ => trivial, fun before => by omega⟩⟩
  · obtain ⟨finish, result, ends⟩ := ending
    have begins : service.now < fresh.eventTime :=
      Poll.lt_of_due?_start positive waits
    have later : fresh.eventTime ≤ (service.alone fetches none).eventTime :=
      (Poll.runAlone_later _ _ _ fresh).1
    rw [Poll.eventTime_of_over ends] at later
    refine ⟨finish, result, ends, fun first => ⟨?_, ?_⟩⟩
    · rintro (after | rfl)
      · exact Poll.runAlone_of_cut_after quiet after _ _ ends
      · omega
    · intro before
      exact Poll.runAlone_start_of_cut_before quiet
        (Nat.le_add_right service.now first) before ends

end

/-- Waits that begin together do not disturb each other.  Whatever the others
are, each ends like a wait that is the only one, whose token is cancelled from
outside at most once, at the first of the given times.  That leaves a wait that
is over by then as it is; any other one is cancelled at that time, with the
fetches it made before that. -/
theorem waitAll_undisturbed (service : ActivationService)
    (scripts : List (List (Nat → Fetch Activation ClientError)))
    (cancels : List Nat) (positive : 0 < service.settings.interval)
    (ready : service.isCancelled service.handle = false)
    (quiet : ∀ fetches ∈ scripts, ∀ index,
      (Script.ofList fetches index).cancels = false) :
    (service.waitAll scripts cancels).2 =
        scripts.flatMap (fun fetches =>
          (service.waitAll [fetches] cancels.min?.toList).2) ∧
      ∀ fetches ∈ scripts,
        (service.waitAll [fetches] cancels.min?.toList).2 =
            [service.alone fetches cancels.min?] ∧
          ∃ finish result,
            (service.alone fetches none).phase = .over finish result ∧
            ∀ first,
              (finish < service.now + first ∨ finish = service.now →
                service.alone fetches (some first) =
                  service.alone fetches none) ∧
              (service.now + first < finish →
                (service.alone fetches (some first)).phase =
                    .over (service.now + first) .cancelled ∧
                  (service.alone fetches (some first)).calls.toList =
                    (service.alone fetches none).calls.toList.filter
                      (· < service.now + first)) := by
  have only (fetches) (among : fetches ∈ scripts) :
      (service.waitAll [fetches] cancels.min?.toList).2 =
        [service.alone fetches cancels.min?] := by
    have first : cancels.min?.toList.min? = cancels.min? := by
      cases cancels.min? with
      | none => rfl
      | some moment => rfl
    have ends : (service.waitAll [fetches] cancels.min?.toList).2 =
        [service.alone fetches cancels.min?.toList.min?] :=
      (waitAll_eq_map_alone positive ready
        (by simpa using quiet fetches among)).1
    rwa [first] at ends
  refine ⟨?_, fun fetches among =>
    ⟨only fetches among, alone_cut_short positive (quiet fetches among)⟩⟩
  rw [(waitAll_eq_map_alone positive ready quiet).1, List.map_eq_flatMap]
  exact List.flatMap_congr fun fetches among => (only fetches among).symm

/-- Three waits begin at 100.  The first card turns out to be inactive at 113,
the second is still pending then, and about the third there is no answer.  The
service is cancelled at 120 and again at 124. -/
theorem waitAll_undisturbed_cancelled_twice :
    let service : ActivationService :=
      { settings := { timeout := 25, interval := 10 }
        tokens := { current := 1, cancelled := [0] }
        now := 100 }
    let answered (activation : Activation) :
        List (Nat → Fetch Activation ClientError) :=
      [fun _ => { reply := some (3, .ok activation) }]
    let scripts := [answered (.inactive none), answered .pending,
      [fun _ => Script.silence]]
    0 < service.settings.interval ∧
      service.isCancelled service.handle = false ∧
      (∀ fetches ∈ scripts, ∀ index,
        (Script.ofList fetches index).cancels = false) ∧
      (service.waitAll scripts [24, 20]).2.map (·.phase) =
        [.over 113 (.matched (.inactive none)), .over 120 .cancelled,
          .over 120 .cancelled] := by
  intro service answered scripts
  have quiet : ∀ fetches ∈ scripts, ∀ index,
      (Script.ofList fetches index).cancels = false := by
    have one (fetch : Nat → Fetch Activation ClientError)
        (never : ∀ number, (fetch number).cancels = false) (index : Nat) :
        (Script.ofList [fetch] index).cancels = false := by
      cases index with
      | zero => exact never 1
      | succ index => exact never (index + 2)
    simp only [scripts, answered, List.forall_mem_cons]
    exact ⟨one _ fun _ => rfl, one _ fun _ => rfl, one _ fun _ => rfl, nofun⟩
  obtain ⟨apart, each⟩ := waitAll_undisturbed service scripts [24, 20]
    (by decide) (by decide) quiet
  refine ⟨by decide, by decide, quiet, ?_⟩
  rw [apart, List.flatMap_congr fun fetches among => (each fetches among).1]
  rfl

end ActivationService

end ScreenFlow
