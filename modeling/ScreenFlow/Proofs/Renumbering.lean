import ScreenFlow.Proofs.Interleaving

/-!
# Tokens by other numbers

What number a token has does not matter.  If the numbers of all tokens are
shifted, and those that waits refer to with them, then whatever happens
happens in the same way.
-/

namespace ScreenFlow

namespace CancelTokens

variable {shift : Nat} {tokens told : CancelTokens}

/-- Tokens that are the same but for their numbers, which are shifted. -/
structure Renumbered (shift : Nat) (tokens told : CancelTokens) : Prop where
  current_eq : told.current = tokens.current + shift
  isCancelled_eq (token : Nat) :
    told.isCancelled (token + shift) = tokens.isCancelled token

theorem Renumbered.isCancelled_current (same : tokens.Renumbered shift told) :
    told.isCancelled told.current = tokens.isCancelled tokens.current := by
  rw [same.current_eq, same.isCancelled_eq]

theorem Renumbered.cancel (same : tokens.Renumbered shift told) (token : Nat) :
    (tokens.cancel token).Renumbered shift (told.cancel (token + shift)) where
  current_eq := same.current_eq
  isCancelled_eq := by
    intro other
    simp [same.isCancelled_eq]

theorem Renumbered.rearm (same : tokens.Renumbered shift told) :
    tokens.rearm.Renumbered shift told.rearm where
  current_eq := by
    have current := same.current_eq
    unfold CancelTokens.rearm
    rw [same.isCancelled_current]
    split <;> (try dsimp only) <;> omega
  isCancelled_eq := by
    intro token
    simp [same.isCancelled_eq]

theorem Renumbered.rearm_if (same : tokens.Renumbered shift told)
    (finished : Bool) :
    (if finished then tokens.rearm else tokens).Renumbered shift
      (if finished then told.rearm else told) := by
  cases finished with
  | true => exact same.rearm
  | false => exact same

end CancelTokens

namespace Wait

/-! ## What going on does to a wait and to the tokens -/

section

variable (wait : Wait) (tokens : CancelTokens) (now : Nat)

/-- The poll of a wait that goes on, and whether its target is cancelled. -/
def reacted : Poll Activation ClientError × Bool :=
  wait.poll.react accepts wait.script now (tokens.isCancelled wait.token)
    (wait.target = wait.token)

/-- The tokens after a wait has gone on and before one of them is replaced. -/
def heard : CancelTokens :=
  if (wait.reacted tokens now).2 then tokens.cancel wait.target else tokens

theorem wake_fst : (wait.wake tokens now).1 =
    { wait with poll := (wait.reacted tokens now).1 } := rfl

theorem wake_snd : (wait.wake tokens now).2 =
    if (wait.wake tokens now).1.isOver then (wait.heard tokens now).rearm
    else wait.heard tokens now := rfl

end

/-! ## Shifted numbers -/

variable {shift : Nat} {tokens told : CancelTokens}

/-- A wait whose tokens have other numbers. -/
def renumbered (shift : Nat) (wait : Wait) : Wait :=
  { wait with token := wait.token + shift, target := wait.target + shift }

@[simp]
theorem isOver_renumbered (wait : Wait) :
    (wait.renumbered shift).isOver = wait.isOver := rfl

@[simp]
theorem poll_renumbered (wait : Wait) :
    (wait.renumbered shift).poll = wait.poll := rfl

section

variable (same : tokens.Renumbered shift told)
include same

theorem isCancelled_renumbered (wait : Wait) :
    told.isCancelled (wait.renumbered shift).token =
      tokens.isCancelled wait.token :=
  same.isCancelled_eq wait.token

theorem due?_renumbered (wait : Wait) (now : Nat) :
    (wait.renumbered shift).due? told now = wait.due? tokens now := by
  simp [due?, isCancelled_renumbered same]

theorem reacted_renumbered (wait : Wait) (now : Nat) :
    (wait.renumbered shift).reacted told now = wait.reacted tokens now := by
  simp [reacted, renumbered, same.isCancelled_eq]

theorem wake_renumbered (wait : Wait) (now : Nat) :
    ((wait.renumbered shift).wake told now).1 =
        (wait.wake tokens now).1.renumbered shift ∧
      (wait.wake tokens now).2.Renumbered shift
        ((wait.renumbered shift).wake told now).2 := by
  have reacts := reacted_renumbered same wait now
  have moved : ((wait.renumbered shift).wake told now).1 =
      (wait.wake tokens now).1.renumbered shift := by
    rw [wake_fst, wake_fst, reacts]
    rfl
  refine ⟨moved, ?_⟩
  have further : (wait.heard tokens now).Renumbered shift
      ((wait.renumbered shift).heard told now) := by
    unfold heard
    rw [reacts]
    split
    · exact same.cancel wait.target
    · exact same
  rw [wake_snd, wake_snd, moved, isOver_renumbered]
  exact further.rearm_if _

theorem settle_renumbered (wait : Wait) (now fuel : Nat) :
    ((wait.renumbered shift).settle told now fuel).1 =
        (wait.settle tokens now fuel).1.renumbered shift ∧
      (wait.settle tokens now fuel).2.Renumbered shift
        ((wait.renumbered shift).settle told now fuel).2 := by
  induction fuel generalizing wait tokens told with
  | zero => exact ⟨rfl, same⟩
  | succ fuel ih =>
      unfold settle
      rw [poll_renumbered, isCancelled_renumbered same]
      split
      · obtain ⟨moved, further⟩ := wake_renumbered same wait now
        have settled := ih further (wait.wake tokens now).1
        rw [← moved] at settled
        exact settled
      · exact ⟨rfl, same⟩

theorem start_renumbered (settings : PollSettings) (target : Nat)
    (script : Script Activation ClientError) (now : Nat) :
    (start settings (target + shift) script told now).1 =
        (start settings target script tokens now).1.renumbered shift ∧
      (start settings target script tokens now).2.Renumbered shift
        (start settings (target + shift) script told now).2 := by
  have begins : (start settings (target + shift) script told now).1 =
      (start settings target script tokens now).1.renumbered shift := by
    simp only [start, renumbered, same.current_eq, same.isCancelled_eq]
  have rearmed (target : Nat) (tokens : CancelTokens) :
      (start settings target script tokens now).2 =
        if (start settings target script tokens now).1.isOver then
          tokens.rearm
        else tokens := rfl
  refine ⟨begins, ?_⟩
  rw [rearmed, rearmed, begins, isOver_renumbered]
  exact same.rearm_if _

theorem begun_renumbered (settings : PollSettings) (target : Nat)
    (script : Script Activation ClientError) (now lead : Nat) :
    (begun settings (target + shift) script told now lead).1 =
        (begun settings target script tokens now lead).1.renumbered shift ∧
      (begun settings target script tokens now lead).2.Renumbered shift
        (begun settings (target + shift) script told now lead).2 := by
  obtain ⟨started, further⟩ :=
    start_renumbered same settings target script now
  unfold begun
  dsimp only
  rw [started]
  exact settle_renumbered further _ _ _

end

end Wait

namespace Waits

variable {shift : Nat} {running other : Waits}

/-- Waits that are the same but for the numbers of the tokens. -/
structure Renumbered (shift : Nat) (running other : Waits) : Prop where
  now_eq : other.now = running.now
  cancels_eq : other.cancels = running.cancels
  tokens : running.tokens.Renumbered shift other.tokens
  waits_eq : other.waits = running.waits.map (Wait.renumbered shift)

theorem Renumbered.begin (same : running.Renumbered shift other)
    (settings : PollSettings) (target : Nat)
    (script : Script Activation ClientError) (lead : Nat) :
    (running.begin settings target script lead).Renumbered shift
      (other.begin settings (target + shift) script lead) := by
  obtain ⟨began, further⟩ := Wait.begun_renumbered same.tokens settings target
    script running.now lead
  rw [begin_eq, begin_eq, same.now_eq]
  constructor
  case now_eq => rfl
  case cancels_eq => exact same.cancels_eq
  case tokens => exact further
  case waits_eq => simp [same.waits_eq, began]

theorem Renumbered.soonest?_eq (same : running.Renumbered shift other) :
    other.soonest? = running.soonest? := by
  unfold soonest?
  rw [same.waits_eq, same.now_eq, List.zipIdx_map, List.foldl_map]
  simp only [Prod.map, Wait.due?_renumbered same.tokens, id]

theorem Renumbered.wakeAt (same : running.Renumbered shift other)
    (time index : Nat) :
    (running.wakeAt time index).Renumbered shift
      (other.wakeAt time index) := by
  have there : other.waits[index]? =
      running.waits[index]?.map (Wait.renumbered shift) := by
    rw [same.waits_eq, List.getElem?_map]
  unfold Waits.wakeAt
  rw [there]
  cases running.waits[index]? with
  | none => exact ⟨rfl, same.cancels_eq, same.tokens, same.waits_eq⟩
  | some wait =>
      obtain ⟨moved, further⟩ := Wait.wake_renumbered same.tokens wait time
      refine ⟨rfl, same.cancels_eq, further, ?_⟩
      simp [moved, same.waits_eq, List.map_set]

theorem Renumbered.runAll (same : running.Renumbered shift other)
    (fuel : Nat) :
    (running.runAll fuel).Renumbered shift (other.runAll fuel) := by
  induction fuel generalizing running other with
  | zero => exact same
  | succ fuel ih =>
      -- The same wait goes on next, at the same time.
      unfold Waits.runAll
      rw [same.soonest?_eq, same.cancels_eq]
      cases running.soonest? with
      | none => exact same
      | some next =>
          cases planned : running.cancels with
          | nil => exact ih (same.wakeAt next.1 next.2)
          | cons moment later =>
              dsimp only
              split
              · have current := same.tokens.cancel running.tokens.current
                rw [← same.tokens.current_eq] at current
                exact ih ⟨by rw [same.now_eq], rfl, current, same.waits_eq⟩
              · exact ih (same.wakeAt next.1 next.2)

/-- Whatever may happen to waits may happen whatever the numbers of their
tokens are. -/
theorem Renumbered.exists_happens {settings : PollSettings} {later : Waits}
    (same : running.Renumbered shift other)
    (happened : Happens settings running later) :
    ∃ moved, Happens settings other moved ∧
      later.Renumbered shift moved := by
  have current := same.tokens.current_eq
  cases happened with
  | begin known script lead =>
      exact ⟨_, .begin (by omega) script lead, same.begin _ _ script lead⟩
  | @wake index wait there runs time =>
      have found : other.waits[index]? = some (wait.renumbered shift) := by
        rw [same.waits_eq, List.getElem?_map, there]
        rfl
      exact ⟨_, .wake found runs time, same.wakeAt time index⟩
  | @cancel token known =>
      exact ⟨_, .cancel (by omega), same.now_eq, same.cancels_eq,
        same.tokens.cancel token, same.waits_eq⟩
  | pass now cancels =>
      exact ⟨_, .pass now cancels, rfl, rfl, same.tokens, same.waits_eq⟩

theorem Renumbered.exists_run {settings : PollSettings} {later : Waits}
    (same : running.Renumbered shift other)
    (run : Relation.ReflTransGen (Happens settings) running later) :
    ∃ moved, Relation.ReflTransGen (Happens settings) other moved ∧
      later.Renumbered shift moved := by
  induction run with
  | refl => exact ⟨other, .refl, same⟩
  | tail _ happened ih =>
      obtain ⟨between, sofar, alike⟩ := ih
      obtain ⟨moved, next, further⟩ := alike.exists_happens happened
      exact ⟨moved, sofar.tail next, further⟩

end Waits

namespace ActivationService

/-- Services whose tokens are the same but for their numbers wait alike. -/
theorem waitAll_renumbered (service : ActivationService) {shift : Nat}
    {tokens : CancelTokens} (same : service.tokens.Renumbered shift tokens)
    (scripts : List (List (Nat → Fetch Activation ClientError)))
    (cancels : List Nat) :
    ({ service with tokens }.waitAll scripts cancels).2 =
      (service.waitAll scripts cancels).2 := by
  let idle (tokens : CancelTokens) : Waits :=
    { now := service.now
      tokens
      waits := []
      cancels := cancels.mergeSort.map (service.now + ·) }
  let begins (handle : Nat) (running : Waits)
      (fetches : List (Nat → Fetch Activation ClientError)) : Waits :=
    running.begin service.settings handle (.ofList fetches) fetches.length
  have together :
      (scripts.foldl (begins service.tokens.current)
          (idle service.tokens)).Renumbered shift
        (scripts.foldl (begins tokens.current) (idle tokens)) := by
    refine List.foldl_rel ⟨rfl, rfl, same, rfl⟩ ?_
    intro fetches _ running other related
    rw [same.current_eq]
    exact related.begin _ _ _ _
  have polls (fuel : Nat) := congrArg (List.map Wait.poll)
    (together.runAll fuel).waits_eq
  simp only [List.map_map, Function.comp_def, Wait.poll_renumbered] at polls
  exact polls _

end ActivationService

end ScreenFlow
