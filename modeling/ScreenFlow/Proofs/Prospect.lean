import Mathlib.Algebra.GroupWithZero.Nat
import Mathlib.Algebra.Order.BigOperators.Group.List
import Mathlib.Algebra.Order.Group.Nat
import Mathlib.Data.List.Induction
import ScreenFlow.Proofs.Ending
import ScreenFlow.Proofs.Interleaving

/-!
# What is to become of waits

Waits that share a clock and a token take turns, and planned cancellations come
in between.  A `Prospect` says of a wait how many more times it goes on by
itself and how it ends then.  Whatever happens next, be it that another wait
goes on or that the token is cancelled as planned, keeps the prospects of all
waits, so `Waits.runAll` leads to the ends that were foreseen.
-/

namespace ScreenFlow

/-! ## Polls that run alone -/

namespace Script

variable {Value Error : Type} {script : Script Value Error}

theorem quieted_of_quiet (quiet : ∀ index, (script index).cancels = false) :
    script.quieted = script := by
  funext index
  have none := Option.isSome_eq_false_iff.mp (quiet index)
  simp only [quieted, ← Option.isNone_iff_eq_none.mp none]

end Script

namespace Poll

variable {Value Error : Type}

theorem eventTime_of_due? {poll : Poll Value Error} {due : Nat}
    (waits : poll.due? = some due) : poll.eventTime = due := by
  rcases over_or_due poll with ⟨time, result, finished⟩ | own
  · simp [due?, finished] at waits
  · exact Option.some.inj (own.symm.trans waits)

theorem due?_of_over {poll : Poll Value Error} {time : Nat}
    {result : PollResult Value Error} (finished : poll.phase = .over time result) :
    poll.due? = none := by
  simp [due?, finished]

theorem lt_of_due?_start {settings : PollSettings}
    (positive : 0 < settings.interval) {now due : Nat}
    (waits : (start settings now false : Poll Value Error).due? = some due) :
    now < due := by
  by_cases late : settings.timeout < settings.interval
  · simp [start, rest, stop, due?, late] at waits
  · have soon : now + settings.interval = due := by
      simpa [start, rest, due?, late] using waits
    omega

section

variable {accepts : Value → Bool} {script : Script Value Error}
  (quiet : ∀ index, (script index).cancels = false)
include quiet

theorem cutoff_runAlone_of_quiet (cutoff : Option Nat) (fuel : Nat)
    (poll : Poll Value Error) :
    (runAlone accepts script fuel cutoff poll).2 = cutoff := by
  induction fuel generalizing poll with
  | zero => rfl
  | succ fuel ih =>
      rcases next_cases poll cutoff with
        ⟨time, result, finished⟩ | ⟨waits, ⟨cut, rfl, due⟩ | ahead⟩
      · rw [runAlone_of_over accepts script finished]
      · rw [runAlone_of_cut_le waits due]
      · rw [runAlone_of_waits waits ahead, react_of_quiet quiet]
        exact ih _

theorem runAlone_start_over (settings : PollSettings)
    (positive : 0 < settings.interval) (now lead : Nat)
    (cutoff : Option Nat) :
    let ran := runAlone accepts script (reactionBound settings lead) cutoff
      (start settings now false)
    (∃ time result, ran.1.phase = .over time result) ∧ ran.2 = cutoff :=
  ⟨isOver_start accepts script settings now lead positive cutoff false,
    cutoff_runAlone_of_quiet quiet cutoff _ _⟩

end

end Poll

/-! ## The wait that goes on next -/

namespace Waits

/-- The better of what has been found and another wait. -/
def sooner (running : Waits) (best : Option (Nat × Nat))
    (entry : Wait × Nat) : Option (Nat × Nat) :=
  match entry.1.due? running.tokens running.now with
  | none => best
  | some due =>
      match best with
      | none => some (due, entry.2)
      | some (time, index) =>
          if due < time then some (due, entry.2) else some (time, index)

theorem soonest?_eq (running : Waits) :
    running.soonest? = running.waits.zipIdx.foldl running.sooner none := rfl

/-- What has been found among some of the waits. -/
def IsSoonest (running : Waits) (entries : List (Wait × Nat)) :
    Option (Nat × Nat) → Prop
  | none => ∀ entry ∈ entries,
      entry.1.due? running.tokens running.now = none
  | some (time, index) =>
      (∃ wait, (wait, index) ∈ entries ∧
        wait.due? running.tokens running.now = some time) ∧
      ∀ entry ∈ entries, ∀ due,
        entry.1.due? running.tokens running.now = some due → time ≤ due

theorem isSoonest_sooner {running : Waits} {entries : List (Wait × Nat)}
    {best : Option (Nat × Nat)} (found : running.IsSoonest entries best)
    (entry : Wait × Nat) :
    running.IsSoonest (entries ++ [entry]) (running.sooner best entry) := by
  unfold sooner
  cases waits : entry.1.due? running.tokens running.now with
  | none =>
      cases best with
      | none => grind [IsSoonest]
      | some known => grind [IsSoonest]
  | some due =>
      cases best with
      | none => grind [IsSoonest]
      | some known =>
          dsimp only
          split
          next earlier => grind [IsSoonest]
          next => grind [IsSoonest]

theorem isSoonest_soonest? (running : Waits) :
    running.IsSoonest running.waits.zipIdx running.soonest? := by
  rw [soonest?_eq]
  induction running.waits.zipIdx using List.reverseRecOn with
  | nil => simp [IsSoonest]
  | append_singleton earlier entry ih =>
      rw [List.foldl_append]
      exact isSoonest_sooner ih entry

theorem of_soonest?_eq_some {running : Waits} {time index : Nat}
    (soonest : running.soonest? = some (time, index)) :
    ∃ wait, running.waits[index]? = some wait ∧
      wait.due? running.tokens running.now = some time ∧
      ∀ other ∈ running.waits, ∀ due,
        other.due? running.tokens running.now = some due → time ≤ due := by
  have found := running.isSoonest_soonest?
  rw [soonest] at found
  obtain ⟨⟨wait, among, waits⟩, least⟩ := found
  refine ⟨wait, List.mem_zipIdx_iff_getElem?.mp among, waits, ?_⟩
  intro other member due otherDue
  obtain ⟨position, there⟩ := List.mem_iff_getElem?.mp member
  exact least (other, position) (List.mem_zipIdx_iff_getElem?.mpr there) due
    otherDue

theorem of_soonest?_eq_none {running : Waits}
    (none_left : running.soonest? = none) :
    ∀ wait ∈ running.waits,
      wait.due? running.tokens running.now = none := by
  have found := running.isSoonest_soonest?
  rw [none_left] at found
  intro wait member
  obtain ⟨position, there⟩ := List.mem_iff_getElem?.mp member
  exact found (wait, position) (List.mem_zipIdx_iff_getElem?.mpr there)

end Waits

/-! ## What is to become of a wait -/

/-- A wait, how many more times it goes on by itself, and how it ends then. -/
structure Prospect where
  wait : Wait
  left : Nat
  final : Poll Activation ClientError

namespace Prospect

/-- At an instant, a wait under a token that is cancelled at a given time or
never has a prospect. -/
structure Holds (prospect : Prospect) (token now : Nat) (cutoff : Option Nat) :
    Prop where
  token_eq : prospect.wait.token = token
  target_eq : prospect.wait.target = token
  quiet : ∀ index, (prospect.wait.script index).cancels = false
  ahead : ∀ due, prospect.wait.poll.due? = some due → now ≤ due
  ends : Poll.runAlone Wait.accepts prospect.wait.script prospect.left cutoff
    prospect.wait.poll = (prospect.final, cutoff)
  finished : prospect.final.due? = none

variable {prospect : Prospect} {token now : Nat} {cutoff : Option Nat}

theorem Holds.exists_left_eq (holds : prospect.Holds token now cutoff)
    {due : Nat} (waits : prospect.wait.poll.due? = some due) :
    ∃ left, prospect.left = left + 1 := by
  cases count : prospect.left with
  | zero =>
      have same := congrArg Prod.fst holds.ends
      rw [count] at same
      have finished := holds.finished
      rw [show prospect.final = prospect.wait.poll from same.symm,
        waits] at finished
      cases finished
  | succ left => exact ⟨left, rfl⟩

theorem Holds.final_eq (holds : prospect.Holds token now cutoff)
    (finished : prospect.wait.poll.due? = none) :
    prospect.final = prospect.wait.poll := by
  have ends := congrArg Prod.fst holds.ends
  cases count : prospect.left with
  | zero =>
      rw [count] at ends
      exact ends.symm
  | succ left =>
      rw [count] at ends
      simpa [Poll.runAlone, finished] using ends.symm

theorem Holds.later (holds : prospect.Holds token now cutoff) {time : Nat}
    (ahead : ∀ due, prospect.wait.poll.due? = some due → time ≤ due) :
    prospect.Holds token time cutoff :=
  { holds with ahead }

variable {tokens : CancelTokens} {due : Nat}

/-- A wait that goes on before its token is cancelled is a step further on its
way. -/
theorem Holds.wake (holds : prospect.Holds token now cutoff)
    (uncancelled : tokens.isCancelled token = false)
    (current : tokens.current = token)
    (waits : prospect.wait.poll.due? = some due)
    (uncut : ∀ cut ∈ cutoff, due < cut) :
    ∃ moved left, prospect.wait.wake tokens due = (moved, tokens) ∧
      prospect.left = left + 1 ∧
      Holds { prospect with wait := moved, left } token due cutoff := by
  obtain ⟨left, count⟩ := holds.exists_left_eq waits
  have event := Poll.eventTime_of_due? waits
  let moved := (prospect.wait.poll.react Wait.accepts prospect.wait.script due
    false true).1
  have quietly : (prospect.wait.poll.react Wait.accepts prospect.wait.script
      due false true).2 = false :=
    Poll.react_of_quiet holds.quiet _ due
  have rearmed : tokens.rearm = tokens := by
    simp [CancelTokens.rearm, current, uncancelled]
  have woken : prospect.wait.wake tokens due =
      ({ prospect.wait with poll := moved }, tokens) := by
    simp [Wait.wake, holds.token_eq, holds.target_eq, uncancelled, quietly,
      rearmed, moved]
  refine ⟨_, left, woken, count, ?_⟩
  constructor
  case token_eq => exact holds.token_eq
  case target_eq => exact holds.target_eq
  case quiet => exact holds.quiet
  case finished => exact holds.finished
  case ahead =>
    intro next goes
    obtain ⟨present, -⟩ := Poll.react_keeps prospect.wait.poll Wait.accepts
      prospect.wait.script true
    rw [event] at present
    rcases present with ⟨result, finished⟩ | ⟨own, later⟩
    · simp [Poll.due?, moved, finished] at goes
    · rw [own] at goes
      exact Option.some.inj goes ▸ later
  case ends =>
    have ends := holds.ends
    rw [count] at ends
    rw [← event] at waits uncut
    rw [← ends]
    simp only [moved, ← event]
    cases cutoff with
    | none => exact (Poll.runAlone_of_quiet holds.quiet waits left).symm
    | some cut =>
        exact (Poll.runAlone_of_lt_cut holds.quiet waits (uncut cut rfl)
          left).symm

/-- A wait whose token is cancelled stops at once. -/
theorem Holds.wake_of_isCancelled
    (holds : prospect.Holds token now (some now))
    (cancelled : tokens.isCancelled token = true)
    (waits : prospect.wait.poll.due? = some due) :
    ∃ moved left, prospect.wait.wake tokens now = (moved, tokens.rearm) ∧
      prospect.left = left + 1 ∧
      Holds { prospect with wait := moved, left } token now (some now) := by
  obtain ⟨left, count⟩ := holds.exists_left_eq waits
  have woken := Wait.wake_of_isCancelled (Wait.isOver_of_due? waits)
    (by rwa [holds.token_eq]) now
  refine ⟨_, left, woken, count, ?_⟩
  constructor
  case token_eq => exact holds.token_eq
  case target_eq => exact holds.target_eq
  case quiet => exact holds.quiet
  case finished => exact holds.finished
  case ahead => exact nofun
  case ends =>
    have ends := holds.ends
    rw [← Poll.eventTime_of_due? waits] at waits
    rw [count, Poll.runAlone_of_cut_le waits (holds.ahead _ waits)] at ends
    rw [← ends]
    exact Poll.runAlone_of_over _ _ rfl left _

end Prospect

private theorem set_of_getElem? {α : Type} {items : List α} {index : Nat}
    {item : α} (there : items[index]? = some item) :
    items.set index item = items := by
  obtain ⟨inside, rfl⟩ := List.getElem?_eq_some_iff.mp there
  exact List.set_getElem_self inside

private theorem sum_set_of_getElem? {counts : List Nat} {index count : Nat}
    (there : counts[index]? = some (count + 1)) :
    (counts.set index count).sum + 1 = counts.sum := by
  induction counts generalizing index with
  | nil => simp at there
  | cons first rest ih =>
      cases index with
      | zero =>
          obtain rfl : first = count + 1 := by simpa using there
          simp
          omega
      | succ index =>
          have tail := ih (by simpa using there)
          simp
          omega

namespace Waits

@[simp]
theorem cancels_wakeAt (running : Waits) (time index : Nat) :
    (running.wakeAt time index).cancels = running.cancels := by
  unfold wakeAt
  split <;> rfl

/-- Waits with the prospects of all of them, under a token that is cancelled at
a given time or never. -/
structure Foresees (running : Waits) (token : Nat) (cutoff : Option Nat)
    (prospects : List Prospect) : Prop where
  waits_eq : running.waits = prospects.map Prospect.wait
  holds : ∀ prospect ∈ prospects, prospect.Holds token running.now cutoff
  planned : running.tokens.isCancelled token = false →
    running.tokens.current = token ∧ running.cancels.head? = cutoff ∧
      ∀ cut ∈ cutoff, running.now ≤ cut
  done : running.tokens.isCancelled token = true →
    cutoff = some running.now

section

variable {running : Waits} {token : Nat} {cutoff : Option Nat}
  {prospects : List Prospect}

theorem Foresees.due?_eq (foresees : running.Foresees token cutoff prospects)
    {prospect : Prospect} (among : prospect ∈ prospects) :
    prospect.wait.due? running.tokens running.now =
      prospect.wait.poll.due?.map fun due =>
        if running.tokens.isCancelled token then running.now else due := by
  rw [Wait.due?, (foresees.holds prospect among).token_eq]

theorem Foresees.finals_eq (foresees : running.Foresees token cutoff prospects)
    (finished : ∀ prospect ∈ prospects, prospect.wait.poll.due? = none) :
    running.waits.map Wait.poll = prospects.map Prospect.final := by
  rw [foresees.waits_eq, List.map_map]
  apply List.map_congr_left
  intro prospect among
  exact ((foresees.holds prospect among).final_eq
    (finished prospect among)).symm

theorem Foresees.over_of_soonest?
    (foresees : running.Foresees token cutoff prospects)
    (rests : running.soonest? = none) :
    ∀ prospect ∈ prospects, prospect.wait.poll.due? = none := by
  intro prospect among
  have member : prospect.wait ∈ running.waits := by
    rw [foresees.waits_eq]
    exact List.mem_map_of_mem among
  have own := of_soonest?_eq_none rests prospect.wait member
  rw [foresees.due?_eq among] at own
  exact Option.map_eq_none_iff.mp own

theorem Foresees.exists_soonest
    (foresees : running.Foresees token cutoff prospects) {time index : Nat}
    (soonest : running.soonest? = some (time, index)) :
    ∃ prospect due, prospects[index]? = some prospect ∧
      prospect.wait.poll.due? = some due ∧
      time = (if running.tokens.isCancelled token then running.now else due) ∧
      ∀ other ∈ prospects, ∀ later,
        other.wait.poll.due? = some later → time ≤ later := by
  obtain ⟨wait, there, waits, least⟩ := of_soonest?_eq_some soonest
  rw [foresees.waits_eq, List.getElem?_map] at there
  obtain ⟨prospect, found, rfl⟩ := Option.map_eq_some_iff.mp there
  rw [foresees.due?_eq (List.mem_of_getElem? found)] at waits
  obtain ⟨due, own, rfl⟩ := Option.map_eq_some_iff.mp waits
  refine ⟨prospect, due, found, own, rfl, ?_⟩
  intro other among later goes
  have member : other.wait ∈ running.waits := by
    rw [foresees.waits_eq]
    exact List.mem_map_of_mem among
  have bound := least other.wait member
  rw [foresees.due?_eq among, goes] at bound
  have ahead := (foresees.holds other among).ahead later goes
  specialize bound _ rfl
  cases cancelled : running.tokens.isCancelled token with
  | true => simpa [cancelled] using ahead
  | false => simpa [cancelled] using bound

/-- A planned cancellation that comes before anything else happens is the one
that was foreseen, or comes at the same time. -/
theorem Foresees.cancel (foresees : running.Foresees token cutoff prospects)
    {time index moment : Nat} {later : List Nat}
    (soonest : running.soonest? = some (time, index))
    (planned : running.cancels = moment :: later) (early : moment ≤ time) :
    Foresees
      { running with
        now := max running.now moment
        tokens := running.tokens.cancel running.tokens.current
        cancels := later }
      token cutoff prospects := by
  obtain ⟨prospect, due, found, own, rfl, least⟩ :=
    foresees.exists_soonest soonest
  cases cancelled : running.tokens.isCancelled token with
  | true =>
      have same : max running.now moment = running.now := by
        simp only [cancelled, if_true] at early
        omega
      have still : (running.tokens.cancel
          running.tokens.current).isCancelled token = true := by
        simp [cancelled]
      rw [same]
      refine ⟨foresees.waits_eq, foresees.holds, ?_,
        fun _ => foresees.done cancelled⟩
      simp [still]
  | false =>
      obtain ⟨current, first, ahead⟩ := foresees.planned cancelled
      rw [planned] at first
      obtain rfl : some moment = cutoff := first
      have now_eq : max running.now moment = moment :=
        Nat.max_eq_right (ahead moment rfl)
      have still : (running.tokens.cancel
          running.tokens.current).isCancelled token = true := by
        simp [current]
      rw [now_eq]
      refine ⟨foresees.waits_eq, ?_, ?_, fun _ => rfl⟩
      · intro other among
        apply (foresees.holds other among).later
        intro due goes
        exact Nat.le_trans early (least other among due goes)
      · simp [still]

/-- The wait that goes on next goes on as foreseen. -/
theorem Foresees.exists_wake
    (foresees : running.Foresees token cutoff prospects) {time index : Nat}
    (soonest : running.soonest? = some (time, index))
    (unplanned : running.tokens.isCancelled token = false →
      ∀ cut ∈ cutoff, time < cut) :
    ∃ prospect moved tokens left, prospects[index]? = some prospect ∧
      prospect.left = left + 1 ∧
      prospect.wait.wake running.tokens time = (moved, tokens) ∧
      Prospect.Holds { prospect with wait := moved, left } token time cutoff ∧
      tokens.isCancelled token = running.tokens.isCancelled token ∧
      (running.tokens.isCancelled token = false →
        tokens = running.tokens) := by
  obtain ⟨prospect, due, found, own, rfl, -⟩ :=
    foresees.exists_soonest soonest
  have holds := foresees.holds prospect (List.mem_of_getElem? found)
  cases cancelled : running.tokens.isCancelled token with
  | true =>
      obtain rfl := foresees.done cancelled
      obtain ⟨moved, left, woken, count, further⟩ :=
        holds.wake_of_isCancelled cancelled own
      exact ⟨prospect, moved, _, left, found, count, woken, further,
        by simpa using cancelled, nofun⟩
  | false =>
      simp only [cancelled, Bool.false_eq_true, if_false] at unplanned ⊢
      obtain ⟨moved, left, woken, count, further⟩ := holds.wake cancelled
        (foresees.planned cancelled).1 own (unplanned trivial)
      exact ⟨prospect, moved, _, left, found, count, woken, further,
        cancelled, fun _ => rfl⟩

theorem Foresees.wakeAt
    (foresees : running.Foresees token cutoff prospects) {time index : Nat}
    (soonest : running.soonest? = some (time, index))
    (unplanned : running.tokens.isCancelled token = false →
      ∀ cut ∈ cutoff, time < cut) :
    ∃ further, (running.wakeAt time index).Foresees token cutoff further ∧
      further.map Prospect.final = prospects.map Prospect.final ∧
      (further.map Prospect.left).sum + 1 =
        (prospects.map Prospect.left).sum ∧
      (running.tokens.isCancelled token = false →
        (running.wakeAt time index).tokens = running.tokens) := by
  obtain ⟨-, due, -, -, instant, least⟩ := foresees.exists_soonest soonest
  obtain ⟨prospect, moved, tokens, left, found, count, woken, holds, still,
    kept⟩ := foresees.exists_wake soonest unplanned
  let next : Prospect := { prospect with wait := moved, left }
  have there : running.waits[index]? = some prospect.wait := by
    rw [foresees.waits_eq, List.getElem?_map, found]
    rfl
  have stepped : running.wakeAt time index =
      { running with
        now := time, tokens, waits := running.waits.set index moved } := by
    simp [Waits.wakeAt, there, woken]
  rw [stepped]
  refine ⟨prospects.set index next, ?_, ?_, ?_, kept⟩
  · constructor
    case waits_eq => simp [foresees.waits_eq, next]
    case holds =>
      intro other among
      rcases List.mem_or_eq_of_mem_set among with before | rfl
      · exact (foresees.holds other before).later (least other before)
      · exact holds
    case planned =>
      intro uncancelled
      rw [still] at uncancelled
      obtain ⟨current, first, -⟩ := foresees.planned uncancelled
      refine ⟨?_, first, ?_⟩
      · rw [kept uncancelled, current]
      · intro cut among
        exact Nat.le_of_lt (unplanned uncancelled cut among)
    case done =>
      intro cancelled
      rw [still] at cancelled
      rw [foresees.done cancelled, instant, if_pos cancelled]
  · rw [List.map_set]
    exact set_of_getElem? (by simp [found, next])
  · rw [List.map_set]
    exact sum_set_of_getElem? (by simp [found, count, next])

/-- By induction on the fuel, which is enough for all that is left to do: what
happens next is a planned cancellation or a wait that goes on. -/
theorem Foresees.runAll (foresees : running.Foresees token cutoff prospects)
    {fuel : Nat}
    (enough : (prospects.map Prospect.left).sum + running.cancels.length ≤
      fuel) :
    (running.runAll fuel).waits.map Wait.poll =
      prospects.map Prospect.final := by
  induction fuel generalizing running prospects with
  | zero =>
      apply foresees.finals_eq
      intro prospect among
      have counted := List.le_sum_of_mem
        (List.mem_map_of_mem among : prospect.left ∈ _)
      cases waits : prospect.wait.poll.due? with
      | none => rfl
      | some due =>
          obtain ⟨left, count⟩ :=
            (foresees.holds prospect among).exists_left_eq waits
          omega
  | succ fuel ih =>
      unfold Waits.runAll
      cases soonest : running.soonest? with
      | none => exact foresees.finals_eq (foresees.over_of_soonest? soonest)
      | some next =>
          obtain ⟨time, index⟩ := next
          -- A wait goes on unless a cancellation comes first.
          have wakes (unplanned : ∀ moment ∈ running.cancels.head?,
              time < moment) :
              ((running.wakeAt time index).runAll fuel).waits.map Wait.poll =
                prospects.map Prospect.final := by
            obtain ⟨further, foreseen, finals, fewer, -⟩ :=
              foresees.wakeAt soonest fun uncancelled cut among =>
                unplanned cut
                  ((foresees.planned uncancelled).2.1.symm ▸ among)
            rw [← finals]
            apply ih foreseen
            rw [cancels_wakeAt]
            omega
          cases planned : running.cancels with
          | nil => exact wakes (by simp [planned])
          | cons moment later =>
              have counted := congrArg List.length planned
              rw [List.length_cons] at counted
              dsimp only
              split
              next early =>
                apply ih (foresees.cancel soonest planned early)
                dsimp only
                omega
              next ahead =>
                apply wakes
                simpa [planned] using ahead

/-- If nobody cancels, the tokens stay as they are. -/
theorem Foresees.tokens_runAll
    (foresees : running.Foresees token cutoff prospects)
    (uncancelled : running.tokens.isCancelled token = false)
    (unplanned : running.cancels = []) (fuel : Nat) :
    (running.runAll fuel).tokens = running.tokens := by
  induction fuel generalizing running prospects with
  | zero => rfl
  | succ fuel ih =>
      unfold Waits.runAll
      cases soonest : running.soonest? with
      | none => rfl
      | some next =>
          have never : cutoff = none := by
            rw [← (foresees.planned uncancelled).2.1, unplanned]
            rfl
          obtain ⟨further, foreseen, -, -, kept⟩ :=
            foresees.wakeAt soonest (by simp [never])
          have same := kept uncancelled
          simp only [unplanned]
          rw [ih foreseen (by rwa [same])
            ((running.cancels_wakeAt next.1 next.2).trans unplanned), same]

end

end Waits

end ScreenFlow
