import ScreenFlow.Proofs.Closing

/-!
# Walks under every schedule

A walk has three parties: one sends the triggers, gives up its handle and
closes the controller; the worker obeys; and a reader records all actions that
come.  `Walking.Steps` lets any of them act at any time.  Whatever the
schedule, the walk comes to its end, and its report is the one of a machine
that takes the triggers by itself: `Walking.inevitable_direct`.  The schedule
of `Walk.run` is one of them.
-/

namespace ScreenFlow

/-- Whatever is chosen, `goal` is reached: until then some step is possible,
and none puts it off for ever. -/
inductive Inevitable {Point : Type} (step : Point → Point → Prop)
    (goal : Point → Prop) : Point → Prop where
  | reached {point : Point} (here : goal point) : Inevitable step goal point
  | ahead {point : Point} (possible : ∃ next, step point next)
      (all : ∀ next, step point next → Inevitable step goal next) :
      Inevitable step goal point

/-- A goal is reached inevitably if steps keep a property under which some
step is possible up to the goal, and each makes a measure smaller. -/
theorem inevitable_of_measure {Point : Type} {step : Point → Point → Prop}
    {goal : Point → Prop} (holds : Point → Prop) (measure : Point → Nat)
    (keeps : ∀ {point next}, holds point → step point next → holds next)
    (falls : ∀ {point next}, holds point → step point next →
      measure next < measure point)
    (moves : ∀ {point}, holds point → goal point ∨ ∃ next, step point next)
    {point : Point} (begun : holds point) : Inevitable step goal point := by
  induction bound : measure point using Nat.strongRecOn
    generalizing point with
  | ind bound ih =>
      rcases moves begun with here | possible
      · exact .reached here
      · apply Inevitable.ahead possible
        intro next stepped
        exact ih (measure next) (bound ▸ falls begun stepped)
          (keeps begun stepped) rfl

variable {State : Type} [DecidableEq State] [Flow State]

/-- The walk of a machine that takes the triggers by itself. -/
def Walk.direct (table : Table State) (triggers : List Trigger) :
    Walk State :=
  let (machine, actions) := (Machine.start table).run triggers
  { actions
    recorder := Recorder.fresh.applyAll actions
    history := machine.history }

/-- A walk that is under way, with the triggers that have not been sent yet
and what the reader has recorded. -/
structure Walking (State : Type) where
  session : Session State
  unsent : List Trigger
  recorder : Recorder State

namespace Walking

/-- A walk whose sender holds a handle and whose reader holds the stream. -/
def start (table : Table State) (buffer : Nat) (triggers : List Trigger) :
    Walking State :=
  { session :=
      { controller :=
          { Controller.spawn (Machine.start table) buffer with
            subscription := .taken
            handles := 1 }
        accepted := []
        received := [] }
    unsent := triggers
    recorder := .fresh }

/-- What any of the parties may do next. -/
inductive Steps (walking : Walking State) : Walking State → Prop where
  | work {after : Controller State}
      (stepped : walking.session.controller.step? = some after) :
      Steps walking
        { walking with
          session := { walking.session with controller := after } }
  | send {trigger : Trigger} {rest : List Trigger} {after : Controller State}
      (unsent : walking.unsent = trigger :: rest)
      (sent : walking.session.controller.send trigger = .ok after) :
      Steps walking
        { walking with
          session :=
            { walking.session with
              controller := after
              accepted := walking.session.accepted ++ [trigger] }
          unsent := rest }
  | dropHandle (sent : walking.unsent = [])
      (held : 0 < walking.session.controller.handles) :
      Steps walking
        { walking with
          session :=
            { walking.session with
              controller := walking.session.controller.dropHandle } }
  | release (sent : walking.unsent = [])
      (dropped : walking.session.controller.handles = 0)
      (owned : walking.session.controller.isOwned = true) :
      Steps walking { walking with session := walking.session.release }
  | read {action : Action State} {rest : List (Action State)}
      (filled : walking.session.controller.channel = action :: rest) :
      Steps walking
        { walking with
          session :=
            { walking.session with
              controller :=
                { walking.session.controller with channel := rest }
              received := walking.session.received ++ [action] }
          recorder := walking.recorder.apply action }

/-- The owner has waited for the worker to stop, and the reader has come to the
end of the stream. -/
structure IsOver (walking : Walking State) : Prop where
  unowned : walking.session.controller.isOwned = false
  stopped : walking.session.controller.isStopped = true
  drained : walking.session.controller.channel = []

def report (walking : Walking State) : Walk State :=
  { actions := walking.session.received
    recorder := walking.recorder
    history := walking.session.controller.published }

/-! ## What holds at every point of a walk -/

/-- Nothing has been lost on the way. -/
structure IsOn (table : Table State) (buffer : Nat)
    (triggers : List Trigger) (walking : Walking State) : Prop where
  reached : Session.Reachable (Machine.start table) buffer walking.session
  taken : walking.session.controller.subscription = .taken
  triggers_eq : walking.session.accepted ++ walking.unsent = triggers
  recorder_eq : walking.recorder =
    Recorder.fresh.applyAll walking.session.received
  held : walking.unsent ≠ [] → 0 < walking.session.controller.handles

variable {table : Table State} {buffer : Nat} {triggers : List Trigger}
variable {walking after : Walking State}

theorem isOn_start (table : Table State) (buffer : Nat)
    (triggers : List Trigger) :
    (start table buffer triggers).IsOn table buffer triggers where
  reached :=
    (Relation.ReflTransGen.single (.takeActions rfl rfl)).tail
      (.openHandle rfl)
  taken := rfl
  triggers_eq := rfl
  recorder_eq := rfl
  held _ := Nat.one_pos

theorem Steps.isOn (stepped : walking.Steps after)
    (on : walking.IsOn table buffer triggers) :
    after.IsOn table buffer triggers := by
  obtain ⟨reached, taken, sent, recorded, held⟩ := on
  cases stepped with
  | work worked =>
      have steps := Controller.steps_of_step? worked
      refine ⟨reached.tail (.work worked), ?_, sent, recorded, ?_⟩
      · exact steps.subscription_eq.trans taken
      · intro unsent
        exact steps.senders_eq.2 ▸ held unsent
  | @send trigger rest _ unsent accepted =>
      have alive := held (by simp [unsent])
      have moved := (Controller.eq_of_send accepted).1
      refine ⟨reached.tail (.send alive accepted), ?_, ?_, recorded, ?_⟩
      · rw [moved]
        exact taken
      · simpa [unsent] using sent
      · intro _
        rw [moved]
        exact alive
  | dropHandle all alive =>
      refine ⟨reached.tail (.dropHandle alive), taken, sent, recorded, ?_⟩
      intro unsent
      exact absurd all unsent
  | release all dropped owned =>
      refine ⟨reached.tail (.release owned), ?_, sent, recorded, ?_⟩
      · rw [Session.release, Controller.release_of_taken taken]
        exact taken
      · intro unsent
        exact absurd all unsent
  | @read action rest filled =>
      have read : walking.session.controller.tryNext =
          ({ walking.session.controller with channel := rest },
            some action) := by
        simp [Controller.tryNext, filled]
      have reads : walking.session.controller.Reads _ _ := .tryNext
      have happens := Session.Happens.read taken reads
      rw [read] at happens
      refine ⟨reached.tail happens, taken, sent, ?_, held⟩
      simp [recorded, Recorder.applyAll]

/-! ## Every walk ends -/

/-- An upper bound for the number of steps that are left.  A trigger that is
sent leaves two steps to the worker and one to the reader, so one that is not
counts for four. -/
def stepsLeft (walking : Walking State) : Nat :=
  4 * walking.unsent.length + walking.session.controller.stepsLeft +
    walking.session.controller.actionsLeft +
    walking.session.controller.handles +
    walking.session.controller.isOwned.toNat

theorem Steps.stepsLeft_lt (stepped : walking.Steps after)
    (on : walking.IsOn table buffer triggers) :
    after.stepsLeft < walking.stepsLeft := by
  cases stepped with
  | work worked =>
      have fewer := Controller.stepsLeft_step worked
      have noMore := Controller.actionsLeft_step worked
      obtain ⟨owned, held⟩ :=
        (Controller.steps_of_step? worked).senders_eq
      simp only [stepsLeft, owned, held]
      omega
  | @send trigger rest _ unsent sent =>
      have moved := (Controller.eq_of_send sent).1
      have one : trigger.command?.toList.length ≤ 1 := by
        cases trigger.command? <;> simp
      simp only [stepsLeft, unsent, moved, Controller.stepsLeft,
        Controller.actionsLeft, List.length_append, List.length_cons]
      omega
  | dropHandle sent held =>
      simp only [stepsLeft, Controller.dropHandle, Controller.stepsLeft,
        Controller.actionsLeft]
      omega
  | release sent dropped owned =>
      rw [Session.release, Controller.release_of_taken on.taken]
      simp [stepsLeft, Controller.stepsLeft, Controller.actionsLeft, owned]
  | read filled =>
      simp only [stepsLeft, Controller.stepsLeft, Controller.actionsLeft,
        filled, List.length_cons]
      omega

theorem IsOn.isOver_or_steps (on : walking.IsOn table buffer triggers) :
    walking.IsOver ∨ ∃ after, walking.Steps after := by
  have balanced := on.reached.balanced
  -- The sender is looked at first: the worker may rest until all is given up.
  cases unsent : walking.unsent with
  | cons trigger rest =>
      have held := on.held (by simp [unsent])
      obtain ⟨after, sent⟩ :=
        Controller.send_of_staffed balanced.staffed held trigger
      exact .inr ⟨_, .send unsent sent⟩
  | nil =>
      by_cases held : 0 < walking.session.controller.handles
      · exact .inr ⟨_, .dropHandle unsent held⟩
      have dropped := Nat.eq_zero_of_not_pos held
      cases owned : walking.session.controller.isOwned with
      | true => exact .inr ⟨_, .release unsent dropped owned⟩
      | false =>
          cases filled : walking.session.controller.channel with
          | cons action rest => exact .inr ⟨_, .read filled⟩
          | nil =>
              cases worked : walking.session.controller.step? with
              | some after => exact .inr ⟨_, .work worked⟩
              | none =>
                  left
                  refine ⟨owned, ?_, filled⟩
                  exact Controller.isStopped_of_resting worked
                    (by simp [Controller.hasSender, owned, dropped])
                    (.inr (Controller.fits_of_drained filled))

/-- However a walk has come to its end, it is the one that the machine makes
by itself. -/
theorem IsOn.report_eq (on : walking.IsOn table buffer triggers)
    (ended : walking.IsOver) : walking.report = Walk.direct table triggers := by
  have balanced := on.reached.balanced
  obtain ⟨done, paced⟩ := on.reached.exists_paced
  have finished := paced.finished ended.stopped
  have deserted := balanced.staffed ended.stopped
  have all : walking.session.accepted = triggers := by
    cases unsent : walking.unsent with
    | nil => simpa [unsent] using on.triggers_eq
    | cons trigger rest =>
        have held := on.held (by simp [unsent])
        simp [Controller.hasSender, held] at deserted
  have read : walking.session.received =
      ((Machine.start table).run triggers).2 := by
    have owed := balanced.outstanding_eq (by simp [on.taken])
    rwa [paced.regular.outstanding_of_stopped
      (Controller.isStopped_iff.mp ended.stopped), ended.drained,
      List.append_nil, all] at owed
  rw [report, Walk.direct, on.recorder_eq, finished.published_eq, read, all]

/-- Whatever the schedule, a walk ends with the report of the machine that
takes the triggers by itself, however many actions the channel holds. -/
theorem inevitable_direct (table : Table State) (buffer : Nat)
    (triggers : List Trigger) :
    Inevitable Steps
      (fun walking : Walking State =>
        walking.IsOver ∧ walking.report = Walk.direct table triggers)
      (start table buffer triggers) := by
  apply inevitable_of_measure (IsOn table buffer triggers) stepsLeft
  · intro walking after on stepped
    exact stepped.isOn on
  · intro walking after on stepped
    exact stepped.stepsLeft_lt on
  · intro walking on
    rcases on.isOver_or_steps with ended | possible
    · exact .inl ⟨ended, on.report_eq ended⟩
    · exact .inr possible
  · exact isOn_start table buffer triggers

end Walking

/-! ## The walk whose reader comes last -/

theorem Session.Reachable.sendAll {machine : Machine State} {buffer : Nat}
    {session : Session State} (reached : Reachable machine buffer session)
    (held : 0 < session.controller.handles) (triggers : List Trigger) :
    ∃ after : Controller State,
      triggers.foldlM Controller.send session.controller = .ok after ∧
        after = { session.controller with queue := after.queue } ∧
        Reachable machine buffer
          { session with
            controller := after
            accepted := session.accepted ++ triggers } := by
  induction triggers generalizing session with
  | nil => exact ⟨session.controller, rfl, rfl, by simpa using reached⟩
  | cons trigger rest ih =>
      obtain ⟨between, sent⟩ :=
        Controller.send_of_staffed reached.balanced.staffed held trigger
      have moved := (Controller.eq_of_send sent).1
      subst moved
      obtain ⟨after, all, same, arrived⟩ :=
        ih (reached.tail (.send held sent)) held
      refine ⟨after, ?_, same, by simpa using arrived⟩
      rw [List.foldlM_cons, sent]
      exact all

/-- A walk in which nobody reads before everything has been sent and given up
comes to the same report. -/
theorem Walk.run_eq_direct (table : Table State) (buffer : Nat)
    (triggers : List Trigger) :
    Walk.run table buffer triggers = .ok (Walk.direct table triggers) := by
  let begun := Walking.start table buffer triggers
  have on : begun.IsOn table buffer triggers := Walking.isOn_start _ _ _
  obtain ⟨sent, all, same, arrived⟩ :=
    on.reached.sendAll Nat.one_pos triggers
  have owned : sent.isOwned = true := congrArg Controller.isOwned same
  have held : sent.handles = 1 := congrArg Controller.handles same
  have taken : sent.subscription = .taken :=
    congrArg Controller.subscription same
  let given : Session State :=
    { controller := sent.dropHandle, accepted := triggers, received := [] }
  have reached : Session.Reachable (Machine.start table) buffer given :=
    arrived.tail (.dropHandle (by simp [held]))
  have released :
      given.controller.release = { given.controller with isOwned := false } :=
    Controller.release_of_taken taken
  have deserted : given.release.controller.handles = 0 := by
    rw [Session.release, released]
    exact congrArg (· - 1) held
  have still : given.release.controller.subscription = .taken := by
    rw [Session.release, released]
    exact taken
  have lives := reached.livesOn .refl owned
  obtain ⟨finished, read⟩ := lives.finishes_read deserted still
  have published := finished.published_eq
  have walked : run table buffer triggers =
      Except.bind (triggers.foldlM Controller.send begun.session.controller)
        fun sent =>
          let read := sent.dropHandle.release.readAll
          .ok
            { actions := read.2
              recorder := Recorder.fresh.applyAll read.2
              history := read.1.published } := rfl
  rw [walked, all, Walk.direct]
  simp only [Session.release, given, List.nil_append] at read published
  simp only [Except.bind, read, published]

end ScreenFlow
