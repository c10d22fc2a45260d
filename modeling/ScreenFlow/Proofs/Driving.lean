import ScreenFlow.Proofs.Completion
import ScreenFlow.Proofs.Navigation
import ScreenFlow.Proofs.NoReturn

/-!
# Drives lose nothing

What the drives of a recorder have performed together is what has been read,
and what has not been read is still to come or was lost when the controller
was dropped.  `Navigation.Coherent` says so of a recorder at any moment.  A
machine that has come to its ending repeats it, so every drive after the one
that finds the ending finds it again at once.
-/

namespace ScreenFlow

variable {State : Type}

/-! ## Where a drive ends -/

/-- A drive ends with the first action that ends the flow, or without one. -/
inductive Drive.Stops : Drive State → Prop where
  | finished {before : List (Action State)} {ending : Ending}
      (onward : ∀ action ∈ before, action.ending? = none) :
      Stops
        { performed := before ++ [.finish ending], result := .finished ending }
  | unfinished {performed : List (Action State)} {result : DriveEnd}
      (onward : ∀ action ∈ performed, action.ending? = none)
      (goesOn : ∀ ending, result ≠ .finished ending) :
      Stops { performed, result }

theorem Drive.Stops.onward {drive : Drive State} (stops : drive.Stops)
    (goesOn : ∀ ending, drive.result ≠ .finished ending) :
    ∀ action ∈ drive.performed, action.ending? = none := by
  cases stops with
  | finished => exact absurd rfl (goesOn _)
  | unfinished onward => exact onward

theorem Drive.Stops.of_finished {drive : Drive State} {ending : Ending}
    (stops : drive.Stops) (ends : drive.result = .finished ending) :
    ∃ before, drive.performed = before ++ [.finish ending] ∧
      ∀ action ∈ before, action.ending? = none := by
  cases stops with
  | finished onward =>
      cases ends
      exact ⟨_, rfl, onward⟩
  | unfinished _ goesOn => exact absurd ends (goesOn ending)

/-- A drive that finds nothing but the end of the flow takes it once. -/
theorem Drive.Stops.of_repeated {drive : Drive State} {ending : Ending}
    (stops : drive.Stops)
    (repeated : ∀ action ∈ drive.performed, action = .finish ending) :
    drive.performed = [] ∧ (∀ other, drive.result ≠ .finished other) ∨
      drive.performed = [.finish ending] ∧
        drive.result = .finished ending := by
  -- What does not end the flow does not repeat its end.
  have nothing {actions : List (Action State)}
      (onward : ∀ action ∈ actions, action.ending? = none)
      (repeated : ∀ action ∈ actions, action = .finish ending) :
      actions = [] := by
    apply List.eq_nil_iff_forall_not_mem.mpr
    intro action member
    have goesOn := onward action member
    rw [repeated action member] at goesOn
    cases goesOn
  cases stops with
  | finished onward =>
      obtain rfl := nothing onward fun action member =>
        repeated action (List.mem_append_left _ member)
      cases repeated _ (List.mem_append_right _ (List.mem_singleton_self _))
      exact .inr ⟨rfl, rfl⟩
  | unfinished onward goesOn =>
      exact .inl ⟨nothing onward repeated, goesOn⟩

variable [DecidableEq State] [Flow State]

namespace Machine

/-- Whatever comes after the end of the flow repeats it. -/
theorem eq_finish_of_obeyAll {machine : Machine State}
    {commands : List Command} {before after : List (Action State)}
    {ending : Ending}
    (split : (machine.obeyAll commands).2 =
      before ++ .finish ending :: after) :
    ∀ action ∈ after, action = .finish ending := by
  obtain ⟨earlier, command, later, -, -, finish, rfl⟩ :=
    exists_split_of_obeyAll split
  intro action repeated
  have ended : ((machine.obeyAll earlier).1.obey command).1.ending =
      some ending := by
    cases before : (machine.obeyAll earlier).1.ending with
    | none => simp [obey_ending, before, finish, Action.ending?]
    | some decided =>
        rw [obey_of_finished before command] at finish ⊢
        cases finish
        exact before
  rw [obeyAll_of_finished ended] at repeated
  exact List.eq_of_mem_replicate repeated

end Machine

namespace Session

/-- Once the stream of actions has ended nothing brings it back. -/
theorem Happens.stays_ended {session after : Session State}
    (happens : session.Happens after)
    (stopped : session.controller.worker = .stopped)
    (drained : session.controller.channel = []) :
    after.controller.worker = .stopped ∧ after.controller.channel = [] := by
  cases happens with
  | work stepped =>
      exact absurd (Controller.steps_of_step? stepped)
        (Controller.not_steps_of_stopped stopped)
  | openHandle => exact ⟨stopped, drained⟩
  | dropHandle => exact ⟨stopped, drained⟩
  | send held sent =>
      obtain ⟨rfl, -⟩ := Controller.eq_of_send sent
      exact ⟨stopped, drained⟩
  | takeActions owned taken =>
      unfold Controller.takeActions at taken
      split at taken
      next =>
        cases taken
        exact ⟨stopped, drained⟩
      all_goals cases taken
  | read taken reads =>
      obtain ⟨kept, split⟩ := reads.yields.of_stopped stopped
      rw [drained] at split
      refine ⟨?_, (List.append_eq_nil_iff.mp split.symm).2⟩
      rw [kept]
      exact stopped
  | dropActions => exact ⟨stopped, rfl⟩
  | release =>
      rcases session.controller.release_cases with
        ⟨-, released⟩ | ⟨-, released⟩
      · rw [released]
        exact ⟨stopped, rfl⟩
      · rw [released]
        exact ⟨stopped, drained⟩

end Session

namespace Navigation

/-! ## Where the actions are -/

/-- Where a session and the actions that were lost to it come from: its worker
has not been made to stop, or it was stopped when the session had come to
`last`. -/
inductive ComesFrom (machine : Machine State) (buffer : Nat) :
    Session State → List (Action State) → Prop where
  | live {session : Session State}
      (reached : Session.Reachable machine buffer session) :
      ComesFrom machine buffer session []
  | halted {last session : Session State}
      (reached : Session.Reachable machine buffer last)
      (held : last.controller.subscription ≠ .dropped)
      (frozen : last.halt.Frozen session) :
      ComesFrom machine buffer session (unsent last.controller)

section

variable {machine : Machine State} {buffer : Nat}
variable {session after : Session State} {lost : List (Action State)}

theorem ComesFrom.happens (comes : ComesFrom machine buffer session lost)
    (happens : session.Happens after) :
    ComesFrom machine buffer after lost := by
  cases comes with
  | live reached => exact .live (reached.tail happens)
  | halted reached held frozen =>
      exact .halted reached held (happens.frozen frozen)

theorem ComesFrom.unsent_eq_nil (comes : ComesFrom machine buffer session lost)
    (stopped : session.controller.worker = .stopped) :
    unsent session.controller = [] := by
  have drained : session.controller.queue = [] := by
    cases comes with
    | live reached =>
        obtain ⟨done, paced⟩ := reached.exists_paced
        exact paced.regular.drained stopped
    | halted _ _ frozen => exact frozen.queue_eq
  simp [unsent, stopped, drained, Worker.inHand?]

theorem ComesFrom.halt (comes : ComesFrom machine buffer session lost)
    (held : session.controller.subscription ≠ .dropped)
    (unowned : session.controller.isOwned = false) :
    ComesFrom machine buffer session.halt
      (unsent session.controller ++ lost) := by
  cases comes with
  | live reached =>
      rw [List.append_nil]
      exact .halted reached held (Session.frozen_halt unowned)
  | halted reached connected frozen =>
      rw [unsent_eq_nil (.halted reached connected frozen) frozen.worker_eq]
      obtain ⟨published, machine, -, -, -, commands, known, unread⟩ := frozen
      exact .halted reached connected ⟨published, machine, rfl, rfl, unowned,
        commands, known, unread⟩

/-- Every action that the machine has come to or will come to is in one of
four places: it has been read, it is in the channel, it is on its way to the
channel, or it is lost. -/
theorem ComesFrom.actions_eq (comes : ComesFrom machine buffer session lost)
    (held : session.controller.subscription ≠ .dropped) :
    session.received ++ session.controller.channel ++
        unsent session.controller ++ lost =
      (machine.run session.accepted).2 := by
  cases comes with
  | live reached =>
      rw [← reached.balanced.outstanding_eq held]
      simp [unsent, Controller.outstanding]
  | @halted last _ reached connected frozen =>
      have same : machine.run session.accepted =
          machine.run last.accepted := by
        rw [Session.run_accepted, Session.run_accepted, frozen.commands_eq]
        rfl
      rw [frozen.unread_eq held, same,
        ← reached.balanced.outstanding_eq connected]
      simp [unsent, Session.halt, Controller.halt, Controller.outstanding,
        frozen.worker_eq, frozen.queue_eq, Worker.inHand?]

theorem ComesFrom.published_eq (comes : ComesFrom machine buffer session lost)
    (stopped : session.controller.worker = .stopped) (whole : lost = []) :
    session.controller.published =
      (machine.run session.accepted).1.history := by
  cases comes with
  | live reached =>
      obtain ⟨done, paced⟩ := reached.exists_paced
      exact (paced.finished (Controller.isStopped_iff.mpr stopped)).published_eq
  | @halted last _ reached connected frozen =>
      obtain ⟨done, paced⟩ := reached.exists_paced
      have drained : last.controller.queue = [] := by
        have none := (List.append_eq_nil_iff.mp whole).2
        rw [← List.length_eq_zero_iff, Machine.length_obeyAll] at none
        exact List.length_eq_zero_iff.mp none
      have all : session.commands = done := by
        have commands := paced.commands_eq
        rw [drained, List.append_nil] at commands
        exact frozen.commands_eq.trans commands
      rw [Session.run_accepted, all]
      exact frozen.published_eq.trans paced.obeyed.published_eq_history

end

/-! ## What the drives have performed -/

/-- The drives of a recorder account for all that has been read. -/
structure Coherent (machine : Machine State) (buffer : Nat)
    (navigation : Navigation State) : Prop where
  taken : navigation.session.controller.subscription = .taken
  comes : ComesFrom machine buffer navigation.session navigation.lost
  received_eq : navigation.session.received =
    navigation.drives.flatMap Drive.performed ++ navigation.underWay.getD []
  recorder_eq : navigation.recorder =
    Recorder.fresh.applyAll navigation.session.received
  stops : ∀ drive ∈ navigation.drives, drive.Stops
  onward : ∀ action ∈ navigation.underWay.getD [], action.ending? = none
  ended : ∀ drive ∈ navigation.drives, drive.result = .ended →
    navigation.session.controller.worker = .stopped ∧
      navigation.session.controller.channel = [] ∧
      navigation.underWay.getD [] = []
  quiet : navigation.drives.Pairwise fun earlier later =>
    earlier.result = .ended → later.performed = []

section

variable {machine : Machine State} {buffer : Nat}
variable {navigation after : Navigation State}

theorem coherent_start {session : Session State}
    (reached : Session.Reachable machine buffer session)
    (taken : session.controller.subscription = .taken)
    (unread : session.received = []) :
    (start session).Coherent machine buffer where
  taken := taken
  comes := .live reached
  received_eq := unread
  recorder_eq := by simp [start, unread]
  stops := nofun
  onward := nofun
  ended := nofun
  quiet := .nil

theorem Coherent.finish (coherent : navigation.Coherent machine buffer)
    {performed : List (Action State)} {result : DriveEnd}
    (driving : navigation.underWay = some performed)
    (goesOn : ∀ ending, result ≠ .finished ending)
    (known : result = .ended →
      navigation.session.controller.worker = .stopped ∧
        navigation.session.controller.channel = []) :
    (navigation.finish performed result).Coherent machine buffer := by
  obtain ⟨taken, comes, received, recorder, stops, onward, ended, quiet⟩ :=
    coherent
  rw [driving] at onward received ended
  refine ⟨taken, comes, ?_, recorder, ?_, nofun, ?_, ?_⟩
  · simpa [Navigation.finish] using received
  · intro drive member
    rcases List.mem_append.mp member with earlier | last
    · exact stops drive earlier
    · obtain rfl := List.mem_singleton.mp last
      exact .unfinished onward goesOn
  · intro drive member isEnded
    rcases List.mem_append.mp member with earlier | last
    · obtain ⟨stopped, drained, -⟩ := ended drive earlier isEnded
      exact ⟨stopped, drained, rfl⟩
    · obtain rfl := List.mem_singleton.mp last
      obtain ⟨stopped, drained⟩ := known isEnded
      exact ⟨stopped, drained, rfl⟩
  · refine List.pairwise_append.mpr ⟨quiet, List.pairwise_singleton _ _, ?_⟩
    intro earlier member last single isEnded
    obtain rfl := List.mem_singleton.mp single
    exact (ended earlier member isEnded).2.2

theorem Coherent.result_ne_ended (coherent : navigation.Coherent machine buffer)
    {action : Action State} {rest : List (Action State)}
    (filled : navigation.session.controller.channel = action :: rest)
    {drive : Drive State} (member : drive ∈ navigation.drives) :
    drive.result ≠ .ended := by
  intro isEnded
  obtain ⟨-, drained, -⟩ := coherent.ended drive member isEnded
  cases drained.symm.trans filled

theorem happens_perform {action : Action State} {rest : List (Action State)}
    (taken : navigation.session.controller.subscription = .taken)
    (filled : navigation.session.controller.channel = action :: rest) :
    navigation.session.Happens (navigation.perform action rest).session := by
  have read := Session.Happens.read taken .tryNext
  rw [show navigation.session.controller.tryNext =
      ({ navigation.session.controller with channel := rest }, some action) by
    simp [Controller.tryNext, filled]] at read
  exact read

/-- Whatever happens, the drives still account for all that has been read. -/
theorem Happens.coherent (happens : navigation.Happens after)
    (coherent : navigation.Coherent machine buffer) :
    after.Coherent machine buffer := by
  obtain ⟨taken, comes, received, recorder, stops, onward, ended, quiet⟩ :=
    id coherent
  cases happens with
  | others happens unread kept =>
      refine ⟨kept.trans taken, comes.happens happens, unread.trans received,
        ?_, stops, onward, ?_, quiet⟩
      · simpa [unread] using recorder
      · intro drive member isEnded
        obtain ⟨stopped, drained, nothing⟩ := ended drive member isEnded
        obtain ⟨stays, empty⟩ := happens.stays_ended stopped drained
        exact ⟨stays, empty, nothing⟩
  | halt unowned =>
      have held : navigation.session.controller.subscription ≠ .dropped := by
        simp [taken]
      refine ⟨taken, comes.halt held unowned, received, recorder, stops,
        onward, ?_, quiet⟩
      intro drive member isEnded
      exact ⟨rfl, (ended drive member isEnded).2⟩
  | begin idle =>
      rw [idle] at received ended
      exact ⟨taken, comes, received, recorder, stops, by simp, ended, quiet⟩
  | @goOn performed rest action driving filled goesOn =>
      rw [driving] at received onward
      refine ⟨taken, comes.happens (happens_perform taken filled), ?_, ?_,
        stops, ?_, ?_, quiet⟩
      · simp [perform, received]
      · simp [perform, recorder, Recorder.applyAll_append]
      · intro other member
        rcases List.mem_append.mp member with earlier | last
        · exact onward other earlier
        · obtain rfl := List.mem_singleton.mp last
          exact goesOn
      · intro drive member isEnded
        exact absurd isEnded (coherent.result_ne_ended filled member)
  | @finish performed rest action ending driving filled ends =>
      obtain rfl := Action.ending?_eq_some_iff.mp ends
      rw [driving] at received onward
      refine ⟨taken, comes.happens (happens_perform taken filled), ?_, ?_, ?_,
        by simp [Navigation.finish], ?_, ?_⟩
      · simp [Navigation.finish, perform, received]
      · simp [Navigation.finish, perform, recorder, Recorder.applyAll_append]
      · intro drive member
        rcases List.mem_append.mp member with earlier | last
        · exact stops drive earlier
        · obtain rfl := List.mem_singleton.mp last
          exact .finished onward
      · intro drive member isEnded
        rcases List.mem_append.mp member with earlier | last
        · exact absurd isEnded (coherent.result_ne_ended filled earlier)
        · obtain rfl := List.mem_singleton.mp last
          cases isEnded
      · refine List.pairwise_append.mpr
          ⟨quiet, List.pairwise_singleton _ _, ?_⟩
        intro earlier member _ _ isEnded
        exact absurd isEnded (coherent.result_ne_ended filled member)
  | runOut driving drained stopped =>
      exact coherent.finish driving (by simp) fun _ => ⟨stopped, drained⟩
  | abandon driving => exact coherent.finish driving (by simp) (by simp)

theorem coherent_of_run {session : Session State}
    (reached : Session.Reachable machine buffer session)
    (taken : session.controller.subscription = .taken)
    (unread : session.received = [])
    (run : Relation.ReflTransGen Happens (start session) navigation) :
    navigation.Coherent machine buffer := by
  induction run with
  | refl => exact coherent_start reached taken unread
  | tail _ happens ih => exact happens.coherent ih

/-! ## The drive that finds the end of the flow, and those after it -/

theorem Coherent.received_prefix
    (coherent : navigation.Coherent machine buffer) :
    navigation.session.received <+:
      (machine.run navigation.session.accepted).2 := by
  have all := coherent.comes.actions_eq (by simp [coherent.taken])
  rw [List.append_assoc, List.append_assoc] at all
  exact ⟨_, all⟩

variable {earlier later : List (Drive State)} {drive : Drive State}

theorem Coherent.onward_of_unfinished
    (coherent : navigation.Coherent machine buffer)
    (member : ∀ other ∈ earlier, other ∈ navigation.drives)
    (unfinished : ∀ other ∈ earlier, ∀ ending,
      other.result ≠ .finished ending) :
    ∀ action ∈ earlier.flatMap Drive.performed, action.ending? = none := by
  intro action performed
  obtain ⟨other, listed, done⟩ := List.mem_flatMap.mp performed
  exact (coherent.stops other (member other listed)).onward
    (unfinished other listed) action done

/-- The first drive that finds the end of the flow has been given all actions
up to it, and later ones find nothing else. -/
theorem Coherent.first_end (coherent : navigation.Coherent machine buffer)
    (split : navigation.drives = earlier ++ drive :: later)
    (unfinished : ∀ other ∈ earlier, ∀ ending,
      other.result ≠ .finished ending)
    {ending : Ending} (finished : drive.result = .finished ending) :
    ∃ before,
      (earlier ++ [drive]).flatMap Drive.performed =
          before ++ [.finish ending] ∧
        (∀ action ∈ before, action.ending? = none) ∧
        before ++ [.finish ending] <+:
          (machine.run navigation.session.accepted).2 ∧
        (∀ other ∈ later,
          other.performed = [] ∧ (∀ found, other.result ≠ .finished found) ∨
            other.performed = [.finish ending] ∧
              other.result = .finished ending) ∧
        navigation.underWay.getD [] = [] := by
  have listed (other : Drive State) (member : other ∈ earlier) :
      other ∈ navigation.drives := by simp [split, member]
  have earlierOnward := coherent.onward_of_unfinished listed unfinished
  obtain ⟨last, performed, lastOnward⟩ :=
    (coherent.stops drive (by simp [split])).of_finished finished
  let before := earlier.flatMap Drive.performed ++ last
  let after := later.flatMap Drive.performed ++ navigation.underWay.getD []
  have received : navigation.session.received =
      before ++ .finish ending :: after := by
    rw [coherent.received_eq, split]
    simp [before, after, performed]
  obtain ⟨rest, all⟩ := coherent.received_prefix
  rw [received, List.append_assoc, List.cons_append] at all
  have onward : ∀ action ∈ before, action.ending? = none := by
    intro action member
    rcases List.mem_append.mp member with early | late
    · exact earlierOnward action early
    · exact lastOnward action late
  have repeated := Machine.eq_finish_of_obeyAll all.symm
  refine ⟨before, by simp [before, performed], onward, ?_, ?_, ?_⟩
  · exact ⟨after ++ rest, by simpa using all⟩
  · intro other member
    apply (coherent.stops other (by simp [split, member])).of_repeated
    intro action done
    have performedLater : action ∈ after := List.mem_append_left _
      (List.mem_flatMap.mpr ⟨other, member, done⟩)
    exact repeated action (List.mem_append_left _ performedLater)
  · apply List.eq_nil_iff_forall_not_mem.mpr
    intro action member
    have goesOn := coherent.onward action member
    have again : action = .finish ending := repeated action
      (List.mem_append_left _ (List.mem_append_right _ member))
    rw [again] at goesOn
    cases goesOn

/-- A drive that finds the stream ended has left nothing in it, and no later
one finds anything. -/
theorem Coherent.at_end (coherent : navigation.Coherent machine buffer)
    (split : navigation.drives = earlier ++ drive :: later)
    (isEnded : drive.result = .ended) :
    navigation.session.controller.worker = .stopped ∧
      navigation.session.controller.channel = [] ∧
      (∀ other ∈ later, other.performed = []) ∧
      navigation.session.received =
        (earlier ++ [drive]).flatMap Drive.performed := by
  obtain ⟨stopped, drained, nothing⟩ :=
    coherent.ended drive (by simp [split]) isEnded
  have silent : ∀ other ∈ later, other.performed = [] := by
    have quiet := coherent.quiet
    rw [split, List.pairwise_append, List.pairwise_cons] at quiet
    intro other member
    exact quiet.2.1.1 other member isEnded
  refine ⟨stopped, drained, silent, ?_⟩
  rw [coherent.received_eq, split, nothing]
  simpa using silent

theorem Coherent.unfinished_at_end
    (coherent : navigation.Coherent machine buffer)
    (split : navigation.drives = earlier ++ drive :: later)
    (isEnded : drive.result = .ended)
    (unfinished : ∀ other ∈ earlier, ∀ ending,
      other.result ≠ .finished ending) :
    ∀ action ∈ (earlier ++ [drive]).flatMap Drive.performed,
      action.ending? = none := by
  apply coherent.onward_of_unfinished
  · intro other member
    rw [split]
    simp only [List.mem_append, List.mem_cons] at member ⊢
    tauto
  · intro other member ending
    rcases List.mem_append.mp member with early | last
    · exact unfinished other early ending
    · obtain rfl := List.mem_singleton.mp last
      simp [isEnded]

/-- If nothing was lost, whoever has found the stream ended has performed all
that the machine has come to. -/
theorem Coherent.whole_at_end (coherent : navigation.Coherent machine buffer)
    (stopped : navigation.session.controller.worker = .stopped)
    (drained : navigation.session.controller.channel = [])
    (whole : navigation.lost = []) :
    navigation.session.received =
      (machine.run navigation.session.accepted).2 := by
  have all := coherent.comes.actions_eq (by simp [coherent.taken])
  rw [coherent.comes.unsent_eq_nil stopped, drained, whole] at all
  simpa using all

end

/-! ## Drives one after another -/

theorem run_send (navigation : Navigation State) {trigger : Trigger}
    {sent obeyed delivered : Controller State}
    (held : 0 < navigation.session.controller.handles)
    (sends : navigation.session.controller.send trigger = .ok sent)
    (obeys : sent.step? = some obeyed)
    (delivers : obeyed.step? = some delivered) :
    Relation.ReflTransGen Happens navigation
      { navigation with
        session :=
          { navigation.session with
            controller := delivered
            accepted := navigation.session.accepted ++ [trigger] } } := by
  obtain ⟨rfl, -⟩ := Controller.eq_of_send sends
  have kept := (Controller.steps_of_step? obeys).subscription_eq
  have keptAgain := (Controller.steps_of_step? delivers).subscription_eq
  have run := Relation.ReflTransGen.single
    (Happens.others (.send held sends) rfl rfl)
  exact (run.tail (.others (.work obeys) rfl kept)).tail
    (.others (.work delivers) rfl keptAgain)

/-- A recorder between two drives.  The worker has nothing left to do, and the
actions that have not been read are in the channel. -/
def resting (machine : Machine State) (buffer : Nat)
    (channel : List (Action State)) (accepted : List Trigger)
    (received : List (Action State)) (drives : List (Drive State)) :
    Navigation State :=
  { session :=
      { controller := { Controller.spawn machine buffer with
          channel, subscription := .taken, handles := 1 }
        accepted, received }
    recorder := .applyAll .fresh received
    drives, underWay := none, lost := [] }

section

variable {machine next : Machine State} {buffer : Nat}
  {accepted : List Trigger} {received : List (Action State)}
  {drives : List (Drive State)}

/-- What a trigger makes of the machine comes through to the channel. -/
theorem run_deliver (trigger : Trigger) {command : Command}
    {action : Action State} (commands : trigger.command? = some command)
    (obeys : machine.obey command = (next, action)) :
    Relation.ReflTransGen Happens
      (resting machine buffer [] accepted received drives)
      (resting next buffer [action] (accepted ++ [trigger]) received
        drives) := by
  let idle : Controller State :=
    { Controller.spawn machine buffer with
      subscription := .taken, handles := 1 }
  let sending : Controller State :=
    { idle with
      machine := next, published := next.history, worker := .sending action }
  have sent : idle.send trigger = .ok { idle with queue := [command] } := by
    simp [idle, Controller.send, commands, Controller.spawn,
      Controller.isStopped]
  have obeyed : { idle with queue := [command] }.step? = some sending := by
    simp [idle, sending, Controller.step?, Controller.spawn, obeys]
  have delivered : sending.step? = some
      { Controller.spawn next buffer with
        channel := [action], subscription := .taken, handles := 1 } := by
    have room : 0 < max buffer 1 := by omega
    simp [idle, sending, Controller.step?, Controller.spawn,
      Controller.hasRoom, room]
  exact run_send (resting machine buffer [] accepted received drives)
    Nat.zero_lt_one sent obeyed delivered

theorem run_find {ending : Ending} :
    Relation.ReflTransGen Happens
      (resting machine buffer [.finish ending] accepted received drives)
      (resting machine buffer [] accepted (received ++ [.finish ending])
        (drives ++
          [{ performed := [.finish ending], result := .finished ending }])) := by
  have shown : Recorder.fresh.applyAll (received ++ [.finish ending]) =
      (Recorder.fresh.applyAll received).apply (.finish ending) := by
    rw [Recorder.applyAll_append]
    rfl
  have begun := Relation.ReflTransGen.single (Happens.begin (rfl :
    (resting machine buffer [.finish ending] accepted received
      drives).underWay = none))
  have finished := begun.tail (.finish rfl rfl rfl)
  simp only [resting, shown]
  exact finished

end

/-! ## All drives -/

/-- A recorder that is driven time and again, while anything else happens, is
always as the actions that have been read leave it, and what has not been read
is still to come, unless the controller was dropped.  A drive ends with the
first action that ends the flow.  The first one that finds it has been given
all actions up to it, and each later one finds that action alone, or nothing.
A drive that stops for the end of the stream has left nothing in it.  If the
end of the flow has not been found by then, only advances and retreats have
been performed, and the recorder shows the screens of the last history, unless
the controller was dropped before its queue was worked off. -/
theorem drives_follow_actions (table : Table State) (buffer : Nat)
    {session : Session State} {navigation : Navigation State}
    (reached : Session.Reachable (Machine.start table) buffer session)
    (taken : session.controller.subscription = .taken)
    (unread : session.received = [])
    (run : Relation.ReflTransGen Happens (start session) navigation) :
    let reading := navigation.session
    let walked := (Machine.start table).run reading.accepted
    (navigation.underWay = none →
      Relation.ReflTransGen Happens navigation navigation.drive) ∧
    (reading.received =
        navigation.drives.flatMap Drive.performed ++
          navigation.underWay.getD [] ∧
      navigation.recorder = Recorder.fresh.applyAll reading.received ∧
      reading.received ++ reading.controller.channel ++
        unsent reading.controller ++ navigation.lost = walked.2) ∧
    (∀ drive ∈ navigation.drives, drive.Stops) ∧
    (∀ action ∈ navigation.underWay.getD [], action.ending? = none) ∧
    ∀ earlier drive later, navigation.drives = earlier ++ drive :: later →
      (∀ ending, drive.result = .finished ending →
        (∀ other ∈ earlier, ∀ found, other.result ≠ .finished found) →
        ∃ before,
          (earlier ++ [drive]).flatMap Drive.performed =
              before ++ [.finish ending] ∧
            (∀ action ∈ before, action.ending? = none) ∧
            before ++ [.finish ending] <+: walked.2 ∧
            (∀ other ∈ later,
              other.performed = [] ∧
                  (∀ found, other.result ≠ .finished found) ∨
                other.performed = [.finish ending] ∧
                  other.result = .finished ending) ∧
            navigation.underWay.getD [] = []) ∧
      (drive.result = .ended →
        reading.controller.worker = .stopped ∧
          reading.controller.channel = [] ∧
          (∀ other ∈ later, other.performed = []) ∧
          reading.received =
            (earlier ++ [drive]).flatMap Drive.performed ∧
          ((∀ other ∈ earlier, ∀ found, other.result ≠ .finished found) →
            (∀ action ∈ reading.received,
              action = .retreat ∨ ∃ target, action = .advance target) ∧
            (navigation.lost = [] →
              reading.received = walked.2 ∧ walked.1.ending = none ∧
                reading.controller.published = walked.1.history ∧
                navigation.recorder.stack =
                  walked.1.history.trail.filter Flow.hasScreen))) := by
  intro reading walked
  have coherent := coherent_of_run reached taken unread run
  refine ⟨navigation.run_drive, ⟨coherent.received_eq, coherent.recorder_eq,
    coherent.comes.actions_eq (by simp [coherent.taken])⟩, coherent.stops,
    coherent.onward, ?_⟩
  intro earlier drive later split
  refine ⟨fun ending finished unfinished =>
    coherent.first_end split unfinished finished, ?_⟩
  intro isEnded
  obtain ⟨stopped, drained, silent, received⟩ := coherent.at_end split isEnded
  refine ⟨stopped, drained, silent, received, ?_⟩
  intro unfinished
  have onward := coherent.unfinished_at_end split isEnded unfinished
  rw [← received] at onward
  constructor
  · intro action member
    cases action with
    | advance target => exact .inr ⟨target, rfl⟩
    | retreat => exact .inl rfl
    | finish ending => cases onward _ member
  · intro whole
    have all : reading.received = walked.2 :=
      coherent.whole_at_end stopped drained whole
    have running : walked.1.ending = none := by
      rw [Machine.run_ending, ← all]
      exact List.findSome?_eq_none_iff.mpr onward
    have mirrors := Recorder.applyAll_run_mirrors table reading.accepted
    refine ⟨all, running, coherent.comes.published_eq stopped whole, ?_⟩
    rw [coherent.recorder_eq, all]
    exact mirrors.stack_eq running

/-- A withdrawal that is left at its first screen.  The first drive is given up
while it waits, the second one finds the end of the flow, the third one finds
it again, and the last one comes when the controller has been dropped. -/
theorem drives_follow_actions_withdrawal :
    ∃ (session : Session CustodyWithdrawal)
      (navigation : Navigation CustodyWithdrawal),
      Session.Reachable (Machine.start CustodyWithdrawal.table) 1 session ∧
        session.controller.subscription = .taken ∧ session.received = [] ∧
        Relation.ReflTransGen Happens (start session) navigation ∧
        navigation.session.accepted = [.next, .back, .back] ∧
        navigation.drives =
          [{ performed := [.advance .withdrawal], result := .pending },
            { performed := [.finish .dismiss], result := .finished .dismiss },
            { performed := [.finish .dismiss], result := .finished .dismiss },
            { performed := [], result := .ended }] ∧
        [.advance .withdrawal, .finish .dismiss] <+:
          ((Machine.start CustodyWithdrawal.table).run
            navigation.session.accepted).2 ∧
        navigation.session.controller.worker = .stopped ∧
        navigation.recorder =
          Recorder.fresh.applyAll
            [.advance .withdrawal, .finish .dismiss, .finish .dismiss] := by
  let machine := Machine.start CustodyWithdrawal.table
  let onward := (machine.obey .advance).1
  let dismissed := (onward.obey .retreat).1
  let session : Session CustodyWithdrawal :=
    { controller := { Controller.spawn machine 1 with subscription := .taken }
      accepted := [], received := [] }
  have reached : Session.Reachable machine 1 session :=
    .single (.takeActions rfl rfl)
  have opened : Relation.ReflTransGen Happens (start session)
      (resting machine 1 [] [] [] []) :=
    .single (.others (.openHandle rfl) rfl rfl)
  let first : Drive CustodyWithdrawal :=
    { performed := [.advance .withdrawal], result := .pending }
  have abandoned : Relation.ReflTransGen Happens
      (resting onward 1 [.advance .withdrawal] [.next] [] [])
      (resting onward 1 [] [.next] [.advance .withdrawal] [first]) :=
    ((Relation.ReflTransGen.single (.begin rfl)).tail
      (.goOn rfl rfl rfl)).tail (.abandon rfl)
  have advanced := (opened.trans (run_deliver .next rfl
    (rfl : machine.obey .advance = (onward, .advance .withdrawal)))).trans
      abandoned
  have found := (advanced.trans (run_deliver .back rfl
    (rfl : onward.obey .retreat = (dismissed, .finish .dismiss)))).trans
      run_find
  have foundAgain := (found.trans (run_deliver .back rfl
    (rfl : dismissed.obey .retreat = (dismissed, .finish .dismiss)))).trans
      run_find
  have dropped := foundAgain.tail (.others (.release rfl) rfl rfl)
  have halted := dropped.tail (.halt rfl)
  have whole := (halted.tail (.begin rfl)).tail (.runOut rfl rfl rfl)
  obtain ⟨-, ⟨-, recorder, -⟩, -, -, drives⟩ :=
    drives_follow_actions _ 1 reached rfl rfl whole
  obtain ⟨finds, -⟩ := drives [first] _ _ rfl
  have unfinished : ∀ drive ∈ [first], ∀ ending,
      drive.result ≠ .finished ending := by
    simp [first]
  obtain ⟨before, performed, -, emitted, -⟩ := finds .dismiss rfl unfinished
  rw [← performed] at emitted
  exact ⟨session, _, reached, rfl, rfl, whole, rfl, rfl, emitted, rfl, recorder⟩

end Navigation

end ScreenFlow
