import ScreenFlow.Program
import ScreenFlow.Proofs.Scheduling

/-!
# What a walk reports

The words of a walk are read before anything begins, and the first one that
its flow does not know is all that comes of them.  If every word is known, the
report is the one of the machine that takes the triggers by itself, whatever
the channel holds.  It depends on the commands alone: `Program.Rephrases` says
which changes of the words keep them.
-/

namespace ScreenFlow

theorem Walk.direct_congr {State : Type} [DecidableEq State] [Flow State]
    (table : Table State) {triggers others : List Trigger}
    (same : triggers.filterMap Trigger.command? =
      others.filterMap Trigger.command?) :
    direct table triggers = direct table others := by
  simp only [direct, Machine.run, same]

namespace Program

variable {flow : FlowKind} {words others : List TriggerWord}

/-! ## Reading words -/

/-- A word has a meaning in a flow. -/
def IsKnown (flow : FlowKind) (word : TriggerWord) : Prop :=
  ∃ trigger, triggerOf flow word = .ok trigger

theorem signalOf_cases (flow : FlowKind) (text : String) :
    (∃ signal, signalOf flow text = .ok signal) ∨
      signalOf flow text = .error { text, flowName := flow.name } := by
  have read {Status : Type} [Outcome Status] (report : Status → Signal) :
      (∃ signal, report <$> Outcome.ofText text = .ok signal) ∨
        report <$> Outcome.ofText text =
          .error { text, flowName := Outcome.flowName Status } := by
    unfold Outcome.ofText
    split
    next status found => exact .inl ⟨report status, rfl⟩
    next => exact .inr rfl
  cases flow with
  | custodyWithdrawal => exact read Signal.withdrawal
  | backupFunds => exact read Signal.backup
  | paymentSetup => exact read Signal.card

theorem triggerOf_signal {text : String} {signal : Signal}
    (known : signalOf flow text = .ok signal) :
    triggerOf flow (.signal text) = .ok (.signal signal) := by
  rw [triggerOf, known]
  rfl

theorem triggerOf_of_unknown {word : TriggerWord}
    (unknown : ¬IsKnown flow word) :
    ∃ text, word = .signal text ∧
      triggerOf flow word = .error { text, flowName := flow.name } := by
  cases word with
  | next => exact absurd ⟨.next, rfl⟩ unknown
  | back => exact absurd ⟨.back, rfl⟩ unknown
  | signal text =>
      refine ⟨text, rfl, ?_⟩
      rcases signalOf_cases flow text with ⟨signal, known⟩ | refused
      · exact absurd ⟨.signal signal, triggerOf_signal known⟩ unknown
      · rw [triggerOf, refused]
        rfl

theorem mapM_of_known (known : ∀ word ∈ words, IsKnown flow word) :
    ∃ triggers, words.mapM (triggerOf flow) = .ok triggers := by
  induction words with
  | nil => exact ⟨[], rfl⟩
  | cons word rest ih =>
      obtain ⟨trigger, read⟩ := known word (by simp)
      obtain ⟨triggers, later⟩ :=
        ih fun word member => known word (by simp [member])
      refine ⟨trigger :: triggers, ?_⟩
      rw [List.mapM_cons, read, later]
      rfl

/-- Words are read up to the first one that is not known. -/
theorem mapM_of_unknown {before after : List TriggerWord}
    {word : TriggerWord} {refusal : UnknownSignal}
    (known : ∀ word ∈ before, IsKnown flow word)
    (refused : triggerOf flow word = .error refusal) :
    (before ++ word :: after).mapM (triggerOf flow) = .error refusal := by
  induction before with
  | nil =>
      rw [List.nil_append, List.mapM_cons, refused]
      rfl
  | cons first rest ih =>
      obtain ⟨trigger, read⟩ := known first (by simp)
      have later := ih fun word member => known word (by simp [member])
      rw [List.cons_append, List.mapM_cons, read, later]
      rfl

theorem exists_first_unknown
    (strange : ∃ word ∈ words, ¬IsKnown flow word) :
    ∃ before word after, words = before ++ word :: after ∧
      (∀ word ∈ before, IsKnown flow word) ∧ ¬IsKnown flow word := by
  induction words with
  | nil => simp at strange
  | cons first rest ih =>
      by_cases known : IsKnown flow first
      · have later : ∃ word ∈ rest, ¬IsKnown flow word := by
          simpa [known] using strange
        obtain ⟨before, word, after, split, all, unknown⟩ := ih later
        refine ⟨first :: before, word, after, by simp [split], ?_, unknown⟩
        simpa [known] using all
      · exact ⟨[], first, rest, rfl, by simp, known⟩

/-! ## Commands -/

/-- The commands that words stand for. -/
def commandsOf (flow : FlowKind) (words : List TriggerWord) :
    Except UnknownSignal (List Command) :=
  (·.filterMap Trigger.command?) <$> words.mapM (triggerOf flow)

theorem commandsOf_cons (flow : FlowKind) (word : TriggerWord)
    (rest : List TriggerWord) :
    commandsOf flow (word :: rest) = do
      let trigger ← triggerOf flow word
      let commands ← commandsOf flow rest
      return trigger.command?.toList ++ commands := by
  simp only [commandsOf, List.mapM_cons]
  cases triggerOf flow word with
  | error refusal => rfl
  | ok trigger =>
      cases rest.mapM (triggerOf flow) with
      | error refusal => rfl
      | ok triggers =>
          cases told : trigger.command? <;>
            simp [bind, Except.bind, pure, Except.pure, Functor.map,
              Except.map, told]

theorem commandsOf_append_congr {back other : List TriggerWord}
    (same : commandsOf flow back = commandsOf flow other)
    (front : List TriggerWord) :
    commandsOf flow (front ++ back) = commandsOf flow (front ++ other) := by
  induction front with
  | nil => exact same
  | cons word rest ih =>
      rw [List.cons_append, List.cons_append, commandsOf_cons,
        commandsOf_cons, ih]

/-- One change of the words that tells the machine nothing: an idle signal is
left out, or a signal that walks on is replaced by asking for the next
screen. -/
inductive Rephrases (flow : FlowKind) :
    List TriggerWord → List TriggerWord → Prop where
  | leaveOut (front back : List TriggerWord) {text : String}
      {signal : Signal} (known : signalOf flow text = .ok signal)
      (idle : signal.isIdle = true) :
      Rephrases flow (front ++ .signal text :: back) (front ++ back)
  | replace (front back : List TriggerWord) {text : String}
      {signal : Signal} (known : signalOf flow text = .ok signal)
      (busy : signal.isIdle = false) :
      Rephrases flow (front ++ .signal text :: back)
        (front ++ .next :: back)

theorem Rephrases.commandsOf_eq (change : Rephrases flow words others) :
    commandsOf flow words = commandsOf flow others := by
  cases change with
  | @leaveOut front back text signal known idle =>
      apply commandsOf_append_congr
      have untold : Trigger.command? (.signal signal) = none := by
        simp [Trigger.command?, idle]
      rw [commandsOf_cons, triggerOf_signal known]
      cases commandsOf flow back with
      | error refusal => rfl
      | ok commands =>
          simp [bind, Except.bind, pure, Except.pure, untold]
  | @replace front back text signal known busy =>
      apply commandsOf_append_congr
      have told : Trigger.command? (.signal signal) =
          Trigger.command? .next := by
        simp [Trigger.command?, busy]
      rw [commandsOf_cons, commandsOf_cons, triggerOf_signal known]
      simp [bind, Except.bind, told, triggerOf]

theorem commandsOf_eq_of_eqvGen
    (alike : Relation.EqvGen (Rephrases flow) words others) :
    commandsOf flow words = commandsOf flow others := by
  induction alike with
  | rel _ _ change => exact change.commandsOf_eq
  | refl _ => rfl
  | symm _ _ _ ih => exact ih.symm
  | trans _ _ _ _ _ first second => exact first.trans second

/-! ## The report -/

theorem walk_of_known {triggers : List Trigger}
    (read : words.mapM (triggerOf flow) = .ok triggers) (json : Bool)
    (buffer : Nat) :
    walk flow words json buffer =
      if buffer ≤ greatestBuffer then
        .ok ((Walk.direct flow.table triggers).report json)
      else
        .error .bufferTooLarge := by
  have walked : walk flow words json buffer =
      if greatestBuffer < buffer then
        .error .bufferTooLarge
      else
        ((Walk.run flow.table buffer triggers).mapError
          (Failure.controller flow)).map (·.report json) := by
    unfold walk
    rw [read]
    rfl
  rw [walked, Walk.run_eq_direct]
  by_cases fits : buffer ≤ greatestBuffer
  · rw [if_pos fits, if_neg (Nat.not_lt.mpr fits)]
    rfl
  · rw [if_neg fits, if_pos (Nat.lt_of_not_le fits)]

theorem walk_of_unknown {refusal : UnknownSignal}
    (refused : words.mapM (triggerOf flow) = .error refusal) (json : Bool)
    (buffer : Nat) :
    walk flow words json buffer = .error (.signal refusal) := by
  unfold walk
  rw [refused]
  rfl

theorem walk_congr (same : commandsOf flow words = commandsOf flow others)
    (json : Bool) (buffer : Nat) :
    walk flow words json buffer = walk flow others json buffer := by
  unfold commandsOf at same
  cases read : words.mapM (triggerOf flow) with
  | error refusal =>
      cases readOther : others.mapM (triggerOf flow) with
      | error refusal =>
          rw [read, readOther] at same
          cases same
          rw [walk_of_unknown read, walk_of_unknown readOther]
      | ok triggers => simp [read, readOther, Functor.map, Except.map] at same
  | ok triggers =>
      cases readOther : others.mapM (triggerOf flow) with
      | error refusal =>
          simp [read, readOther, Functor.map, Except.map] at same
      | ok otherTriggers =>
          rw [walk_of_known read, walk_of_known readOther]
          rw [read, readOther] at same
          rw [Walk.direct_congr flow.table (Except.ok.inj same)]

/-- A walk of known words ends under every schedule, with the report of the
machine that takes the triggers by itself, however many actions the channel
holds.  Changes of the words that tell the machine nothing leave the report as
it is.  If some word is not known there is no report, and the failure tells of
the first such word, whatever comes after it. -/
theorem walk_reports_direct (flow : FlowKind) (words : List TriggerWord)
    (json : Bool) :
    ((∀ word ∈ words, IsKnown flow word) →
      ∃ triggers, words.mapM (triggerOf flow) = .ok triggers ∧
        ∀ buffer,
          Inevitable Walking.Steps
              (fun walking => walking.IsOver ∧
                walking.report = Walk.direct flow.table triggers)
              (Walking.start flow.table buffer triggers) ∧
            (buffer ≤ greatestBuffer →
              walk flow words json buffer =
                .ok ((Walk.direct flow.table triggers).report json))) ∧
      (∀ others, Relation.EqvGen (Rephrases flow) words others →
        ∀ buffer, walk flow words json buffer =
          walk flow others json buffer) ∧
      ((∃ word ∈ words, ¬IsKnown flow word) →
        ∃ before text after, words = before ++ .signal text :: after ∧
          (∀ word ∈ before, IsKnown flow word) ∧
          ¬IsKnown flow (.signal text) ∧
          ∀ buffer, walk flow words json buffer =
            .error (.signal { text, flowName := flow.name })) := by
  refine ⟨?_, ?_, ?_⟩
  · intro known
    obtain ⟨triggers, read⟩ := mapM_of_known known
    refine ⟨triggers, read, ?_⟩
    intro buffer
    refine ⟨Walking.inevitable_direct flow.table buffer triggers, ?_⟩
    intro fits
    rw [walk_of_known read, if_pos fits]
  · intro others alike buffer
    exact walk_congr (commandsOf_eq_of_eqvGen alike) json buffer
  · intro strange
    obtain ⟨before, word, after, split, known, unknown⟩ :=
      exists_first_unknown strange
    obtain ⟨text, same, refused⟩ := triggerOf_of_unknown unknown
    subst same
    refine ⟨before, text, after, split, known, unknown, ?_⟩
    intro buffer
    rw [split, walk_of_unknown (mapM_of_unknown known refused)]

/-- A backup that is asked for with signals, one of them idle, reports the same
as one that is asked for screen by screen, though only one action finds room
in the channel.  A signal that only other flows know is refused, and the one
after it is not looked at. -/
theorem walk_reports_direct_backup :
    (∀ word ∈ [.next, .signal "unknown", .signal "verified"],
        IsKnown .backupFunds word) ∧
      walk .backupFunds [.next, .signal "unknown", .signal "verified"] true 0 =
        .ok ((Walk.direct FlowKind.backupFunds.table
          [.next, .signal (.backup .unknown),
            .signal (.backup .verified)]).report true) ∧
      walk .backupFunds [.next, .signal "unknown", .signal "verified"] true 0 =
        walk .backupFunds [.next, .next] true 0 ∧
      walk .backupFunds [.signal "failed", .signal ""] true 0 =
        .error (.signal
          { text := "failed", flowName := "backup-funds" }) := by
  have idle : signalOf .backupFunds "unknown" =
      .ok (.backup .unknown) := rfl
  have busy : signalOf .backupFunds "verified" =
      .ok (.backup .verified) := rfl
  have known : ∀ word ∈ [.next, .signal "unknown", .signal "verified"],
      IsKnown .backupFunds word := by
    simp only [List.forall_mem_cons, List.not_mem_nil, false_implies,
      implies_true, and_true]
    exact ⟨⟨.next, rfl⟩, ⟨_, triggerOf_signal idle⟩,
      ⟨_, triggerOf_signal busy⟩⟩
  have alike : Relation.EqvGen (Rephrases .backupFunds)
      [.next, .signal "unknown", .signal "verified"] [.next, .next] :=
    .trans _ _ _
      (.rel _ _ (.leaveOut [.next] [.signal "verified"] idle rfl))
      (.rel _ _ (.replace [.next] [] busy rfl))
  obtain ⟨reports, rephrased, _⟩ := walk_reports_direct .backupFunds
    [.next, .signal "unknown", .signal "verified"] true
  obtain ⟨triggers, read, all⟩ := reports known
  have same : triggers =
      [.next, .signal (.backup .unknown), .signal (.backup .verified)] :=
    (Except.ok.inj read).symm
  subst same
  refine ⟨known, (all 0).2 (Nat.zero_le _), rephrased _ alike 0, ?_⟩
  have strange : ¬IsKnown .backupFunds (.signal "failed") := by
    rintro ⟨trigger, read⟩
    cases read
  obtain ⟨before, text, after, split, earlier, _, failed⟩ :=
    (walk_reports_direct .backupFunds [.signal "failed", .signal ""] true).2.2
      ⟨_, List.mem_cons_self, strange⟩
  cases before with
  | nil =>
      cases split
      exact failed 0
  | cons first rest =>
      have head : .signal "failed" = first := (List.cons.inj split).1
      subst head
      exact absurd (earlier _ List.mem_cons_self) strange

end Program

end ScreenFlow
