import Abacus.Relayer.RelayerSafety

/-!
# What the relayer delivers

Whatever a submitter submits was dispatched for its inbox, and is proved for a
checkpoint that the fetcher published. A message that is recorded as processed
is not handled again by inboxes with distinct domains, also not after a restart
with other settings.
-/

namespace Abacus

namespace Relayer

/-! ## A run -/

/-- A relayer with one inbox, for the messages that are sent to domain
zero. -/
def sampleConf : RelayerConf where
  whitelist := ⟨none⟩
  blacklist := ⟨none⟩
  indexer := ⟨none, none⟩
  inboxes := [⟨0, false⟩]
  hasPaymaster := false

/-- The relayer on the empty database. -/
def sampleRelayer : Relayer :=
  (@start .transparent sampleConf Journal.empty).toOption.getD
    ⟨sampleConf, Journal.empty, none, .ok .new, .start (.ok ⟨0, 0⟩), none, []⟩

/-- One validator signs a checkpoint of index `1`. -/
def sampleSyncer : MultisigCheckpointSyncer where
  threshold := 1
  checkpointSyncers := [(5, .holding 1 [⟨.sample 1, .naming 5⟩])]
  nodup_validators := by decide

/-- A checkpoint is fetched, and the processor makes some steps. -/
def fetchingEvents (steps : Nat) : List Event :=
  .fetch (.ok (some 1)) sampleSyncer ::
    List.replicate steps (.process 0 false)

/-- Two messages are synced, and the first of them is sent to the
submitter. -/
def sendingEvents : List Event :=
  .pollOutbox (OutboxChain.pair.pollFrom 0) ::
    (List.replicate 12 .writeOutbox ++ fetchingEvents 8)

/-- The first message is recorded as processed. -/
def recordingEvents : List Event :=
  sendingEvents ++ [.tick 0 SerialSubmitter.processedAnswers]

/-- The relayer is restarted, and the second message is sent. -/
def restartedEvents : List Event :=
  .restart sampleConf :: fetchingEvents 12

theorem distinct_pair : @OutboxChain.Distinct .transparent .pair := by
  unfold OutboxChain.Distinct
  decide

theorem forall_mem_fetchingEvents
    {Holds : Event → Prop}
    (fetch : Holds (.fetch (.ok (some 1)) sampleSyncer))
    (process : Holds (.process 0 false))
    (steps : Nat) :
    ∀ event ∈ fetchingEvents steps, Holds event := by
  intro event member
  rcases List.mem_cons.mp member with rfl | repeated
  · exact fetch
  · rw [List.eq_of_mem_replicate repeated]
    exact process

theorem forall_mem_sendingEvents
    {Holds : Event → Prop}
    (poll : Holds (.pollOutbox (OutboxChain.pair.pollFrom 0)))
    (write : Holds .writeOutbox)
    (fetch : Holds (.fetch (.ok (some 1)) sampleSyncer))
    (process : Holds (.process 0 false)) :
    ∀ event ∈ sendingEvents, Holds event := by
  intro event member
  rcases List.mem_cons.mp member with rfl | later
  · exact poll
  · rcases List.mem_append.mp later with repeated | fetching
    · rw [List.eq_of_mem_replicate repeated]
      exact write
    · exact forall_mem_fetchingEvents fetch process 8 event fetching

/-- The only checkpoint that is fetched has index `1`. -/
theorem eq_one_of_fetchCheckpoint_sampleSyncer
    {index : UInt32}
    {checkpoint : MultisigSignedCheckpoint}
    (fetched : @MultisigCheckpointSyncer.fetchCheckpoint .transparent
      sampleSyncer index = .ok (some checkpoint)) :
    index = 1 := by
  by_contra other
  simp [MultisigCheckpointSyncer.fetchCheckpoint, fetchLoop, checkAnswer,
    sampleSyncer, CheckpointSyncer.holding, Checkpoint.sample, Ne.symm other]
    at fetched

theorem admissible_fetch_sampleSyncer :
    @Admissible .transparent OutboxChain.pair
      (.fetch (.ok (some 1)) sampleSyncer) := by
  intro index checkpoint fetched
  rw [eq_one_of_fetchCheckpoint_sampleSyncer fetched]
  decide

theorem admissible_fetchingEvents (steps : Nat) :
    ∀ event ∈ fetchingEvents steps,
      @Admissible .transparent OutboxChain.pair event :=
  forall_mem_fetchingEvents admissible_fetch_sampleSyncer trivial steps

theorem admissible_sendingEvents :
    ∀ event ∈ sendingEvents,
      @Admissible .transparent OutboxChain.pair event :=
  forall_mem_sendingEvents (OutboxChain.pair.faithful_pollFrom 0) trivial
    admissible_fetch_sampleSyncer trivial

theorem admissible_recordingEvents :
    ∀ event ∈ recordingEvents,
      @Admissible .transparent OutboxChain.pair event := by
  intro event member
  rcases List.mem_append.mp member with sending | ticking
  · exact admissible_sendingEvents event sending
  · rw [List.mem_singleton.mp ticking]
    trivial

theorem admissible_restartedEvents :
    ∀ event ∈ restartedEvents,
      @Admissible .transparent OutboxChain.pair event := by
  intro event member
  rcases List.mem_cons.mp member with rfl | fetching
  · trivial
  · exact admissible_fetchingEvents 12 event fetching

section Delivery

variable [Crypto]
variable {chain : OutboxChain}

/-- A checkpoint that the fetcher has published in the past. -/
def Fetches (relayer : Relayer) (past : List Event)
    (checkpoint : MultisigSignedCheckpoint) : Prop :=
  ∃ before event after, past = before ++ event :: after ∧
    (Machine.run step relayer before).Publishes event checkpoint

/-- What a submitter handles at the end of a run: a message that was dispatched
for its inbox and passes both lists, with a proof for a checkpoint that the
fetcher has published in the run. -/
structure Justified (chain : OutboxChain) (initial : Relayer)
    (past : List Event) (number : Nat) (msg : SubmitMessageArgs) :
    Prop where
  dispatched : chain.Dispatches msg.leafIndex msg.committedMessage
  destined : ∃ inbox,
    (Machine.run step initial past).conf.inboxes[number]? = some inbox ∧
      msg.committedMessage.message.destination = inbox.localDomain
  whitelisted : (Machine.run step initial past).conf.whitelist.msgMatches
    msg.committedMessage.message true = true
  unlisted : (Machine.run step initial past).conf.blacklist.msgMatches
    msg.committedMessage.message false = false
  fetched : Fetches initial past msg.checkpoint
  covered : msg.leafIndex ≤ msg.checkpoint.checkpoint.index
  proved : msg.proof.index = msg.leafIndex.toNat ∧
    msg.proof.leaf = msg.committedMessage.toLeaf ∧
    merkleRootFromBranch msg.proof.leaf msg.proof.path 32 msg.proof.index =
      .ok msg.checkpoint.checkpoint.root

/-- What holds between any two events holds in every run from the empty
database. -/
theorem invariant_of_started
    (distinct : chain.Distinct)
    {conf : RelayerConf}
    {relayer : Relayer}
    (started : start conf Journal.empty = .ok relayer)
    {events : List Event}
    (admissible : ∀ event ∈ events, Admissible chain event) :
    Invariant chain (Fetches relayer events)
      (Machine.run step relayer events) := by
  exact (invariant_start started).run distinct admissible
    fun before event after split checkpoint published =>
      ⟨before, event, after, split, published⟩

omit [Crypto] in
/-- The message that is handled stands in a queue. -/
theorem exists_queue_of_handled
    {relayer : Relayer}
    {number : Nat}
    {answers : TickAnswers}
    {msg : SubmitMessageArgs}
    (handled : relayer.handled number answers = some msg) :
    ∃ tasks, relayer.inboxes[number]? = some tasks ∧ msg ∈ tasks.queue := by
  obtain ⟨tasks, found, picked⟩ := Option.bind_eq_some_iff.mp handled
  refine ⟨tasks, found, ?_⟩
  unfold InboxTasks.handled SerialSubmitter.next at picked
  split at picked
  · cases picked
  · split at picked
    · cases picked
    · exact List.mem_of_head? picked

/-- Whatever a tick handles is justified. -/
theorem Invariant.justified
    {initial : Relayer}
    {past : List Event}
    (invariant : Invariant chain (Fetches initial past)
      (Machine.run Relayer.step initial past))
    {number : Nat}
    {answers : TickAnswers}
    {msg : SubmitMessageArgs}
    (handled : (Machine.run Relayer.step initial past).handled number answers =
      some msg) :
    Justified chain initial past number msg := by
  obtain ⟨tasks, found, queued⟩ := exists_queue_of_handled handled
  have sound := invariant.sound tasks (List.mem_of_getElem? found)
  obtain ⟨inbox, configured, serves⟩ := invariant.serves number tasks found
  have addressed := sound.addressed msg queued
  have verified := sound.pipeline.verified msg queued
  obtain ⟨here, included⟩ := not_or.mp addressed.2
  obtain ⟨listed, unlisted⟩ := not_or.mp included
  exact {
    dispatched := addressed.1
    destined := ⟨inbox, configured, by
      rw [← serves.localDomain, destination_of_addresses addressed]⟩
    whitelisted := by rw [← serves.whitelist]; simpa using listed
    unlisted := by rw [← serves.blacklist]; simpa using unlisted
    fetched := sound.fetched msg queued
    covered := verified.covered
    proved := ⟨verified.index_eq, verified.leaf_eq, verified.root_eq⟩ }

/-- In every run of all tasks from the empty database against a faithful
provider, with restarts at any point and with any settings, whatever is
submitted to an inbox is justified. -/
theorem attempts_justified
    (distinct : chain.Distinct)
    (conf : RelayerConf)
    (relayer : Relayer)
    (started : start conf Journal.empty = .ok relayer)
    (events : List Event)
    (admissible : ∀ event ∈ events, Admissible chain event)
    (number : Nat)
    (answers : TickAnswers)
    (msg : SubmitMessageArgs)
    (attempts : (Machine.run step relayer events).Attempts number answers
      msg) :
    Justified chain relayer events number msg :=
  (invariant_of_started distinct started admissible).justified attempts.1

omit [Crypto] in
/-- The message that is submitted first is justified. -/
theorem attempts_justified_sending :
    ∃ msg,
      @Attempts .transparent
        (Machine.run (@step .transparent) sampleRelayer sendingEvents) 0
        SerialSubmitter.revertedAnswers msg ∧
      @Justified .transparent OutboxChain.pair sampleRelayer sendingEvents 0
        msg := by
  obtain ⟨msg, handled⟩ : ∃ msg,
      (Machine.run (@step .transparent) sampleRelayer sendingEvents).handled 0
        SerialSubmitter.revertedAnswers = some msg :=
    Option.isSome_iff_exists.mp (by decide +kernel)
  exact ⟨msg, ⟨handled, rfl⟩,
    @attempts_justified .transparent OutboxChain.pair distinct_pair sampleConf
      sampleRelayer rfl sendingEvents admissible_sendingEvents 0
      SerialSubmitter.revertedAnswers msg ⟨handled, rfl⟩⟩

/-! ## Records -/

/-- A recorded leaf stays recorded under the puts of all tasks. -/
theorem recorded_replay
    {db : AbacusDB}
    {puts : List DbPut}
    (allowed : ∀ put ∈ puts, TaskPut chain put)
    {index : UInt32}
    (recorded : db.Recorded index) :
    AbacusDB.Recorded (Journal.replay db puts) index := by
  induction puts generalizing db with
  | nil => exact recorded
  | cons put puts inductionHypothesis =>
      refine inductionHypothesis
        (fun later member => allowed later (List.mem_cons_of_mem _ member)) ?_
      change AbacusDB.Recorded (put.apply db) index
      rw [AbacusDB.recorded_iff] at recorded ⊢
      by_cases same : Record.leafProcessStatus index = put.key
      · cases allowed put List.mem_cons_self with
        | outbox puts =>
            exact absurd same.symm (ne_status_of_outboxPut puts index)
        | gas puts => exact absurd same.symm (ne_status_of_gasPut puts index)
        | status marked =>
            cases same
            exact Journal.Put.apply_mk_self _ _ _
      · rwa [Journal.Put.apply_of_ne same]

/-- A tick makes one put at most. -/
theorem exists_puts_of_ticks
    {answers : TickAnswers}
    {db : AbacusDB}
    {tasks after : InboxTasks}
    {left : AbacusDB}
    (ticks : InboxTasks.Ticks answers db tasks after left) :
    ∃ puts, (∀ put ∈ puts, TaskPut chain put) ∧
      left = Journal.replay db puts := by
  rcases ticks.recorded with same | ⟨msg, -, -, marked⟩
  · exact ⟨[], by simp, same⟩
  · refine ⟨[InboxTasks.statusPut msg], ?_, marked⟩
    intro put member
    obtain rfl := List.mem_singleton.mp member
    exact .status msg.leafIndex

/-- All that an event does to the database is to make puts. -/
theorem exists_puts_step
    {Fetched : MultisigSignedCheckpoint → Prop}
    {relayer : Relayer}
    (invariant : Invariant chain Fetched relayer)
    {event : Event}
    (admissible : Admissible chain event) :
    ∃ puts, (∀ put ∈ puts, TaskPut chain put) ∧
      (relayer.step event).db = Journal.replay relayer.db puts := by
  have nothing : ∃ puts : List DbPut, (∀ put ∈ puts, TaskPut chain put) ∧
      relayer.db = Journal.replay relayer.db puts :=
    ⟨[], by simp, rfl⟩
  cases event with
  | pollOutbox poll => exact nothing
  | writeOutbox =>
      exact ⟨_, fun put member =>
        .outbox (invariant.outbox.of_mem_take put member), rfl⟩
  | pollGas poll => exact nothing
  | writeGas =>
      cases running : relayer.gasSync with
      | none =>
          simp only [step, running]
          exact nothing
      | some gasSync =>
          simp only [step, running]
          exact ⟨_, fun put member => .gas
            ((invariant.gas gasSync running).of_mem_take put member), rfl⟩
  | fetch latestIndex syncer => exact nothing
  | process number dbFails =>
      simp only [step, modifyInbox]
      split <;> exact nothing
  | tick number answers =>
      simp only [step, modifyInbox]
      split
      · exact nothing
      · rename_i tasks found
        exact exists_puts_of_ticks
          (InboxTasks.ticks_tick answers relayer.db tasks)
  | restart conf =>
      obtain ⟨started, starts, same, -⟩ := @exists_start _ _ Fetched conf
        _ invariant.fills
      simp only [step, starts, same]
      exact nothing

/-- A recorded leaf stays recorded in every run. -/
theorem recorded_run
    {relayer : Relayer}
    (invariant : Invariant chain (fun _ => True) relayer)
    (distinct : chain.Distinct)
    {events : List Event}
    (admissible : ∀ event ∈ events, Admissible chain event)
    {index : UInt32}
    (recorded : relayer.db.Recorded index) :
    (Machine.run step relayer events).db.Recorded index := by
  induction events generalizing relayer with
  | nil => exact recorded
  | cons event events inductionHypothesis =>
      have allowed := admissible event List.mem_cons_self
      obtain ⟨puts, made, db⟩ := exists_puts_step invariant allowed
      refine inductionHypothesis
        (invariant.step distinct allowed fun _ _ => trivial)
        (fun later member => admissible later (List.mem_cons_of_mem _ member))
        ?_
      rw [db]
      exact recorded_replay made recorded

omit [Crypto] in
/-- A leaf that the puts of a sync loop record was recorded before. -/
theorem recorded_of_replay
    {db : AbacusDB}
    {puts : List DbPut}
    {index : UInt32}
    (other : ∀ put ∈ puts, put.key ≠ .leafProcessStatus index)
    (recorded : AbacusDB.Recorded (Journal.replay db puts) index) :
    db.Recorded index := by
  induction puts generalizing db with
  | nil => exact recorded
  | cons put puts inductionHypothesis =>
      have earlier := inductionHypothesis
        (fun later member => other later (List.mem_cons_of_mem _ member))
        recorded
      by_contra unrecorded
      exact InboxTasks.not_recorded_apply unrecorded
        (other put List.mem_cons_self) earlier

/-- A tick is answered that the message is processed, or it submits it with an
outcome. -/
def Backed (answers : TickAnswers) (msg : SubmitMessageArgs) : Prop :=
  answers.messageStatus msg.committedMessage.toLeaf = .ok .processed ∨
    ∃ outcome, SerialSubmitter.Submits answers msg outcome

/-- A tick records no leaf but that of the message that it handles, and this
one only with good reason. -/
theorem exists_backed_of_tick
    {answers : TickAnswers}
    {db : AbacusDB}
    {tasks : InboxTasks}
    {index : UInt32}
    (unrecorded : ¬ db.Recorded index)
    (recorded : (tasks.tick answers db).2.Recorded index) :
    ∃ msg, tasks.handled answers db = some msg ∧ msg.leafIndex = index ∧
      Backed answers msg := by
  unfold InboxTasks.tick at recorded
  split at recorded
  · exact absurd recorded unrecorded
  rename_i running
  split at recorded
  · exact absurd recorded unrecorded
  rename_i serial
  rcases SerialSubmitter.tick_db (tasks.answers answers)
      (tasks.submitter db) with same | ⟨msg, handled, -, backed, marked⟩
  · simp only [same] at recorded
    exact absurd recorded unrecorded
  · refine ⟨msg, ?_, ?_, backed⟩
    · simpa [InboxTasks.handled, running, serial] using handled
    · by_contra different
      simp only [marked] at recorded
      refine @InboxTasks.not_recorded_apply _ (InboxTasks.statusPut msg) _
        unrecorded ?_ recorded
      intro same
      cases same
      exact different rfl

/-- A leaf that an event newly records is that of the message which the event,
a tick, handles. -/
theorem exists_tick_of_recorded
    {Fetched : MultisigSignedCheckpoint → Prop}
    {relayer : Relayer}
    (invariant : Invariant chain Fetched relayer)
    {event : Event}
    (admissible : Admissible chain event)
    {index : UInt32}
    (unrecorded : ¬ relayer.db.Recorded index)
    (recorded : (relayer.step event).db.Recorded index) :
    ∃ number answers msg, event = .tick number answers ∧
      relayer.handled number answers = some msg ∧ msg.leafIndex = index ∧
        Backed answers msg := by
  cases event with
  | pollOutbox poll => exact absurd recorded unrecorded
  | writeOutbox =>
      exact absurd (recorded_of_replay (fun put member =>
        ne_status_of_outboxPut (invariant.outbox.of_mem_take put member) index)
        recorded) unrecorded
  | pollGas poll => exact absurd recorded unrecorded
  | writeGas =>
      cases running : relayer.gasSync with
      | none =>
          simp only [step, running] at recorded
          exact absurd recorded unrecorded
      | some gasSync =>
          simp only [step, running] at recorded
          have pends := invariant.gas gasSync running
          exact absurd (recorded_of_replay (fun put member =>
            ne_status_of_gasPut (pends.of_mem_take put member) index)
            recorded) unrecorded
  | fetch latestIndex syncer => exact absurd recorded unrecorded
  | process number dbFails =>
      simp only [step, modifyInbox] at recorded
      split at recorded <;> exact absurd recorded unrecorded
  | tick number answers =>
      simp only [step, modifyInbox] at recorded
      split at recorded
      · exact absurd recorded unrecorded
      · rename_i tasks found
        obtain ⟨msg, handled, same, backed⟩ :=
          exists_backed_of_tick unrecorded recorded
        refine ⟨number, answers, msg, rfl, ?_, same, backed⟩
        rw [Relayer.handled, found]
        exact handled
  | restart conf =>
      obtain ⟨started, starts, same, -⟩ := @exists_start _ _ Fetched conf
        _ invariant.fills
      simp only [step, starts, same] at recorded
      exact absurd recorded unrecorded

/-- Every leaf that is recorded as processed, in any run from the empty
database, was first recorded by a tick, which handled a justified message of
it and was answered that it is processed or submitted it with an outcome. -/
theorem exists_justified_of_recorded
    (distinct : chain.Distinct)
    (conf : RelayerConf)
    (relayer : Relayer)
    (started : start conf Journal.empty = .ok relayer)
    (events : List Event)
    (admissible : ∀ event ∈ events, Admissible chain event)
    (index : UInt32)
    (recorded : (Machine.run step relayer events).db.Recorded index) :
    ∃ before number answers after msg,
      events = before ++ .tick number answers :: after ∧
        ¬ (Machine.run step relayer before).db.Recorded index ∧
        ((Machine.run step relayer before).step
          (.tick number answers)).db.Recorded index ∧
        (Machine.run step relayer before).handled number answers = some msg ∧
        msg.leafIndex = index ∧ Backed answers msg ∧
        Justified chain relayer before number msg := by
  have unrecorded : ¬ relayer.db.Recorded index := by
    obtain ⟨fresh, starts, same, -⟩ := @exists_start _ chain (fun _ => True)
      conf _ (Journal.entries_empty _)
    rw [starts] at started
    cases started
    rw [same, AbacusDB.recorded_iff]
    exact fun nothing => by cases nothing
  obtain ⟨before, event, after, rfl, earlier, later⟩ :=
    Machine.exists_first_step step (fun state => state.db.Recorded index)
      unrecorded recorded
  have invariant := invariant_of_started distinct started
    fun earlier member => admissible earlier (List.mem_append_left _ member)
  obtain ⟨number, answers, msg, rfl, handled, same, backed⟩ :=
    exists_tick_of_recorded invariant (admissible event (by simp)) earlier
      later
  exact ⟨before, number, answers, after, msg, rfl, earlier, later, handled,
    same, backed, invariant.justified handled⟩

omit [Crypto] in
/-- The record of the first message is backed. -/
theorem exists_justified_of_recorded_recording :
    ∃ before number answers after msg,
      recordingEvents = before ++ .tick number answers :: after ∧
        ¬ (Machine.run (@step .transparent) sampleRelayer before).db.Recorded
          0 ∧
        (@step .transparent (Machine.run (@step .transparent) sampleRelayer
          before) (.tick number answers)).db.Recorded 0 ∧
        (Machine.run (@step .transparent) sampleRelayer before).handled number
          answers = some msg ∧
        msg.leafIndex = 0 ∧ @Backed .transparent answers msg ∧
        @Justified .transparent OutboxChain.pair sampleRelayer before number
          msg :=
  @exists_justified_of_recorded .transparent OutboxChain.pair distinct_pair
    sampleConf sampleRelayer rfl recordingEvents admissible_recordingEvents 0
    (AbacusDB.recorded_iff.mpr (by decide +kernel))

/-- Once a leaf is recorded as processed, no submitter handles a message of it
again, whatever the tasks do and however often the relayer is restarted, as
long as no two inboxes of the current settings have the same domain. -/
theorem not_handled_of_recorded
    (distinct : chain.Distinct)
    (conf : RelayerConf)
    (relayer : Relayer)
    (started : start conf Journal.empty = .ok relayer)
    (before after : List Event)
    (admissible : ∀ event ∈ before ++ after, Admissible chain event)
    (index : UInt32)
    (recorded : (Machine.run step relayer before).db.Recorded index)
    (domains :
      (Machine.run step relayer (before ++ after)).conf.DistinctDomains)
    (number : Nat)
    (answers : TickAnswers)
    (msg : SubmitMessageArgs)
    (handled : (Machine.run step relayer (before ++ after)).handled number
      answers = some msg) :
    msg.leafIndex ≠ index := by
  have fromStart : Invariant chain (fun _ => True)
      (Machine.run step relayer before) :=
    (invariant_start started).run distinct
      (fun event member => admissible event (List.mem_append_left _ member))
      fun _ _ _ _ _ _ => trivial
  have later : ∀ event ∈ after, Admissible chain event :=
    fun event member => admissible event (List.mem_append_right _ member)
  have invariant := fromStart.run distinct later fun _ _ _ _ _ _ => trivial
  have kept := recorded_run fromStart distinct later recorded
  rw [Machine.run_append] at handled domains
  obtain ⟨tasks, found, queued⟩ := exists_queue_of_handled handled
  rintro rfl
  exact (invariant.sound tasks (List.mem_of_getElem? found)).unrecorded
    domains msg queued kept

omit [Crypto] in
/-- After the restart, another message than the recorded one is handled. -/
theorem not_handled_of_recorded_restarted :
    ∃ msg,
      (Machine.run (@step .transparent) sampleRelayer
        (recordingEvents ++ restartedEvents)).handled 0
          SerialSubmitter.processedAnswers = some msg ∧
      msg.leafIndex ≠ 0 := by
  obtain ⟨msg, handled⟩ : ∃ msg,
      (Machine.run (@step .transparent) sampleRelayer
        (recordingEvents ++ restartedEvents)).handled 0
          SerialSubmitter.processedAnswers = some msg :=
    Option.isSome_iff_exists.mp (by decide +kernel)
  refine ⟨msg, handled, @not_handled_of_recorded .transparent
    OutboxChain.pair distinct_pair sampleConf sampleRelayer rfl
    recordingEvents restartedEvents ?_ 0
    (AbacusDB.recorded_iff.mpr (by decide +kernel)) (by decide +kernel) 0
    SerialSubmitter.processedAnswers msg handled⟩
  intro event member
  rcases List.mem_append.mp member with recording | restarted
  · exact admissible_recordingEvents event recording
  · exact admissible_restartedEvents event restarted

end Delivery

end Relayer

end Abacus
