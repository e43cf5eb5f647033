import Abacus.Relayer.RelayerDelivery

/-!
# How the relayer notices failures

The task of an inbox joins the handles of its processor and its submitter, and
an error of the submitter alone does not end it. Until the relayer is restarted,
the queue of the inbox is stuck, and no message for it is recorded as
processed, whatever all other tasks do. When the agent ends, some task has
failed, also when the agent reports success.
-/

namespace Abacus

namespace MessageProcessor

variable [Crypto]

/-- Nothing is sent on a closed channel. -/
theorem not_sent_of_txClosed
    {around : Surroundings}
    (closed : around.txClosed = true)
    (processor : MessageProcessor) :
    (processor.step around).2 = none := by
  -- only the step from the last phase can send
  have dispatches (message : CommittedMessage)
      (checkpoint : MultisigSignedCheckpoint) :
      (processor.settle
        (processor.dispatch around message checkpoint)).2 = none := by
    unfold dispatch
    rcases checkedAdd_one_cases checkpoint.checkpoint.index with
      ⟨expected, -, added⟩ | ⟨-, overflows⟩
    · rw [added]
      simp only [bind, Except.bind]
      split
      · rfl
      · cases processor.proverSync.getProof processor.messageLeafIndex with
        | error fault => cases fault <;> rfl
        | ok proof =>
            cases around.read (AbacusDB.leafByLeafIndex
              processor.messageLeafIndex) with
            | error fault => cases fault <;> rfl
            | ok leaf =>
                simp only [Except.mapError, send, closed, if_true]
                split <;> rfl
    · rw [overflows]
      rfl
  have transition := transition_step around processor
  generalize stepped : processor.step around = outcome at transition
  cases transition with
  | send sends successor =>
      rw [step, advance, sends.dispatching] at stepped
      rw [← stepped]
      exact dispatches _ _
  | sendLast sends last =>
      rw [step, advance, sends.dispatching] at stepped
      rw [← stepped]
      exact dispatches _ _
  | _ => rfl

/-- A processor that has ended stays as it is. -/
theorem step_of_ended
    {around : Surroundings}
    {processor : MessageProcessor}
    (ended : Pipeline.ended processor.phase = true) :
    processor.step around = (processor, none) := by
  unfold step advance
  cases phase : processor.phase with
  | failed error => rfl
  | panicked reason => rfl
  | _ =>
      rw [phase] at ended
      cases ended

end MessageProcessor

namespace Relayer

section Supervision

variable [Crypto]
variable {chain : OutboxChain}

/-- The tasks of an inbox at two times, between which only the processor has
gone on, unless it had ended, and it has sent nothing. -/
structure Frozen (tasks later : InboxTasks) : Prop where
  settings : Relay.SameSettings tasks.processor later.processor
  processor_eq : Pipeline.ended tasks.processor.phase = true →
    later.processor = tasks.processor
  rx_eq : later.rx = tasks.rx
  waitQueue_eq : later.waitQueue = tasks.waitQueue
  runQueue_eq : later.runQueue = tasks.runQueue
  submitterEnd_eq : later.submitterEnd = tasks.submitterEnd

omit [Crypto] in
theorem Frozen.refl (tasks : InboxTasks) : Frozen tasks tasks :=
  ⟨⟨rfl, rfl, rfl⟩, fun _ => rfl, rfl, rfl, rfl, rfl⟩

omit [Crypto] in
theorem Frozen.trans
    {first second third : InboxTasks}
    (left : Frozen first second)
    (right : Frozen second third) :
    Frozen first third where
  settings := left.settings.trans right.settings
  processor_eq ended := by
    have same := left.processor_eq ended
    rw [← same]
    exact right.processor_eq (by rw [same]; exact ended)
  rx_eq := right.rx_eq.trans left.rx_eq
  waitQueue_eq := right.waitQueue_eq.trans left.waitQueue_eq
  runQueue_eq := right.runQueue_eq.trans left.runQueue_eq
  submitterEnd_eq := right.submitterEnd_eq.trans left.submitterEnd_eq

/-- A processor whose channel is closed sends nothing. -/
theorem frozen_process
    {around : Surroundings}
    (closed : around.txClosed = true)
    (tasks : InboxTasks) :
    Frozen tasks (tasks.process around) := by
  have unsent := MessageProcessor.not_sent_of_txClosed closed tasks.processor
  have settings := Relay.sameSettings_transition
    (MessageProcessor.transition_step around tasks.processor)
  simp only [InboxTasks.process, unsent, Option.toList_none, List.append_nil]
  exact ⟨settings, fun ended =>
    congrArg Prod.fst (MessageProcessor.step_of_ended ended),
    rfl, rfl, rfl, rfl⟩

/-- A submitter that has ended does not tick. -/
theorem tick_of_ended
    {tasks : InboxTasks}
    (ended : tasks.submitterEnd.isSome = true)
    (answers : TickAnswers)
    (db : AbacusDB) :
    tasks.tick answers db = (tasks, db) := by
  rw [InboxTasks.tick, if_pos ended]

omit [Crypto] in
/-- A change of the tasks of one inbox, seen from any inbox. -/
theorem exists_modifyInbox
    {relayer : Relayer}
    {number : Nat}
    {tasks : InboxTasks}
    (found : relayer.inboxes[number]? = some tasks)
    (position : Nat)
    (change : InboxTasks → InboxTasks × AbacusDB)
    (frozen : position = number → Frozen tasks (change tasks).1) :
    ∃ later, (relayer.modifyInbox position change).inboxes[number]? =
        some later ∧
      Frozen tasks later := by
  unfold modifyInbox
  split
  · exact ⟨tasks, found, .refl tasks⟩
  · rename_i other listed
    by_cases same : position = number
    · subst same
      rw [found] at listed
      cases listed
      obtain ⟨inside, -⟩ := List.getElem?_eq_some_iff.mp found
      exact ⟨_, List.getElem?_set_self inside, frozen rfl⟩
    · exact ⟨tasks, (List.getElem?_set_ne same).trans found, .refl tasks⟩

/-- No event but a restart thaws the tasks of an inbox whose submitter has
ended. -/
theorem exists_frozen_step
    {relayer : Relayer}
    {number : Nat}
    {tasks : InboxTasks}
    (found : relayer.inboxes[number]? = some tasks)
    (ended : tasks.submitterEnd.isSome = true)
    {event : Event}
    (continues : event.Continues) :
    ∃ later, (relayer.step event).inboxes[number]? = some later ∧
      Frozen tasks later := by
  cases event with
  | process position dbFails =>
      refine exists_modifyInbox found position _ fun _ => ?_
      exact frozen_process ended tasks
  | tick position answers =>
      refine exists_modifyInbox found position _ fun _ => ?_
      rw [tick_of_ended ended]
      exact .refl tasks
  | restart conf => exact continues.elim
  | _ => exact ⟨tasks, found, .refl tasks⟩

/-- The tasks of an inbox whose submitter has ended stay frozen until a
restart. -/
theorem exists_frozen_run
    {relayer : Relayer}
    {number : Nat}
    {tasks : InboxTasks}
    (found : relayer.inboxes[number]? = some tasks)
    (ended : tasks.submitterEnd.isSome = true)
    {events : List Event}
    (continues : ∀ event ∈ events, event.Continues) :
    ∃ later, (Machine.run step relayer events).inboxes[number]? =
        some later ∧
      Frozen tasks later := by
  induction events generalizing relayer tasks with
  | nil => exact ⟨tasks, found, .refl tasks⟩
  | cons event events inductionHypothesis =>
      obtain ⟨next, listed, frozen⟩ := exists_frozen_step found ended
        (continues event List.mem_cons_self)
      obtain ⟨later, last, rest⟩ := inductionHypothesis listed
        (by rw [frozen.submitterEnd_eq]; exact ended)
        fun later member => continues later (List.mem_cons_of_mem _ member)
      exact ⟨later, last, frozen.trans rest⟩

/-- A message that a tick handles is for the inbox of the tick, whose
submitter runs. -/
theorem Invariant.exists_running_of_handled
    {Fetched : MultisigSignedCheckpoint → Prop}
    {relayer : Relayer}
    (invariant : Invariant chain Fetched relayer)
    {number : Nat}
    {answers : TickAnswers}
    {msg : SubmitMessageArgs}
    (handled : relayer.handled number answers = some msg) :
    ∃ tasks, relayer.inboxes[number]? = some tasks ∧
      tasks.submitterEnd.isSome = false ∧
        chain.Addresses tasks.processor msg.leafIndex
          msg.committedMessage := by
  obtain ⟨tasks, found, queued⟩ := exists_queue_of_handled handled
  refine ⟨tasks, found, ?_,
    (invariant.sound tasks (List.mem_of_getElem? found)).addressed msg queued⟩
  rw [Relayer.handled, found] at handled
  by_contra ended
  simp [InboxTasks.handled, ended] at handled

/-- If no two inboxes have the same domain, nothing is handled for that of an
inbox whose submitter has ended. -/
theorem Invariant.not_handled_of_ended
    {Fetched : MultisigSignedCheckpoint → Prop}
    {relayer : Relayer}
    (invariant : Invariant chain Fetched relayer)
    (domains : relayer.conf.DistinctDomains)
    {number position : Nat}
    {tasks : InboxTasks}
    (found : relayer.inboxes[number]? = some tasks)
    (ended : tasks.submitterEnd.isSome = true)
    {msg : SubmitMessageArgs}
    {message : CommittedMessage}
    (dispatched : chain.Dispatches msg.leafIndex message)
    (destined : message.message.destination = tasks.processor.localDomain)
    {answers : TickAnswers} :
    relayer.handled position answers ≠ some msg := by
  intro handled
  obtain ⟨other, listed, running, addressed⟩ :=
    invariant.exists_running_of_handled handled
  have same : position = number := by
    refine invariant.eq_of_localDomain domains listed found ?_
    rw [← destination_of_addresses addressed, ← destined,
      addressed.1.eq dispatched]
  subst same
  rw [listed] at found
  cases found
  rw [ended] at running
  cases running

/-- Once the submitter of an inbox has ended, with an error or a panic, its
queue is stuck until the relayer is restarted. If no other inbox has its
domain, no message for it is newly recorded as processed. -/
theorem stuck_of_ended
    (distinct : chain.Distinct)
    (conf : RelayerConf)
    (relayer : Relayer)
    (started : start conf Journal.empty = .ok relayer)
    (before after : List Event)
    (admissible : ∀ event ∈ before ++ after, Admissible chain event)
    (continues : ∀ event ∈ after, event.Continues)
    (domains : (Machine.run step relayer before).conf.DistinctDomains)
    (number : Nat)
    (tasks : InboxTasks)
    (found : (Machine.run step relayer before).inboxes[number]? = some tasks)
    (ended : tasks.submitterEnd.isSome = true) :
    (∃ later, (Machine.run step relayer
          (before ++ after)).inboxes[number]? = some later ∧
        Frozen tasks later) ∧
      ∀ index message, chain.Dispatches index message →
        message.message.destination = tasks.processor.localDomain →
          ((Machine.run step relayer (before ++ after)).db.Recorded index ↔
            (Machine.run step relayer before).db.Recorded index) := by
  have allowed : ∀ event ∈ after, Admissible chain event :=
    fun event member => admissible event (List.mem_append_right _ member)
  rw [Machine.run_append]
  refine ⟨exists_frozen_run found ended continues, ?_⟩
  intro index message dispatched destined
  constructor
  · intro recorded
    by_contra unrecorded
    obtain ⟨first, event, rest, rfl, earlier, later⟩ :=
      Machine.exists_first_step step (fun state => state.db.Recorded index)
        unrecorded recorded
    have part : ∀ event ∈ before ++ first, Admissible chain event := by
      intro event member
      rcases List.mem_append.mp member with old | new
      · exact admissible event (List.mem_append_left _ old)
      · exact allowed event (List.mem_append_left _ new)
    have invariant := invariant_of_started distinct started part
    rw [Machine.run_append] at invariant
    obtain ⟨position, answers, msg, rfl, handled, rfl, -⟩ :=
      exists_tick_of_recorded invariant (allowed event (by simp)) earlier later
    have goesOn : ∀ event ∈ first, event.Continues :=
      fun event member => continues event (List.mem_append_left _ member)
    obtain ⟨own, kept, frozen⟩ := exists_frozen_run found ended goesOn
    refine invariant.not_handled_of_ended ?_ kept ?_ dispatched ?_ handled
    · rw [conf_run _ goesOn]
      exact domains
    · rw [frozen.submitterEnd_eq]
      exact ended
    · rw [← frozen.settings.localDomain]
      exact destined
  · intro recorded
    have fromStart : Invariant chain (fun _ => True)
        (Machine.run step relayer before) :=
      (invariant_start started).run distinct
        (fun event member => admissible event (List.mem_append_left _ member))
        fun _ _ _ _ _ _ => trivial
    exact recorded_run fromStart distinct allowed recorded

end Supervision

/-- The status of a message cannot be read from the inbox. -/
def unknownAnswers : TickAnswers where
  disconnected := false
  messageStatus _ := .error .providerError
  process _ _ _ := .error (.error .providerError)
  markLeaf := .ok ()

/-- The submitter of an inbox ends while a message waits for it. -/
def endingEvents : List Event :=
  sendingEvents ++ [.tick 0 unknownAnswers]

theorem admissible_endingEvents :
    ∀ event ∈ endingEvents ++ fetchingEvents 8,
      @Admissible .transparent OutboxChain.pair event := by
  intro event member
  rcases List.mem_append.mp member with ending | fetching
  · rcases List.mem_append.mp ending with sending | ticking
    · exact admissible_sendingEvents event sending
    · rw [List.mem_singleton.mp ticking]
      trivial
  · exact admissible_fetchingEvents 8 event fetching

/-- The processor goes on to the second message. -/
theorem stuck_of_ended_ending :
    ∃ tasks,
      (Machine.run (@step .transparent) sampleRelayer
        endingEvents).inboxes[0]? = some tasks ∧
      tasks.submitterEnd = some (.ok (.error (.chain .providerError))) ∧
      (∃ later, (Machine.run (@step .transparent) sampleRelayer
            (endingEvents ++ fetchingEvents 8)).inboxes[0]? = some later ∧
          Frozen tasks later) ∧
        ((Machine.run (@step .transparent) sampleRelayer
            (endingEvents ++ fetchingEvents 8)).db.Recorded 0 ↔
          (Machine.run (@step .transparent) sampleRelayer
            endingEvents).db.Recorded 0) := by
  have ending : (Machine.run (@step .transparent) sampleRelayer
      endingEvents).inboxes.map (fun tasks =>
        (tasks.submitterEnd, tasks.processor.localDomain)) =
      [(some (.ok (.error (.chain .providerError))), 0)] := by
    decide +kernel
  obtain ⟨tasks, only, same⟩ := List.map_eq_singleton_iff.mp ending
  obtain ⟨ended, localDomain⟩ := Prod.mk.inj same
  have found : (Machine.run (@step .transparent) sampleRelayer
      endingEvents).inboxes[0]? = some tasks := by
    rw [only]
    rfl
  have continues : ∀ event ∈ fetchingEvents 8, event.Continues :=
    forall_mem_fetchingEvents trivial trivial 8
  have domains : (Machine.run (@step .transparent) sampleRelayer
      endingEvents).conf.DistinctDomains := by
    decide +kernel
  obtain ⟨frozen, stuck⟩ := @stuck_of_ended .transparent OutboxChain.pair
    distinct_pair sampleConf sampleRelayer rfl endingEvents
    (fetchingEvents 8) admissible_endingEvents continues domains 0 tasks found
    (by rw [ended]; rfl)
  exact ⟨tasks, found, ended, frozen, stuck 0 _
    ⟨AbacusDB.shortestMessage 0, rfl, rfl⟩ (by rw [localDomain]; decide)⟩

/-! ## The end of the agent -/

section End

variable [Crypto]
variable {chain : OutboxChain}

/-- The failures behind the outcomes of the agent. The errors of the sync
loops, and those of the tasks of an inbox, are discarded. -/
inductive Failure (relayer : Relayer) : Except AgentError Unit → Prop
  | fetcher
      {error : FetcherError}
      (failed : relayer.fetcher = .error error) :
      Failure relayer (.error (.fetcher error))
  | submitter
      {tasks : InboxTasks}
      (member : tasks ∈ relayer.inboxes)
      (panicked : tasks.submitterEnd = some (.error .panicked)) :
      Failure relayer (.error (.join .panicked))
  | processor
      {tasks : InboxTasks}
      {reason : Panic}
      (member : tasks ∈ relayer.inboxes)
      (panicked : tasks.processor.phase = .panicked reason) :
      Failure relayer (.error (.join .panicked))
  | outboxSync
      {fault : Fault Report}
      (ended : relayer.outboxSync.ended = some fault) :
      Failure relayer (.ok ())
  | gasSync
      {gasSync : DbLoop UInt32}
      {fault : Fault Report}
      (runs : relayer.gasSync = some gasSync)
      (ended : gasSync.ended = some fault) :
      Failure relayer (.ok ())
  | inbox
      {tasks : InboxTasks}
      {error : Report}
      {cause : ProcessorError}
      (member : tasks ∈ relayer.inboxes)
      (submitter : tasks.submitterEnd = some (.ok (.error error)))
      (processor : tasks.processor.phase = .failed cause) :
      Failure relayer (.ok ())

/-- The loop of a submitter has no end but an error or a panic. -/
def Endless (tasks : InboxTasks) : Prop :=
  tasks.submitterEnd ≠ some (.ok (.ok ()))

omit [Crypto] in
/-- The handle of a task that ends with a fault does not return a success. -/
theorem joined_ne_ok (fault : Fault ε) : fault.joined ≠ .ok (.ok ()) := by
  cases fault <;> exact fun same => by cases same

/-- A new submitter runs. -/
theorem submitterEnd_eq_of_new
    {conf : RelayerConf}
    {inbox : InboxConf}
    {tasks : InboxTasks}
    (created : InboxTasks.new conf inbox = .ok tasks) :
    tasks.submitterEnd = none := by
  cases created
  rfl

/-- New submitters have no end. -/
theorem endless_start
    {conf : RelayerConf}
    {db : AbacusDB}
    {relayer : Relayer}
    (started : start conf db = .ok relayer) :
    ∀ tasks ∈ relayer.inboxes, Endless tasks := by
  obtain ⟨create, created, -⟩ := exists_new conf
  have all := mapM_eq_ok fun inbox (_ : inbox ∈ conf.inboxes) => created inbox
  rw [start, all] at started
  cases started
  intro tasks member
  obtain ⟨inbox, -, rfl⟩ := List.mem_map.mp member
  rw [Endless, submitterEnd_eq_of_new (created inbox)]
  exact fun same => by cases same

/-- No event ends a submitter with a success. -/
theorem endless_step
    {relayer : Relayer}
    (endless : ∀ tasks ∈ relayer.inboxes, Endless tasks)
    (event : Event) :
    ∀ tasks ∈ (relayer.step event).inboxes, Endless tasks := by
  cases event with
  | process number dbFails =>
      exact forall_mem_modifyInbox endless number fun _ _ kept => kept
  | tick number answers =>
      refine forall_mem_modifyInbox endless number fun tasks _ kept => ?_
      unfold InboxTasks.tick
      split
      · exact kept
      split
      · exact fun same => by cases same
      · simp only [Endless]
        split
        · exact fun same => by cases same
        · rename_i fault _
          exact fun same => joined_ne_ok fault (Option.some.inj same)
  | restart conf =>
      simp only [step]
      split
      · rename_i started starts
        exact endless_start starts
      · exact endless
  | _ => exact endless

omit [Crypto] in
/-- What a processor has ended with. -/
theorem processorEnd_eq_some
    {tasks : InboxTasks}
    {joined : Joined ProcessorError}
    (ended : tasks.processorEnd = some joined) :
    (∃ cause, tasks.processor.phase = .failed cause ∧
        joined = .ok (.error cause)) ∨
      ∃ reason, tasks.processor.phase = .panicked reason ∧
        joined = .error .panicked := by
  unfold InboxTasks.processorEnd at ended
  split at ended
  · rename_i cause failed
    cases ended
    exact .inl ⟨cause, failed, rfl⟩
  · rename_i reason panicked
    cases ended
    exact .inr ⟨reason, panicked, rfl⟩
  · cases ended

omit [Crypto] in
/-- What ends the task of an inbox is a panic, or two errors. -/
theorem failure_of_finished
    {relayer : Relayer}
    {tasks : InboxTasks}
    (member : tasks ∈ relayer.inboxes)
    (endless : Endless tasks)
    {result : Except JoinError Unit}
    (finished : tasks.finished = some result) :
    Failure relayer (result.mapError .join) := by
  unfold InboxTasks.finished at finished
  split at finished
  · rename_i error ended
    cases finished
    cases error
    exact .submitter member ended
  · rename_i error ended _
    cases finished
    rcases processorEnd_eq_some ended with ⟨_, _, same⟩ | ⟨_, panicked, same⟩
    · cases same
    · cases same
      exact .processor member panicked
  · rename_i submitted processed submitterEnd processorEnd
    cases finished
    rcases processorEnd_eq_some processorEnd with
      ⟨cause, failed, -⟩ | ⟨_, _, same⟩
    · cases submitted with
      | error error => exact .inbox member submitterEnd failed
      | ok _ => exact absurd submitterEnd endless
    · cases same
  · cases finished

/-- Whenever the agent ends, in any run of all tasks from any database, there is
a failure of the right kind. -/
theorem failure_of_runAll
    (conf : RelayerConf)
    (db : AbacusDB)
    (relayer : Relayer)
    (started : start conf db = .ok relayer)
    (events : List Event)
    (outcome : Except AgentError Unit)
    (ended : (Machine.run step relayer events).runAll = some outcome) :
    Failure (Machine.run step relayer events) outcome := by
  have endless : ∀ tasks ∈ (Machine.run step relayer events).inboxes,
      Endless tasks :=
    Machine.invariant_run step
      (fun state => ∀ tasks ∈ state.inboxes, Endless tasks)
      (fun state event _ kept => endless_step kept event)
      (endless_start started)
      (Machine.admissibleRun_of_forall step relayer fun _ _ => trivial)
  have member := List.mem_of_head? ended
  simp only [finished, List.mem_append] at member
  rcases member with ((inbox | fetcher) | outboxSync) | gasSync
  · obtain ⟨tasks, listed, joined⟩ := List.mem_filterMap.mp inbox
    obtain ⟨result, finished, rfl⟩ := Option.map_eq_some_iff.mp joined
    exact failure_of_finished listed (endless tasks listed) finished
  · split at fetcher
    · cases fetcher
    · rename_i error failed
      rw [List.mem_singleton.mp fetcher]
      exact .fetcher failed
  · split at outboxSync
    · cases outboxSync
    · rename_i fault failed
      rw [List.mem_singleton.mp outboxSync]
      exact .outboxSync failed
  · split at gasSync
    · cases gasSync
    · rename_i fault failed
      rw [List.mem_singleton.mp gasSync]
      obtain ⟨loop, runs, ended⟩ := Option.bind_eq_some_iff.mp failed
      exact .gasSync runs ended

/-- In every run from the empty database against a faithful provider, a
processor panics only at the last `u32`. -/
theorem last_of_panicked
    (distinct : chain.Distinct)
    {conf : RelayerConf}
    {relayer : Relayer}
    (started : start conf Journal.empty = .ok relayer)
    {events : List Event}
    (admissible : ∀ event ∈ events, Admissible chain event)
    {tasks : InboxTasks}
    (member : tasks ∈ (Machine.run step relayer events).inboxes)
    {reason : Panic}
    (panicked : tasks.processor.phase = .panicked reason) :
    reason = .overflow ∧
      tasks.processor.messageLeafIndex.toNat = 2 ^ 32 - 1 := by
  have invariant := invariant_of_started distinct started admissible
  have phase := (invariant.sound tasks member).pipeline.synced.phase
  simpa only [Relayer.pipeline, Pipeline.PhaseInvariant, panicked] using phase

end End

/-- After an error of its submitter and one of its processor, the only inbox
ends the agent with a success. -/
theorem failure_of_runAll_ending :
    (Machine.run (@step .transparent) sampleRelayer
        (endingEvents ++ fetchingEvents 8)).runAll = some (.ok ()) ∧
      Failure (Machine.run (@step .transparent) sampleRelayer
        (endingEvents ++ fetchingEvents 8)) (.ok ()) := by
  have ended : (Machine.run (@step .transparent) sampleRelayer
      (endingEvents ++ fetchingEvents 8)).runAll = some (.ok ()) := by
    decide +kernel
  exact ⟨ended, @failure_of_runAll .transparent sampleConf Journal.empty
    sampleRelayer rfl _ _ ended⟩

end Relayer

end Abacus
