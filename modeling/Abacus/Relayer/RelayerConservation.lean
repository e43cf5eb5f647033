import Abacus.Relayer.RelayerDelivery

/-!
# No message is lost

While the submitter of an inbox runs, every message for the inbox that its
processor has moved past is in exactly one place: it is recorded as processed,
or it stands in the queue once.
-/

namespace Abacus

namespace Relayer

section Conservation

variable [Crypto]
variable {chain : OutboxChain}

/-- While its submitter runs, every message for an inbox that the processor
has moved past is recorded as processed or stands in the queue. -/
def Accounted (chain : OutboxChain) (db : AbacusDB) (tasks : InboxTasks) :
    Prop :=
  tasks.submitterEnd = none → ∀ index message,
    index < tasks.processor.messageLeafIndex →
      chain.Addresses tasks.processor index message →
        db.Recorded index ∨ ∃ args ∈ tasks.queue, args.leafIndex = index

/-- The puts of other tasks lose nothing. -/
theorem Accounted.replay
    {db : AbacusDB}
    {tasks : InboxTasks}
    (accounted : Accounted chain db tasks)
    {puts : List DbPut}
    (allowed : ∀ put ∈ puts, TaskPut chain put) :
    Accounted chain (Journal.replay db puts) tasks :=
  fun running index message below addressed =>
    (accounted running index message below addressed).imp_left
      (recorded_replay allowed)

/-- A step of the processor loses nothing. -/
theorem Accounted.process
    {relayer : Relayer}
    {tasks : InboxTasks}
    (accounted : Accounted chain relayer.db tasks)
    (fills : chain.Fills relayer.db)
    (distinct : chain.Distinct)
    (dbFails : Bool) :
    Accounted chain relayer.db
      (tasks.process (relayer.around tasks dbFails)) := by
  have transition := MessageProcessor.transition_step
    (relayer.around tasks dbFails) tasks.processor
  -- the scan moves past one index at most, and only past a passed one or with
  -- the message of the index
  have advance {next index : UInt32}
      (successor : next.toNat =
        tasks.processor.messageLeafIndex.toNat + 1)
      (below : index < next) :
      index = tasks.processor.messageLeafIndex ∨
        index < tasks.processor.messageLeafIndex := by
    rw [UInt32.lt_iff_toNat_lt] at below ⊢
    rw [← UInt32.toNat_inj]
    omega
  cases stepped : tasks.processor.step (relayer.around tasks dbFails) with
  | mk after sent =>
      rw [stepped] at transition
      cases sent with
      | none =>
          rw [InboxTasks.process_of_unsent stepped]
          cases transition with
          | pass scanning passed successor =>
              intro running index message below addressed
              rcases advance successor below with rfl | earlier
              · exact .inl (InboxTasks.recorded_of_passed fills distinct
                  passed addressed)
              · exact accounted running index message earlier addressed
          | stay => exact accounted
          | fail error => exact accounted
          | panic cause => exact accounted
          | ingest updating below found ingested => exact accounted
          | goto goes => exact accounted
      | some sent =>
          obtain ⟨moved, perm⟩ := InboxTasks.queue_process_of_sent stepped
          intro running index message below addressed
          rw [moved] at below addressed
          have queued : index = sent.leafIndex ∨
              index < tasks.processor.messageLeafIndex := by
            cases transition with
            | send sends successor => exact advance successor below
            | sendLast sends last => exact .inr below
          rcases queued with rfl | earlier
          · exact .inr ⟨sent, perm.mem_iff.mpr List.mem_cons_self, rfl⟩
          · have kept : chain.Addresses tasks.processor index message := by
              cases transition <;> exact addressed
            have going : tasks.submitterEnd = none := by
              simpa [InboxTasks.process, stepped] using running
            refine (accounted going index message earlier kept).imp_right ?_
            rintro ⟨args, member, same⟩
            exact ⟨args, perm.mem_iff.mpr (List.mem_cons_of_mem _ member),
              same⟩

/-- A tick of a submitter that goes on loses nothing: the message that it
handles is recorded or stays in the queue. -/
theorem Accounted.tick
    {db : AbacusDB}
    {tasks : InboxTasks}
    (accounted : Accounted chain db tasks)
    (answers : TickAnswers) :
    Accounted chain (tasks.tick answers db).2 (tasks.tick answers db).1 := by
  by_cases ended : tasks.submitterEnd.isSome = true
  · simp only [InboxTasks.tick, ended, if_true]
    exact accounted
  by_cases gelato : tasks.gelato = true
  · simp only [InboxTasks.tick, ended, gelato, if_true]
    exact fun running => by cases running
  have going : tasks.submitterEnd = none := by simpa using ended
  have ticked := SerialSubmitter.ticked_tick (tasks.answers answers)
    (tasks.submitter db)
  simp only [InboxTasks.tick, ended, gelato, Bool.false_eq_true, if_false]
  generalize (tasks.submitter db).tick (tasks.answers answers) = outcome
    at ticked
  cases ticked with
  | disconnected closed error => exact fun running => by cases running
  | drop picked popped drops error => exact fun running => by cases running
  | panic picked popped reason => exact fun running => by cases running
  | idle nothing =>
      intro _ index message below addressed
      refine (accounted going index message below addressed).imp_right ?_
      rintro ⟨args, member, same⟩
      change tasks.queue = [] at nothing
      rw [nothing] at member
      cases member
  | @record msg runQueue picked popped kept =>
      intro _ index message below addressed
      change tasks.queue = msg :: runQueue at popped
      have recorded := accounted going index message below addressed
      rw [popped] at recorded
      rcases recorded with earlier | ⟨args, member, same⟩
      · exact .inl (AbacusDB.recorded_markLeafAsProcessed (.inr earlier))
      · rcases List.mem_cons.mp member with rfl | later
        · exact .inl
            (AbacusDB.recorded_markLeafAsProcessed (.inl same.symm))
        · exact .inr ⟨args, later, same⟩
  | @retry msg runQueue picked popped kept numRetries counted =>
      intro _ index message below addressed
      change tasks.queue = msg :: runQueue at popped
      refine (accounted going index message below addressed).imp_right ?_
      rw [popped]
      rintro ⟨args, member, same⟩
      rcases List.mem_cons.mp member with rfl | later
      · exact ⟨{ args with numRetries := numRetries },
          by simp [InboxTasks.queue], same⟩
      · exact ⟨args, by simp [InboxTasks.queue, later], same⟩

/-- All inboxes lose nothing. -/
def AllAccounted (chain : OutboxChain) (relayer : Relayer) : Prop :=
  ∀ tasks ∈ relayer.inboxes, Accounted chain relayer.db tasks

/-- New tasks have moved past no message. -/
theorem allAccounted_start
    {conf : RelayerConf}
    {db : AbacusDB}
    {relayer : Relayer}
    (started : start conf db = .ok relayer) :
    AllAccounted chain relayer := by
  obtain ⟨create, created, fresh⟩ := exists_new conf
  have all := mapM_eq_ok fun inbox (_ : inbox ∈ conf.inboxes) => created inbox
  rw [start, all] at started
  cases started
  intro tasks member running index message below
  obtain ⟨inbox, listed, rfl⟩ := List.mem_map.mp member
  rw [(MessageProcessor.fresh_of_new (fresh inbox).2).messageLeafIndex_eq]
    at below
  exact absurd below UInt32.not_lt_zero

/-- A change of the tasks of one inbox, by which nothing is lost. -/
theorem AllAccounted.modifyInbox
    {relayer : Relayer}
    (accounted : AllAccounted chain relayer)
    {number : Nat}
    {change : InboxTasks → InboxTasks × AbacusDB}
    (own : ∀ tasks ∈ relayer.inboxes,
      Accounted chain (change tasks).2 (change tasks).1)
    (others : ∀ tasks ∈ relayer.inboxes, ∃ puts,
      (∀ put ∈ puts, TaskPut chain put) ∧
        (change tasks).2 = Journal.replay relayer.db puts) :
    AllAccounted chain (relayer.modifyInbox number change) := by
  unfold Relayer.modifyInbox
  cases found : relayer.inboxes[number]? with
  | none => exact accounted
  | some tasks =>
      have member := List.mem_of_getElem? found
      obtain ⟨puts, made, db⟩ := others tasks member
      intro other changed
      rcases List.mem_or_eq_of_mem_set changed with same | rfl
      · simp only [db]
        exact (accounted other same).replay made
      · exact own tasks member

/-- Every event loses nothing. -/
theorem AllAccounted.step
    {Fetched : MultisigSignedCheckpoint → Prop}
    {relayer : Relayer}
    (accounted : AllAccounted chain relayer)
    (invariant : Invariant chain Fetched relayer)
    (distinct : chain.Distinct)
    {event : Event}
    (admissible : Admissible chain event) :
    AllAccounted chain (relayer.step event) := by
  cases event with
  | pollOutbox poll => exact accounted
  | writeOutbox =>
      intro tasks member
      exact (accounted tasks member).replay fun put made =>
        .outbox (invariant.outbox.of_mem_take put made)
  | pollGas poll => exact accounted
  | writeGas =>
      intro tasks member
      obtain ⟨puts, made, db⟩ := exists_puts_step invariant
        (show Admissible chain .writeGas from trivial)
      rw [db]
      exact (accounted tasks member).replay made
  | fetch latestIndex syncer => exact accounted
  | process number dbFails =>
      refine accounted.modifyInbox ?_ fun _ _ => ⟨[], by simp, rfl⟩
      intro tasks member
      exact (accounted tasks member).process invariant.fills distinct dbFails
  | tick number answers =>
      refine accounted.modifyInbox ?_ ?_
      · intro tasks member
        exact (accounted tasks member).tick answers
      · intro tasks member
        exact exists_puts_of_ticks
          (InboxTasks.ticks_tick answers relayer.db tasks)
  | restart conf =>
      obtain ⟨started, starts, -, -⟩ := @exists_start _ _ Fetched conf
        _ invariant.fills
      rw [Relayer.step, starts]
      exact allAccounted_start starts

/-- Nothing is lost in any run. -/
theorem AllAccounted.run
    {relayer : Relayer}
    (accounted : AllAccounted chain relayer)
    (invariant : Invariant chain (fun _ => True) relayer)
    (distinct : chain.Distinct)
    {events : List Event}
    (admissible : ∀ event ∈ events, Admissible chain event) :
    AllAccounted chain (Machine.run Relayer.step relayer events) := by
  induction events generalizing relayer with
  | nil => exact accounted
  | cons event events inductionHypothesis =>
      have allowed := admissible event List.mem_cons_self
      exact inductionHypothesis (accounted.step invariant distinct allowed)
        (invariant.step distinct allowed fun _ _ => trivial)
        fun later member => admissible later (List.mem_cons_of_mem _ member)

/-- All inboxes lose nothing in a run from the empty database. -/
theorem allAccounted_of_started
    (distinct : chain.Distinct)
    {conf : RelayerConf}
    {relayer : Relayer}
    (started : start conf Journal.empty = .ok relayer)
    {events : List Event}
    (admissible : ∀ event ∈ events, Admissible chain event) :
    AllAccounted chain (Machine.run step relayer events) := by
  exact (allAccounted_start started).run (invariant_start started) distinct
    admissible

/-- A message behind the scan is in one place. -/
theorem Accounted.recorded_or_queued_once
    {Fetched : MultisigSignedCheckpoint → Prop}
    {relayer : Relayer}
    {tasks : InboxTasks}
    (accounted : Accounted chain relayer.db tasks)
    (sound : tasks.Sound chain Fetched relayer)
    (domains : relayer.conf.DistinctDomains)
    (running : tasks.submitterEnd = none)
    {index : UInt32}
    {message : CommittedMessage}
    (below : index < tasks.processor.messageLeafIndex)
    (addressed : chain.Addresses tasks.processor index message) :
    relayer.db.Recorded index ∧
        (tasks.queue.map SubmitMessageArgs.leafIndex).count index = 0 ∨
      ¬ relayer.db.Recorded index ∧
        (tasks.queue.map SubmitMessageArgs.leafIndex).count index = 1 := by
  by_cases recorded : relayer.db.Recorded index
  · refine .inl ⟨recorded, List.count_eq_zero.mpr fun queued => ?_⟩
    obtain ⟨args, listed, rfl⟩ := List.mem_map.mp queued
    exact sound.unrecorded domains args listed recorded
  · refine .inr ⟨recorded, List.count_eq_one_of_mem sound.distinct ?_⟩
    rcases accounted running index message below addressed with
      earlier | ⟨args, listed, rfl⟩
    · exact absurd earlier recorded
    · exact List.mem_map_of_mem listed

/-- In every run of all tasks that ends with settings of distinct domains, as
long as the submitter of an inbox runs, every message for it that its processor
has moved past is recorded as processed and not in the queue, or stands in the
queue exactly once and is not recorded. -/
theorem recorded_or_queued
    (distinct : chain.Distinct)
    (conf : RelayerConf)
    (relayer : Relayer)
    (started : start conf Journal.empty = .ok relayer)
    (events : List Event)
    (admissible : ∀ event ∈ events, Admissible chain event)
    (domains : (Machine.run step relayer events).conf.DistinctDomains)
    (tasks : InboxTasks)
    (member : tasks ∈ (Machine.run step relayer events).inboxes)
    (running : tasks.submitterEnd = none)
    (index : UInt32)
    (message : CommittedMessage)
    (below : index < tasks.processor.messageLeafIndex)
    (addressed : chain.Addresses tasks.processor index message) :
    (Machine.run step relayer events).db.Recorded index ∧
        (tasks.queue.map SubmitMessageArgs.leafIndex).count index = 0 ∨
      ¬ (Machine.run step relayer events).db.Recorded index ∧
        (tasks.queue.map SubmitMessageArgs.leafIndex).count index = 1 := by
  have invariant := invariant_of_started distinct started admissible
  have accounted := allAccounted_of_started distinct started admissible
  exact (accounted tasks member).recorded_or_queued_once
    (invariant.sound tasks member) domains running below addressed

end Conservation

/-- There is only one inbox. -/
theorem distinctDomains_sendingEvents :
    (Machine.run (@step .transparent) sampleRelayer
      sendingEvents).conf.DistinctDomains := by
  decide +kernel

/-- The tasks of the inbox once the first message is sent. -/
theorem exists_tasks_sending :
    ∃ tasks ∈ (Machine.run (@step .transparent) sampleRelayer
        sendingEvents).inboxes,
      tasks.submitterEnd = none ∧ tasks.processor.messageLeafIndex = 1 ∧
        ∀ message : AbacusMessage, message.destination = 0 →
          ¬ tasks.processor.Excluded message := by
  have settings : (Machine.run (@step .transparent) sampleRelayer
      sendingEvents).inboxes.map (fun tasks =>
        (tasks.submitterEnd.isNone, tasks.processor.messageLeafIndex,
          tasks.processor.localDomain, tasks.processor.whitelist,
          tasks.processor.blacklist)) =
      [(true, 1, 0, ⟨none⟩, ⟨none⟩)] := by
    decide +kernel
  obtain ⟨tasks, only, same⟩ := List.map_eq_singleton_iff.mp settings
  obtain ⟨running, below, localDomain, whitelist, blacklist⟩ : _ ∧ _ ∧ _ ∧ _ :=
    by simpa using same
  refine ⟨tasks, by rw [only]; exact List.mem_singleton_self _, running,
    below, ?_⟩
  intro message here
  rw [MessageProcessor.Excluded, localDomain, whitelist, blacklist]
  rintro (elsewhere | unlisted | listed)
  · exact elsewhere here
  · cases unlisted
  · cases listed

/-- The first message is in the queue once. -/
theorem recorded_or_queued_sending :
    ∃ tasks ∈ (Machine.run (@step .transparent) sampleRelayer
        sendingEvents).inboxes,
      (Machine.run (@step .transparent) sampleRelayer
            sendingEvents).db.Recorded 0 ∧
          (tasks.queue.map SubmitMessageArgs.leafIndex).count 0 = 0 ∨
        ¬ (Machine.run (@step .transparent) sampleRelayer
            sendingEvents).db.Recorded 0 ∧
          (tasks.queue.map SubmitMessageArgs.leafIndex).count 0 = 1 := by
  obtain ⟨tasks, member, running, cursor, accepted⟩ := exists_tasks_sending
  exact ⟨tasks, member, @recorded_or_queued .transparent OutboxChain.pair
    distinct_pair sampleConf sampleRelayer rfl sendingEvents
    admissible_sendingEvents distinctDomains_sendingEvents tasks member running
    0 _ (by rw [cursor]; decide)
    ⟨⟨AbacusDB.shortestMessage 0, rfl, rfl⟩, accepted _ (by decide)⟩⟩

end Relayer

end Abacus
