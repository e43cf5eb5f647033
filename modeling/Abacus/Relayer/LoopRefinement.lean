import Abacus.Base.GasPaymentSyncCorrectness
import Abacus.Base.SyncKeys
import Abacus.Relayer.RelayerDelivery

/-!
# The sync loops among the other tasks

The puts of a sync loop are made one at a time, and all other tasks act in
between. Until the relayer is restarted, the loop still does the same as one
that has the database for itself, since no other task touches its records.
-/

namespace Abacus

open Journal (Loop)

/-! ## The loops alone -/

/-- An iteration of the outbox loop that has the database for itself. -/
def outboxAlone [Crypto] (chunkSize : UInt32)
    (alone : Except (Fault Report) SyncState × AbacusDB) (poll : Poll) :
    Except (Fault Report) SyncState × AbacusDB :=
  Loop.iterateAlone (syncIteration chunkSize poll) alone

/-- An iteration of the gas loop that has the database for itself. -/
def gasAlone (chunkSize : UInt32)
    (alone : Except (Fault Report) UInt32 × AbacusDB) (poll : GasPoll) :
    Except (Fault Report) UInt32 × AbacusDB :=
  Loop.iterateAlone (gasIteration chunkSize poll) alone

/-- The outbox loop alone is the indexer. -/
theorem run_outboxAlone
    [Crypto]
    (chunkSize : UInt32)
    (indexer : Indexer)
    (polls : List Poll) :
    Machine.run (outboxAlone chunkSize) (indexer.loop, indexer.db) polls =
      ((Machine.run (Indexer.step chunkSize) indexer polls).loop,
        (Machine.run (Indexer.step chunkSize) indexer polls).db) := by
  induction polls generalizing indexer with
  | nil => rfl
  | cons poll polls inductionHypothesis =>
      rw [Machine.run_cons, Machine.run_cons, ← inductionHypothesis]
      congr 1
      unfold outboxAlone Loop.iterateAlone Indexer.step
      cases running : indexer.loop <;> simp [running]

namespace Relayer

section Refinement

variable [Crypto]

/-- The answers that the outbox loop receives: those between its iterations. -/
def outboxHeard (relayer : Relayer) : Event → List Poll
  | .pollOutbox poll =>
      if relayer.outboxSync.pending.isEmpty then [poll] else []
  | _ => []

/-- The answers that the gas loop receives. -/
def gasHeard (relayer : Relayer) : Event → List GasPoll
  | .pollGas poll =>
      match relayer.gasSync with
      | some gasSync => if gasSync.pending.isEmpty then [poll] else []
      | none => []
  | _ => []

/-! ## The frame of the other tasks -/

/-- What the fetcher and the tasks of the inboxes leave as it is. -/
structure Frames (before after : Relayer) : Prop where
  conf_eq : after.conf = before.conf
  outboxSync_eq : after.outboxSync = before.outboxSync
  gasSync_eq : after.gasSync = before.gasSync
  exists_puts : ∃ puts : List DbPut,
    (∀ put ∈ puts, ∃ index, put.key = .leafProcessStatus index) ∧
      after.db = Journal.replay before.db puts

omit [Crypto] in
/-- A change of one inbox that makes no put. -/
theorem frames_modifyInbox
    {relayer : Relayer}
    {number : Nat}
    {change : InboxTasks → InboxTasks × AbacusDB}
    (puts : ∀ tasks, ∃ puts : List DbPut,
      (∀ put ∈ puts, ∃ index, put.key = .leafProcessStatus index) ∧
        (change tasks).2 = Journal.replay relayer.db puts) :
    Frames relayer (relayer.modifyInbox number change) := by
  unfold modifyInbox
  split
  · exact ⟨rfl, rfl, rfl, [], by simp, rfl⟩
  · exact ⟨rfl, rfl, rfl, puts _⟩

theorem frames_process
    (relayer : Relayer)
    (number : Nat)
    (dbFails : Bool) :
    Frames relayer (relayer.step (.process number dbFails)) :=
  frames_modifyInbox fun _ => ⟨[], by simp, rfl⟩

theorem frames_tick
    (relayer : Relayer)
    (number : Nat)
    (answers : TickAnswers) :
    Frames relayer (relayer.step (.tick number answers)) := by
  refine frames_modifyInbox fun tasks => ?_
  rcases (InboxTasks.ticks_tick answers relayer.db tasks).recorded with
    same | ⟨msg, -, -, marked⟩
  · exact ⟨[], by simp, same⟩
  · refine ⟨[InboxTasks.statusPut msg], ?_, marked⟩
    intro put member
    rw [List.mem_singleton.mp member]
    exact ⟨_, rfl⟩

omit [Crypto] in
/-- A status is no record of a loop that is framed. -/
theorem Frames.refines
    {before after : Relayer}
    (frames : Frames before after)
    {keys : Record → Prop}
    (outside : ∀ index, ¬ keys (.leafProcessStatus index))
    {σ : Type}
    {loop : DbLoop σ}
    {alone : Except (Fault Report) σ × AbacusDB}
    (refines : loop.Refines keys before.db alone) :
    loop.Refines keys after.db alone := by
  obtain ⟨puts, statuses, db⟩ := frames.exists_puts
  rw [db]
  refine refines.replay fun put member => ?_
  obtain ⟨index, same⟩ := statuses put member
  rw [same]
  exact outside index

/-! ## One event -/

/-- Each loop is about to put its own records only. -/
structure Separate (relayer : Relayer) : Prop where
  outbox : relayer.outboxSync.Pends fun put => put.key.OfMessages
  gas : ∀ gasSync, relayer.gasSync = some gasSync →
    gasSync.Pends fun put => put.key.OfGas

/-- The two loops, and what they would be alone. -/
structure RefinesAlone (settings : IndexSettings)
    (outbox : Except (Fault Report) SyncState × AbacusDB)
    (gas : Except (Fault Report) UInt32 × AbacusDB) (relayer : Relayer) :
    Prop where
  settings_eq : relayer.conf.indexer = settings
  separate : Separate relayer
  outbox : relayer.outboxSync.Refines Record.OfMessages relayer.db outbox
  gas : ∀ gasSync, relayer.gasSync = some gasSync →
    gasSync.Refines Record.OfGas relayer.db gas

variable {settings : IndexSettings}
variable {outbox : Except (Fault Report) SyncState × AbacusDB}
variable {gas : Except (Fault Report) UInt32 × AbacusDB}
variable {relayer : Relayer}

omit [Crypto] in
theorem RefinesAlone.frames
    {after : Relayer}
    (refines : RefinesAlone settings outbox gas relayer)
    (frames : Frames relayer after) :
    RefinesAlone settings outbox gas after where
  settings_eq := by rw [frames.conf_eq, refines.settings_eq]
  separate := by
    constructor
    · rw [frames.outboxSync_eq]
      exact refines.separate.outbox
    · rw [frames.gasSync_eq]
      exact refines.separate.gas
  outbox := by
    rw [frames.outboxSync_eq]
    exact frames.refines (fun _ status => status) refines.outbox
  gas := by
    rw [frames.gasSync_eq]
    exact fun gasSync runs =>
      frames.refines (fun _ status => status) (refines.gas gasSync runs)

/-- No event but a restart makes a difference to the loops, except that they
receive an answer. -/
theorem RefinesAlone.step
    (refines : RefinesAlone settings outbox gas relayer)
    {event : Event}
    (continues : event.Continues) :
    RefinesAlone settings
      (Machine.run (outboxAlone settings.chunkSize) outbox
        (relayer.outboxHeard event))
      (Machine.run (gasAlone settings.chunkSize) gas (relayer.gasHeard event))
      (relayer.step event) := by
  obtain ⟨rfl, separate, messages, payments⟩ := refines
  cases event with
  | pollOutbox poll =>
      refine ⟨rfl, ⟨?_, separate.gas⟩, ?_, payments⟩
      · exact separate.outbox.iterate
          (fun state _ => (within_syncIteration _ poll state).writes) _
      · by_cases quiet : relayer.outboxSync.pending = []
        · simp only [outboxHeard, quiet, List.isEmpty_nil, if_true]
          exact messages.iterate quiet (within_syncIteration _ poll)
        · simp only [outboxHeard, List.isEmpty_iff, quiet, if_false]
          rw [step, Loop.iterate_of_pending quiet]
          exact messages
  | writeOutbox =>
      refine ⟨rfl, ⟨separate.outbox.rest, separate.gas⟩, messages.write, ?_⟩
      intro gasSync runs
      refine (payments gasSync runs).replay fun put member inGas => ?_
      exact inGas.not_ofMessages (separate.outbox.of_mem_take put member)
  | pollGas poll =>
      refine ⟨rfl, ⟨separate.outbox, ?_⟩, messages, ?_⟩
      · intro after runs
        obtain ⟨gasSync, earlier, rfl⟩ := Option.map_eq_some_iff.mp runs
        exact (separate.gas gasSync earlier).iterate
          (fun state _ => (within_gasIteration _ poll state).writes) _
      · intro after runs
        obtain ⟨gasSync, earlier, rfl⟩ := Option.map_eq_some_iff.mp runs
        have kept := payments gasSync earlier
        by_cases quiet : gasSync.pending = []
        · simp only [gasHeard, earlier, quiet, List.isEmpty_nil, if_true]
          exact kept.iterate quiet (within_gasIteration _ poll)
        · simp only [gasHeard, earlier, List.isEmpty_iff, quiet, if_false]
          rw [Loop.iterate_of_pending quiet]
          exact kept
  | writeGas =>
      cases runs : relayer.gasSync with
      | none =>
          simp only [Relayer.step, runs]
          refine ⟨rfl, ⟨separate.outbox, ?_⟩, messages, ?_⟩ <;>
            exact fun _ nothing => by cases nothing
      | some gasSync =>
          have pends := separate.gas gasSync runs
          simp only [Relayer.step, runs]
          refine ⟨rfl, ⟨separate.outbox, ?_⟩, ?_, ?_⟩
          · rintro after ⟨⟩
            exact pends.rest
          · exact messages.replay fun put member =>
              (pends.of_mem_take put member).not_ofMessages
          · rintro after ⟨⟩
            exact (payments gasSync runs).write
  | fetch latestIndex syncer =>
      exact RefinesAlone.frames ⟨rfl, separate, messages, payments⟩
        ⟨rfl, rfl, rfl, [], by simp, rfl⟩
  | process number dbFails =>
      exact RefinesAlone.frames ⟨rfl, separate, messages, payments⟩
        (frames_process relayer number dbFails)
  | tick number answers =>
      exact RefinesAlone.frames ⟨rfl, separate, messages, payments⟩
        (frames_tick relayer number answers)
  | restart conf => exact continues.elim

/-! ## Runs -/

/-- At the start, the loops are what they would be alone. -/
theorem refinesAlone_start
    {conf : RelayerConf}
    {db : AbacusDB}
    {relayer : Relayer}
    (started : start conf db = .ok relayer) :
    RefinesAlone conf.indexer
      ((Indexer.start conf.indexer.fromBlock db).loop,
        (Indexer.start conf.indexer.fromBlock db).db)
      ((resumeBlock conf.indexer.fromBlock).result db, db) relayer := by
  obtain ⟨create, created, -⟩ := exists_new conf
  have all := mapM_eq_ok fun inbox (_ : inbox ∈ conf.inboxes) => created inbox
  rw [start, all] at started
  cases started
  refine ⟨rfl, ⟨Loop.pends_start _, ?_⟩, Loop.refines_start _ db, ?_⟩
  · intro gasSync runs
    dsimp only at runs
    split at runs
    · cases runs
      exact Loop.pends_start _
    · cases runs
  · intro gasSync runs
    dsimp only at runs
    split at runs
    · cases runs
      exact Loop.refines_start _ db
    · cases runs

/-- In every run without restarts, the loops do what they would do alone on the
answers that they receive. -/
theorem RefinesAlone.run
    (refines : RefinesAlone settings outbox gas relayer)
    {events : List Event}
    (continues : ∀ event ∈ events, event.Continues) :
    RefinesAlone settings
      (Machine.run (outboxAlone settings.chunkSize) outbox
        (Machine.log Relayer.step outboxHeard relayer events))
      (Machine.run (gasAlone settings.chunkSize) gas
        (Machine.log Relayer.step gasHeard relayer events))
      (Machine.run Relayer.step relayer events) := by
  induction events generalizing relayer outbox gas with
  | nil => exact refines
  | cons event events inductionHypothesis =>
      rw [Machine.log_cons, Machine.log_cons, Machine.run_append,
        Machine.run_append]
      exact inductionHypothesis
        (refines.step (continues event List.mem_cons_self))
        fun later member => continues later (List.mem_cons_of_mem _ member)

/-- In every run of all tasks without restarts, on any database, the outbox
loop refines the indexer that makes each iteration in one step, and the gas
loop refines one that has the database for itself: they have the same variables,
and once their pending puts are made, the same records. -/
theorem loops_refine
    (conf : RelayerConf)
    (db : AbacusDB)
    (relayer : Relayer)
    (started : start conf db = .ok relayer)
    (events : List Event)
    (continues : ∀ event ∈ events, event.Continues) :
    (Machine.run step relayer events).outboxSync.Refines Record.OfMessages
        (Machine.run step relayer events).db
        ((Machine.run (Indexer.step conf.indexer.chunkSize)
            (Indexer.start conf.indexer.fromBlock db)
            (Machine.log step outboxHeard relayer events)).loop,
          (Machine.run (Indexer.step conf.indexer.chunkSize)
            (Indexer.start conf.indexer.fromBlock db)
            (Machine.log step outboxHeard relayer events)).db) ∧
      ∀ gasSync, (Machine.run step relayer events).gasSync = some gasSync →
        gasSync.Refines Record.OfGas (Machine.run step relayer events).db
          (Machine.run (gasAlone conf.indexer.chunkSize)
            ((resumeBlock conf.indexer.fromBlock).result db, db)
            (Machine.log step gasHeard relayer events)) := by
  have refines := (refinesAlone_start started).run continues
  rw [← run_outboxAlone]
  exact ⟨refines.outbox, refines.gas⟩

end Refinement

/-! ## A run -/

/-- Settings with a paymaster, so that there is a gas loop. -/
def paymasterConf : RelayerConf := { sampleConf with hasPaymaster := true }

/-- The relayer on the empty database. -/
def paymasterRelayer : Relayer :=
  (@start .transparent paymasterConf Journal.empty).toOption.getD sampleRelayer

/-- Two messages and two gas payments are synced at once. Between the puts of
the two loops, the first message is sent and recorded as processed. -/
def interleavedEvents : List Event :=
  [.pollOutbox (OutboxChain.pair.pollFrom 0),
    .pollGas (GasChain.pair.poll 15)] ++
  (List.replicate 12 [.writeOutbox, .process 0 false]).flatten ++
  [.writeGas] ++ fetchingEvents 8 ++
  [.writeGas, .tick 0 SerialSubmitter.processedAnswers, .writeGas,
    .process 0 false]

/-- Both loops do what they would do alone, although two puts of the gas loop
are not made yet, and other tasks have put a record of their own. -/
theorem loops_refine_interleaved :
    ∃ gasSync,
      (Machine.run (@step .transparent) paymasterRelayer
        interleavedEvents).gasSync = some gasSync ∧
      gasSync.pending.length = 2 ∧
      (Machine.run (@step .transparent) paymasterRelayer
        interleavedEvents).db.Recorded 0 ∧
      (Machine.run (@step .transparent) paymasterRelayer
          interleavedEvents).outboxSync.Refines Record.OfMessages
        (Machine.run (@step .transparent) paymasterRelayer
          interleavedEvents).db
        ((Machine.run (@Indexer.step .transparent 1999)
            (Indexer.start 0 Journal.empty)
            [OutboxChain.pair.pollFrom 0]).loop,
          (Machine.run (@Indexer.step .transparent 1999)
            (Indexer.start 0 Journal.empty)
            [OutboxChain.pair.pollFrom 0]).db) ∧
      gasSync.Refines Record.OfGas
        (Machine.run (@step .transparent) paymasterRelayer
          interleavedEvents).db
        (Machine.run (gasAlone 1999)
          ((resumeBlock 0).result Journal.empty, Journal.empty)
          [GasChain.pair.poll 15]) := by
  obtain ⟨messages, payments⟩ := @loops_refine .transparent paymasterConf
    Journal.empty paymasterRelayer rfl interleavedEvents (by decide)
  have pending : (Machine.run (@step .transparent) paymasterRelayer
      interleavedEvents).gasSync.map (fun gasSync => gasSync.pending.length) =
        some 2 := by
    decide +kernel
  obtain ⟨gasSync, runs, two⟩ := Option.map_eq_some_iff.mp pending
  exact ⟨gasSync, runs, two, AbacusDB.recorded_iff.mpr (by decide +kernel),
    messages, payments gasSync runs⟩

end Relayer

end Abacus
