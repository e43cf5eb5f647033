import Abacus.Base.OutboxSyncCompleteness
import Abacus.Relayer.LoopRefinement
import Abacus.Relayer.RelayerConservation

/-!
# From the chain to the inboxes

Against a complete provider, and without restarts, a message that the outbox
loop has passed is recorded as processed, or stands in the queue of its inbox,
or is in the database in front of the scan of the processor.
-/

namespace Abacus

namespace Relayer

section EndToEnd

variable [Crypto]
variable {chain : OutboxChain}

/-- The outbox loop of the relayer stands between two iterations, with some
variables. -/
def OutboxHead (relayer : Relayer) (state : SyncState) : Prop :=
  relayer.outboxSync.outcome = .ok state ∧ relayer.outboxSync.pending = []

/-- At the head of the outbox loop, all messages of earlier blocks are
stored. -/
theorem completeBelow_of_started
    (distinct : chain.Distinct)
    (sorted : chain.Sorted)
    {conf : RelayerConf}
    (early : ∀ block, chain.blockAt 0 = some block →
      conf.indexer.fromBlock ≤ block)
    {relayer : Relayer}
    (started : start conf Journal.empty = .ok relayer)
    {events : List Event}
    (continues : ∀ event ∈ events, event.Continues)
    (complete : ∀ poll, .pollOutbox poll ∈ events → chain.Complete poll)
    {state : SyncState}
    (head : OutboxHead (Machine.run step relayer events) state) :
    CompleteBelow chain state (Machine.run step relayer events).db := by
  have refines := ((refinesAlone_start started).run continues).outbox
  rw [run_outboxAlone] at refines
  have heard : ∀ poll ∈ Machine.log step outboxHeard relayer events,
      chain.Complete poll := by
    refine Machine.forall_mem_log step outboxHeard ?_ relayer
    intro event member state poll received
    cases event with
    | pollOutbox answer =>
        simp only [outboxHeard] at received
        split at received
        · rw [List.mem_singleton.mp received]
          exact complete answer member
        · cases received
    | _ => cases received
  have held := Machine.invariant_run
    (Indexer.step conf.indexer.chunkSize)
    (fun indexer => ∀ state, indexer.loop = .ok state →
      CompleteBelow chain state indexer.db)
    (fun _ _ complete held =>
      completeBelow_step distinct sorted complete held)
    (completeBelow_start sorted early)
    (Machine.admissibleRun_of_forall _ _ heard)
  obtain ⟨running, quiet⟩ := head
  obtain ⟨next, stored, upTo⟩ :=
    held state (refines.outcome_eq.symm.trans running)
  have agree := refines.agree
  rw [quiet] at agree
  exact ⟨next, stored.congr (agree .latestLeafIndex trivial)
    (fun index => agree (.leaf index) trivial)
    (fun hash => agree (.message hash) trivial), upTo⟩

/-- The three places of a message for an inbox: it is recorded as processed,
it stands in the queue exactly once, or it is found in the database and the
scan has not moved past it. -/
inductive Placed (chain : OutboxChain) (db : AbacusDB) (tasks : InboxTasks)
    (index : UInt32) : Prop
  | processed
      (recorded : db.Recorded index)
      (gone : (tasks.queue.map SubmitMessageArgs.leafIndex).count index = 0)
  | queued
      (unrecorded : ¬ db.Recorded index)
      (once : (tasks.queue.map SubmitMessageArgs.leafIndex).count index = 1)
  | stored
      {message : RawCommittedMessage}
      (ahead : tasks.processor.messageLeafIndex ≤ index)
      (sent : chain.messageAt index = some message)
      (found : (AbacusDB.messageByLeafIndex index).result db =
        .ok (some message))

/-- In every run without restarts from the empty database, against a complete
provider: once the outbox loop has passed the block of a message for an inbox
whose submitter runs, the message is in one of the three places. -/
theorem placed_of_passed
    (distinct : chain.Distinct)
    (sorted : chain.Sorted)
    (conf : RelayerConf)
    (domains : conf.DistinctDomains)
    (early : ∀ block, chain.blockAt 0 = some block →
      conf.indexer.fromBlock ≤ block)
    (relayer : Relayer)
    (started : start conf Journal.empty = .ok relayer)
    (events : List Event)
    (admissible : ∀ event ∈ events, Admissible chain event)
    (continues : ∀ event ∈ events, event.Continues)
    (complete : ∀ poll, .pollOutbox poll ∈ events → chain.Complete poll)
    (state : SyncState)
    (head : OutboxHead (Machine.run step relayer events) state)
    (tasks : InboxTasks)
    (member : tasks ∈ (Machine.run step relayer events).inboxes)
    (running : tasks.submitterEnd = none)
    (index block : UInt32)
    (message : CommittedMessage)
    (addressed : chain.Addresses tasks.processor index message)
    (dispatchedIn : chain.blockAt index = some block)
    (passed : block < state.fromBlock) :
    Placed chain (Machine.run step relayer events).db tasks index := by
  by_cases below : index < tasks.processor.messageLeafIndex
  · have invariant := invariant_of_started distinct started admissible
    have accounted := allAccounted_of_started distinct started admissible
    have settings : (Machine.run step relayer events).conf = conf := by
      rw [conf_run relayer continues, conf_of_started started]
    rcases (accounted tasks member).recorded_or_queued_once
        (invariant.sound tasks member) (settings ▸ domains) running below
        addressed with
      ⟨recorded, gone⟩ | ⟨unrecorded, once⟩
    · exact .processed recorded gone
    · exact .queued unrecorded once
  · obtain ⟨next, stored, upTo⟩ := completeBelow_of_started distinct sorted
      early started continues complete head
    obtain ⟨raw, sent, leaf, body⟩ :=
      stored.2 index (upTo.lt_of_blockAt dispatchedIn passed)
    refine .stored (UInt32.not_lt.mp below) sent ?_
    rw [Journal.Program.result, AbacusDB.run_messageByLeafIndex, leaf,
      Option.bind_some, body]

end EndToEnd

/-- The second message is in front of the scan. -/
theorem placed_of_passed_sending :
    ∃ tasks ∈ (Machine.run (@step .transparent) sampleRelayer
        sendingEvents).inboxes,
      Placed OutboxChain.pair (Machine.run (@step .transparent) sampleRelayer
        sendingEvents).db tasks 1 := by
  obtain ⟨tasks, member, running, -, accepted⟩ := exists_tasks_sending
  have continues : ∀ event ∈ sendingEvents, event.Continues :=
    forall_mem_sendingEvents trivial trivial trivial trivial
  have answers : ∀ event ∈ sendingEvents, ∀ poll,
      event = .pollOutbox poll → OutboxChain.pair.Complete poll := by
    apply forall_mem_sendingEvents
    · rintro poll ⟨⟩
      exact OutboxChain.pair.complete_pollFrom_zero
    all_goals exact fun poll other => by cases other
  have head : OutboxHead (Machine.run (@step .transparent) sampleRelayer
      sendingEvents) ⟨11, 0⟩ := by
    constructor <;> decide +kernel
  exact ⟨tasks, member, @placed_of_passed .transparent OutboxChain.pair
    distinct_pair (by unfold OutboxChain.Sorted; decide) sampleConf
    (by decide) (fun _ _ => UInt32.zero_le) sampleRelayer rfl sendingEvents
    admissible_sendingEvents continues (fun poll polled =>
      answers _ polled poll rfl) ⟨11, 0⟩ head tasks member running 1 5 _
    ⟨⟨AbacusDB.shortestMessage 1, rfl, rfl⟩, accepted _ (by decide)⟩
    (by decide) (by decide)⟩

end Relayer

end Abacus
