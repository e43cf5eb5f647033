import Abacus.Base.HonestQuorum
import Abacus.Relayer.ProcessorEnds
import Abacus.Relayer.Supervision

/-!
# Faulty validators

As long as fewer validators than the threshold are faulty, every message is
submitted with a proof for a root that the outbox itself has had, and the
processors go on: none of them ends unless the fetcher or its own submitter has
ended before.
-/

namespace Abacus

namespace Relayer

/-! ## An honest validator -/

/-- The root of a tree whose nodes have the value of their right child is its
last leaf. -/
theorem root_of_right
    {node : H256 → H256 → H256}
    (right : ∀ first second, node first second = second)
    (height : Nat)
    (leaf : Nat → H256) :
    HashTree.root node height leaf = leaf (2 ^ height - 1) := by
  induction height generalizing leaf with
  | zero => rfl
  | succ height inductionHypothesis =>
      have positive := Nat.two_pow_pos height
      rw [HashTree.root_succ, right, inductionHypothesis]
      congr 1
      rw [Nat.pow_succ]
      omega

/-- Transparent cryptography hashes two nodes to the second one. -/
theorem hashConcat_transparent (left right : H256) :
    @NodeHash.hashConcat H256 (@instNodeHashH256OfCrypto .transparent) left
      right = right := by
  obtain ⟨first, firstLength⟩ := left
  obtain ⟨second, secondLength⟩ := right
  have length : (first ++ second).length =
      (List.replicate 32 (0 : UInt8) ++ first).length := by
    simp only [List.length_append, List.length_replicate, firstLength,
      secondLength]
  have drops : (List.replicate 32 0 ++ (first ++ second)).drop
      (first ++ second).length = second := by
    rw [length, ← List.append_assoc, List.drop_left]
  apply FixedBytes.ext
  exact drops

/-- The sample checkpoint is one that the outbox has had. -/
theorem genuine_sample :
    @OutboxChain.Genuine .transparent .pair (.sample 1) := by
  refine @OutboxChain.Genuine.mk .transparent _ _ (by decide) ?_
  have root := root_of_right hashConcat_transparent treeDepth
    (HashTree.pad H256.zero (@OutboxChain.leavesUpTo .transparent .pair 1))
  rw [HashTree.pad_of_length_le] at root
  · exact root.symm
  · decide

/-- The validator of the sample syncer is honest. -/
theorem fewFaulty_sampleSyncer :
    @OutboxChain.FewFaulty .transparent .pair sampleSyncer := by
  refine ⟨[], by decide, ?_⟩
  intro entry listed _ index signed answer _
  cases List.mem_singleton.mp listed
  have held := List.mem_of_find?_eq_some (Except.ok.inj answer)
  cases List.mem_singleton.mp held
  exact genuine_sample

/-- So it is in every fetch of the sample run. -/
theorem fewFaulty_sendingEvents :
    ∀ latestIndex syncer, .fetch latestIndex syncer ∈ sendingEvents →
      @OutboxChain.FewFaulty .transparent .pair syncer := by
  intro latestIndex syncer listed
  have only : ∀ event ∈ sendingEvents, ∀ latestIndex other,
      event = .fetch latestIndex other → other = sampleSyncer := by
    apply forall_mem_sendingEvents
    · exact fun _ _ other => by cases other
    · exact fun _ _ other => by cases other
    · exact fun _ _ same => by cases same; rfl
    · exact fun _ _ other => by cases other
  rw [only _ listed latestIndex syncer rfl]
  exact fewFaulty_sampleSyncer

/-! ## What the fetched checkpoints are -/

section Faulty

variable [Crypto]
variable {chain : OutboxChain}

/-- A checkpoint with signatures is one that the outbox has had. -/
abbrev GenuineMultisig (chain : OutboxChain)
    (multisig : MultisigSignedCheckpoint) : Prop :=
  chain.Genuine multisig.checkpoint

/-- A weaker property of the fetched checkpoints. -/
theorem Invariant.mono
    {Fetched Weaker : MultisigSignedCheckpoint → Prop}
    {relayer : Relayer}
    (invariant : Invariant chain Fetched relayer)
    (weaker : ∀ checkpoint, Fetched checkpoint → Weaker checkpoint) :
    Invariant chain Weaker relayer :=
  { invariant with
    published := fun checkpoint newest =>
      weaker checkpoint (invariant.published checkpoint newest)
    sound := fun tasks member =>
      have sound := invariant.sound tasks member
      { sound with
        targeted := fun checkpoint target =>
          weaker checkpoint (sound.targeted checkpoint target)
        fetched := fun args queued =>
          weaker args.checkpoint (sound.fetched args queued) } }

/-- With few faulty validators, no checkpoint is fetched for an index that the
tree of the outbox does not reach. -/
theorem admissible_of_fewFaulty
    (room : chain.messages.length < 2 ^ 32)
    {event : Event}
    (faithful : ∀ poll, event = .pollOutbox poll → chain.Faithful poll)
    (fewFaulty : ∀ latestIndex syncer, event = .fetch latestIndex syncer →
      chain.FewFaulty syncer) :
    Admissible chain event := by
  cases event with
  | pollOutbox poll => exact faithful poll rfl
  | fetch latestIndex syncer =>
      intro index checkpoint fetched
      have genuine := (fewFaulty latestIndex syncer rfl).genuine fetched
      have dispatched := genuine.dispatched
      rw [index_eq_of_fetchCheckpoint fetched] at dispatched
      omega
  | _ => trivial

/-- Against a faithful provider, and with few faulty validators, every event is
admissible. -/
theorem forall_admissible_of_fewFaulty
    (room : chain.messages.length < 2 ^ 32)
    {events : List Event}
    (faithful : ∀ poll, .pollOutbox poll ∈ events → chain.Faithful poll)
    (fewFaulty : ∀ latestIndex syncer, .fetch latestIndex syncer ∈ events →
      chain.FewFaulty syncer) :
    ∀ event ∈ events, Admissible chain event := by
  intro event member
  refine admissible_of_fewFaulty room ?_ ?_
  · rintro poll rfl
    exact faithful poll member
  · rintro latestIndex syncer rfl
    exact fewFaulty latestIndex syncer member

/-- In every run with few faulty validators, all checkpoints are ones that the
outbox has had. -/
theorem genuine_of_started
    (distinct : chain.Distinct)
    {conf : RelayerConf}
    {relayer : Relayer}
    (started : start conf Journal.empty = .ok relayer)
    {events : List Event}
    (admissible : ∀ event ∈ events, Admissible chain event)
    (fewFaulty : ∀ latestIndex syncer, .fetch latestIndex syncer ∈ events →
      chain.FewFaulty syncer) :
    Invariant chain (GenuineMultisig chain)
      (Machine.run step relayer events) := by
  refine (invariant_of_started distinct started admissible).mono ?_
  rintro checkpoint ⟨before, event, after, rfl, ⟨answered, -⟩⟩
  exact (fewFaulty _ _ (List.mem_append_right _ List.mem_cons_self)).genuine
    answered

/-- In every run with few faulty validators, with restarts at any point,
whatever is submitted to an inbox comes with the proof of a dispatched message
for the root that the outbox had at a checkpoint which covers the message. -/
theorem proved_for_outbox_of_attempted
    (distinct : chain.Distinct)
    (room : chain.messages.length < 2 ^ 32)
    (conf : RelayerConf)
    (relayer : Relayer)
    (started : start conf Journal.empty = .ok relayer)
    (events : List Event)
    (faithful : ∀ poll, .pollOutbox poll ∈ events → chain.Faithful poll)
    (fewFaulty : ∀ latestIndex syncer, .fetch latestIndex syncer ∈ events →
      chain.FewFaulty syncer)
    (number : Nat)
    (answers : TickAnswers)
    (msg : SubmitMessageArgs)
    (attempts : (Machine.run step relayer events).Attempts number answers
      msg) :
    ∃ raw, chain.messageAt msg.leafIndex = some raw ∧
      CommittedMessage.tryFrom raw = .ok msg.committedMessage ∧
      msg.leafIndex ≤ msg.checkpoint.checkpoint.index ∧
      msg.checkpoint.checkpoint.index.toNat < chain.messages.length ∧
      msg.checkpoint.checkpoint.root =
        chain.rootAt msg.checkpoint.checkpoint.index ∧
      merkleRootFromBranch raw.leaf msg.proof.path 32 msg.leafIndex.toNat =
        .ok (chain.rootAt msg.checkpoint.checkpoint.index) := by
  have invariant := genuine_of_started distinct started
    (forall_admissible_of_fewFaulty room faithful fewFaulty) fewFaulty
  obtain ⟨tasks, found, queued⟩ := exists_queue_of_handled attempts.1
  have sound := invariant.sound tasks (List.mem_of_getElem? found)
  obtain ⟨raw, sent, parsed⟩ := (sound.addressed msg queued).1
  have genuine := sound.fetched msg queued
  have verified := sound.pipeline.verified msg queued
  refine ⟨raw, sent, parsed, verified.covered, genuine.dispatched,
    genuine.root_eq, ?_⟩
  rw [← genuine.root_eq, ← verified.root_eq, verified.leaf_eq,
    verified.index_eq, CommittedMessage.toLeaf_of_tryFrom parsed]

end Faulty

/-- What is submitted first is proved for the root of the outbox. -/
theorem proved_for_outbox_of_attempted_sending :
    ∃ (msg : SubmitMessageArgs) (raw : RawCommittedMessage),
      OutboxChain.pair.messageAt msg.leafIndex = some raw ∧
      msg.checkpoint.checkpoint.index.toNat <
        OutboxChain.pair.messages.length ∧
      @merkleRootFromBranch H256 (@instNodeHashH256OfCrypto .transparent)
          (@RawCommittedMessage.leaf .transparent raw) msg.proof.path 32
          msg.leafIndex.toNat =
        .ok (@OutboxChain.rootAt .transparent .pair
          msg.checkpoint.checkpoint.index) := by
  obtain ⟨msg, handled⟩ : ∃ msg,
      (Machine.run (@step .transparent) sampleRelayer sendingEvents).handled 0
        SerialSubmitter.revertedAnswers = some msg :=
    Option.isSome_iff_exists.mp (by decide +kernel)
  obtain ⟨raw, sent, -, -, dispatched, -, proved⟩ :=
    @proved_for_outbox_of_attempted .transparent OutboxChain.pair
      distinct_pair (by decide) sampleConf sampleRelayer rfl sendingEvents
      (fun _ polled => admissible_sendingEvents _ polled)
      fewFaulty_sendingEvents 0
      SerialSubmitter.revertedAnswers msg ⟨handled, rfl⟩
  exact ⟨msg, raw, sent, dispatched, proved⟩

/-! ## What ends a processor -/

section Faulty

variable [Crypto]
variable {chain : OutboxChain}

/-- The processor of an inbox has lost another task: the fetcher has ended, or
the submitter that it sends to. -/
inductive Orphaned (relayer : Relayer) (tasks : InboxTasks) : Prop
  | fetcher
      (phase : tasks.processor.phase = .failed .recvError)
      (ended : relayer.fetcher.toOption.isNone = true)
  | submitter
      (phase : tasks.processor.phase = .failed .sendError)
      (ended : tasks.submitterEnd.isSome = true)

/-- Every dispatched message can be decoded, and the tree of the outbox has
room for all of them. -/
structure Decodable (chain : OutboxChain) : Prop where
  parses : ∀ raw ∈ chain.messages, ∃ message,
    CommittedMessage.tryFrom raw = .ok message
  room : chain.messages.length < 2 ^ 32

/-- Only dispatched messages are recorded as processed. -/
def RecordsDispatched (chain : OutboxChain) (db : AbacusDB) : Prop :=
  ∀ index, db.Recorded index → index.toNat < chain.messages.length

omit [Crypto] in
/-- The index of a dispatched message is below their number. -/
theorem lt_length_of_messageAt
    {index : UInt32}
    {raw : RawCommittedMessage}
    (sent : chain.messageAt index = some raw) :
    index.toNat < chain.messages.length :=
  (List.getElem?_eq_some_iff.mp sent).1

/-- The leaves of a builder that holds as many leaves as a checkpoint covers
are those of the outbox. -/
theorem eq_leavesUpTo_of_stored
    {db : AbacusDB}
    (fills : chain.Fills db)
    {leaves : List H256}
    (stored : ∀ (index : UInt32) (leaf : H256),
      leaves[index.toNat]? = some leaf → db (.leaf index) = some leaf)
    {last : UInt32}
    (length : leaves.length = last.toNat + 1) :
    leaves = chain.leavesUpTo last := by
  have bound := last.toNat_lt
  apply List.ext_getElem?
  intro position
  unfold OutboxChain.leavesUpTo
  by_cases inside : position < leaves.length
  · have small : position < 2 ^ 32 := by omega
    have number := UInt32.toNat_ofNat_of_lt' small
    obtain ⟨raw, sent, same⟩ := exists_of_stored_leaf fills
      (stored (UInt32.ofNat position) leaves[position]
        (by rw [number, List.getElem?_eq_getElem inside]))
    rw [OutboxChain.messageAt, number] at sent
    rw [List.getElem?_map, List.getElem?_take_of_lt (by omega), sent,
      List.getElem?_eq_getElem inside, same, Option.map_some]
  · rw [List.getElem?_eq_none (by omega), List.getElem?_eq_none]
    rw [List.length_map, List.length_take]
    omega

/-- A builder that has ingested all leaves of a checkpoint which the outbox has
had agrees with it. -/
theorem checkRoots_of_genuine
    {db : AbacusDB}
    (fills : chain.Fills db)
    {builder : MerkleTreeBuilder H256}
    (holds : Pipeline.HoldsLeaves db builder)
    {checkpoint : Checkpoint}
    (genuine : chain.Genuine checkpoint)
    (complete : builder.count.toNat = checkpoint.index.toNat + 1) :
    builder.checkRoots checkpoint.root = .ok () := by
  obtain ⟨leaves, held, fits, stored⟩ := holds
  have count := MerkleTreeBuilder.toNat_count held (by omega)
  have below := lt_two_pow_treeDepth fits
  have root : builder.prover.root = checkpoint.root := by
    rw [Prover.root_eq held.prover below.le, genuine.root_eq,
      OutboxChain.rootAt,
      eq_leavesUpTo_of_stored fills stored (count.symm.trans complete)]
  have agree : builder.prover.root = builder.incremental.root :=
    (Prover.root_eq held.prover below.le).trans
      (IncrementalMerkle.root_eq held.incremental below).symm
  unfold MerkleTreeBuilder.checkRoots
  exact if_neg (not_or.mpr ⟨not_not_intro agree, not_not_intro root⟩)

/-- A processor that proves a message has not reached the last index. -/
theorem index_lt_of_target
    {db : AbacusDB}
    {ckpt : Option MultisigSignedCheckpoint}
    {processor : MessageProcessor}
    (synced : Pipeline.Synced db ckpt processor)
    {checkpoint : MultisigSignedCheckpoint}
    (targets : processor.phase.target = some checkpoint) :
    processor.messageLeafIndex.toNat < 2 ^ 32 - 1 := by
  have phase := synced.phase
  have bounded : Pipeline.Published ckpt checkpoint ∧
      processor.messageLeafIndex ≤ checkpoint.checkpoint.index := by
    unfold Pipeline.PhaseInvariant at phase
    cases proves : processor.phase with
    | updating message other next =>
        rw [proves] at targets phase
        cases targets
        exact ⟨phase.1, phase.2.1⟩
    | dispatching message other =>
        rw [proves] at targets phase
        cases targets
        exact ⟨phase.1, phase.2.1⟩
    | _ =>
        rw [proves] at targets
        cases targets
  have covered := UInt32.le_iff_toNat_le.mp bounded.2
  have room := bounded.1.bounded
  omega

/-- An index that is passed is that of a dispatched message. -/
theorem lt_length_of_passed
    {db : AbacusDB}
    (fills : chain.Fills db)
    (records : RecordsDispatched chain db)
    {processor : MessageProcessor}
    {index : UInt32}
    (passed : processor.Passed db index) :
    index.toNat < chain.messages.length := by
  rcases passed with ⟨status, known⟩ | ⟨raw, message, found, -, -⟩
  · rw [Journal.Program.result,
      AbacusDB.run_retrieveLeafProcessingStatus] at known
    cases stored : db (.leafProcessStatus index) with
    | none =>
        rw [stored] at known
        cases known
    | some value =>
        exact records index (recorded_of_stored_status fills stored)
  · rw [Journal.Program.result, AbacusDB.run_messageByLeafIndex] at found
    cases stored : db (.leaf index) with
    | none =>
        rw [stored] at found
        cases found
    | some leaf =>
        obtain ⟨sent, dispatched, -⟩ := exists_of_stored_leaf fills stored
        exact lt_length_of_messageAt dispatched

/-- A processor that can read the database ends only where another task has
ended. -/
theorem orphaned_of_ended_process
    {relayer : Relayer}
    (invariant : Invariant chain (GenuineMultisig chain) relayer)
    (decodable : Decodable chain)
    (records : RecordsDispatched chain relayer.db)
    {tasks : InboxTasks}
    (member : tasks ∈ relayer.inboxes)
    (running : Pipeline.ended tasks.processor.phase = false)
    (ended : Pipeline.ended (tasks.process
      (relayer.around tasks false)).processor.phase = true) :
    Orphaned relayer (tasks.process (relayer.around tasks false)) := by
  have sound := invariant.sound tasks member
  have synced : Pipeline.Synced (relayer.around tasks false).db
      (relayer.around tasks false).ckptRx tasks.processor :=
    sound.pipeline.synced
  have ends := MessageProcessor.ends_of_ended_step running ended
  generalize phase : (tasks.processor.step
    (relayer.around tasks false)).1.phase = last at ends
  cases ends with
  | unreadable error fails => cases fails
  | @undecodable raw error found refused =>
      rw [Journal.Program.result, AbacusDB.run_messageByLeafIndex] at found
      cases stored : relayer.db (.leaf tasks.processor.messageLeafIndex) with
      | none =>
          simp only [Relayer.around, stored] at found
          cases found
      | some leaf =>
          simp only [Relayer.around, stored, Option.bind_some] at found
          obtain ⟨sent, -⟩ := of_stored_message invariant.fills
            (Except.ok.inj found)
          obtain ⟨message, parsed⟩ :=
            decodable.parses raw (List.mem_of_getElem? sent)
          cases refused.symm.trans parsed
  | unpublished closed => exact .fetcher phase closed
  | undelivered closed => exact .submitter phase closed
  | @mismatched message checkpoint next error updating complete differs =>
      have held := synced.phase
      simp only [Pipeline.PhaseInvariant, updating] at held
      obtain ⟨-, -, count, most⟩ := held
      have genuine := sound.targeted checkpoint (by rw [updating]; rfl)
      have checked := checkRoots_of_genuine invariant.fills synced.leaves
        genuine (by omega)
      cases differs.symm.trans checked
  | @unproved message checkpoint error dispatching refused =>
      have held := synced.phase
      simp only [Pipeline.PhaseInvariant, dispatching] at held
      obtain ⟨leaf, proof, -, proved, -⟩ :=
        Pipeline.exists_proof_of_builtFor synced.leaves held.2.2 held.2.1
      cases refused.symm.trans proved
  | lastIndex passed end_eq =>
      have inside := lt_length_of_passed invariant.fills records passed
      have room := decodable.room
      omega
  | assertion targets panics =>
      have below := index_lt_of_target synced targets
      have last := (Pipeline.eq_overflow_of_panics panics synced).2
      omega

/-- What few faulty validators cannot break: only dispatched messages are
recorded as processed, and a processor has ended only where another task has
ended. -/
structure Intact (chain : OutboxChain) (relayer : Relayer) : Prop where
  records : RecordsDispatched chain relayer.db
  orphaned : ∀ tasks ∈ relayer.inboxes,
    Pipeline.ended tasks.processor.phase = true → Orphaned relayer tasks

/-- Nothing but a dispatched message is newly recorded. -/
theorem RecordsDispatched.step
    {Fetched : MultisigSignedCheckpoint → Prop}
    {relayer : Relayer}
    (records : RecordsDispatched chain relayer.db)
    (invariant : Invariant chain Fetched relayer)
    {event : Event}
    (admissible : Admissible chain event) :
    RecordsDispatched chain (relayer.step event).db := by
  intro index recorded
  by_cases before : relayer.db.Recorded index
  · exact records index before
  · obtain ⟨number, answers, msg, -, handled, rfl, -⟩ :=
      exists_tick_of_recorded invariant admissible before recorded
    obtain ⟨tasks, found, queued⟩ := exists_queue_of_handled handled
    obtain ⟨raw, sent, -⟩ := ((invariant.sound tasks
      (List.mem_of_getElem? found)).addressed msg queued).1
    exact lt_length_of_messageAt sent

omit [Crypto] in
/-- The other tasks stay lost as long as the fetcher has ended. -/
theorem Orphaned.congr
    {relayer later : Relayer}
    {tasks : InboxTasks}
    (orphaned : Orphaned relayer tasks)
    (fetcher : relayer.fetcher.toOption.isNone = true →
      later.fetcher.toOption.isNone = true) :
    Orphaned later tasks := by
  cases orphaned with
  | fetcher phase ended => exact .fetcher phase (fetcher ended)
  | submitter phase ended => exact .submitter phase ended

/-- A processor that has ended makes no step. -/
theorem process_of_ended
    {tasks : InboxTasks}
    (ended : Pipeline.ended tasks.processor.phase = true)
    (around : Surroundings) :
    tasks.process around = tasks :=
  InboxTasks.process_of_unsent (MessageProcessor.step_of_ended ended)

/-- A tick of a submitter changes nothing for an orphaned processor. -/
theorem Orphaned.tick
    {relayer : Relayer}
    {tasks : InboxTasks}
    (orphaned : Orphaned relayer tasks)
    (answers : TickAnswers)
    (db : AbacusDB) :
    Orphaned relayer (tasks.tick answers db).1 := by
  cases orphaned with
  | fetcher phase ended =>
      refine .fetcher ?_ ended
      rw [(InboxTasks.ticks_tick answers db tasks).processor_eq, phase]
  | submitter phase ended =>
      rw [tick_of_ended ended]
      exact .submitter phase ended

/-- Every event leaves it intact, as long as the processors can read the
database. -/
theorem Intact.step
    {relayer : Relayer}
    (intact : Intact chain relayer)
    (invariant : Invariant chain (GenuineMultisig chain) relayer)
    (decodable : Decodable chain)
    {event : Event}
    (admissible : Admissible chain event)
    (reads : ∀ number dbFails, event = .process number dbFails →
      dbFails = false) :
    Intact chain (relayer.step event) := by
  refine ⟨intact.records.step invariant admissible, ?_⟩
  have kept : ∀ later : Relayer, later.inboxes = relayer.inboxes →
      (relayer.fetcher.toOption.isNone = true →
        later.fetcher.toOption.isNone = true) →
      ∀ tasks ∈ later.inboxes,
        Pipeline.ended tasks.processor.phase = true →
          Orphaned later tasks := by
    intro later same fetcher tasks member ended
    rw [same] at member
    exact (intact.orphaned tasks member ended).congr fetcher
  cases event with
  | fetch latestIndex syncer =>
      refine kept _ rfl fun ended => ?_
      simp only [Relayer.step, fetch]
      cases loop : relayer.fetcher with
      | error error => rfl
      | ok fetcher =>
          rw [loop] at ended
          cases ended
  | process number dbFails =>
      obtain rfl := reads number dbFails rfl
      refine forall_mem_modifyInbox ?_ number ?_
      · exact fun tasks member ended =>
          (intact.orphaned tasks member ended).congr fun lost => by
            rwa [Relayer.step, fetcher_modifyInbox]
      · intro tasks member orphaned ended
        by_cases before : Pipeline.ended tasks.processor.phase = true
        · rw [process_of_ended before]
          exact orphaned before
        · refine (orphaned_of_ended_process invariant decodable intact.records
            member (by simpa using before) ended).congr fun lost => ?_
          rwa [Relayer.step, fetcher_modifyInbox]
  | tick number answers =>
      refine forall_mem_modifyInbox ?_ number ?_
      · exact fun tasks member ended =>
          (intact.orphaned tasks member ended).congr fun lost => by
            rwa [Relayer.step, fetcher_modifyInbox]
      · intro tasks member orphaned ended
        rw [(InboxTasks.ticks_tick answers relayer.db tasks).processor_eq]
          at ended
        exact (orphaned ended).tick answers relayer.db
  | restart conf =>
      obtain ⟨create, created, fresh⟩ := exists_new conf
      have all := mapM_eq_ok fun inbox (_ : inbox ∈ conf.inboxes) =>
        created inbox
      simp only [Relayer.step, start, all]
      intro tasks member ended
      obtain ⟨inbox, -, rfl⟩ := List.mem_map.mp member
      rw [(MessageProcessor.fresh_of_new (fresh inbox).2).phase_eq] at ended
      cases ended
  | _ => exact kept _ rfl id

/-- A new relayer is intact. -/
theorem intact_start
    {conf : RelayerConf}
    {relayer : Relayer}
    (started : start conf Journal.empty = .ok relayer) :
    Intact chain relayer := by
  obtain ⟨create, created, fresh⟩ := exists_new conf
  have all := mapM_eq_ok fun inbox (_ : inbox ∈ conf.inboxes) => created inbox
  rw [start, all] at started
  cases started
  constructor
  · intro index recorded
    rw [AbacusDB.recorded_iff] at recorded
    cases recorded
  · intro tasks member ended
    obtain ⟨inbox, -, rfl⟩ := List.mem_map.mp member
    rw [(MessageProcessor.fresh_of_new (fresh inbox).2).phase_eq] at ended
    cases ended

/-- Every run leaves it intact. -/
theorem Intact.run
    {relayer : Relayer}
    (intact : Intact chain relayer)
    (invariant : Invariant chain (GenuineMultisig chain) relayer)
    (distinct : chain.Distinct)
    (decodable : Decodable chain)
    {events : List Event}
    (admissible : ∀ event ∈ events, Admissible chain event)
    (fewFaulty : ∀ latestIndex syncer, .fetch latestIndex syncer ∈ events →
      chain.FewFaulty syncer)
    (reads : ∀ number dbFails, .process number dbFails ∈ events →
      dbFails = false) :
    Intact chain (Machine.run Relayer.step relayer events) := by
  induction events generalizing relayer with
  | nil => exact intact
  | cons event events inductionHypothesis =>
      have allowed := admissible event List.mem_cons_self
      apply inductionHypothesis
      · refine intact.step invariant decodable allowed ?_
        rintro number dbFails rfl
        exact reads number dbFails List.mem_cons_self
      · refine invariant.step distinct allowed ?_
        rintro checkpoint ⟨answered, -⟩
        exact (fewFaulty _ _ List.mem_cons_self).genuine answered
      · exact fun later member =>
          admissible later (List.mem_cons_of_mem _ member)
      · exact fun latestIndex syncer member =>
          fewFaulty latestIndex syncer (List.mem_cons_of_mem _ member)
      · exact fun number dbFails member =>
          reads number dbFails (List.mem_cons_of_mem _ member)

/-- Every run from the empty database leaves it intact. -/
theorem intact_of_started
    (distinct : chain.Distinct)
    (decodable : Decodable chain)
    {conf : RelayerConf}
    {relayer : Relayer}
    (started : start conf Journal.empty = .ok relayer)
    {events : List Event}
    (faithful : ∀ poll, .pollOutbox poll ∈ events → chain.Faithful poll)
    (fewFaulty : ∀ latestIndex syncer, .fetch latestIndex syncer ∈ events →
      chain.FewFaulty syncer)
    (reads : ∀ number dbFails, .process number dbFails ∈ events →
      dbFails = false) :
    Intact chain (Machine.run step relayer events) := by
  exact (intact_start started).run (invariant_start started) distinct decodable
    (forall_admissible_of_fewFaulty decodable.room faithful fewFaulty)
    fewFaulty reads

/-- In every run with few faulty validators, with restarts at any point, in
which the processors can read the database: a processor has ended only where
the fetcher or its submitter has ended. No checkpoint, no message and no
assertion ends a processor. -/
theorem orphaned_of_ended
    (distinct : chain.Distinct)
    (decodable : Decodable chain)
    (conf : RelayerConf)
    (relayer : Relayer)
    (started : start conf Journal.empty = .ok relayer)
    (events : List Event)
    (faithful : ∀ poll, .pollOutbox poll ∈ events → chain.Faithful poll)
    (fewFaulty : ∀ latestIndex syncer, .fetch latestIndex syncer ∈ events →
      chain.FewFaulty syncer)
    (reads : ∀ number dbFails, .process number dbFails ∈ events →
      dbFails = false)
    (tasks : InboxTasks)
    (member : tasks ∈ (Machine.run step relayer events).inboxes)
    (ended : Pipeline.ended tasks.processor.phase = true) :
    Orphaned (Machine.run step relayer events) tasks :=
  (intact_of_started distinct decodable started faithful fewFaulty
    reads).orphaned tasks member ended

end Faulty

/-! ## A fetcher that ends -/

/-- The validators cannot be asked, and the processor makes a step. -/
def failingEvents : List Event :=
  [.fetch (.error .backend) sampleSyncer, .process 0 false]

/-- The two messages can be decoded. -/
theorem decodable_pair : Decodable OutboxChain.pair := by
  refine ⟨fun raw listed => ?_, by decide⟩
  have parses : ∀ raw ∈ OutboxChain.pair.messages,
      (CommittedMessage.tryFrom raw).isOk = true := by
    decide
  cases parsed : CommittedMessage.tryFrom raw with
  | ok message => exact ⟨message, rfl⟩
  | error error =>
      have accepted := parses raw listed
      rw [parsed] at accepted
      cases accepted

/-- The processor ends with the fetcher. -/
theorem orphaned_of_ended_failing :
    ∃ tasks ∈ (Machine.run (@step .transparent) sampleRelayer
        failingEvents).inboxes,
      Orphaned (Machine.run (@step .transparent) sampleRelayer failingEvents)
        tasks := by
  have ends : (Machine.run (@step .transparent) sampleRelayer
      failingEvents).inboxes.map (fun tasks =>
        Pipeline.ended tasks.processor.phase) = [true] := by
    decide +kernel
  obtain ⟨tasks, only, ended⟩ := List.map_eq_singleton_iff.mp ends
  have member : tasks ∈ (Machine.run (@step .transparent) sampleRelayer
      failingEvents).inboxes := by
    rw [only]
    exact List.mem_singleton.mpr rfl
  refine ⟨tasks, member, @orphaned_of_ended .transparent OutboxChain.pair
    distinct_pair decodable_pair sampleConf sampleRelayer rfl failingEvents
    ?_ ?_ ?_ tasks member ended⟩
  · rintro poll listed
    rcases List.mem_cons.mp listed with other | later
    · cases other
    · cases List.mem_singleton.mp later
  · rintro latestIndex syncer listed
    rcases List.mem_cons.mp listed with same | later
    · cases same
      exact fewFaulty_sampleSyncer
    · cases List.mem_singleton.mp later
  · rintro number dbFails listed
    rcases List.mem_cons.mp listed with other | later
    · cases other
    · cases List.mem_singleton.mp later
      rfl

end Relayer

end Abacus
