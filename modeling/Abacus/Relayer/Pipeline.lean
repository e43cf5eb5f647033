import Abacus.Base.Multisig
import Abacus.Relayer.CheckpointFetcher
import Abacus.Relayer.Relay

/-!
# The fetcher and the processor together

The fetcher publishes checkpoints of increasing indices, of which the
processor sees the newest. The builder never gets ahead of the newest
checkpoint by more than the leaves of the checkpoint it was built for, so the
assertions of the processor hold and every proof is for the root of the
checkpoint it is sent with.
-/

namespace Abacus

/-- A fetcher, until it has failed, and a processor with its surroundings. -/
structure Pipeline where
  fetcher : Option CheckpointFetcher
  relay : Relay

namespace Pipeline

open Relay (Carries Holds Keeps)

/-- Both tasks before any event. -/
def new (db : AbacusDB) (processor : MessageProcessor) : Pipeline where
  fetcher := some .new
  relay := .new db processor

/-- What happens: the fetcher makes an iteration, the processor makes a step,
another task puts a record, or the submitter is gone. -/
inductive Event
  | fetch (latestIndex : Except Report (Option UInt32))
      (fetchCheckpoint :
        UInt32 → Except Report (Option MultisigSignedCheckpoint))
  | processor (dbFails : Bool)
  | put (put : DbPut)
  | closeSubmitter

/-- The processor has ended, which closes its end of the channels. -/
def ended : Phase → Bool
  | .failed _ => true
  | .panicked _ => true
  | _ => false

/-! ## Published checkpoints -/

/-- A checkpoint was published: it is the newest one, or a later one is. -/
structure Published (ckpt : Option MultisigSignedCheckpoint)
    (checkpoint : MultisigSignedCheckpoint) : Prop where
  current : ∃ newest, ckpt = some newest ∧
    (newest = checkpoint ∨
      checkpoint.checkpoint.index < newest.checkpoint.index)
  bounded : checkpoint.checkpoint.index.toNat ≤ 2 ^ 32 - 2

theorem Published.publish
    {ckpt : Option MultisigSignedCheckpoint}
    {checkpoint newer : MultisigSignedCheckpoint}
    (published : Published ckpt checkpoint)
    (above : ∀ newest, ckpt = some newest →
      newest.checkpoint.index < newer.checkpoint.index) :
    Published (some newer) checkpoint := by
  obtain ⟨newest, seen, same | later⟩ := published.current
  · subst same
    exact ⟨⟨newer, rfl, .inr (above _ seen)⟩, published.bounded⟩
  · exact ⟨⟨newer, rfl, .inr (UInt32.lt_trans later (above _ seen))⟩,
      published.bounded⟩

/-! ## The machine -/

section Machine

variable [Crypto]

/-- An iteration of the fetcher. A fetcher that fails closes its channel. -/
def fetch (answers : FetcherAnswers) (fetcher : CheckpointFetcher)
    (relay : Relay) : Pipeline :=
  match fetcher.iteration answers with
  | .error _ =>
      { fetcher := none, relay := relay.step .closeCheckpoints }
  | .ok (after, none) => { fetcher := some after, relay := relay }
  | .ok (after, some checkpoint) =>
      { fetcher := some after, relay := relay.step (.publish checkpoint) }

/-- Both tasks after an event. -/
def step (pipeline : Pipeline) : Event → Pipeline
  | .fetch latestIndex fetchCheckpoint =>
      match pipeline.fetcher with
      | none => pipeline
      | some fetcher =>
          fetch {
            latestIndex := latestIndex
            fetchCheckpoint := fetchCheckpoint
            rxClosed := ended pipeline.relay.processor.phase }
            fetcher pipeline.relay
  | .processor dbFails =>
      { pipeline with relay := pipeline.relay.step (.processor dbFails) }
  | .put put => { pipeline with relay := pipeline.relay.step (.put put) }
  | .closeSubmitter =>
      { pipeline with relay := pipeline.relay.step .closeSubmitter }

/-- Every message is stored under its own leaf. -/
def WellKeyed (db : AbacusDB) : Prop :=
  ∀ leaf raw, db (.message leaf) = some raw → raw.leaf = leaf

/-- Fetched checkpoints have the requested index, which leaves room for the
count of their leaves. Puts keep the stored leaves and messages, and store
messages under their own leaves. -/
def Admissible (pipeline : Pipeline) : Event → Prop
  | .fetch _ fetchCheckpoint =>
      ∀ index checkpoint, fetchCheckpoint index = .ok (some checkpoint) →
        checkpoint.checkpoint.index = index ∧ index.toNat ≤ 2 ^ 32 - 2
  | .put put =>
      Keeps pipeline.relay.db (put.apply pipeline.relay.db) ∧
        WellKeyed (put.apply pipeline.relay.db)
  | _ => True

/-- What is sent with a message proves it against the checkpoint. -/
structure Verified (args : SubmitMessageArgs) : Prop where
  covered : args.leafIndex ≤ args.checkpoint.checkpoint.index
  index_eq : args.proof.index = args.leafIndex.toNat
  leaf_eq : args.proof.leaf = args.committedMessage.toLeaf
  root_eq : merkleRootFromBranch args.proof.leaf args.proof.path 32
    args.proof.index = .ok args.checkpoint.checkpoint.root

/-! ## The invariant -/

/-- The builder holds exactly the leaves of a checkpoint. -/
structure BuiltFor (builder : MerkleTreeBuilder H256)
    (checkpoint : MultisigSignedCheckpoint) : Prop where
  count_eq : builder.count.toNat = checkpoint.checkpoint.index.toNat + 1
  root_eq : builder.prover.root = checkpoint.checkpoint.root

/-- The builder is empty, has room for the newest checkpoint, or was built for
it. -/
def Ready (ckpt : Option MultisigSignedCheckpoint)
    (builder : MerkleTreeBuilder H256) : Prop :=
  builder.count.toNat = 0 ∨
    ∃ newest, ckpt = some newest ∧
      (builder.count.toNat ≤ newest.checkpoint.index.toNat ∨
        BuiltFor builder newest)

/-- What holds in each phase. -/
def PhaseInvariant (ckpt : Option MultisigSignedCheckpoint)
    (processor : MessageProcessor) : Prop :=
  match processor.phase with
  | .updating _ checkpoint next =>
      Published ckpt checkpoint ∧
        processor.messageLeafIndex ≤ checkpoint.checkpoint.index ∧
        processor.proverSync.count.toNat = next ∧
        next ≤ checkpoint.checkpoint.index.toNat + 1
  | .dispatching _ checkpoint =>
      Published ckpt checkpoint ∧
        processor.messageLeafIndex ≤ checkpoint.checkpoint.index ∧
        BuiltFor processor.proverSync checkpoint
  | .failed _ => True
  | .panicked reason =>
      reason = .overflow ∧ processor.messageLeafIndex.toNat = 2 ^ 32 - 1
  | _ => Ready ckpt processor.proverSync

/-- The builder holds the first leaves of the database. -/
def HoldsLeaves (db : AbacusDB) (builder : MerkleTreeBuilder H256) : Prop :=
  ∃ leaves, MerkleTreeBuilder.Holds leaves builder ∧
    leaves.length ≤ 2 ^ 32 - 1 ∧
    ∀ (index : UInt32) (leaf : H256), leaves[index.toNat]? = some leaf →
      db (.leaf index) = some leaf

/-- The processor is in step with the database and the channel. -/
structure Synced (db : AbacusDB) (ckpt : Option MultisigSignedCheckpoint)
    (processor : MessageProcessor) : Prop where
  leaves : HoldsLeaves db processor.proverSync
  carries : Carries db processor
  phase : PhaseInvariant ckpt processor

/-! ## A newer checkpoint -/

theorem Ready.publish
    {ckpt : Option MultisigSignedCheckpoint}
    {builder : MerkleTreeBuilder H256}
    {newer : MultisigSignedCheckpoint}
    (ready : Ready ckpt builder)
    (above : ∀ newest, ckpt = some newest →
      newest.checkpoint.index < newer.checkpoint.index) :
    Ready (some newer) builder := by
  rcases ready with empty | ⟨newest, seen, room | built⟩
  · exact .inl empty
  · have later := UInt32.lt_iff_toNat_lt.mp (above newest seen)
    exact .inr ⟨newer, rfl, .inl (by omega)⟩
  · have later := UInt32.lt_iff_toNat_lt.mp (above newest seen)
    have count := built.count_eq
    exact .inr ⟨newer, rfl, .inl (by omega)⟩

/-- A builder that was built for a published checkpoint is ready. -/
theorem Published.ready
    {ckpt : Option MultisigSignedCheckpoint}
    {checkpoint : MultisigSignedCheckpoint}
    {builder : MerkleTreeBuilder H256}
    (published : Published ckpt checkpoint)
    (built : BuiltFor builder checkpoint) :
    Ready ckpt builder := by
  obtain ⟨newest, seen, rfl | later⟩ := published.current
  · exact .inr ⟨newest, seen, .inr built⟩
  · have above := UInt32.lt_iff_toNat_lt.mp later
    have count := built.count_eq
    exact .inr ⟨newest, seen, .inl (by omega)⟩

theorem PhaseInvariant.publish
    {ckpt : Option MultisigSignedCheckpoint}
    {processor : MessageProcessor}
    {newer : MultisigSignedCheckpoint}
    (invariant : PhaseInvariant ckpt processor)
    (above : ∀ newest, ckpt = some newest →
      newest.checkpoint.index < newer.checkpoint.index) :
    PhaseInvariant (some newer) processor := by
  unfold PhaseInvariant at *
  split at invariant
  · exact ⟨invariant.1.publish above, invariant.2⟩
  · exact ⟨invariant.1.publish above, invariant.2⟩
  · exact trivial
  · exact invariant
  · exact invariant.publish above

/-! ## Steps of the processor -/

section Processor

variable {around : Surroundings}
variable {processor : MessageProcessor}

/-- A change of the phase keeps the invariant: an update ends with the root of
its checkpoint, and an update is left out only when the builder was built for
the newest checkpoint. -/
theorem phaseInvariant_goto
    {phase : Phase}
    (goes : MessageProcessor.Goes around processor phase)
    (positive : ∀ newest, around.ckptRx = some newest →
      0 < newest.checkpoint.index.toNat)
    (bounded : ∀ newest, around.ckptRx = some newest →
      newest.checkpoint.index.toNat ≤ 2 ^ 32 - 2)
    (invariant : PhaseInvariant around.ckptRx processor) :
    PhaseInvariant around.ckptRx { processor with phase := phase } := by
  cases goes with
  | start starting published =>
      simp only [PhaseInvariant, starting] at invariant
      exact invariant
  | unprocessed idle unknown =>
      simp only [PhaseInvariant, idle] at invariant
      exact invariant
  | missing reading absent =>
      simp only [PhaseInvariant, reading] at invariant
      exact invariant
  | accept reading found parsed =>
      simp only [PhaseInvariant, reading] at invariant
      exact invariant
  | @update message checkpoint awaiting published covered behind later =>
      have room := UInt32.le_iff_toNat_le.mp behind
      exact ⟨⟨⟨checkpoint, published, .inl rfl⟩,
        bounded checkpoint published⟩, covered, rfl,
        Nat.le_succ_of_le room⟩
  | @ready message checkpoint awaiting published covered ahead =>
      simp only [PhaseInvariant, awaiting] at invariant
      have ahead : checkpoint.checkpoint.index.toNat <
          processor.proverSync.count.toNat := by
        by_contra behind
        have first := ahead
          (UInt32.le_iff_toNat_le.mpr (Nat.not_lt.mp behind))
        have nonzero := positive checkpoint published
        rw [first] at nonzero
        exact Nat.lt_irrefl 0 nonzero
      rcases invariant with empty | ⟨newest, seen, room | built⟩
      · omega
      · rw [published] at seen
        cases seen
        omega
      · rw [published] at seen
        cases seen
        exact ⟨⟨⟨checkpoint, published, .inl rfl⟩,
          bounded checkpoint published⟩, covered, built⟩
  | @compared message checkpoint next updating complete checked =>
      simp only [PhaseInvariant, updating] at invariant
      obtain ⟨published, covered, count, most⟩ := invariant
      have total : processor.proverSync.count.toNat =
          checkpoint.checkpoint.index.toNat + 1 := by
        omega
      exact ⟨published, covered, total,
        MerkleTreeBuilder.root_eq_of_checkRoots checked⟩
  | unlisted dispatching absent =>
      simp only [PhaseInvariant, dispatching] at invariant
      exact invariant.1.ready invariant.2.2

/-- Ingesting the next leaf of the database keeps it in step. -/
theorem holdsLeaves_ingest
    {db : AbacusDB}
    {builder after : MerkleTreeBuilder H256}
    {leaf : H256}
    (holds : HoldsLeaves db builder)
    (room : builder.count.toNat ≤ 2 ^ 32 - 2)
    (found : db (.leaf builder.count) = some leaf)
    (ingested : builder.ingest leaf = .ok after) :
    HoldsLeaves db after ∧ after.count.toNat = builder.count.toNat + 1 := by
  obtain ⟨leaves, held, fits, stored⟩ := holds
  have count := MerkleTreeBuilder.toNat_count held (by omega)
  obtain ⟨other, succeeded, afterHeld⟩ :=
    MerkleTreeBuilder.ingest_eq_ok held leaf (by omega)
  rw [ingested] at succeeded
  cases succeeded
  have length : (leaves ++ [leaf]).length = leaves.length + 1 := by simp
  refine ⟨⟨leaves ++ [leaf], afterHeld, by omega, ?_⟩, ?_⟩
  · intro index other inside
    rcases Nat.lt_trichotomy index.toNat leaves.length with
      earlier | last | beyond
    · rw [List.getElem?_append_left earlier] at inside
      exact stored index other inside
    · rw [last, List.getElem?_concat_length] at inside
      cases inside
      rw [← count] at last
      rw [UInt32.toNat_inj.mp last]
      exact found
    · rw [List.getElem?_eq_none (by omega)] at inside
      cases inside
  · rw [MerkleTreeBuilder.toNat_count afterHeld (by omega), length, count]

/-- A builder that was built for a bounded checkpoint holds the leaf at every
index that the checkpoint covers, and proves it for the root of the
checkpoint. -/
theorem exists_proof_of_builtFor
    {db : AbacusDB}
    {builder : MerkleTreeBuilder H256}
    {checkpoint : MultisigSignedCheckpoint}
    {index : UInt32}
    (holds : HoldsLeaves db builder)
    (built : BuiltFor builder checkpoint)
    (covered : index ≤ checkpoint.checkpoint.index) :
    ∃ leaf proof, db (.leaf index) = some leaf ∧
      builder.getProof index = .ok proof ∧
      proof.index = index.toNat ∧ proof.leaf = leaf ∧
      proof.root = .ok checkpoint.checkpoint.root := by
  obtain ⟨leaves, held, fits, stored⟩ := holds
  have count := MerkleTreeBuilder.toNat_count held (by omega)
  have below := UInt32.le_iff_toNat_le.mp covered
  have total := built.count_eq
  have inside : index.toNat < leaves.length := by omega
  have found := List.getElem?_eq_getElem inside
  obtain ⟨proof, proved, indexEq, leafEq, root⟩ :=
    MerkleTreeBuilder.getProof_eq_ok held (by rw [treeDepth]; omega) found
  rw [built.root_eq] at root
  exact ⟨leaves[index.toNat], proof, stored index _ found, proved, indexEq,
    leafEq, root⟩

/-- The only panic is that of moving past the last `u32`. -/
theorem eq_overflow_of_panics
    {reason : Panic}
    (panics : MessageProcessor.Panics processor reason)
    (synced : Synced around.db around.ckptRx processor) :
    reason = .overflow ∧
      processor.messageLeafIndex.toNat = 2 ^ 32 - 1 := by
  have invariant := synced.phase
  cases panics with
  | lastIndex last => exact ⟨rfl, last⟩
  | @ingest message checkpoint next leaf reason updating below panicked =>
      simp only [PhaseInvariant, updating] at invariant
      obtain ⟨published, -, count, -⟩ := invariant
      obtain ⟨leaves, held, fits, -⟩ := synced.leaves
      have bound := published.bounded
      have length := MerkleTreeBuilder.toNat_count held (by omega)
      obtain ⟨after, succeeded, -⟩ :=
        MerkleTreeBuilder.ingest_eq_ok held leaf (by omega)
      rw [panicked] at succeeded
      cases succeeded
  | lastCheckpoint dispatching last =>
      simp only [PhaseInvariant, dispatching] at invariant
      have bound := invariant.1.bounded
      omega
  | count dispatching differs =>
      simp only [PhaseInvariant, dispatching] at invariant
      exact absurd invariant.2.2.count_eq.symm differs
  | prove dispatching panicked =>
      simp only [PhaseInvariant, dispatching] at invariant
      obtain ⟨-, covered, built⟩ := invariant
      obtain ⟨leaf, proof, -, proved, -⟩ :=
        exists_proof_of_builtFor synced.leaves built covered
      rw [panicked] at proved
      cases proved

/-- What is sent is verified. -/
theorem verified_of_sends
    {message : CommittedMessage}
    {checkpoint : MultisigSignedCheckpoint}
    {proof : Proof H256}
    (sends : MessageProcessor.Sends processor message checkpoint proof)
    (wellKeyed : WellKeyed around.db)
    (synced : Synced around.db around.ckptRx processor) :
    Verified (.new processor.messageLeafIndex message checkpoint proof) := by
  have invariant := synced.phase
  simp only [PhaseInvariant, sends.dispatching] at invariant
  obtain ⟨-, covered, built⟩ := invariant
  obtain ⟨leaf, same, stored, proved, index, leafEq, root⟩ :=
    exists_proof_of_builtFor synced.leaves built covered
  rw [sends.proved] at proved
  cases proved
  obtain ⟨own, raw, ownStored, rawStored, parsed⟩ :=
    synced.carries message (by rw [sends.dispatching]; rfl)
  rw [stored] at ownStored
  cases ownStored
  refine ⟨covered, index, ?_, root⟩
  rw [SubmitMessageArgs.new, leafEq,
    CommittedMessage.toLeaf_of_tryFrom parsed, wellKeyed leaf raw rawStored]

/-- A step of the processor keeps it in step, and what it sends is
verified. -/
theorem synced_transition
    {outcome : MessageProcessor × Option SubmitMessageArgs}
    (transition : MessageProcessor.Transition around processor outcome)
    (wellKeyed : WellKeyed around.db)
    (positive : ∀ newest, around.ckptRx = some newest →
      0 < newest.checkpoint.index.toNat)
    (bounded : ∀ newest, around.ckptRx = some newest →
      newest.checkpoint.index.toNat ≤ 2 ^ 32 - 2)
    (synced : Synced around.db around.ckptRx processor) :
    Synced around.db around.ckptRx outcome.1 ∧
      ∀ args, outcome.2 = some args → Verified args := by
  have carries := Relay.carries_transition transition synced.carries
  have invariant := synced.phase
  cases transition with
  | stay => exact ⟨synced, fun _ nothing => nomatch nothing⟩
  | fail error =>
      exact ⟨⟨synced.leaves, carries, trivial⟩,
        fun _ nothing => nomatch nothing⟩
  | panic cause =>
      have overflow := eq_overflow_of_panics cause synced
      exact ⟨⟨synced.leaves, carries, overflow⟩,
        fun _ nothing => nomatch nothing⟩
  | goto goes =>
      exact ⟨⟨synced.leaves, carries,
        phaseInvariant_goto goes positive bounded invariant⟩,
        fun _ nothing => nomatch nothing⟩
  | pass scanning passed successor =>
      refine ⟨⟨synced.leaves, carries, ?_⟩, fun _ nothing => nomatch nothing⟩
      rcases scanning with idle | reading
      · simpa only [PhaseInvariant, idle] using invariant
      · simpa only [PhaseInvariant, reading] using invariant
  | @ingest message checkpoint next leaf proverSync updating below found
      ingested =>
      simp only [PhaseInvariant, updating] at invariant
      obtain ⟨published, covered, count, most⟩ := invariant
      have bound := published.bounded
      have position : UInt32.ofNat next = processor.proverSync.count := by
        rw [← count, UInt32.ofNat_toNat]
      rw [position] at found
      obtain ⟨held, counted⟩ :=
        holdsLeaves_ingest synced.leaves (by omega) found ingested
      rw [count] at counted
      exact ⟨⟨held, carries, published, covered, counted,
        Nat.succ_le_succ below⟩,
        fun _ nothing => nomatch nothing⟩
  | send sends successor =>
      have verified := verified_of_sends sends wellKeyed synced
      simp only [PhaseInvariant, sends.dispatching] at invariant
      refine ⟨⟨synced.leaves, carries, invariant.1.ready invariant.2.2⟩, ?_⟩
      rintro args ⟨⟩
      exact verified
  | sendLast sends last =>
      simp only [PhaseInvariant, sends.dispatching] at invariant
      have bound := invariant.1.bounded
      have covered := UInt32.le_iff_toNat_le.mp invariant.2.1
      omega

end Processor

end Machine

end Pipeline

end Abacus
