import Abacus.Accumulator.Merkle
import Abacus.Base.Multisig
import Abacus.Base.OutboxSyncCorrectness
import Abacus.Library.HashTree

/-!
# Checkpoints of an honest quorum

As long as fewer validators than the threshold are faulty, one of the signers
of a fetched checkpoint is honest. So the checkpoint is one that the outbox has
had: the root of the tree of the messages that are dispatched up to its index.
-/

namespace Abacus

open NodeHash (hashConcat)

/-- Among more signers than there are faulty ones, one is not faulty. -/
theorem exists_mem_not_mem_of_length_lt
    {signers faulty : List Address}
    (distinct : signers.Nodup)
    (more : faulty.length < signers.length) :
    ∃ signer ∈ signers, signer ∉ faulty := by
  by_contra all
  push Not at all
  exact absurd (List.Nodup.length_le_of_subset distinct all) (by omega)

section Quorum

variable [Crypto]
variable {chain : OutboxChain}

namespace OutboxChain

/-- The leaves of the dispatched messages up to an index. -/
def leavesUpTo (chain : OutboxChain) (index : UInt32) : List H256 :=
  (chain.messages.take (index.toNat + 1)).map RawCommittedMessage.leaf

/-- The root of the tree of the outbox once the message at an index is
dispatched. -/
def rootAt (chain : OutboxChain) (index : UInt32) : H256 :=
  HashTree.root hashConcat treeDepth
    (HashTree.pad NodeHash.zero (chain.leavesUpTo index))

/-- A checkpoint that the outbox has had. -/
structure Genuine (chain : OutboxChain) (checkpoint : Checkpoint) : Prop where
  dispatched : checkpoint.index.toNat < chain.messages.length
  root_eq : checkpoint.root = chain.rootAt checkpoint.index

/-- A validator is honest if every checkpoint that its syncer returns with its
signature is one that the outbox has had. -/
def Honest (chain : OutboxChain) (entry : ValidatorEntry) : Prop :=
  ∀ index signed, entry.2.fetchCheckpoint index = .ok (some signed) →
    signed.recover = .ok entry.1 → chain.Genuine signed.checkpoint

/-- Fewer validators than the threshold are faulty. -/
def FewFaulty (chain : OutboxChain) (syncer : MultisigCheckpointSyncer) :
    Prop :=
  ∃ faulty : List Address, faulty.length < syncer.threshold ∧
    ∀ entry ∈ syncer.checkpointSyncers, entry.1 ∉ faulty → chain.Honest entry

end OutboxChain

/-- Whatever is fetched while few validators are faulty is a checkpoint that
the outbox has had. -/
theorem OutboxChain.FewFaulty.genuine
    {syncer : MultisigCheckpointSyncer}
    (fewFaulty : chain.FewFaulty syncer)
    {index : UInt32}
    {multisig : MultisigSignedCheckpoint}
    (fetched : syncer.fetchCheckpoint index = .ok (some multisig)) :
    chain.Genuine multisig.checkpoint := by
  obtain ⟨faulty, fewer, honest⟩ := fewFaulty
  obtain ⟨before, entry, after, root, split, quorum, assembled⟩ :=
    exists_assembled_of_fetchCheckpoint fetched
  obtain ⟨-, same, -⟩ := MultisigSignedCheckpoint.tryFrom_eq_ok_iff.mp assembled
  have distinct : ((votes index (before ++ [entry]) root).map
      SignedCheckpointWithSigner.signer).Nodup := by
    apply nodup_signers_votes
    have all := syncer.nodup_validators
    rw [split, List.append_cons, List.map_append] at all
    exact all.of_append_left
  obtain ⟨signer, member, correct⟩ :=
    exists_mem_not_mem_of_length_lt distinct
      (Nat.lt_of_lt_of_le fewer (by rwa [List.length_map]))
  obtain ⟨vote, voted, rfl⟩ := List.mem_map.mp member
  obtain ⟨⟨other, asked, accepts⟩, -⟩ := mem_votes_iff.mp voted
  obtain ⟨answer, -, recovered, signs⟩ := accepted_eq_some_iff.mp accepts
  have configured : other ∈ syncer.checkpointSyncers := by
    rw [split, List.append_cons]
    exact List.mem_append_left _ asked
  rw [signs] at recovered correct
  rw [← same vote voted]
  exact honest other configured correct _ _ answer recovered

end Quorum

end Abacus
