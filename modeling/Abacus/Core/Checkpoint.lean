import Abacus.Core.Primitives
import Mathlib.Data.List.Sort
import Mathlib.Data.Fin.Basic

/-!
# Checkpoints and multisig checkpoints

A validator signs the digest of a checkpoint. Signatures of several validators
over one checkpoint are assembled in the ascending order of their signers,
which is the order the contract on chain expects.
-/

namespace Abacus

/-- A checkpoint of an outbox. -/
structure Checkpoint where
  outboxDomain : UInt32
  root : H256
  index : UInt32
  deriving DecidableEq

section Hashing

variable [Crypto]

/-- The hash that separates the signatures of different domains. -/
def domainHash (domain : UInt32) : H256 :=
  Crypto.keccak256
    ((u32ToBeBytes domain).bytes ++ "ABACUS".toUTF8.toList)

/-- `hash_message`: the digest of a personal message. -/
def hashMessage (message : H256) : H256 :=
  Crypto.keccak256
    ("\x19Ethereum Signed Message:\n32".toUTF8.toList ++ message.bytes)

/-- The digest that validators sign. -/
def Checkpoint.signingHash (checkpoint : Checkpoint) : H256 :=
  Crypto.keccak256
    ((domainHash checkpoint.outboxDomain).bytes ++ checkpoint.root.bytes ++
      List.replicate 28 0 ++ (u32ToBeBytes checkpoint.index).bytes)

/-- The signing hash as a personal message. -/
def Checkpoint.prependedHash (checkpoint : Checkpoint) : H256 :=
  hashMessage checkpoint.signingHash

end Hashing

/-- A checkpoint with a signature. -/
structure SignedCheckpoint where
  checkpoint : Checkpoint
  signature : Signature
  deriving DecidableEq

/-- The address that signed a checkpoint. -/
def SignedCheckpoint.recover [Crypto] (signed : SignedCheckpoint) :
    Except AbacusError Address :=
  match Crypto.recover signed.checkpoint.prependedHash signed.signature with
  | .ok signer => .ok signer
  | .error error => .error (.signatureError error)

/-- A signed checkpoint with its recovered signer. -/
structure SignedCheckpointWithSigner where
  signer : Address
  signedCheckpoint : SignedCheckpoint
  deriving DecidableEq

/-- The root that a signer signed. -/
def SignedCheckpointWithSigner.root (signed : SignedCheckpointWithSigner) :
    H256 :=
  signed.signedCheckpoint.checkpoint.root

/-- The order of the signers. -/
def SignerLe (left right : SignedCheckpointWithSigner) : Prop :=
  left.signer ≤ right.signer

instance : DecidableRel SignerLe :=
  fun left right => inferInstanceAs (Decidable (left.signer ≤ right.signer))

instance : Std.Total SignerLe where
  total left right := le_total left.signer right.signer

instance : IsTrans SignedCheckpointWithSigner SignerLe where
  trans _ _ _ first second := le_trans (α := Address) first second

/-- A checkpoint with the signatures of several validators. -/
structure MultisigSignedCheckpoint where
  checkpoint : Checkpoint
  signatures : List Signature
  deriving DecidableEq

/-- Assemble signed checkpoints, which must all sign the same checkpoint. -/
def MultisigSignedCheckpoint.tryFrom :
    List SignedCheckpointWithSigner →
      Except MultisigSignedCheckpointError MultisigSignedCheckpoint
  | [] => .error .emptySignatures
  | first :: rest =>
      let checkpoint := first.signedCheckpoint.checkpoint
      if (first :: rest).all
          (fun signed => checkpoint == signed.signedCheckpoint.checkpoint) then
        .ok {
          checkpoint := checkpoint
          signatures := ((first :: rest).insertionSort SignerLe).map
            fun signed => signed.signedCheckpoint.signature }
      else .error .inconsistentCheckpoints

namespace MultisigSignedCheckpoint

/-- Assembly succeeds exactly on signatures over one checkpoint. -/
theorem tryFrom_eq_ok_iff
    {signed : List SignedCheckpointWithSigner}
    {multisig : MultisigSignedCheckpoint} :
    tryFrom signed = .ok multisig ↔
      signed ≠ [] ∧
        (∀ each ∈ signed,
          each.signedCheckpoint.checkpoint = multisig.checkpoint) ∧
        multisig.signatures = (signed.insertionSort SignerLe).map
          fun each => each.signedCheckpoint.signature := by
  cases signed with
  | nil => simp [tryFrom]
  | cons first rest =>
      rw [tryFrom]
      constructor
      · intro assembled
        split at assembled
        · rename_i same
          cases assembled
          refine ⟨by simp, ?_, rfl⟩
          intro each member
          exact (beq_iff_eq.mp (List.all_eq_true.mp same each member)).symm
        · cases assembled
      · rintro ⟨-, same, signatures⟩
        have firstSame := same first (by simp)
        rw [if_pos]
        · rw [firstSame, ← signatures]
        · rw [List.all_eq_true]
          intro each member
          rw [firstSame, same each member]
          exact beq_self_eq_true _

/-- Signatures over one checkpoint are assembled. -/
theorem exists_tryFrom_eq_ok
    {signed : List SignedCheckpointWithSigner}
    {checkpoint : Checkpoint}
    (nonempty : signed ≠ [])
    (same : ∀ each ∈ signed,
      each.signedCheckpoint.checkpoint = checkpoint) :
    ∃ multisig, tryFrom signed = .ok multisig := by
  refine ⟨⟨checkpoint, (signed.insertionSort SignerLe).map
    fun each => each.signedCheckpoint.signature⟩, ?_⟩
  exact tryFrom_eq_ok_iff.mpr ⟨nonempty, same, rfl⟩

/-- Assembled signatures come from distinct signers in ascending order. -/
theorem exists_signers_of_tryFrom [Crypto]
    {signed : List SignedCheckpointWithSigner}
    {multisig : MultisigSignedCheckpoint}
    (assembled : tryFrom signed = .ok multisig)
    (distinct : (signed.map SignedCheckpointWithSigner.signer).Nodup)
    (recovers : ∀ each ∈ signed,
      each.signedCheckpoint.recover = .ok each.signer) :
    ∃ signers : List Address,
      List.Forall₂
        (fun signature signer =>
          SignedCheckpoint.recover ⟨multisig.checkpoint, signature⟩ =
            .ok signer)
        multisig.signatures signers ∧
      signers.Pairwise (· < ·) ∧
      ∀ signer ∈ signers, ∃ each ∈ signed, each.signer = signer := by
  obtain ⟨-, same, signatures⟩ := tryFrom_eq_ok_iff.mp assembled
  have permuted := List.perm_insertionSort SignerLe signed
  have sorted := List.pairwise_insertionSort SignerLe signed
  refine ⟨(signed.insertionSort SignerLe).map
    SignedCheckpointWithSigner.signer, ?_, ?_, ?_⟩
  · rw [signatures, List.forall₂_map_left_iff, List.forall₂_map_right_iff,
      List.forall₂_same]
    intro each member
    have inside := permuted.mem_iff.mp member
    rw [← same each inside]
    exact recovers each inside
  · have sortedDistinct :
        ((signed.insertionSort SignerLe).map
          SignedCheckpointWithSigner.signer).Nodup :=
      (permuted.map _).nodup_iff.mpr distinct
    rw [List.pairwise_map]
    rw [List.Nodup, List.pairwise_map] at sortedDistinct
    exact (sorted.and sortedDistinct).imp fun {left right} both =>
      lt_of_le_of_ne both.1 both.2
  · intro signer member
    obtain ⟨each, inside, rfl⟩ := List.mem_map.mp member
    exact ⟨each, permuted.mem_iff.mp inside, rfl⟩

end MultisigSignedCheckpoint

end Abacus
