import Abacus.Relayer.Prover

/-!
# The Merkle tree builder

The builder feeds the leaves of the database to the prover and to the
incremental tree, and compares their roots with each other after every leaf
and with the checkpoint after the last one.
-/

namespace Abacus

variable {H : Type} [NodeHash H]

/-- The prover and the incremental tree of the same leaves. -/
structure MerkleTreeBuilder (H : Type) where
  prover : Prover H
  incremental : IncrementalMerkle H

/-- Errors of the builder. -/
inductive MerkleTreeBuilderError (H : Type)
  | mismatchedRoots (proverRoot incrementalRoot checkpointRoot : H)
  | unavailableLeaf (leafIndex : UInt32)
  | proverError (error : ProverError H)
  | dbError (error : Report)
  deriving DecidableEq

namespace MerkleTreeBuilder

/-- A panic of the accumulators, as a fault of the builder. -/
def liftPanic (outcome : Except Panic α) :
    Except (Fault (MerkleTreeBuilderError H)) α :=
  outcome.mapError Fault.panic

/-- The builder of an empty tree. -/
def new : Except Panic (MerkleTreeBuilder H) := do
  let prover ← Prover.default
  return { prover := prover, incremental := .default }

/-- The proof of a leaf. -/
def getProof (builder : MerkleTreeBuilder H) (leafIndex : UInt32) :
    Except (Fault (MerkleTreeBuilderError H)) (Proof H) := do
  match ← liftPanic (builder.prover.prove leafIndex.toNat) with
  | .ok proof => return proof
  | .error error => throw (.error (.proverError error))

/-- Ingest a leaf into both accumulators. -/
def ingest [DecidableEq H] (builder : MerkleTreeBuilder H) (leaf : H) :
    Except Panic (MerkleTreeBuilder H) := do
  let prover ← builder.prover.expectIngest leaf
  let incremental ← builder.incremental.ingest leaf
  if prover.root = incremental.root then
    return { prover := prover, incremental := incremental }
  else throw .rootsDiffer

/-- Ingest the leaf at an index, given what the database returns for it. -/
def ingestLeafIndex [DecidableEq H] (builder : MerkleTreeBuilder H)
    (found : Except (Fault Report) (Option H)) (leafIndex : UInt32) :
    Except (Fault (MerkleTreeBuilderError H)) (MerkleTreeBuilder H) :=
  match found with
  | .ok (some leaf) => liftPanic (builder.ingest leaf)
  | .ok none => .error (.error (.unavailableLeaf leafIndex))
  | .error (.error error) => .error (.error (.dbError error))
  | .error (.panic reason) => .error (.panic reason)

/-- The number of leaves. -/
def count (builder : MerkleTreeBuilder H) : UInt32 :=
  UInt32.ofNat builder.prover.count

/-- The comparison at the end of an update. -/
def checkRoots [DecidableEq H] (builder : MerkleTreeBuilder H)
    (checkpointRoot : H) :
    Except (Fault (MerkleTreeBuilderError H)) Unit :=
  let proverRoot := builder.prover.root
  let incrementalRoot := builder.incremental.root
  if proverRoot ≠ incrementalRoot ∨ proverRoot ≠ checkpointRoot then
    .error (.error
      (.mismatchedRoots proverRoot incrementalRoot checkpointRoot))
  else .ok ()

/-! ## The ingested leaves -/

/-- The state of a builder that has ingested a list of leaves. -/
structure Holds (leaves : List H) (builder : MerkleTreeBuilder H) : Prop where
  prover : Prover.Holds leaves builder.prover
  incremental : IncrementalMerkle.Holds leaves builder.incremental

/-- A new builder has ingested nothing. -/
theorem holds_new :
    ∃ builder : MerkleTreeBuilder H, new = .ok builder ∧ Holds [] builder := by
  obtain ⟨prover, created, holds⟩ := @Prover.holds_default H _
  refine ⟨⟨prover, .default⟩, ?_, holds, IncrementalMerkle.holds_default⟩
  rw [new, created]
  rfl

/-- The count of a builder, as long as it fits into a `u32`. -/
theorem toNat_count
    {leaves : List H}
    {builder : MerkleTreeBuilder H}
    (holds : Holds leaves builder)
    (fits : leaves.length < 2 ^ 32) :
    builder.count.toNat = leaves.length := by
  rw [count, holds.prover.count_eq, UInt32.toNat_ofNat_of_lt' fits]

/-- A leaf that fits is ingested, and the two roots agree. -/
theorem ingest_eq_ok [DecidableEq H]
    {leaves : List H}
    {builder : MerkleTreeBuilder H}
    (holds : Holds leaves builder)
    (leaf : H)
    (room : leaves.length < 2 ^ 32 - 1) :
    ∃ after, builder.ingest leaf = .ok after ∧
      Holds (leaves ++ [leaf]) after := by
  have below := lt_two_pow_treeDepth room.le
  have fits : (leaves ++ [leaf]).length < 2 ^ treeDepth :=
    lt_two_pow_treeDepth (by rw [List.length_append]; exact room)
  obtain ⟨prover, proverIngested, proverHolds⟩ :=
    Prover.expectIngest_eq_ok holds.prover leaf below
  obtain ⟨incremental, incrementalIngested, incrementalHolds⟩ :=
    IncrementalMerkle.ingest_eq_ok holds.incremental leaf room
  have agree : prover.root = incremental.root :=
    (Prover.root_eq proverHolds (Nat.le_of_lt fits)).trans
      (IncrementalMerkle.root_eq incrementalHolds fits).symm
  refine ⟨⟨prover, incremental⟩, ?_, proverHolds, incrementalHolds⟩
  simp only [ingest, proverIngested, incrementalIngested, bind, Except.bind]
  exact if_pos agree

/-- The comparison succeeds only if both roots are that of the checkpoint. -/
theorem roots_eq_of_checkRoots [DecidableEq H]
    {builder : MerkleTreeBuilder H}
    {checkpointRoot : H}
    (checked : builder.checkRoots checkpointRoot = .ok ()) :
    builder.prover.root = builder.incremental.root ∧
      builder.prover.root = checkpointRoot := by
  unfold checkRoots at checked
  simp only at checked
  split at checked
  · cases checked
  · rename_i same
    exact ⟨not_not.mp fun different => same (.inl different),
      not_not.mp fun different => same (.inr different)⟩

theorem root_eq_of_checkRoots [DecidableEq H]
    {builder : MerkleTreeBuilder H}
    {checkpointRoot : H}
    (checked : builder.checkRoots checkpointRoot = .ok ()) :
    builder.prover.root = checkpointRoot :=
  (roots_eq_of_checkRoots checked).2

/-- Every ingested leaf has a proof, which evaluates to the root. -/
theorem getProof_eq_ok
    {leaves : List H}
    {builder : MerkleTreeBuilder H}
    (holds : Holds leaves builder)
    (fits : leaves.length ≤ 2 ^ treeDepth)
    {leafIndex : UInt32}
    {leaf : H}
    (found : leaves[leafIndex.toNat]? = some leaf) :
    ∃ proof, builder.getProof leafIndex = .ok proof ∧
      proof.index = leafIndex.toNat ∧ proof.leaf = leaf ∧
      proof.root = .ok builder.prover.root := by
  obtain ⟨inside, value⟩ := List.getElem?_eq_some_iff.mp found
  obtain ⟨proof, proved, index, leafEq, root⟩ :=
    Prover.prove_eq_ok holds.prover fits inside
  refine ⟨proof, ?_, index, ?_, root⟩
  · rw [getProof, proved]
    rfl
  · rw [leafEq, HashTree.pad_of_lt _ _ inside]
    exact value

end MerkleTreeBuilder

end Abacus
