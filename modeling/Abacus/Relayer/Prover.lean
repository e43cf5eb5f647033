import Abacus.Accumulator.IncrementalCorrectness
import Abacus.Library.Machine

/-!
# The prover

The relayer's counted sparse Merkle tree of depth 32. A prover that has
ingested a list of leaves holds the tree of that list, proves every position
of it, and agrees with the incremental tree on the root.
-/

namespace Abacus

open NodeHash

/-- The relayer's sparse Merkle tree with the number of its leaves. -/
structure Prover (H : Type) where
  count : Nat
  tree : MerkleTree H
  deriving DecidableEq

/-- Errors of the prover. -/
inductive ProverError (H : Type)
  | indexTooHigh (index : Nat)
  | zeroProof (index count : Nat)
  | merkleTreeError (error : MerkleTreeError)
  | verificationFailed (expected actual : H)
  deriving DecidableEq

variable {H : Type} [NodeHash H]

namespace Prover

/-- The prover of an empty tree. -/
def default : Except Panic (Prover H) := do
  let full ← MerkleTree.create [] treeDepth
  return { count := 0, tree := full }

/-- Push a leaf. The count is raised before the tree is asked, and the prover
after the call is returned with the result. -/
def ingest (prover : Prover H) (element : H) :
    Except Panic (Except (ProverError H) H × Prover H) := do
  let count := prover.count + 1
  match ← prover.tree.pushLeaf element treeDepth with
  | (.error error, tree) =>
      return (.error (.merkleTreeError error), { count := count, tree := tree })
  | (.ok (), tree) =>
      return (.ok tree.hash, { count := count, tree := tree })

/-- The current root. -/
def root (prover : Prover H) : H := prover.tree.hash

/-- The proof of a leaf of the tree. -/
def prove (prover : Prover H) (index : Nat) :
    Except Panic (Except (ProverError H) (Proof H)) :=
  if index > 2 ^ 32 - 1 then .ok (.error (.indexTooHigh index))
  else if index ≥ prover.count then
    .ok (.error (.zeroProof index prover.count))
  else do
    let (leaf, hashes) ← prover.tree.generateProof index treeDepth
    if long : 32 ≤ hashes.length then
      return .ok {
        leaf := leaf
        index := index
        path := hashes.take 32
        length_path := by simp [long, treeDepth] }
    else throw .pathTooShort

/-- Verify a proof against the current root. -/
def verify [DecidableEq H] (prover : Prover H) (proof : Proof H) :
    Except Panic (Except (ProverError H) Unit) := do
  let actual ← merkleRootFromBranch proof.leaf proof.path treeDepth proof.index
  let expected := prover.root
  if expected = actual then return .ok ()
  else return .error (.verificationFailed expected actual)

/-- Ingest a leaf where the caller expects the tree not to be full. -/
def expectIngest (prover : Prover H) (element : H) :
    Except Panic (Prover H) := do
  match ← prover.ingest element with
  | (.ok _, after) => return after
  | (.error _, _) => throw .proverFull

/-- Ingest every leaf of a list. -/
def extend (prover : Prover H) (leaves : List H) : Except Panic (Prover H) :=
  leaves.foldlM expectIngest prover

/-- The prover of a list of leaves. -/
def fromList (leaves : List H) : Except Panic (Prover H) := do
  let tree ← MerkleTree.create leaves treeDepth
  return { count := leaves.length, tree := tree }

/-! ## The tree of the ingested leaves -/

/-- The state of a prover that has ingested a list of leaves. -/
structure Holds (leaves : List H) (prover : Prover H) : Prop where
  count_eq : prover.count = leaves.length
  tree_eq : prover.tree = MerkleTree.ofLeaves leaves treeDepth

/-- The default prover has ingested nothing. -/
theorem holds_default :
    ∃ prover : Prover H, default = .ok prover ∧ Holds [] prover :=
  ⟨⟨0, .zero treeDepth⟩, rfl, rfl, (MerkleTree.ofLeaves_nil _).symm⟩

/-- A push onto the tree of a list of leaves. -/
theorem pushLeaf_ofLeaves
    {leaves : List H}
    (element : H)
    (fits : leaves.length ≤ 2 ^ treeDepth) :
    (MerkleTree.ofLeaves leaves treeDepth).pushLeaf element treeDepth =
      if leaves.length < 2 ^ treeDepth then
        .ok (.ok (), MerkleTree.ofLeaves (leaves ++ [element]) treeDepth)
      else
        .ok (.error .merkleTreeFull, MerkleTree.ofLeaves leaves treeDepth) :=
  MerkleTree.pushLeaf_ofLeaves element fits

/-- A leaf that fits is ingested. -/
theorem expectIngest_eq_ok
    {leaves : List H}
    {prover : Prover H}
    (holds : Holds leaves prover)
    (element : H)
    (room : leaves.length < 2 ^ treeDepth) :
    ∃ after, prover.expectIngest element = .ok after ∧
      Holds (leaves ++ [element]) after := by
  have pushed := pushLeaf_ofLeaves element room.le
  rw [if_pos room] at pushed
  refine ⟨⟨leaves.length + 1,
    MerkleTree.ofLeaves (leaves ++ [element]) treeDepth⟩, ?_, ?_, rfl⟩
  · simp only [expectIngest, ingest, holds.count_eq, holds.tree_eq, pushed]
    rfl
  · simp

/-- The root of a prover is the root over the padded list. -/
theorem root_eq
    {leaves : List H}
    {prover : Prover H}
    (holds : Holds leaves prover)
    (fits : leaves.length ≤ 2 ^ treeDepth) :
    prover.root =
      HashTree.root hashConcat treeDepth
        (HashTree.pad NodeHash.zero leaves) := by
  rw [root, holds.tree_eq, MerkleTree.hash_ofLeaves fits]

/-- Every position of the list has a proof, whose path is the position's
siblings and which evaluates to the root. -/
theorem prove_eq_ok
    {leaves : List H}
    {prover : Prover H}
    (holds : Holds leaves prover)
    (fits : leaves.length ≤ 2 ^ treeDepth)
    {index : Nat}
    (inside : index < leaves.length) :
    ∃ proof, prover.prove index = .ok (.ok proof) ∧
      proof.index = index ∧
      proof.leaf = HashTree.pad NodeHash.zero leaves index ∧
      proof.root = .ok prover.root := by
  have below : index < 2 ^ treeDepth := inside.trans_le fits
  have position : index % 2 ^ treeDepth = index := Nat.mod_eq_of_lt below
  have generated := MerkleTree.generateProof_ofLeaves fits
    (position.symm ▸ inside)
  have evaluated := merkleRootFromBranch_siblings
    (HashTree.pad NodeHash.zero leaves) treeDepth index
  rw [position] at generated evaluated
  refine ⟨⟨HashTree.pad NodeHash.zero leaves index, index,
    HashTree.siblings hashConcat (HashTree.pad NodeHash.zero leaves)
      treeDepth index, by simp⟩, ?_, rfl, rfl, ?_⟩
  · rw [prove, if_neg (by rw [treeDepth] at below; omega),
      if_neg (by rw [holds.count_eq]; omega), holds.tree_eq]
    simp only [generated, bind, Except.bind]
    rw [dif_pos (by simp [treeDepth])]
    simp [treeDepth, pure, Except.pure, List.take_of_length_le]
  · rw [root_eq holds fits]
    exact evaluated

/-- An index that is not below the count has no proof. -/
theorem prove_eq_error
    {leaves : List H}
    {prover : Prover H}
    (holds : Holds leaves prover)
    {index : Nat}
    (beyond : leaves.length ≤ index) :
    ∃ error, prover.prove index = .ok (.error error) := by
  unfold prove
  split
  · exact ⟨_, rfl⟩
  · rw [if_pos (by rw [holds.count_eq]; exact beyond)]
    exact ⟨_, rfl⟩

/-- A proof that evaluates to the root is verified. -/
theorem verify_eq_ok [DecidableEq H]
    {prover : Prover H}
    {proof : Proof H}
    (evaluated : proof.root = .ok prover.root) :
    prover.verify proof = .ok (.ok ()) := by
  unfold Proof.root at evaluated
  simp [verify, evaluated, bind, Except.bind, pure, Except.pure]

end Prover

/-- A proof that evaluates to the root is verified by the incremental tree. -/
theorem IncrementalMerkle.verify_eq_ok [DecidableEq H]
    {tree : IncrementalMerkle H}
    {proof : Proof H}
    (evaluated : proof.root = .ok tree.root) :
    tree.verify proof = .ok true := by
  have branch : branchRoot proof.leaf proof.path proof.index =
      .ok tree.root :=
    evaluated
  simp [verify, branch, bind, Except.bind, pure, Except.pure]

/-! ## Both accumulators -/

/-- Ingesting a list that fits, leaf by leaf, succeeds in both accumulators. -/
theorem exists_ingest_eq_ok
    {leaves : List H}
    (fits : leaves.length ≤ 2 ^ 32 - 1) :
    ∃ incremental prover,
      leaves.foldlM IncrementalMerkle.ingest IncrementalMerkle.default =
        .ok incremental ∧
      (Prover.default >>= fun empty => empty.extend leaves) = .ok prover ∧
      IncrementalMerkle.Holds leaves incremental ∧
      Prover.Holds leaves prover := by
  have below := (lt_two_pow_treeDepth fits).le
  obtain ⟨incremental, ingested, incrementalHolds⟩ :=
    Machine.exists_foldlM_eq_ok IncrementalMerkle.ingest
      IncrementalMerkle.Holds
      (fun _ _ element holds room =>
        IncrementalMerkle.ingest_eq_ok holds element room)
      IncrementalMerkle.holds_default leaves (by simpa using fits)
  obtain ⟨empty, created, emptyHolds⟩ := @Prover.holds_default H _
  obtain ⟨prover, extended, proverHolds⟩ :=
    Machine.exists_foldlM_eq_ok Prover.expectIngest Prover.Holds
      (fun _ _ element holds room =>
        Prover.expectIngest_eq_ok holds element room)
      emptyHolds leaves (by simpa using below)
  refine ⟨incremental, prover, ingested, ?_, incrementalHolds, proverHolds⟩
  rw [created]
  exact extended

/-- Ingesting a list leaf by leaf into either accumulator succeeds up to the
capacity; both then count the leaves, and both roots are the root of the
perfect tree of depth 32 over the zero-padded list. -/
theorem ingest_agree
    (leaves : List H)
    (fits : leaves.length ≤ 2 ^ 32 - 1) :
    ∃ incremental prover,
      leaves.foldlM IncrementalMerkle.ingest IncrementalMerkle.default =
        .ok incremental ∧
      (Prover.default >>= fun empty => empty.extend leaves) = .ok prover ∧
      incremental.count = leaves.length ∧
      prover.count = leaves.length ∧
      incremental.root =
        HashTree.root hashConcat 32 (HashTree.pad NodeHash.zero leaves) ∧
      prover.root =
        HashTree.root hashConcat 32 (HashTree.pad NodeHash.zero leaves) := by
  have below := lt_two_pow_treeDepth fits
  obtain ⟨incremental, prover, ingested, extended, incrementalHolds,
    proverHolds⟩ := exists_ingest_eq_ok fits
  exact ⟨incremental, prover, ingested, extended, incrementalHolds.count_eq,
    proverHolds.count_eq, IncrementalMerkle.root_eq incrementalHolds below,
    Prover.root_eq proverHolds below.le⟩

/-- Three leaves in both accumulators. -/
theorem ingest_agree_three :
    ∃ (incremental : IncrementalMerkle HashTerm) (prover : Prover HashTerm),
      [HashTerm.leaf 1, .leaf 2, .leaf 3].foldlM IncrementalMerkle.ingest
          IncrementalMerkle.default =
        .ok incremental ∧
      (Prover.default >>= fun empty =>
        empty.extend [HashTerm.leaf 1, .leaf 2, .leaf 3]) = .ok prover ∧
      incremental.count = 3 ∧ prover.count = 3 ∧
      incremental.root = prover.root := by
  obtain ⟨incremental, prover, ingested, extended, incrementalCount,
    proverCount, incrementalRoot, proverRoot⟩ :=
    ingest_agree [HashTerm.leaf 1, .leaf 2, .leaf 3] (by decide)
  exact ⟨incremental, prover, ingested, extended, incrementalCount,
    proverCount, incrementalRoot.trans proverRoot.symm⟩

/-- Every leaf of a list that both accumulators have ingested is proved at its
own index, and both verify the proof; every other index is refused. -/
theorem prove_ingested [DecidableEq H]
    (leaves : List H)
    (fits : leaves.length ≤ 2 ^ 32 - 1) :
    ∃ incremental prover,
      leaves.foldlM IncrementalMerkle.ingest IncrementalMerkle.default =
        .ok incremental ∧
      (Prover.default >>= fun empty => empty.extend leaves) = .ok prover ∧
      (∀ index (inside : index < leaves.length), ∃ proof,
        prover.prove index = .ok (.ok proof) ∧
        proof.leaf = leaves[index] ∧
        proof.index = index ∧
        proof.root = .ok prover.root ∧
        prover.verify proof = .ok (.ok ()) ∧
        incremental.verify proof = .ok true) ∧
      ∀ index, leaves.length ≤ index →
        ∃ error, prover.prove index = .ok (.error error) := by
  have below := lt_two_pow_treeDepth fits
  obtain ⟨incremental, prover, ingested, extended, incrementalHolds,
    proverHolds⟩ := exists_ingest_eq_ok fits
  have agree : prover.root = incremental.root :=
    (Prover.root_eq proverHolds below.le).trans
      (IncrementalMerkle.root_eq incrementalHolds below).symm
  refine ⟨incremental, prover, ingested, extended, ?_, ?_⟩
  · intro index inside
    obtain ⟨proof, proved, indexEq, leafEq, root⟩ :=
      Prover.prove_eq_ok proverHolds below.le inside
    rw [HashTree.pad_of_lt _ _ inside] at leafEq
    exact ⟨proof, proved, leafEq, indexEq, root, Prover.verify_eq_ok root,
      IncrementalMerkle.verify_eq_ok (by rw [root, agree])⟩
  · exact fun index beyond => Prover.prove_eq_error proverHolds beyond

/-- The last of three leaves is proved and verified. -/
theorem prove_ingested_three :
    ∃ (incremental : IncrementalMerkle HashTerm) (prover : Prover HashTerm)
      (proof : Proof HashTerm),
      [HashTerm.leaf 1, .leaf 2, .leaf 3].foldlM IncrementalMerkle.ingest
          IncrementalMerkle.default =
        .ok incremental ∧
      (Prover.default >>= fun empty =>
        empty.extend [HashTerm.leaf 1, .leaf 2, .leaf 3]) = .ok prover ∧
      prover.prove 2 = .ok (.ok proof) ∧ proof.leaf = .leaf 3 ∧
      incremental.verify proof = .ok true ∧
      ∃ error, prover.prove 3 = .ok (.error error) := by
  obtain ⟨incremental, prover, ingested, extended, proved, refused⟩ :=
    prove_ingested [HashTerm.leaf 1, .leaf 2, .leaf 3] (by decide)
  obtain ⟨proof, some, leaf, -, -, -, verified⟩ := proved 2 (by decide)
  exact ⟨incremental, prover, proof, ingested, extended, some, leaf, verified,
    refused 3 (by decide)⟩

end Abacus
