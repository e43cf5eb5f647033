import Abacus.Accumulator.Merkle

/-!
# The incremental Merkle tree

The light accumulator that keeps one hash for each level of the left edge,
together with the number of leaves.
-/

namespace Abacus

open NodeHash

/-- An incremental Merkle tree. -/
structure IncrementalMerkle (H : Type) where
  branch : List H
  count : Nat
  length_branch : branch.length = treeDepth

namespace IncrementalMerkle

variable {H : Type} [NodeHash H]

/-- The empty tree; every slot holds the zero hash of its level. -/
def default : IncrementalMerkle H where
  branch := (List.range treeDepth).map zeroHashes
  count := 0
  length_branch := by simp

/-- The loop of `ingest`: climb while the size is even, then store the node
in the slot of the first odd size. -/
def ingestBranch (node : H) (size : Nat) : List H → List H
  | [] => []
  | slot :: slots =>
      if size &&& 1 = 1 then node :: slots
      else slot :: ingestBranch (hashConcat slot node) (size / 2) slots

@[simp] theorem length_ingestBranch (node : H) (size : Nat) (slots : List H) :
    (ingestBranch node size slots).length = slots.length := by
  induction slots generalizing node size with
  | nil => rfl
  | cons slot slots inductionHypothesis =>
      rw [ingestBranch]
      split <;> simp [inductionHypothesis]

/-- Ingest a leaf. -/
def ingest (tree : IncrementalMerkle H) (element : H) :
    Except Panic (IncrementalMerkle H) :=
  if tree.count < 2 ^ 32 - 1 then
    .ok {
      branch := ingestBranch element (tree.count + 1) tree.branch
      count := tree.count + 1
      length_branch := by simp [tree.length_branch] }
  else .error .incrementalFull

/-- The loop of `root` from level `i` on. -/
def rootFrom : Nat → H → Nat → List H → H
  | _, node, _, [] => node
  | i, node, size, slot :: slots =>
      rootFrom (i + 1)
        (if size &&& 1 = 1 then hashConcat slot node
          else hashConcat node (zeroHashes i))
        (size / 2) slots

/-- The current root. -/
def root (tree : IncrementalMerkle H) : H :=
  rootFrom 0 zero tree.count tree.branch

/-- The root that a branch evaluates to at an index. -/
def branchRoot (item : H) (branch : List H) (index : Nat) : Except Panic H :=
  merkleRootFromBranch item branch 32 index

/-- Verify an inclusion proof against the current root. -/
def verify [DecidableEq H] (tree : IncrementalMerkle H) (proof : Proof H) :
    Except Panic Bool := do
  let computed ← branchRoot proof.leaf proof.path proof.index
  return computed == tree.root

end IncrementalMerkle

end Abacus
