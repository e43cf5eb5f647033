import Abacus.Core.Primitives

/-!
# The sparse Merkle tree

The recursive tree that the relayer keeps off chain, with its construction,
insertion, proof generation and proof evaluation. Hashes range over any type
with a zero value and a concatenating hash; the source instantiates it with
32-byte values and Keccak.

A method on `&mut self` returns the updated tree next to its result, since the
tree survives an error. A violated assertion is a panic.
-/

namespace Abacus

/-- The zero hash and the hash of two concatenated nodes. -/
class NodeHash (H : Type) where
  zero : H
  hashConcat : H → H → H

open NodeHash

instance [Crypto] : NodeHash H256 where
  zero := H256.zero
  hashConcat left right := Crypto.keccak256 (left.bytes ++ right.bytes)

/-- Hashes as terms over numbered leaves, where concatenation is free. -/
inductive HashTerm
  | zero
  | leaf (number : Nat)
  | concat (left right : HashTerm)
  deriving DecidableEq

instance : NodeHash HashTerm where
  zero := .zero
  hashConcat := .concat

/-- Depth of every tree the agents build. -/
def treeDepth : Nat := 32

/-- As many leaves as can be counted fit into the tree. -/
theorem lt_two_pow_treeDepth
    {count : Nat}
    (fits : count ≤ 2 ^ 32 - 1) :
    count < 2 ^ treeDepth := by
  rw [treeDepth]
  omega

/-- The hash of a subtree of zero leaves, by its depth. The source caches the
entries up to `treeDepth`. -/
def zeroHashes [NodeHash H] : Nat → H
  | 0 => zero
  | depth + 1 => hashConcat (zeroHashes depth) (zeroHashes depth)

/-- The table that caches the zero hashes: the loop writes each entry from the
one before it. -/
def zeroHashTable [NodeHash H] : List H :=
  (List.range treeDepth).foldl
    (fun hashes i =>
      hashes.set (i + 1)
        (hashConcat (hashes.getD i zero) (hashes.getD i zero)))
    (List.replicate (treeDepth + 1) zero)

/-- Right-sparse Merkle tree. -/
inductive MerkleTree (H : Type)
  | leaf (hash : H)
  | node (hash : H) (left right : MerkleTree H)
  | zero (depth : Nat)
  deriving DecidableEq

/-- Errors of the tree operations. -/
inductive MerkleTreeError
  | leafReached
  | merkleTreeFull
  | invalid
  | depthTooSmall
  deriving DecidableEq

namespace MerkleTree

variable {H : Type} [NodeHash H]

/-- The root hash of a tree. -/
def hash : MerkleTree H → H
  | .leaf hash => hash
  | .node hash _ _ => hash
  | .zero depth => zeroHashes depth

/-- An inner node with the hash of its children. -/
def join (left right : MerkleTree H) : MerkleTree H :=
  .node (hashConcat left.hash right.hash) left right

/-- Build a tree of a fixed depth from a list of leaves. -/
def create (leaves : List H) : Nat → Except Panic (MerkleTree H)
  | 0 =>
      match leaves with
      | [] => .ok (.zero 0)
      | [hash] => .ok (.leaf hash)
      | _ :: _ :: _ => .error .leavesExceedCapacity
  | depth + 1 =>
      if leaves.isEmpty then .ok (.zero (depth + 1))
      else do
        let subtreeCapacity := 2 ^ depth
        let halves :=
          if leaves.length ≤ subtreeCapacity then (leaves, [])
          else leaves.splitAt subtreeCapacity
        let left ← create halves.1 depth
        let right ← create halves.2 depth
        return join left right

/-- Append a leaf. The tree after the call is returned with the result. -/
def pushLeaf (tree : MerkleTree H) (elem : H) :
    Nat → Except Panic (Except MerkleTreeError Unit × MerkleTree H)
  | 0 => .ok (.error .depthTooSmall, tree)
  | depth + 1 =>
      match tree with
      | .leaf _ => .ok (.error .leafReached, tree)
      | .zero _ => do
          let created ← create [elem] (depth + 1)
          return (.ok (), created)
      | .node hash left right =>
          match left, right with
          | .leaf _, .leaf _ => .ok (.error .merkleTreeFull, tree)
          | .node _ _ _, .node _ _ _ => do
              match ← pushLeaf right elem depth with
              | (.error error, after) =>
                  return (.error error, .node hash left after)
              | (.ok (), after) => return (.ok (), join left after)
          | .zero _, .zero _ => do
              let created ← create [elem] depth
              return (.ok (), join created right)
          | .leaf _, .zero _ => do
              let created ← create [elem] depth
              return (.ok (), join left created)
          | .node _ _ _, .zero _ => do
              match ← pushLeaf left elem depth with
              | (.ok (), after) => return (.ok (), join after right)
              | (.error .merkleTreeFull, after) => do
                  let created ← create [elem] depth
                  return (.ok (), join after created)
              | (.error error, after) =>
                  return (.error error, .node hash after right)
          | _, _ => .ok (.error .invalid, tree)

/-- The left and right subtrees, if they exist. -/
def leftAndRightBranches :
    MerkleTree H → Option (MerkleTree H × MerkleTree H)
  | .leaf _ => none
  | .zero 0 => none
  | .node _ left right => some (left, right)
  | .zero (depth + 1) => some (.zero depth, .zero depth)

/-- Whether a tree is a leaf. -/
def isLeaf : MerkleTree H → Bool
  | .leaf _ => true
  | _ => false

/-- The descent of `generate_proof`: one bit of the index for each level from
the top, collecting the hash of the subtree that is not entered. -/
def descend (index : Nat) :
    Nat → MerkleTree H → List H → Except Panic (MerkleTree H × List H)
  | 0, current, proof => .ok (current, proof)
  | depth + 1, current, proof =>
      match current.leftAndRightBranches with
      | none => .error .leafAboveDepthZero
      | some (left, right) =>
          if (index >>> depth) &&& 1 = 1 then
            descend index depth right (proof ++ [left.hash])
          else descend index depth left (proof ++ [right.hash])

/-- The leaf at an index and its proof of inclusion, bottom up. -/
def generateProof (tree : MerkleTree H) (index depth : Nat) :
    Except Panic (H × List H) := do
  let (current, proof) ← descend index depth tree []
  if proof.length ≠ depth then throw .proofLengthMismatch
  if ¬current.isLeaf then throw .proofOfNonLeaf
  return (current.hash, proof.reverse)

end MerkleTree

section Evaluation

variable {H : Type} [NodeHash H]

/-- The loop of `merkle_root_from_branch` from bit `i` of the index on. -/
def evaluateBranch (index : Nat) : Nat → H → List H → H
  | _, current, [] => current
  | i, current, next :: rest =>
      evaluateBranch index (i + 1)
        (if (index >>> i) &&& 1 = 1 then hashConcat next current
          else hashConcat current next)
        rest

/-- The root computed from a leaf and a Merkle proof. -/
def merkleRootFromBranch (leaf : H) (branch : List H) (depth index : Nat) :
    Except Panic H :=
  if branch.length = depth then
    .ok (evaluateBranch index 0 leaf (branch.take depth))
  else .error .branchLengthMismatch

/-- Whether a proof shows a leaf at an index under a root. -/
def verifyMerkleProof [DecidableEq H]
    (leaf : H) (branch : List H) (depth index : Nat) (root : H) :
    Except Panic Bool :=
  if branch.length = depth then do
    let computed ← merkleRootFromBranch leaf branch depth index
    return computed == root
  else .ok false

end Evaluation

/-- A Merkle proof: the leaf, its index, and the path to the root. -/
structure Proof (H : Type) where
  leaf : H
  index : Nat
  path : List H
  length_path : path.length = treeDepth
  deriving DecidableEq

/-- The root a proof evaluates to. -/
def Proof.root [NodeHash H] (proof : Proof H) : Except Panic H :=
  merkleRootFromBranch proof.leaf proof.path treeDepth proof.index

end Abacus
