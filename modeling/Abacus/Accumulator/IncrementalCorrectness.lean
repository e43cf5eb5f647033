import Abacus.Accumulator.Incremental
import Abacus.Accumulator.MerkleCorrectness

/-!
# Correctness of the incremental Merkle tree

The slots of the branch form a frontier of the ingested leaves: each set bit
of the count owns a complete subtree. Ingesting a leaf carries along the
trailing ones of the count, and the root walks the bits of the count upwards,
so it is the root of the perfect tree over the zero-padded list.
-/

namespace Abacus

open NodeHash

variable {H : Type} [NodeHash H]

namespace IncrementalMerkle

/-- The state of an incremental tree that has ingested a list of leaves. -/
structure Holds (leaves : List H) (tree : IncrementalMerkle H) : Prop where
  count_eq : tree.count = leaves.length
  frontier : HashTree.Frontier hashConcat
    (HashTree.pad NodeHash.zero leaves) 0 tree.branch tree.count

/-- The empty tree has ingested nothing. -/
theorem holds_default : Holds ([] : List H) default where
  count_eq := rfl
  frontier := HashTree.Frontier.zero _ _ _ _

/-- Carrying the next complete subtree into a frontier. -/
theorem frontier_ingestBranch
    {leaf : Nat → H}
    {level count : Nat}
    {slots : List H}
    (frontier : HashTree.Frontier hashConcat leaf level slots count) :
    HashTree.Frontier hashConcat leaf level
      (ingestBranch (HashTree.subtree hashConcat leaf level count)
        (count + 1) slots)
      (count + 1) := by
  induction slots generalizing level count with
  | nil => trivial
  | cons slot slots inductionHypothesis =>
      obtain ⟨held, rest⟩ := frontier
      rw [ingestBranch, Nat.and_one_is_mod]
      by_cases odd : (count + 1) % 2 = 1
      · rw [if_pos odd]
        refine ⟨fun _ => rfl, ?_⟩
        rwa [show (count + 1) / 2 = count / 2 by omega]
      · rw [if_neg odd]
        refine ⟨fun contrary => absurd contrary odd, ?_⟩
        have parent :
            hashConcat slot
                (HashTree.subtree hashConcat leaf level count) =
              HashTree.subtree hashConcat leaf (level + 1) (count / 2) := by
          rw [held (by omega), HashTree.subtree_succ]
          congr 2 <;> omega
        rw [parent, show (count + 1) / 2 = count / 2 + 1 by omega]
        exact inductionHypothesis rest

/-- Ingesting a leaf succeeds below the capacity and extends the list. -/
theorem ingest_eq_ok
    {leaves : List H}
    {tree : IncrementalMerkle H}
    (holds : Holds leaves tree)
    (element : H)
    (room : leaves.length < 2 ^ 32 - 1) :
    ∃ after, tree.ingest element = .ok after ∧
      Holds (leaves ++ [element]) after := by
  refine ⟨_, if_pos (by rw [holds.count_eq]; exact room), ?_, ?_⟩
  · simp [holds.count_eq]
  · have node : element =
        HashTree.subtree hashConcat
          (HashTree.pad NodeHash.zero (leaves ++ [element])) 0
          tree.count := by
      rw [HashTree.subtree_zero, holds.count_eq, HashTree.pad_append_length]
    have extended : HashTree.Frontier hashConcat
        (HashTree.pad NodeHash.zero (leaves ++ [element])) 0
        tree.branch tree.count := by
      apply HashTree.Frontier.congr _ _ holds.frontier
      intro position below
      rw [HashTree.pad_append_of_lt]
      simpa [holds.count_eq] using below
    have carried := frontier_ingestBranch extended
    rwa [← node] at carried

/-- Walking up a frontier from the first incomplete subtree of a level. -/
theorem rootFrom_eq_subtree
    {leaves slots : List H}
    {level size : Nat}
    (frontier : HashTree.Frontier hashConcat
      (HashTree.pad NodeHash.zero leaves) level slots size)
    (complete : leaves.length / 2 ^ level = size) :
    rootFrom level
        (HashTree.subtree hashConcat
          (HashTree.pad NodeHash.zero leaves) level size)
        size slots =
      HashTree.subtree hashConcat (HashTree.pad NodeHash.zero leaves)
        (level + slots.length) (size / 2 ^ slots.length) := by
  induction slots generalizing level size with
  | nil => simp [rootFrom]
  | cons slot slots inductionHypothesis =>
      obtain ⟨held, rest⟩ := frontier
      have parent :
          (if size &&& 1 = 1 then
              hashConcat slot
                (HashTree.subtree hashConcat
                  (HashTree.pad NodeHash.zero leaves) level size)
            else
              hashConcat
                (HashTree.subtree hashConcat
                  (HashTree.pad NodeHash.zero leaves) level size)
                (zeroHashes level)) =
            HashTree.subtree hashConcat (HashTree.pad NodeHash.zero leaves)
              (level + 1) (size / 2) := by
        rw [Nat.and_one_is_mod, HashTree.subtree_succ]
        split
        · rename_i odd
          rw [held odd]
          congr 2 <;> omega
        · rename_i even
          have beyond : leaves.length ≤ (size + 1) * 2 ^ level := by
            rw [← complete, Nat.mul_comm]
            exact (Nat.lt_mul_div_succ _ (Nat.two_pow_pos level)).le
          rw [MerkleTree.zeroHashes_eq_root,
            ← HashTree.subtree_pad_of_length_le hashConcat _ beyond]
          congr 2 <;> omega
      have above : leaves.length / 2 ^ (level + 1) = size / 2 := by
        rw [Nat.pow_succ, ← Nat.div_div_eq_div_mul, complete]
      rw [rootFrom, parent, inductionHypothesis rest above,
        List.length_cons, Nat.pow_succ', Nat.div_div_eq_div_mul]
      congr 1
      omega

/-- The root of an incremental tree is the root over the padded list. -/
theorem root_eq
    {leaves : List H}
    {tree : IncrementalMerkle H}
    (holds : Holds leaves tree)
    (fits : leaves.length < 2 ^ treeDepth) :
    tree.root =
      HashTree.root hashConcat treeDepth
        (HashTree.pad NodeHash.zero leaves) := by
  have start : HashTree.subtree hashConcat
      (HashTree.pad NodeHash.zero leaves) 0 tree.count = NodeHash.zero := by
    rw [HashTree.subtree_zero, holds.count_eq,
      HashTree.pad_of_length_le _ le_rfl]
  have walked := rootFrom_eq_subtree holds.frontier
    (by simp [holds.count_eq])
  rw [start, tree.length_branch, holds.count_eq, Nat.div_eq_of_lt fits,
    Nat.zero_add, HashTree.subtree_first] at walked
  rw [root, holds.count_eq]
  exact walked

end IncrementalMerkle

end Abacus
