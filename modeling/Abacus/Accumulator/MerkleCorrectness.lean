import Abacus.Accumulator.Merkle
import Abacus.Library.HashTree
import Mathlib.Data.List.Nodup

/-!
# Correctness of the sparse Merkle tree

The tree of a list of leaves is described by a total function of the list.
Construction yields it, insertion extends it by one leaf, its hash is the root
of the perfect tree over the zero-padded list, and a proof is accepted under
that root exactly when it shows a leaf at its own position.
-/

namespace Abacus

open NodeHash

variable {H : Type} [NodeHash H]

namespace MerkleTree

/-- The tree of a list of leaves. -/
def ofLeaves (leaves : List H) : Nat → MerkleTree H
  | 0 =>
      match leaves with
      | [] => .zero 0
      | hash :: _ => .leaf hash
  | depth + 1 =>
      if leaves.isEmpty then .zero (depth + 1)
      else
        join (ofLeaves (leaves.take (2 ^ depth)) depth)
          (ofLeaves (leaves.drop (2 ^ depth)) depth)

@[simp] theorem ofLeaves_nil (depth : Nat) :
    ofLeaves ([] : List H) depth = .zero depth := by
  cases depth <;> rfl

theorem ofLeaves_succ
    {leaves : List H}
    (nonempty : leaves ≠ [])
    (depth : Nat) :
    ofLeaves leaves (depth + 1) =
      join (ofLeaves (leaves.take (2 ^ depth)) depth)
        (ofLeaves (leaves.drop (2 ^ depth)) depth) := by
  rw [ofLeaves, if_neg (by simpa using nonempty)]

/-- A tree whose leaves fit in the left half. -/
theorem ofLeaves_succ_of_length_le
    {leaves : List H}
    (nonempty : leaves ≠ [])
    {depth : Nat}
    (fits : leaves.length ≤ 2 ^ depth) :
    ofLeaves leaves (depth + 1) =
      join (ofLeaves leaves depth) (.zero depth) := by
  rw [ofLeaves_succ nonempty, List.take_of_length_le fits,
    List.drop_eq_nil_of_le fits, ofLeaves_nil]

omit [NodeHash H] in
/-- The halves of a list fit into the halves of a tree. -/
theorem length_halves_le
    {leaves : List H}
    {depth : Nat}
    (fits : leaves.length ≤ 2 ^ (depth + 1)) :
    (leaves.take (2 ^ depth)).length ≤ 2 ^ depth ∧
      (leaves.drop (2 ^ depth)).length ≤ 2 ^ depth := by
  rw [Nat.pow_succ] at fits
  rw [List.length_take, List.length_drop]
  omega

/-- Construction succeeds on every list that fits. -/
theorem create_eq_ok
    {leaves : List H}
    {depth : Nat}
    (fits : leaves.length ≤ 2 ^ depth) :
    create leaves depth = .ok (ofLeaves leaves depth) := by
  induction depth generalizing leaves with
  | zero =>
      match leaves with
      | [] => rfl
      | [hash] => rfl
      | _ :: _ :: _ => simp at fits
  | succ depth inductionHypothesis =>
      by_cases empty : leaves = []
      · subst empty
        rfl
      · have halves :
            (if leaves.length ≤ 2 ^ depth then (leaves, [])
              else leaves.splitAt (2 ^ depth)) =
              (leaves.take (2 ^ depth), leaves.drop (2 ^ depth)) := by
          split
          · rename_i small
            rw [List.take_of_length_le small, List.drop_eq_nil_of_le small]
          · exact List.splitAt_eq
        obtain ⟨leftFits, rightFits⟩ := length_halves_le fits
        have left := inductionHypothesis leftFits
        have right := inductionHypothesis rightFits
        rw [ofLeaves_succ empty, create, if_neg (by simpa using empty)]
        simp only [halves, left, right]
        rfl

/-- The tree of a single leaf. -/
theorem create_singleton (elem : H) (depth : Nat) :
    create [elem] depth = .ok (ofLeaves [elem] depth) :=
  create_eq_ok (by simpa using Nat.one_le_two_pow)

/-- A zero subtree hashes to the root over zero leaves. -/
theorem zeroHashes_eq_root (depth : Nat) :
    (zeroHashes depth : H) =
      HashTree.root hashConcat depth (HashTree.pad NodeHash.zero []) := by
  induction depth with
  | zero => rfl
  | succ depth inductionHypothesis =>
      rw [zeroHashes, inductionHypothesis, HashTree.root_pad_succ]
      simp

/-- The hash of the tree of a list is the root over the padded list. -/
theorem hash_ofLeaves
    {leaves : List H}
    {depth : Nat}
    (fits : leaves.length ≤ 2 ^ depth) :
    (ofLeaves leaves depth).hash =
      HashTree.root hashConcat depth (HashTree.pad NodeHash.zero leaves) := by
  induction depth generalizing leaves with
  | zero =>
      match leaves with
      | [] => rfl
      | hash :: _ => rfl
  | succ depth inductionHypothesis =>
      by_cases empty : leaves = []
      · subst empty
        rw [ofLeaves_nil]
        exact zeroHashes_eq_root (depth + 1)
      · obtain ⟨leftFits, rightFits⟩ := length_halves_le fits
        rw [ofLeaves_succ empty, HashTree.root_pad_succ,
          ← inductionHypothesis leftFits, ← inductionHypothesis rightFits]
        rfl

/-! ## Zero leaves -/

/-- A table of zero hashes whose first entries have been written. -/
def ZeroHashesUpTo (level : Nat) (table : List H) : Prop :=
  table.length = treeDepth + 1 ∧
    ∀ depth ≤ level, table[depth]? = some (zeroHashes depth)

/-- Writing the entry behind the last one that has been written. -/
theorem ZeroHashesUpTo.set
    {level : Nat}
    {table : List H}
    (upTo : ZeroHashesUpTo level table)
    (below : level < treeDepth) :
    ZeroHashesUpTo (level + 1)
      (table.set (level + 1)
        (hashConcat (table.getD level NodeHash.zero)
          (table.getD level NodeHash.zero))) := by
  obtain ⟨length, written⟩ := upTo
  have last : table.getD level NodeHash.zero = zeroHashes level := by
    rw [List.getD_eq_getElem?_getD, written level le_rfl, Option.getD_some]
  refine ⟨by simpa using length, ?_⟩
  intro depth covered
  rw [last]
  rcases Nat.lt_or_eq_of_le covered with earlier | rfl
  · rw [List.getElem?_set_ne (by omega)]
    exact written depth (by omega)
  · rw [List.getElem?_set_self (by omega), zeroHashes]

/-- Every entry of the table of zero hashes is that of its depth. -/
theorem getElem?_zeroHashTable
    {depth : Nat}
    (covered : depth ≤ treeDepth) :
    (zeroHashTable : List H)[depth]? = some (zeroHashes depth) := by
  have filled : ∀ rounds ≤ treeDepth,
      ZeroHashesUpTo rounds
        ((List.range rounds).foldl
          (fun hashes i =>
            hashes.set (i + 1)
              (hashConcat (hashes.getD i NodeHash.zero)
                (hashes.getD i NodeHash.zero)))
          (List.replicate (treeDepth + 1) (NodeHash.zero : H))) := by
    intro rounds
    induction rounds with
    | zero =>
        intro _
        refine ⟨by simp, ?_⟩
        intro depth first
        obtain rfl := Nat.le_zero.mp first
        rfl
    | succ rounds inductionHypothesis =>
        intro inside
        rw [List.range_succ, List.foldl_append]
        exact (inductionHypothesis (by omega)).set inside
  exact (filled treeDepth le_rfl).2 depth covered

/-- Zero leaves behind the leaves of a list change no hash, and a zero subtree
and its entry in the table of zero hashes have the hash of the tree in which
all of its leaves are written out. -/
theorem hash_create_append_zeros
    (leaves : List H)
    (k depth : Nat)
    (fits : leaves.length + k ≤ 2 ^ depth) :
    ∃ sparse dense full : MerkleTree H,
      create leaves depth = .ok sparse ∧
      create (leaves ++ List.replicate k NodeHash.zero) depth = .ok dense ∧
      create (List.replicate (2 ^ depth) NodeHash.zero) depth = .ok full ∧
      sparse.hash = dense.hash ∧
      (MerkleTree.zero depth : MerkleTree H).hash = full.hash ∧
      (depth ≤ treeDepth → zeroHashTable[depth]? = some full.hash) := by
  have denseFits :
      (leaves ++ List.replicate k NodeHash.zero).length ≤ 2 ^ depth := by
    simpa using fits
  have fullFits :
      (List.replicate (2 ^ depth) (NodeHash.zero : H)).length ≤
        2 ^ depth := by
    simp
  have fullHash : (ofLeaves (List.replicate (2 ^ depth)
      (NodeHash.zero : H)) depth).hash = zeroHashes depth := by
    rw [hash_ofLeaves fullFits, zeroHashes_eq_root]
    exact congrArg _ (HashTree.pad_append_replicate _ [] _)
  refine ⟨_, _, _, create_eq_ok (by omega), create_eq_ok denseFits,
    create_eq_ok fullFits, ?_, fullHash.symm, ?_⟩
  · rw [hash_ofLeaves (by omega), hash_ofLeaves denseFits,
      HashTree.pad_append_replicate]
  · intro covered
    rw [getElem?_zeroHashTable covered, fullHash]

/-- Two zero leaves behind one leaf in a tree of depth two. -/
theorem hash_create_append_zeros_two :
    ∃ sparse dense : MerkleTree HashTerm,
      create [.leaf 1] 2 = .ok sparse ∧
        create [.leaf 1, .zero, .zero] 2 = .ok dense ∧
        sparse ≠ dense ∧ sparse.hash = dense.hash := by
  obtain ⟨sparse, dense, -, created, filled, -, same, -⟩ :=
    hash_create_append_zeros [HashTerm.leaf 1] 2 2 (by decide)
  refine ⟨sparse, dense, created, filled, ?_, same⟩
  have different : create [HashTerm.leaf 1] 2 ≠
      create [HashTerm.leaf 1, .zero, .zero] 2 := by
    decide
  rintro rfl
  exact different (created.trans filled.symm)

/-! ## Insertion -/

/-- A nonempty tree of positive depth is an inner node. -/
theorem ofLeaves_eq_node
    {leaves : List H}
    (nonempty : leaves ≠ [])
    (depth : Nat) :
    ∃ hash left right,
      ofLeaves leaves (depth + 1) = .node hash left right :=
  ⟨_, _, _, ofLeaves_succ nonempty depth⟩

/-- Appending while the left half has room. -/
theorem ofLeaves_append_of_lt
    {leaves : List H}
    (elem : H)
    {depth : Nat}
    (room : leaves.length < 2 ^ depth) :
    ofLeaves (leaves ++ [elem]) (depth + 1) =
      join (ofLeaves (leaves ++ [elem]) depth) (.zero depth) :=
  ofLeaves_succ_of_length_le (by simp) (by simp; omega)

/-- Appending once the left half is full. -/
theorem ofLeaves_append_of_le
    {leaves : List H}
    (elem : H)
    {depth : Nat}
    (full : 2 ^ depth ≤ leaves.length) :
    ofLeaves (leaves ++ [elem]) (depth + 1) =
      join (ofLeaves (leaves.take (2 ^ depth)) depth)
        (ofLeaves (leaves.drop (2 ^ depth) ++ [elem]) depth) := by
  rw [ofLeaves_succ (by simp), List.take_append_of_le_length full,
    List.drop_append_of_le_length full]

/-- Insertion goes left while the right half is empty and the left half has
room. -/
theorem pushLeaf_left
    {left after : MerkleTree H}
    {elem : H}
    {depth : Nat}
    (inner : ∃ hash first second, left = .node hash first second)
    (pushed : pushLeaf left elem depth = .ok (.ok (), after))
    (empty : Nat) :
    pushLeaf (join left (.zero empty)) elem (depth + 1) =
      .ok (.ok (), join after (.zero empty)) := by
  obtain ⟨hash, first, second, rfl⟩ := inner
  simp only [join, pushLeaf, pushed]
  rfl

/-- Insertion opens the right half once the left half is full. -/
theorem pushLeaf_left_full
    {left : MerkleTree H}
    {elem : H}
    {depth : Nat}
    (inner : ∃ hash first second, left = .node hash first second)
    (full : pushLeaf left elem depth = .ok (.error .merkleTreeFull, left))
    (empty : Nat) :
    pushLeaf (join left (.zero empty)) elem (depth + 1) =
      .ok (.ok (), join left (ofLeaves [elem] depth)) := by
  obtain ⟨hash, first, second, rfl⟩ := inner
  simp only [join, pushLeaf, full, create_singleton]
  rfl

/-- Insertion goes right once the right half is open. -/
theorem pushLeaf_right
    {left right after : MerkleTree H}
    {elem : H}
    {depth : Nat}
    (leftInner : ∃ hash first second, left = .node hash first second)
    (rightInner : ∃ hash first second, right = .node hash first second)
    (pushed : pushLeaf right elem depth = .ok (.ok (), after)) :
    pushLeaf (join left right) elem (depth + 1) =
      .ok (.ok (), join left after) := by
  obtain ⟨leftHash, leftFirst, leftSecond, rfl⟩ := leftInner
  obtain ⟨rightHash, rightFirst, rightSecond, rfl⟩ := rightInner
  simp only [join, pushLeaf, pushed]
  rfl

/-- A full right half makes the whole tree full and leaves it unchanged. -/
theorem pushLeaf_right_full
    {left right : MerkleTree H}
    {elem : H}
    {depth : Nat}
    (leftInner : ∃ hash first second, left = .node hash first second)
    (rightInner : ∃ hash first second, right = .node hash first second)
    (full : pushLeaf right elem depth =
      .ok (.error .merkleTreeFull, right)) :
    pushLeaf (join left right) elem (depth + 1) =
      .ok (.error .merkleTreeFull, join left right) := by
  obtain ⟨leftHash, leftFirst, leftSecond, rfl⟩ := leftInner
  obtain ⟨rightHash, rightFirst, rightSecond, rfl⟩ := rightInner
  simp only [join, pushLeaf, full]
  rfl

/-- Insertion into the tree of a list extends the list while there is room,
and reports a full tree, unchanged, when there is none. -/
theorem pushLeaf_ofLeaves
    {leaves : List H}
    (elem : H)
    {depth : Nat}
    (fits : leaves.length ≤ 2 ^ (depth + 1)) :
    pushLeaf (ofLeaves leaves (depth + 1)) elem (depth + 1) =
      if leaves.length < 2 ^ (depth + 1) then
        .ok (.ok (), ofLeaves (leaves ++ [elem]) (depth + 1))
      else
        .ok (.error .merkleTreeFull, ofLeaves leaves (depth + 1)) := by
  induction depth generalizing leaves with
  | zero =>
      match leaves with
      | [] => rfl
      | [_] => rfl
      | [_, _] => rfl
      | _ :: _ :: _ :: _ => simp at fits
  | succ depth inductionHypothesis =>
      by_cases empty : leaves = []
      · subst empty
        rw [if_pos (by simp), ofLeaves_nil, pushLeaf, create_singleton]
        rfl
      have capacity :
          2 ^ (depth + 1 + 1) = 2 ^ (depth + 1) + 2 ^ (depth + 1) := by
        rw [Nat.pow_succ (n := 2) (m := depth + 1)]
        omega
      rcases Nat.lt_or_ge (2 ^ (depth + 1)) leaves.length with
        rightOpen | rightEmpty
      · have leftNonempty : leaves.take (2 ^ (depth + 1)) ≠ [] := by
          simpa using empty
        have rightNonempty : leaves.drop (2 ^ (depth + 1)) ≠ [] := by
          simp
          omega
        have rightFits := (length_halves_le fits).2
        have leftInner := ofLeaves_eq_node leftNonempty depth
        have rightInner := ofLeaves_eq_node rightNonempty depth
        have pushed := inductionHypothesis rightFits
        rw [List.length_drop] at pushed
        rw [ofLeaves_succ empty, ofLeaves_append_of_le elem rightOpen.le]
        by_cases room : leaves.length < 2 ^ (depth + 1 + 1)
        · rw [if_pos (by omega)] at pushed
          rw [if_pos room, pushLeaf_right leftInner rightInner pushed]
        · rw [if_neg (by omega)] at pushed
          rw [if_neg room, pushLeaf_right_full leftInner rightInner pushed]
      · have inner := ofLeaves_eq_node empty depth
        have pushed := inductionHypothesis rightEmpty
        have wholeRoom : leaves.length < 2 ^ (depth + 1 + 1) := by
          have positive := Nat.two_pow_pos (depth + 1)
          omega
        rw [if_pos wholeRoom, ofLeaves_succ_of_length_le empty rightEmpty]
        by_cases room : leaves.length < 2 ^ (depth + 1)
        · rw [if_pos room] at pushed
          rw [ofLeaves_append_of_lt elem room, pushLeaf_left inner pushed]
        · have leftFull : 2 ^ (depth + 1) ≤ leaves.length := by
            omega
          rw [if_neg room] at pushed
          rw [ofLeaves_append_of_le elem leftFull,
            List.take_of_length_le rightEmpty,
            List.drop_eq_nil_of_le rightEmpty, List.nil_append,
            pushLeaf_left_full inner pushed]

/-- Pushing a leaf onto the tree of a list yields the tree of the extended
list; a full tree is reported and keeps every node, and no other error occurs. -/
theorem pushLeaf_create
    {leaves : List H}
    (elem : H)
    {depth : Nat}
    (positive : 1 ≤ depth)
    (fits : leaves.length ≤ 2 ^ depth) :
    ∃ tree, create leaves depth = .ok tree ∧
      (leaves.length < 2 ^ depth →
        ∃ extended, create (leaves ++ [elem]) depth = .ok extended ∧
          tree.pushLeaf elem depth = .ok (.ok (), extended)) ∧
      (leaves.length = 2 ^ depth →
        tree.pushLeaf elem depth = .ok (.error .merkleTreeFull, tree)) ∧
      ∀ error after, tree.pushLeaf elem depth = .ok (.error error, after) →
        error = .merkleTreeFull := by
  obtain ⟨depth, rfl⟩ := Nat.exists_eq_add_of_le' positive
  have pushed := pushLeaf_ofLeaves elem fits
  refine ⟨_, create_eq_ok fits, ?_, ?_, ?_⟩
  · intro room
    rw [if_pos room] at pushed
    exact ⟨_, create_eq_ok (by rw [List.length_append]; exact room), pushed⟩
  · intro full
    rwa [if_neg full.not_lt] at pushed
  · intro error after failed
    rw [failed] at pushed
    split at pushed
    · cases pushed
    · cases pushed
      rfl

/-- The third leaf goes into a tree of depth two with two leaves. -/
theorem pushLeaf_create_two :
    ∃ tree extended : MerkleTree HashTerm,
      create [.leaf 1, .leaf 2] 2 = .ok tree ∧
        create [.leaf 1, .leaf 2, .leaf 3] 2 = .ok extended ∧
        tree.pushLeaf (.leaf 3) 2 = .ok (.ok (), extended) := by
  have fits : ([.leaf 1, .leaf 2] : List HashTerm).length ≤ 2 ^ 2 := by
    decide
  obtain ⟨tree, created, pushed, -⟩ :=
    pushLeaf_create (.leaf 3) (by decide) fits
  obtain ⟨extended, rebuilt, same⟩ := pushed (by decide)
  exact ⟨tree, extended, created, rebuilt, same⟩

/-! ## Proof generation -/

/-- The branches of the tree of a list are the trees of its two halves. -/
theorem leftAndRightBranches_ofLeaves (leaves : List H) (depth : Nat) :
    (ofLeaves leaves (depth + 1)).leftAndRightBranches =
      some (ofLeaves (leaves.take (2 ^ depth)) depth,
        ofLeaves (leaves.drop (2 ^ depth)) depth) := by
  by_cases empty : leaves = []
  · subst empty
    simp [leftAndRightBranches]
  · rw [ofLeaves_succ empty]
    rfl

/-- A leaf function that agrees with a padded list agrees with its first half
there. -/
theorem pad_take_eq
    {leaves : List H}
    {depth : Nat}
    {leaf : Nat → H}
    (agree : ∀ position, position < 2 ^ (depth + 1) →
      HashTree.pad NodeHash.zero leaves position = leaf position) :
    ∀ position, position < 2 ^ depth →
      HashTree.pad NodeHash.zero (leaves.take (2 ^ depth)) position =
        leaf position := by
  intro position below
  have capacity : 2 ^ (depth + 1) = 2 ^ depth * 2 := Nat.pow_succ _ _
  rw [← agree position (by omega)]
  simp [HashTree.pad, List.getElem?_take_of_lt below]

/-- Behind the middle it agrees with the second half. -/
theorem pad_drop_eq
    {leaves : List H}
    {depth : Nat}
    {leaf : Nat → H}
    (agree : ∀ position, position < 2 ^ (depth + 1) →
      HashTree.pad NodeHash.zero leaves position = leaf position) :
    ∀ position, position < 2 ^ depth →
      HashTree.pad NodeHash.zero (leaves.drop (2 ^ depth)) position =
        leaf (2 ^ depth + position) := by
  intro position below
  have capacity : 2 ^ (depth + 1) = 2 ^ depth * 2 := Nat.pow_succ _ _
  rw [← agree (2 ^ depth + position) (by omega), HashTree.pad_drop]

/-- The tree of a part of the leaves has the hash of a subtree, if the leaf
function agrees with the padded part there. -/
theorem hash_ofLeaves_eq_subtree
    {part : List H}
    {depth : Nat}
    (fits : part.length ≤ 2 ^ depth)
    {leaf : Nat → H}
    {side : Nat}
    (agree : ∀ offset, offset < 2 ^ depth →
      HashTree.pad NodeHash.zero part offset =
        leaf (side * 2 ^ depth + offset)) :
    (ofLeaves part depth).hash =
      HashTree.subtree hashConcat leaf depth side := by
  rw [hash_ofLeaves fits]
  exact HashTree.root_congr _ _ agree

/-- The descent to a position of the list collects the siblings of the
position, top down, and ends at its leaf. The leaf function need only agree
with the padded list below the capacity, as it does in either half. -/
theorem descend_ofLeaves
    {leaves : List H}
    {depth : Nat}
    (fits : leaves.length ≤ 2 ^ depth)
    {leaf : Nat → H}
    (agree : ∀ position, position < 2 ^ depth →
      HashTree.pad NodeHash.zero leaves position = leaf position)
    {index : Nat}
    (inside : index % 2 ^ depth < leaves.length)
    (proof : List H) :
    descend index depth (ofLeaves leaves depth) proof =
      .ok (.leaf (leaf (index % 2 ^ depth)),
        proof ++ (HashTree.siblings hashConcat leaf depth
          (index % 2 ^ depth)).reverse) := by
  induction depth generalizing leaves leaf proof with
  | zero =>
      match leaves with
      | [] => simp at inside
      | hash :: _ =>
          have first := agree 0 (by simp)
          simp only [HashTree.pad, List.getD_cons_zero] at first
          simp [descend, ofLeaves, HashTree.siblings, Nat.mod_one, first]
  | succ depth inductionHypothesis =>
      have capacity : 2 ^ (depth + 1) = 2 ^ depth * 2 := Nat.pow_succ _ _
      have bit : (index >>> depth) &&& 1 = index / 2 ^ depth % 2 := by
        rw [Nat.shiftRight_eq_div_pow, Nat.and_one_is_mod]
      have position : index % 2 ^ (depth + 1) =
          index % 2 ^ depth + 2 ^ depth * (index / 2 ^ depth % 2) :=
        Nat.mod_pow_succ
      have below : index % 2 ^ depth < 2 ^ depth :=
        Nat.mod_lt _ (Nat.two_pow_pos depth)
      have low : index % 2 ^ (depth + 1) % 2 ^ depth = index % 2 ^ depth := by
        rw [capacity]
        exact Nat.mod_mul_right_mod _ _ _
      have high : index % 2 ^ (depth + 1) / 2 ^ depth =
          index / 2 ^ depth % 2 := by
        rw [capacity]
        exact Nat.mod_mul_right_div_self _ _ _
      obtain ⟨leftFits, rightFits⟩ := length_halves_le fits
      have leftAgree := pad_take_eq agree
      have rightAgree := pad_drop_eq agree
      rw [descend, leftAndRightBranches_ofLeaves, bit,
        HashTree.siblings_succ, low, high, List.reverse_append,
        List.reverse_singleton]
      rcases Nat.mod_two_eq_zero_or_one (index / 2 ^ depth) with even | odd
      · have leftInside :
            index % 2 ^ depth < (leaves.take (2 ^ depth)).length := by
          rw [List.length_take]
          rw [position, even] at inside
          omega
        have rightHash :
            (ofLeaves (leaves.drop (2 ^ depth)) depth).hash =
              HashTree.subtree hashConcat leaf depth
                (HashTree.neighbour 0) :=
          hash_ofLeaves_eq_subtree rightFits (by
            simpa [HashTree.neighbour] using rightAgree)
        simp only [even, if_neg (show ¬(0 = 1) by decide)]
        rw [inductionHypothesis leftFits leftAgree leftInside, rightHash,
          position, even]
        simp
      · have rightInside :
            index % 2 ^ depth < (leaves.drop (2 ^ depth)).length := by
          rw [List.length_drop]
          rw [position, odd] at inside
          omega
        have leftHash :
            (ofLeaves (leaves.take (2 ^ depth)) depth).hash =
              HashTree.subtree hashConcat leaf depth
                (HashTree.neighbour 1) :=
          hash_ofLeaves_eq_subtree leftFits (by
            simpa [HashTree.neighbour] using leftAgree)
        simp only [odd, if_true]
        rw [inductionHypothesis rightFits rightAgree rightInside, leftHash,
          position, odd]
        simp [Nat.add_comm]

/-- The proof generated for a position of the list: its leaf, and its siblings
bottom up. Bits of the index above the depth do not matter. -/
theorem generateProof_ofLeaves
    {leaves : List H}
    {depth : Nat}
    (fits : leaves.length ≤ 2 ^ depth)
    {index : Nat}
    (inside : index % 2 ^ depth < leaves.length) :
    generateProof (ofLeaves leaves depth) index depth =
      .ok (HashTree.pad NodeHash.zero leaves (index % 2 ^ depth),
        HashTree.siblings hashConcat (HashTree.pad NodeHash.zero leaves)
          depth (index % 2 ^ depth)) := by
  have descended := descend_ofLeaves fits (fun _ _ => rfl) inside []
  simp [generateProof, descended, isLeaf, hash, bind, Except.bind, pure,
    Except.pure]

end MerkleTree

/-! ## Proof evaluation -/

/-- The evaluation loop climbs the branch. -/
theorem evaluateBranch_eq_climb
    (index level : Nat)
    (current : H)
    (branch : List H) :
    evaluateBranch index level current branch =
      HashTree.climb hashConcat current branch (index / 2 ^ level) := by
  induction branch generalizing level current with
  | nil => rfl
  | cons next rest inductionHypothesis =>
      have above : index / 2 ^ level / 2 = index / 2 ^ (level + 1) := by
        rw [Nat.div_div_eq_div_mul, Nat.pow_succ]
      rw [evaluateBranch, inductionHypothesis, HashTree.climb, above,
        Nat.shiftRight_eq_div_pow, Nat.and_one_is_mod]

/-- Evaluating a branch of the right length climbs it. -/
theorem merkleRootFromBranch_eq_climb
    {branch : List H}
    {depth : Nat}
    (length : branch.length = depth)
    (leaf : H)
    (index : Nat) :
    merkleRootFromBranch leaf branch depth index =
      .ok (HashTree.climb hashConcat leaf branch index) := by
  rw [merkleRootFromBranch, if_pos length,
    List.take_of_length_le length.le, evaluateBranch_eq_climb]
  simp

/-- A generated proof evaluates to the root. -/
theorem merkleRootFromBranch_siblings
    (leaf : Nat → H)
    (depth index : Nat) :
    merkleRootFromBranch (leaf (index % 2 ^ depth))
        (HashTree.siblings hashConcat leaf depth (index % 2 ^ depth))
        depth index =
      .ok (HashTree.root hashConcat depth leaf) := by
  have below : index % 2 ^ depth < 2 ^ depth :=
    Nat.mod_lt _ (Nat.two_pow_pos depth)
  rw [merkleRootFromBranch_eq_climb (by simp), ← HashTree.climb_mod,
    HashTree.length_siblings, HashTree.climb_siblings _ _ below]

/-- A proof is accepted exactly when its branch has the length of the depth
and climbs to the root. -/
theorem verifyMerkleProof_eq_true_iff [DecidableEq H]
    (leaf : H)
    (branch : List H)
    (depth index : Nat)
    (root : H) :
    verifyMerkleProof leaf branch depth index root = .ok true ↔
      branch.length = depth ∧
        HashTree.climb hashConcat leaf branch index = root := by
  unfold verifyMerkleProof
  by_cases length : branch.length = depth
  · simp [length, merkleRootFromBranch_eq_climb length, bind, Except.bind,
      pure, Except.pure]
  · simp [length]

/-- If the hash is injective on the pairs that the tree and the branch are made
of, a proof is accepted under the root of a tree exactly when it shows the leaf
of its own position along that position's siblings; for a position of the list
that is the generated proof. -/
theorem verifyMerkleProof_create_iff [DecidableEq H]
    {hashed : Set (H × H)}
    (injective : Set.InjOn (Function.uncurry hashConcat) hashed)
    {depth : Nat}
    {leaves : List H}
    (fits : leaves.length ≤ 2 ^ depth)
    (builds : HashTree.Builds hashConcat hashed
      (HashTree.pad NodeHash.zero leaves) depth) :
    ∃ tree, MerkleTree.create leaves depth = .ok tree ∧
      ∀ (index : Nat) (value : H) (branch : List H),
        ((∀ pair ∈ HashTree.climbed hashConcat value branch index,
            pair ∈ hashed) →
          (verifyMerkleProof value branch depth index tree.hash = .ok true ↔
            branch.length = depth ∧
              value = HashTree.pad NodeHash.zero leaves (index % 2 ^ depth) ∧
              branch = HashTree.siblings hashConcat
                (HashTree.pad NodeHash.zero leaves) depth
                (index % 2 ^ depth))) ∧
        (index % 2 ^ depth < leaves.length →
          tree.generateProof index depth =
            .ok (HashTree.pad NodeHash.zero leaves (index % 2 ^ depth),
              HashTree.siblings hashConcat
                (HashTree.pad NodeHash.zero leaves) depth
                (index % 2 ^ depth))) := by
  refine ⟨_, MerkleTree.create_eq_ok fits, fun index value branch =>
    ⟨fun climbs => ?_, MerkleTree.generateProof_ofLeaves fits⟩⟩
  rw [verifyMerkleProof_eq_true_iff, MerkleTree.hash_ofLeaves fits]
  constructor
  · rintro ⟨rfl, reached⟩
    exact ⟨rfl, (HashTree.climb_eq_root_iff _ injective _ _ _ _ builds
      climbs).mp reached⟩
  · rintro ⟨rfl, shown⟩
    exact ⟨rfl, (HashTree.climb_eq_root_iff _ injective _ _ _ _ builds
      climbs).mpr shown⟩

/-- A digest that weighs the bytes of two nodes. -/
@[reducible] def Crypto.weighing : Crypto where
  keccak256 bytes :=
    ⟨List.ofFn fun position : Fin 32 =>
      1 + 3 * bytes.getD position 0 + 5 * bytes.getD (32 + position) 0, by
      rw [List.length_ofFn]⟩
  recover _ _ := .error .recoveryError

/-- Three leaves in a tree of depth two: the third is shown at index `6`, whose
low bits are `2`. -/
theorem verifyMerkleProof_create_iff_three :
    let _ := Crypto.weighing
    let leaf (number : UInt8) : H256 :=
      ⟨number :: List.replicate 31 0, by rw [List.length_cons,
        List.length_replicate]⟩
    let siblings : List H256 := [H256.zero, hashConcat (leaf 1) (leaf 2)]
    ∃ tree : MerkleTree H256,
      MerkleTree.create [leaf 1, leaf 2, leaf 3] 2 = .ok tree ∧
        verifyMerkleProof (leaf 3) siblings 2 6 tree.hash = .ok true ∧
        verifyMerkleProof (leaf 2) siblings 2 6 tree.hash ≠ .ok true := by
  intro _ leaf siblings
  let pairs : List (H256 × H256) :=
    [(leaf 1, leaf 2), (leaf 3, H256.zero), (leaf 2, H256.zero),
      (hashConcat (leaf 1) (leaf 2), hashConcat (leaf 3) H256.zero),
      (hashConcat (leaf 1) (leaf 2), hashConcat (leaf 2) H256.zero)]
  have injective : Set.InjOn (Function.uncurry hashConcat)
      {pair | pair ∈ pairs} :=
    List.inj_on_of_nodup_map (by decide +kernel)
  have builds : HashTree.Builds hashConcat {pair | pair ∈ pairs}
      (HashTree.pad NodeHash.zero [leaf 1, leaf 2, leaf 3]) 2 := by
    unfold HashTree.Builds
    decide +kernel
  obtain ⟨tree, created, accepted⟩ :=
    verifyMerkleProof_create_iff injective (by decide) builds
  refine ⟨tree, created, ?_, fun shown => ?_⟩
  · exact ((accepted 6 _ siblings).1 (by decide +kernel)).mpr
      (by decide +kernel)
  · have shows := ((accepted 6 _ siblings).1 (by decide +kernel)).mp shown
    exact absurd shows (by decide +kernel)

end Abacus
