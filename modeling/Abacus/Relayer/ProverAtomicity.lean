import Abacus.Relayer.Prover

/-!
# Failing ingests of the prover

The prover raises its count before it pushes a leaf, and the push fails once
the tree is full. Up to the capacity no push fails; from there on every ingest
leaves a higher count over the same tree.
-/

namespace Abacus

variable {H : Type} [NodeHash H]

/-- The number of leaves that a tree holds. -/
def MerkleTree.leafCount : MerkleTree H → Nat
  | .leaf _ => 1
  | .node _ left right => left.leafCount + right.leafCount
  | .zero _ => 0

/-- The tree of a list holds its leaves. -/
theorem MerkleTree.leafCount_ofLeaves
    {leaves : List H}
    {depth : Nat}
    (fits : leaves.length ≤ 2 ^ depth) :
    (ofLeaves leaves depth).leafCount = leaves.length := by
  induction depth generalizing leaves with
  | zero =>
      match leaves with
      | [] => rfl
      | [_] => rfl
      | _ :: _ :: _ => simp at fits
  | succ depth inductionHypothesis =>
      by_cases empty : leaves = []
      · subst empty
        rfl
      · rw [Nat.pow_succ] at fits
        have left : (ofLeaves (leaves.take (2 ^ depth)) depth).leafCount =
            (leaves.take (2 ^ depth)).length :=
          inductionHypothesis (by simp)
        have right : (ofLeaves (leaves.drop (2 ^ depth)) depth).leafCount =
            (leaves.drop (2 ^ depth)).length :=
          inductionHypothesis (by simp; omega)
        rw [ofLeaves_succ empty, join, leafCount, left, right,
          ← List.length_append, List.take_append_drop]

namespace Prover

/-- Every ingest of a run returns, leaves the prover as it was if it fails, and
the count is the number of leaves in the tree throughout. -/
def IngestsAtomically (prover : Prover H) : List H → Prop
  | [] => prover.count = prover.tree.leafCount
  | element :: rest =>
      prover.count = prover.tree.leafCount ∧
        ∃ outcome after, prover.ingest element = .ok (outcome, after) ∧
          (∀ error, outcome = .error error → after = prover) ∧
          after.IngestsAtomically rest

/-- The state of a prover that has been offered a list of leaves: it has
counted all of them, and its tree has taken those that fit. -/
structure Offered (offered : List H) (prover : Prover H) : Prop where
  count_eq : prover.count = offered.length
  tree_eq : prover.tree =
    MerkleTree.ofLeaves (offered.take (2 ^ treeDepth)) treeDepth

/-- The leaves in the tree of a prover. -/
theorem Offered.leafCount_eq
    {offered : List H}
    {prover : Prover H}
    (state : Offered offered prover) :
    prover.tree.leafCount = min (2 ^ treeDepth) offered.length := by
  rw [state.tree_eq, MerkleTree.leafCount_ofLeaves (by simp),
    List.length_take]

/-- The count is right as long as no leaf was offered beyond the capacity. -/
theorem Offered.count_eq_leafCount_iff
    {offered : List H}
    {prover : Prover H}
    (state : Offered offered prover) :
    prover.count = prover.tree.leafCount ↔
      offered.length ≤ 2 ^ treeDepth := by
  rw [state.count_eq, state.leafCount_eq]
  omega

/-- The prover of a list of leaves that fits. -/
theorem offered_of_fromList
    {start : List H}
    (fits : start.length ≤ 2 ^ treeDepth)
    {prover : Prover H}
    (created : fromList start = .ok prover) :
    Offered start prover := by
  rw [fromList, MerkleTree.create_eq_ok fits] at created
  cases created
  exact ⟨rfl, by rw [List.take_of_length_le fits]⟩

/-- An ingest below the capacity. -/
theorem Offered.ingest_of_lt
    {offered : List H}
    {prover : Prover H}
    (state : Offered offered prover)
    (element : H)
    (room : offered.length < 2 ^ treeDepth) :
    ∃ root after, prover.ingest element = .ok (.ok root, after) ∧
      Offered (offered ++ [element]) after := by
  have tree := state.tree_eq
  rw [List.take_of_length_le room.le] at tree
  have pushed := pushLeaf_ofLeaves element room.le
  rw [if_pos room] at pushed
  let extended := MerkleTree.ofLeaves (offered ++ [element]) treeDepth
  refine ⟨extended.hash, ⟨prover.count + 1, extended⟩, ?_, ?_, ?_⟩
  · simp only [ingest, tree, pushed]
    rfl
  · simp [state.count_eq]
  · rw [List.take_of_length_le]
    rw [List.length_append]
    exact room

/-- An ingest into a full tree fails, and raises the count all the same. -/
theorem Offered.ingest_of_le
    {offered : List H}
    {prover : Prover H}
    (state : Offered offered prover)
    (element : H)
    (full : 2 ^ treeDepth ≤ offered.length) :
    prover.ingest element =
      .ok (.error (.merkleTreeError .merkleTreeFull),
        { prover with count := prover.count + 1 }) := by
  have length : (offered.take (2 ^ treeDepth)).length = 2 ^ treeDepth := by
    rw [List.length_take]
    exact Nat.min_eq_left full
  have pushed := pushLeaf_ofLeaves element length.le
  rw [if_neg length.not_lt, ← state.tree_eq] at pushed
  simp only [ingest, pushed]
  rfl

/-- A run of ingests is atomic exactly when all that is offered fits. -/
theorem Offered.ingestsAtomically_iff_fits
    {offered : List H}
    {prover : Prover H}
    (state : Offered offered prover)
    (elements : List H) :
    prover.IngestsAtomically elements ↔
      offered.length + elements.length ≤ 2 ^ treeDepth := by
  induction elements generalizing offered prover with
  | nil => exact state.count_eq_leafCount_iff
  | cons element rest inductionHypothesis =>
      rw [IngestsAtomically, state.count_eq_leafCount_iff, List.length_cons]
      constructor
      · rintro ⟨-, outcome, after, ingested, atomic, later⟩
        rcases Nat.lt_or_ge offered.length (2 ^ treeDepth) with room | full
        · obtain ⟨root, next, succeeded, nextState⟩ :=
            state.ingest_of_lt element room
          rw [succeeded] at ingested
          cases ingested
          have within := (inductionHypothesis nextState).mp later
          rw [List.length_append, List.length_singleton] at within
          omega
        · rw [state.ingest_of_le element full] at ingested
          cases ingested
          have unchanged := congrArg Prover.count (atomic _ rfl)
          exact absurd unchanged (Nat.succ_ne_self _)
      · intro within
        obtain ⟨root, after, succeeded, afterState⟩ :=
          state.ingest_of_lt element (by omega)
        refine ⟨by omega, _, after, succeeded, nofun, ?_⟩
        rw [inductionHypothesis afterState, List.length_append,
          List.length_singleton]
        omega

/-- From the default prover, or that of a slice that fits, a run of ingests is
atomic exactly when all leaves that are offered fit into the tree. -/
theorem ingestsAtomically_iff
    {start : List H}
    (fits : start.length ≤ 2 ^ treeDepth)
    {prover : Prover H}
    (created : fromList start = .ok prover ∨
      start = [] ∧ Prover.default = .ok prover)
    (elements : List H) :
    prover.IngestsAtomically elements ↔
      start.length + elements.length ≤ 2 ^ treeDepth := by
  refine Offered.ingestsAtomically_iff_fits ?_ elements
  rcases created with slice | ⟨rfl, empty⟩
  · exact offered_of_fromList fits slice
  · exact offered_of_fromList fits empty

/-- Three leaves offered to the default prover. -/
theorem ingestsAtomically_iff_three :
    ∃ prover : Prover HashTerm, Prover.default = .ok prover ∧
      prover.IngestsAtomically [.leaf 1, .leaf 2, .leaf 3] := by
  obtain ⟨prover, created, -⟩ := @holds_default HashTerm _
  exact ⟨prover, created,
    (ingestsAtomically_iff (Nat.zero_le _) (.inr ⟨rfl, created⟩) _).mpr
      (by decide)⟩

/-- One more leaf for a full tree: the ingest fails, the tree stays as it is,
and the count no longer is the number of its leaves. -/
theorem ingest_full :
    ∃ prover after : Prover HashTerm,
      fromList (List.replicate (2 ^ treeDepth) .zero) = .ok prover ∧
        prover.ingest (.leaf 1) =
          .ok (.error (.merkleTreeError .merkleTreeFull), after) ∧
        prover.count = prover.tree.leafCount ∧
        after.tree = prover.tree ∧ after.count = 2 ^ 32 + 1 ∧
        after.count ≠ after.tree.leafCount := by
  have length : (List.replicate (2 ^ treeDepth) HashTerm.zero).length =
      2 ^ treeDepth :=
    List.length_replicate
  obtain ⟨prover, created⟩ : ∃ prover : Prover HashTerm,
      fromList (List.replicate (2 ^ treeDepth) .zero) = .ok prover := by
    rw [fromList, MerkleTree.create_eq_ok length.le]
    exact ⟨_, rfl⟩
  have state := offered_of_fromList length.le created
  have counts := state.count_eq_leafCount_iff.mpr length.le
  have counted := state.count_eq.trans length
  refine ⟨prover, _, created, state.ingest_of_le _ length.ge, counts, rfl,
    ?_, ?_⟩
  · rw [counted, treeDepth]
  · rw [← counts]
    exact Nat.succ_ne_self _

end Prover

end Abacus
