import Abacus.Relayer.ProcessorTransitions

/-!
# Updating the Merkle tree builder to a checkpoint

An update waits in turn for each leaf up to the index of the checkpoint,
ingests it, and compares the roots after the last one. A checkpoint of index
zero is accepted before any of that. What one call sees of the database is a
list of polls, so that the database may grow while the call waits.
-/

namespace Abacus

open NodeHash

namespace MerkleTreeBuilder

/-- `wait_for_leaf`: poll the database until it holds the leaf, which is
returned with the polls that are left. Without them the call still waits. -/
def waitForLeaf (leafIndex : UInt32) :
    List Surroundings →
      Except (Fault Report) (Option (H256 × List Surroundings))
  | [] => .ok none
  | around :: later => do
      match ← around.read (AbacusDB.leafByLeafIndex leafIndex) with
      | some leaf => return some (leaf, later)
      | none => waitForLeaf leafIndex later

section Update

variable [Crypto]

/-- The loop of `update_to_checkpoint` from the index `i` on: wait for the leaf,
then read it once more and ingest it. -/
def updateLoop (builder : MerkleTreeBuilder H256)
    (polls : List Surroundings) (i : Nat) : (rounds : Nat) →
      Except (Fault (MerkleTreeBuilderError H256))
        (Option (MerkleTreeBuilder H256))
  | 0 => .ok (some builder)
  | rounds + 1 =>
      match waitForLeaf (UInt32.ofNat i) polls with
      | .error (.error error) => .error (.error (.dbError error))
      | .error (.panic reason) => .error (.panic reason)
      | .ok none => .ok none
      | .ok (some (_, [])) => .ok none
      | .ok (some (_, around :: later)) => do
          let builder ← builder.ingestLeafIndex
            (around.read (AbacusDB.leafByLeafIndex (UInt32.ofNat i)))
            (UInt32.ofNat i)
          updateLoop builder later (i + 1) rounds

/-- Bring the builder up to a checkpoint. Without a result the call still
waits for a leaf. -/
def updateToCheckpoint (builder : MerkleTreeBuilder H256)
    (checkpoint : Checkpoint) (polls : List Surroundings) :
    Except (Fault (MerkleTreeBuilderError H256))
      (Option (MerkleTreeBuilder H256)) :=
  if checkpoint.index = 0 then .ok (some builder)
  else do
    let startingIndex := builder.count
    let rounds := checkpoint.index.toNat + 1 - startingIndex.toNat
    match ← builder.updateLoop polls startingIndex.toNat rounds with
    | none => return none
    | some after => do
        after.checkRoots checkpoint.root
        return some after

end Update

/-! ## The leaves of the database -/

/-- The leaves of the indices below a bound. -/
def leavesBelow (leafAt : UInt32 → H256) (bound : Nat) : List H256 :=
  (List.range bound).map fun i => leafAt (UInt32.ofNat i)

@[simp] theorem length_leavesBelow (leafAt : UInt32 → H256) (bound : Nat) :
    (leavesBelow leafAt bound).length = bound := by
  simp [leavesBelow]

theorem leavesBelow_succ (leafAt : UInt32 → H256) (bound : Nat) :
    leavesBelow leafAt (bound + 1) =
      leavesBelow leafAt bound ++ [leafAt (UInt32.ofNat bound)] := by
  simp [leavesBelow, List.range_succ]

/-- The database holds no other leaf at an index than the given one. -/
def Keeps (leafAt : UInt32 → H256) (around : Surroundings) : Prop :=
  ∀ leafIndex leaf, around.db (.leaf leafIndex) = some leaf →
    leaf = leafAt leafIndex

/-- A leaf that is read is the given one. -/
theorem Keeps.eq_of_read
    {leafAt : UInt32 → H256}
    {around : Surroundings}
    (keeps : Keeps leafAt around)
    {leafIndex : UInt32}
    {leaf : H256}
    (read : around.read (AbacusDB.leafByLeafIndex leafIndex) =
      .ok (some leaf)) :
    leaf = leafAt leafIndex := by
  rcases MessageProcessor.read_cases around
    (AbacusDB.leafByLeafIndex leafIndex) with fails | reads
  · rw [fails] at read
    cases read
  · rw [reads] at read
    exact keeps leafIndex leaf (Except.ok.inj read)

/-- Waiting uses up polls only. -/
theorem suffix_of_waitForLeaf
    {leafIndex : UInt32}
    {polls later : List Surroundings}
    {leaf : H256}
    (waited : waitForLeaf leafIndex polls = .ok (some (leaf, later))) :
    later <:+ polls := by
  induction polls with
  | nil => cases waited
  | cons around rest inductionHypothesis =>
      rw [waitForLeaf] at waited
      obtain ⟨found, -, waited⟩ := exists_of_bind_eq_ok waited
      cases found with
      | some leaf =>
          cases waited
          exact List.suffix_cons around _
      | none =>
          exact (inductionHypothesis waited).trans
            (List.suffix_cons around rest)

/-! ## Runs of the loop -/

section Runs

variable [Crypto]

/-- What a successful ingest says about the builder before and after it. -/
theorem holds_of_ingest
    {leaves : List H256}
    {builder after : MerkleTreeBuilder H256}
    (holds : Holds leaves builder)
    {leaf : H256}
    (ingested : builder.ingest leaf = .ok after) :
    leaves.length < 2 ^ 32 - 1 ∧ Holds (leaves ++ [leaf]) after := by
  by_cases room : leaves.length < 2 ^ 32 - 1
  · obtain ⟨next, succeeded, nextHolds⟩ := ingest_eq_ok holds leaf room
    rw [succeeded] at ingested
    cases ingested
    exact ⟨room, nextHolds⟩
  · obtain ⟨prover, -, rest⟩ := exists_of_bind_eq_ok ingested
    obtain ⟨incremental, full, -⟩ := exists_of_bind_eq_ok rest
    rw [IncrementalMerkle.ingest, if_neg] at full
    · cases full
    · rw [holds.incremental.count_eq]
      exact room

/-- A round that succeeds has ingested the leaf of its index. -/
theorem ingest_of_ingestLeafIndex
    {leafAt : UInt32 → H256}
    {around : Surroundings}
    (keeps : Keeps leafAt around)
    {builder after : MerkleTreeBuilder H256}
    {leafIndex : UInt32}
    (ingested : builder.ingestLeafIndex
      (around.read (AbacusDB.leafByLeafIndex leafIndex)) leafIndex =
        .ok after) :
    around.read (AbacusDB.leafByLeafIndex leafIndex) =
        .ok (some (leafAt leafIndex)) ∧
      builder.ingest (leafAt leafIndex) = .ok after := by
  unfold ingestLeafIndex at ingested
  split at ingested
  · rename_i leaf read
    obtain rfl := keeps.eq_of_read read
    refine ⟨read, ?_⟩
    cases inner : builder.ingest (leafAt leafIndex) with
    | error reason =>
        rw [inner] at ingested
        cases ingested
    | ok next =>
        rw [inner] at ingested
        cases ingested
        rfl
  · cases ingested
  · cases ingested
  · cases ingested

/-- The count of a builder that holds the first leaves. -/
theorem toNat_count_leavesBelow
    {leafAt : UInt32 → H256}
    {builder : MerkleTreeBuilder H256}
    {bound : Nat}
    (holds : Holds (leavesBelow leafAt bound) builder)
    (bounded : bound ≤ 2 ^ 32 - 1) :
    builder.count.toNat = bound := by
  rw [toNat_count holds (by rw [length_leavesBelow]; omega),
    length_leavesBelow]

/-- What a round that returns has done. -/
theorem exists_of_updateLoop_succ
    {builder after : MerkleTreeBuilder H256}
    {polls : List Surroundings}
    {i rounds : Nat}
    (updated : builder.updateLoop polls i (rounds + 1) = .ok (some after)) :
    ∃ around later next, around :: later <:+ polls ∧
      builder.ingestLeafIndex
        (around.read (AbacusDB.leafByLeafIndex (UInt32.ofNat i)))
        (UInt32.ofNat i) = .ok next ∧
      updateLoop next later (i + 1) rounds = .ok (some after) := by
  rw [updateLoop] at updated
  split at updated
  · cases updated
  · cases updated
  · cases updated
  · cases updated
  · rename_i leaf around later waited
    obtain ⟨next, ingested, rest⟩ := exists_of_bind_eq_ok updated
    exact ⟨around, later, next, suffix_of_waitForLeaf waited, ingested, rest⟩

/-- A loop that returns has ingested the leaves of its indices. -/
theorem holds_of_updateLoop
    {leafAt : UInt32 → H256}
    {builder after : MerkleTreeBuilder H256}
    {polls : List Surroundings}
    (keeps : ∀ around ∈ polls, Keeps leafAt around)
    {i rounds : Nat}
    (holds : Holds (leavesBelow leafAt i) builder)
    (bounded : i ≤ 2 ^ 32 - 1)
    (updated : builder.updateLoop polls i rounds = .ok (some after)) :
    Holds (leavesBelow leafAt (i + rounds)) after ∧
      i + rounds ≤ 2 ^ 32 - 1 := by
  induction rounds generalizing builder polls i with
  | zero =>
      cases updated
      exact ⟨holds, bounded⟩
  | succ rounds inductionHypothesis =>
      obtain ⟨around, later, next, suffix, ingested, rest⟩ :=
        exists_of_updateLoop_succ updated
      obtain ⟨-, inner⟩ := ingest_of_ingestLeafIndex
        (keeps around (suffix.subset List.mem_cons_self)) ingested
      obtain ⟨room, nextHolds⟩ := holds_of_ingest holds inner
      rw [length_leavesBelow] at room
      rw [← leavesBelow_succ] at nextHolds
      have laterKeeps : ∀ around ∈ later, Keeps leafAt around :=
        fun other member =>
          keeps other (suffix.subset (List.mem_cons_of_mem _ member))
      have finished := inductionHypothesis laterKeeps nextHolds (by omega) rest
      rwa [Nat.add_right_comm, Nat.add_assoc] at finished

/-- What an update that returns has done, unless the index is zero. -/
theorem updateToCheckpoint_eq_ok
    {builder after : MerkleTreeBuilder H256}
    {checkpoint : Checkpoint}
    {polls : List Surroundings}
    (positive : checkpoint.index ≠ 0)
    (updated : builder.updateToCheckpoint checkpoint polls =
      .ok (some after)) :
    builder.updateLoop polls builder.count.toNat
        (checkpoint.index.toNat + 1 - builder.count.toNat) =
          .ok (some after) ∧
      after.checkRoots checkpoint.root = .ok () := by
  rw [updateToCheckpoint, if_neg positive] at updated
  obtain ⟨outcome, looped, rest⟩ := exists_of_bind_eq_ok updated
  cases outcome with
  | none => cases rest
  | some next =>
      obtain ⟨_, checked, returned⟩ := exists_of_bind_eq_ok rest
      cases returned
      exact ⟨looped, checked⟩

/-! ## Reachable builders -/

/-- The builders that successful updates reach, over databases that hold no
other than the given leaves. -/
inductive Reached (leafAt : UInt32 → H256) : MerkleTreeBuilder H256 → Prop
  | new {builder : MerkleTreeBuilder H256}
      (created : MerkleTreeBuilder.new = .ok builder) :
      Reached leafAt builder
  | update {builder after : MerkleTreeBuilder H256}
      (earlier : Reached leafAt builder)
      {checkpoint : Checkpoint}
      {polls : List Surroundings}
      (keeps : ∀ around ∈ polls, Keeps leafAt around)
      (updated : builder.updateToCheckpoint checkpoint polls =
        .ok (some after)) :
      Reached leafAt after

/-- An update takes a builder that holds the first leaves to one that holds
the first leaves. -/
theorem holds_of_updateToCheckpoint
    {leafAt : UInt32 → H256}
    {builder after : MerkleTreeBuilder H256}
    {checkpoint : Checkpoint}
    {polls : List Surroundings}
    (keeps : ∀ around ∈ polls, Keeps leafAt around)
    {bound : Nat}
    (holds : Holds (leavesBelow leafAt bound) builder)
    (bounded : bound ≤ 2 ^ 32 - 1)
    (positive : checkpoint.index ≠ 0)
    (updated : builder.updateToCheckpoint checkpoint polls =
      .ok (some after)) :
    Holds (leavesBelow leafAt
        (bound + (checkpoint.index.toNat + 1 - bound))) after ∧
      bound + (checkpoint.index.toNat + 1 - bound) ≤ 2 ^ 32 - 1 := by
  obtain ⟨looped, -⟩ := updateToCheckpoint_eq_ok positive updated
  have count : builder.count.toNat = bound :=
    toNat_count_leavesBelow holds (by omega)
  rw [count] at looped
  exact holds_of_updateLoop keeps holds bounded looped

/-- Every builder that is reached holds the first leaves. -/
theorem Reached.holds
    {leafAt : UInt32 → H256}
    {builder : MerkleTreeBuilder H256}
    (reached : Reached leafAt builder) :
    ∃ bound, bound ≤ 2 ^ 32 - 1 ∧
      Holds (leavesBelow leafAt bound) builder := by
  induction reached with
  | new created =>
      obtain ⟨empty, built, holds⟩ := @holds_new H256 _
      rw [built] at created
      cases created
      exact ⟨0, Nat.zero_le _, holds⟩
  | @update builder after earlier checkpoint polls keeps updated
      inductionHypothesis =>
      obtain ⟨bound, bounded, holds⟩ := inductionHypothesis
      by_cases zero : checkpoint.index = 0
      · rw [updateToCheckpoint, if_pos zero] at updated
        cases updated
        exact ⟨bound, bounded, holds⟩
      · obtain ⟨afterHolds, afterBounded⟩ :=
          holds_of_updateToCheckpoint keeps holds bounded zero updated
        exact ⟨_, afterBounded, afterHolds⟩

/-- The builder has ingested the leaves up to a checkpoint, and both of its
roots are that of the checkpoint. -/
structure Follows (leafAt : UInt32 → H256) (checkpoint : Checkpoint)
    (builder : MerkleTreeBuilder H256) : Prop where
  proverCount : builder.prover.count = checkpoint.index.toNat + 1
  incrementalCount : builder.incremental.count = checkpoint.index.toNat + 1
  tree : MerkleTree.create
    (leavesBelow leafAt (checkpoint.index.toNat + 1)) treeDepth =
      .ok builder.prover.tree
  proverRoot : builder.prover.root = checkpoint.root
  incrementalRoot : builder.incremental.root = checkpoint.root

/-- From every reachable builder, a successful update to a checkpoint that it
is not ahead of makes it follow the checkpoint, exactly if the index of the
checkpoint is not zero. -/
theorem updateToCheckpoint_follows_iff
    {leafAt : UInt32 → H256}
    {builder : MerkleTreeBuilder H256}
    (reached : Reached leafAt builder)
    {checkpoint : Checkpoint}
    (ahead : builder.prover.count ≤ checkpoint.index.toNat)
    {polls : List Surroundings}
    (keeps : ∀ around ∈ polls, Keeps leafAt around) :
    (∀ after, builder.updateToCheckpoint checkpoint polls =
        .ok (some after) → Follows leafAt checkpoint after) ↔
      checkpoint.index ≠ 0 := by
  constructor
  · intro follows zero
    have counted := (follows builder (if_pos zero)).proverCount
    omega
  · intro positive after updated
    obtain ⟨bound, bounded, holds⟩ := reached.holds
    obtain ⟨afterHolds, afterBounded⟩ :=
      holds_of_updateToCheckpoint keeps holds bounded positive updated
    obtain ⟨-, checked⟩ := updateToCheckpoint_eq_ok positive updated
    have count := holds.prover.count_eq
    rw [length_leavesBelow] at count
    have total : bound + (checkpoint.index.toNat + 1 - bound) =
        checkpoint.index.toNat + 1 := by
      omega
    rw [total] at afterHolds afterBounded
    have fits : (leavesBelow leafAt (checkpoint.index.toNat + 1)).length ≤
        2 ^ treeDepth := by
      rw [length_leavesBelow, treeDepth]
      omega
    obtain ⟨agree, root⟩ := roots_eq_of_checkRoots checked
    refine ⟨?_, ?_, ?_, root, agree.symm.trans root⟩
    · rw [afterHolds.prover.count_eq, length_leavesBelow]
    · rw [afterHolds.incremental.count_eq, length_leavesBelow]
    · rw [MerkleTree.create_eq_ok fits, afterHolds.prover.tree_eq]

/-! ## The update phases of the processor -/

/-- The processor after one step, without the message it sends. -/
def stepProcessor (processor : MessageProcessor) (around : Surroundings) :
    MessageProcessor :=
  (processor.step around).1

/-- The step of a processor that waits for a leaf. -/
theorem stepProcessor_of_updating
    {processor : MessageProcessor}
    {message : CommittedMessage}
    {checkpoint : MultisigSignedCheckpoint}
    {i : Nat}
    (updating : processor.phase = .updating message checkpoint i)
    (around : Surroundings) :
    stepProcessor processor around = (processor.settle
      (processor.update around message checkpoint i)).1 := by
  have stepped : processor.advance around =
      processor.update around message checkpoint i := by
    rw [MessageProcessor.advance, updating]
  rw [stepProcessor, MessageProcessor.step, stepped]

/-- A round of the loop is a step of a processor that waits for its leaf. -/
theorem stepProcessor_of_ingestLeafIndex
    {processor : MessageProcessor}
    {message : CommittedMessage}
    {checkpoint : MultisigSignedCheckpoint}
    {i : Nat}
    (updating : processor.phase = .updating message checkpoint i)
    (below : i ≤ checkpoint.checkpoint.index.toNat)
    {around : Surroundings}
    {next : MerkleTreeBuilder H256}
    (ingested : processor.proverSync.ingestLeafIndex
      (around.read (AbacusDB.leafByLeafIndex (UInt32.ofNat i)))
      (UInt32.ofNat i) = .ok next) :
    stepProcessor processor around =
      { processor with
        proverSync := next
        phase := .updating message checkpoint (i + 1) } := by
  rw [stepProcessor_of_updating updating, MessageProcessor.update,
    if_pos below]
  cases read : around.read
      (AbacusDB.leafByLeafIndex (UInt32.ofNat i)) with
  | error fault =>
      rw [read] at ingested
      cases fault <;> cases ingested
  | ok found =>
      rw [read] at ingested
      cases found with
      | none => cases ingested
      | some leaf =>
          simp only [ingested]
          rfl

/-- The loop runs through the waiting phases of a processor. -/
theorem exists_run_of_updateLoop
    {processor : MessageProcessor}
    {message : CommittedMessage}
    {checkpoint : MultisigSignedCheckpoint}
    {after : MerkleTreeBuilder H256}
    {polls : List Surroundings}
    {i rounds : Nat}
    (last : i + rounds = checkpoint.checkpoint.index.toNat + 1)
    (updating : processor.phase = .updating message checkpoint i)
    (updated : processor.proverSync.updateLoop polls i rounds =
      .ok (some after)) :
    ∃ arounds, Machine.run stepProcessor processor arounds =
      { processor with
        proverSync := after
        phase := .updating message checkpoint (i + rounds) } := by
  induction rounds generalizing processor polls i with
  | zero =>
      cases updated
      refine ⟨[], ?_⟩
      rw [Nat.add_zero, ← updating]
      rfl
  | succ rounds inductionHypothesis =>
      obtain ⟨around, later, next, -, ingested, rest⟩ :=
        exists_of_updateLoop_succ updated
      have stepped := stepProcessor_of_ingestLeafIndex updating
        (by omega) ingested
      let ingesting : MessageProcessor :=
        { processor with
          proverSync := next
          phase := .updating message checkpoint (i + 1) }
      have phase : ingesting.phase = .updating message checkpoint (i + 1) :=
        rfl
      obtain ⟨arounds, run⟩ := inductionHypothesis (by omega) phase rest
      refine ⟨around :: arounds, ?_⟩
      rw [Machine.run_cons, stepped, run, Nat.add_right_comm, Nat.add_assoc]

/-- An update that returns is a run of a processor from the phase in which it
prepares the update to the one in which it looks for the proof. -/
theorem exists_run_of_updateToCheckpoint
    {processor : MessageProcessor}
    {message : CommittedMessage}
    {checkpoint : MultisigSignedCheckpoint}
    {after : MerkleTreeBuilder H256}
    {polls : List Surroundings}
    (covered : processor.messageLeafIndex ≤ checkpoint.checkpoint.index)
    (ahead : processor.proverSync.count ≤ checkpoint.checkpoint.index)
    (updated : processor.proverSync.updateToCheckpoint checkpoint.checkpoint
      polls = .ok (some after)) :
    ∃ prepared arounds,
      processor.prepare message checkpoint = .ok (prepared, none) ∧
      Machine.run stepProcessor prepared arounds =
        { processor with
          proverSync := after
          phase := .dispatching message checkpoint } := by
  by_cases zero : checkpoint.checkpoint.index = 0
  · rw [updateToCheckpoint, if_pos zero] at updated
    cases updated
    refine ⟨_, [], ?_, rfl⟩
    rw [MessageProcessor.prepare, if_pos covered, if_pos ahead, if_pos zero]
    rfl
  · obtain ⟨looped, checked⟩ := updateToCheckpoint_eq_ok zero updated
    have start := UInt32.le_iff_toNat_le.mp ahead
    let prepared : MessageProcessor :=
      { processor with
        phase := .updating message checkpoint
          processor.proverSync.count.toNat }
    have phase : prepared.phase = .updating message checkpoint
        processor.proverSync.count.toNat :=
      rfl
    obtain ⟨arounds, run⟩ :=
      exists_run_of_updateLoop (by omega) phase looped
    let silent : Surroundings := ⟨Journal.empty, false, none, false, false⟩
    refine ⟨prepared, arounds ++ [silent], ?_, ?_⟩
    · rw [MessageProcessor.prepare, if_pos covered, if_pos ahead,
        if_neg zero]
      rfl
    · rw [Machine.run_concat, run, stepProcessor_of_updating rfl,
        MessageProcessor.update, if_neg (by omega), checked]
      rfl

end Runs

/-! ## Updates that return -/

/-- The database holds all of the given leaves and does not fail. -/
structure Serves (leafAt : UInt32 → H256) (around : Surroundings) : Prop where
  answers : around.dbFails = false
  stored : ∀ leafIndex,
    around.db (.leaf leafIndex) = some (leafAt leafIndex)

/-- A leaf that the database holds is read. -/
theorem Serves.read
    {leafAt : UInt32 → H256}
    {around : Surroundings}
    (serves : Serves leafAt around)
    (leafIndex : UInt32) :
    around.read (AbacusDB.leafByLeafIndex leafIndex) =
      .ok (some (leafAt leafIndex)) := by
  have answered : around.read (AbacusDB.leafByLeafIndex leafIndex) =
      .ok (around.db (.leaf leafIndex)) := by
    rw [Surroundings.read, serves.answers]
    rfl
  rw [answered, serves.stored]

theorem Serves.keeps
    {leafAt : UInt32 → H256}
    {around : Surroundings}
    (serves : Serves leafAt around) :
    Keeps leafAt around := by
  intro leafIndex leaf stored
  rw [serves.stored] at stored
  exact (Option.some.inj stored).symm

section Returns

variable [Crypto]

/-- A round whose two polls find the leaf. -/
theorem updateLoop_succ
    {leafAt : UInt32 → H256}
    {first second : Surroundings}
    (firstServes : Serves leafAt first)
    (secondServes : Serves leafAt second)
    {builder next : MerkleTreeBuilder H256}
    {i : Nat}
    (ingested : builder.ingest (leafAt (UInt32.ofNat i)) = .ok next)
    (later : List Surroundings)
    (rounds : Nat) :
    builder.updateLoop (first :: second :: later) i (rounds + 1) =
      next.updateLoop later (i + 1) rounds := by
  have waited : waitForLeaf (UInt32.ofNat i) (first :: second :: later) =
      .ok (some (leafAt (UInt32.ofNat i), second :: later)) := by
    rw [waitForLeaf, firstServes.read]
    rfl
  have round : builder.ingestLeafIndex (.ok (some (leafAt (UInt32.ofNat i))))
      (UInt32.ofNat i) = .ok next := by
    rw [ingestLeafIndex, ingested]
    rfl
  simp only [updateLoop, waited, secondServes.read, round]
  rfl

/-- The loop returns if all leaves are there and fit. -/
theorem exists_updateLoop_eq_ok
    {leafAt : UInt32 → H256}
    {builder : MerkleTreeBuilder H256}
    {polls : List Surroundings}
    (serves : ∀ around ∈ polls, Serves leafAt around)
    {i rounds : Nat}
    (enough : 2 * rounds ≤ polls.length)
    (holds : Holds (leavesBelow leafAt i) builder)
    (fits : i + rounds ≤ 2 ^ 32 - 1) :
    ∃ after, builder.updateLoop polls i rounds = .ok (some after) ∧
      Holds (leavesBelow leafAt (i + rounds)) after := by
  induction rounds generalizing builder polls i with
  | zero => exact ⟨builder, rfl, holds⟩
  | succ rounds inductionHypothesis =>
      match polls with
      | [] => simp at enough
      | [_] =>
          rw [List.length_singleton] at enough
          omega
      | first :: second :: later =>
          obtain ⟨next, ingested, nextHolds⟩ :=
            ingest_eq_ok holds (leafAt (UInt32.ofNat i))
              (by rw [length_leavesBelow]; omega)
          rw [← leavesBelow_succ] at nextHolds
          simp only [List.length_cons] at enough
          have laterServes : ∀ around ∈ later, Serves leafAt around :=
            fun around member => serves around (by simp [member])
          obtain ⟨after, updated, afterHolds⟩ :=
            inductionHypothesis laterServes (by omega) nextHolds (by omega)
          refine ⟨after, ?_, ?_⟩
          · rw [updateLoop_succ (serves first (by simp))
              (serves second (by simp)) ingested, updated]
          · rwa [Nat.add_right_comm, Nat.add_assoc] at afterHolds

/-- An update returns if the database holds the leaves up to the checkpoint
and the root of the checkpoint is that of these leaves. -/
theorem exists_updateToCheckpoint_eq_ok
    {leafAt : UInt32 → H256}
    {builder : MerkleTreeBuilder H256}
    {bound : Nat}
    (holds : Holds (leavesBelow leafAt bound) builder)
    {checkpoint : Checkpoint}
    (ahead : bound ≤ checkpoint.index.toNat)
    (fits : checkpoint.index.toNat < 2 ^ 32 - 1)
    (rightRoot : checkpoint.root =
      HashTree.root hashConcat treeDepth (HashTree.pad NodeHash.zero
        (leavesBelow leafAt (checkpoint.index.toNat + 1))))
    {polls : List Surroundings}
    (serves : ∀ around ∈ polls, Serves leafAt around)
    (enough : 2 * (checkpoint.index.toNat + 1 - bound) ≤ polls.length) :
    ∃ after,
      builder.updateToCheckpoint checkpoint polls = .ok (some after) := by
  by_cases zero : checkpoint.index = 0
  · exact ⟨builder, if_pos zero⟩
  have count : builder.count.toNat = bound :=
    toNat_count_leavesBelow holds (by omega)
  obtain ⟨after, updated, afterHolds⟩ :=
    exists_updateLoop_eq_ok serves enough holds (by omega)
  have total : bound + (checkpoint.index.toNat + 1 - bound) =
      checkpoint.index.toNat + 1 := by
    omega
  rw [total] at afterHolds
  have below : (leavesBelow leafAt (checkpoint.index.toNat + 1)).length <
      2 ^ treeDepth := by
    rw [length_leavesBelow, treeDepth]
    omega
  have checked : after.checkRoots checkpoint.root = .ok () := by
    rw [checkRoots, Prover.root_eq afterHolds.prover below.le,
      IncrementalMerkle.root_eq afterHolds.incremental below, rightRoot]
    exact if_neg (by simp)
  refine ⟨after, ?_⟩
  simp only [updateToCheckpoint, if_neg zero, count, updated, bind,
    Except.bind, checked, pure, Except.pure]

end Returns

/-- A database with the zero leaf at every index. -/
def zeroLeaves : Surroundings where
  db key :=
    match key with
    | .leaf _ => some H256.zero
    | _ => none
  dbFails := false
  ckptRx := none
  ckptClosed := false
  txClosed := false

theorem serves_zeroLeaves : Serves (fun _ => H256.zero) zeroLeaves where
  answers := rfl
  stored _ := rfl

/-- A new builder follows a checkpoint of two leaves. -/
theorem updateToCheckpoint_follows_iff_two :
    let _ := Crypto.transparent
    let root := HashTree.root hashConcat treeDepth
      (HashTree.pad NodeHash.zero [H256.zero, H256.zero])
    ∃ builder after : MerkleTreeBuilder H256,
      new = .ok builder ∧
        builder.updateToCheckpoint ⟨1000, root, 1⟩
          (List.replicate 4 zeroLeaves) = .ok (some after) ∧
        Follows (fun _ => H256.zero) ⟨1000, root, 1⟩ after := by
  intro crypto root
  obtain ⟨builder, created, holds⟩ := @holds_new H256 _
  have serves : ∀ around ∈ List.replicate 4 zeroLeaves,
      Serves (fun _ => H256.zero) around := by
    intro around member
    rw [List.eq_of_mem_replicate member]
    exact serves_zeroLeaves
  have empty : Holds (leavesBelow (fun _ => H256.zero) 0) builder := holds
  have leaves : leavesBelow (fun _ => H256.zero) ((1 : UInt32).toNat + 1) =
      [H256.zero, H256.zero] :=
    rfl
  obtain ⟨after, updated⟩ : ∃ after,
      builder.updateToCheckpoint ⟨1000, root, 1⟩
        (List.replicate 4 zeroLeaves) = .ok (some after) :=
    exists_updateToCheckpoint_eq_ok empty (Nat.zero_le _) (by decide)
      (by rw [leaves]) serves (by decide)
  refine ⟨builder, after, created, updated, ?_⟩
  have ahead : builder.prover.count ≤ (1 : UInt32).toNat := by
    rw [holds.prover.count_eq]
    decide
  exact (updateToCheckpoint_follows_iff (.new created) ahead
    fun around member => (serves around member).keeps).mpr
      (by decide) after updated

/-- The root of an empty tree is zero where the digest keeps the last bytes. -/
theorem zeroHashes_transparent (depth : Nat) :
    let _ := Crypto.transparent
    (zeroHashes depth : H256) = H256.zero := by
  intro crypto
  induction depth with
  | zero => rfl
  | succ depth inductionHypothesis =>
      rw [zeroHashes, inductionHypothesis]
      rfl

/-- A new builder accepts a checkpoint of index zero that has another root than
its own, and has ingested nothing, although the leaf is there. -/
theorem updateToCheckpoint_index_zero :
    let _ := Crypto.transparent
    let root : H256 := ⟨List.replicate 32 1, by simp⟩
    ∃ builder : MerkleTreeBuilder H256,
      new = .ok builder ∧
        Serves (fun _ => H256.zero) zeroLeaves ∧
        builder.updateToCheckpoint ⟨1000, root, 0⟩ [zeroLeaves] =
          .ok (some builder) ∧
        builder.prover.count = 0 ∧ builder.incremental.count = 0 ∧
        builder.prover.root ≠ root := by
  intro crypto root
  obtain ⟨builder, created, holds⟩ := @holds_new H256 _
  refine ⟨builder, created, serves_zeroLeaves, rfl, holds.prover.count_eq,
    holds.incremental.count_eq, ?_⟩
  rw [Prover.root, holds.prover.tree_eq, MerkleTree.ofLeaves_nil,
    MerkleTree.hash, zeroHashes_transparent]
  decide

end MerkleTreeBuilder

end Abacus
