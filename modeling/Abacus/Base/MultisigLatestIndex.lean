import Abacus.Base.Multisig
import Mathlib.Data.List.Sort

/-!
# The latest index of the multisig syncer

The latest indices that the validators report are sorted downwards. The first
strategy returns the highest value that is reported as often as the threshold;
only if there is none does the second one probe the reported values below the
highest for a fetchable checkpoint.
-/

namespace Abacus

/-- The latest indices that the validators report; errors are ignored. -/
def latestIndices (entries : List ValidatorEntry) : List UInt32 :=
  entries.filterMap fun entry =>
    match entry.2.latestIndex with
    | .ok (some index) => some index
    | _ => none

/-- The first strategy: count equal values along the sorted list until one
reaches the threshold. -/
def findQuorum (threshold : Nat) :
    UInt32 → Nat → List UInt32 → Option UInt32
  | _, _, [] => none
  | lastProcessedIndex, indexCount, latestIndex :: rest =>
      let (lastProcessedIndex, indexCount) :=
        if latestIndex ≠ lastProcessedIndex then (latestIndex, 1)
        else (lastProcessedIndex, indexCount + 1)
      if threshold ≤ indexCount then some lastProcessedIndex
      else findQuorum threshold lastProcessedIndex indexCount rest

/-- The second strategy: probe each value of the sorted list that differs from
the previous one. -/
def probe (fetch : UInt32 → Except Report (Option MultisigSignedCheckpoint)) :
    UInt32 → List UInt32 → Option UInt32
  | _, [] => none
  | lastProcessedIndex, latestIndex :: rest =>
      if latestIndex = lastProcessedIndex then
        probe fetch lastProcessedIndex rest
      else
        match fetch latestIndex with
        | .ok (some _) => some latestIndex
        | _ => probe fetch latestIndex rest

/-- The latest index with a quorum of signatures, as far as the two strategies
find it. -/
def MultisigCheckpointSyncer.latestIndex [Crypto]
    (syncer : MultisigCheckpointSyncer) : Except Report (Option UInt32) :=
  match (latestIndices syncer.checkpointSyncers).insertionSort (· ≥ ·) with
  | [] => .ok none
  | highest :: rest =>
      match findQuorum syncer.threshold 0 0 (highest :: rest) with
      | some index => .ok (some index)
      | none => .ok (probe syncer.fetchCheckpoint highest rest)

/-! ## The first strategy -/

/-- The highest value that is reported at least as often as the threshold. -/
structure IsHighestQuorum (threshold : Nat) (reports : List UInt32)
    (index : UInt32) : Prop where
  reached : threshold ≤ reports.count index
  highest : ∀ other, threshold ≤ reports.count other → other ≤ index

/-- The highest quorum depends only on how often each value is reported. -/
theorem IsHighestQuorum.perm
    {threshold : Nat}
    {first second : List UInt32}
    {index : UInt32}
    (quorum : IsHighestQuorum threshold first index)
    (permuted : first.Perm second) :
    IsHighestQuorum threshold second index where
  reached := by
    rw [← permuted.count_eq]
    exact quorum.reached
  highest other reached := by
    rw [← permuted.count_eq] at reached
    exact quorum.highest other reached

/-- What the running state of the first strategy says about the values it has
consumed: none of them is a quorum, and the count is that of the last, lowest
one. -/
structure Counting (threshold : Nat) (consumed : List UInt32)
    (lastProcessedIndex : UInt32) (indexCount : Nat) : Prop where
  pending : ∀ index, consumed.count index < threshold
  counted : indexCount = consumed.count lastProcessedIndex
  lowest : consumed = [] ∨
    lastProcessedIndex ∈ consumed ∧
      ∀ index ∈ consumed, lastProcessedIndex ≤ index

/-- Before the first value, nothing is counted. -/
theorem Counting.start {threshold : Nat} (positive : 1 ≤ threshold) :
    Counting threshold [] 0 0 :=
  ⟨fun _ => positive, rfl, .inl rfl⟩

/-- The next value of a descending list becomes the last one, and its count is
one more than its occurrences so far. -/
theorem Counting.next
    {threshold : Nat}
    {consumed rest : List UInt32}
    {lastProcessedIndex latestIndex : UInt32}
    {indexCount : Nat}
    (counting :
      Counting threshold consumed lastProcessedIndex indexCount)
    (descending : (consumed ++ latestIndex :: rest).Pairwise (· ≥ ·)) :
    (if latestIndex ≠ lastProcessedIndex then (latestIndex, 1)
      else (lastProcessedIndex, indexCount + 1)) =
      (latestIndex, (consumed ++ [latestIndex]).count latestIndex) := by
  rw [List.count_append, List.count_singleton_self]
  split
  · rename_i different
    have fresh : latestIndex ∉ consumed := by
      intro member
      rcases counting.lowest with none | ⟨present, lowest⟩
      · rw [none] at member
        cases member
      · have above : latestIndex ≤ lastProcessedIndex :=
          (List.pairwise_append.mp descending).2.2 _ present _ (by simp)
        exact different (UInt32.le_antisymm above (lowest _ member))
    rw [List.count_eq_zero_of_not_mem fresh]
  · rename_i same
    rw [not_not] at same
    rw [same, counting.counted]

/-- A value that is not yet a quorum is consumed. -/
theorem Counting.consume
    {threshold : Nat}
    {consumed rest : List UInt32}
    {lastProcessedIndex latestIndex : UInt32}
    {indexCount : Nat}
    (counting :
      Counting threshold consumed lastProcessedIndex indexCount)
    (descending : (consumed ++ latestIndex :: rest).Pairwise (· ≥ ·))
    (below : (consumed ++ [latestIndex]).count latestIndex < threshold) :
    Counting threshold (consumed ++ [latestIndex]) latestIndex
      ((consumed ++ [latestIndex]).count latestIndex) where
  pending index := by
    by_cases same : index = latestIndex
    · rwa [same]
    · rw [List.count_append, List.count_singleton, beq_eq_false_iff_ne.mpr
        (Ne.symm same)]
      simpa using counting.pending index
  counted := rfl
  lowest := by
    refine .inr ⟨by simp, ?_⟩
    intro index member
    rcases List.mem_append.mp member with earlier | last
    · exact (List.pairwise_append.mp descending).2.2 _ earlier _ (by simp)
    · rw [List.mem_singleton.mp last]
      exact UInt32.le_refl _

/-- A value that completes a quorum is the highest one: the values above it
have all been consumed. -/
theorem Counting.isHighestQuorum
    {threshold : Nat}
    {consumed rest : List UInt32}
    {lastProcessedIndex latestIndex : UInt32}
    {indexCount : Nat}
    (counting :
      Counting threshold consumed lastProcessedIndex indexCount)
    (descending : (consumed ++ latestIndex :: rest).Pairwise (· ≥ ·))
    (reached : threshold ≤ (consumed ++ [latestIndex]).count latestIndex) :
    IsHighestQuorum threshold (consumed ++ latestIndex :: rest)
      latestIndex where
  reached := by
    rw [List.append_cons, List.count_append]
    omega
  highest other otherReached := by
    rw [← UInt32.not_lt]
    intro above
    have absent : other ∉ latestIndex :: rest := by
      intro member
      have tail := (List.pairwise_append.mp descending).2.1
      rcases List.mem_cons.mp member with same | later
      · rw [same] at above
        exact UInt32.lt_irrefl _ above
      · have ordered := (List.pairwise_cons.mp tail).1 other later
        exact UInt32.not_lt.mpr ordered above
    rw [List.count_append, List.count_eq_zero_of_not_mem absent] at otherReached
    have pending := counting.pending other
    omega

/-- The first strategy finds the highest quorum of a descending list, or there
is none. -/
theorem findQuorum_spec
    {threshold : Nat}
    {consumed rest : List UInt32}
    {lastProcessedIndex : UInt32}
    {indexCount : Nat}
    (counting :
      Counting threshold consumed lastProcessedIndex indexCount)
    (descending : (consumed ++ rest).Pairwise (· ≥ ·)) :
    (findQuorum threshold lastProcessedIndex indexCount rest).elim
      (∀ index, (consumed ++ rest).count index < threshold)
      (IsHighestQuorum threshold (consumed ++ rest)) := by
  induction rest generalizing consumed lastProcessedIndex indexCount with
  | nil =>
      rw [List.append_nil]
      exact counting.pending
  | cons latestIndex rest inductionHypothesis =>
      have regroup : consumed ++ latestIndex :: rest =
          (consumed ++ [latestIndex]) ++ rest := by simp
      simp only [findQuorum, counting.next descending]
      split
      · rename_i reached
        exact counting.isHighestQuorum descending reached
      · rename_i below
        have consumedNext := counting.consume descending (not_le.mp below)
        rw [regroup] at descending ⊢
        exact inductionHypothesis consumedNext descending

/-! ## The second strategy -/

/-- Probing a descending list finds a value at least as high as any fetchable
one. -/
theorem exists_probe_eq_some
    {fetch : UInt32 → Except Report (Option MultisigSignedCheckpoint)}
    {lastProcessedIndex value : UInt32}
    {sorted : List UInt32}
    (descending : sorted.Pairwise (· ≥ ·))
    (member : value ∈ sorted)
    (unprobed : value ≠ lastProcessedIndex)
    (fetched : ∃ multisig, fetch value = .ok (some multisig)) :
    ∃ index, probe fetch lastProcessedIndex sorted = some index ∧
      value ≤ index := by
  induction sorted generalizing lastProcessedIndex with
  | nil => cases member
  | cons latestIndex rest inductionHypothesis =>
      have ordered := List.pairwise_cons.mp descending
      rw [probe]
      split
      · rename_i same
        rw [← same] at unprobed
        exact inductionHypothesis ordered.2
          ((List.mem_cons.mp member).resolve_left unprobed)
          (by rwa [← same])
      · split
        · refine ⟨latestIndex, rfl, ?_⟩
          rcases List.mem_cons.mp member with same | later
          · rw [same]
            exact UInt32.le_refl _
          · exact ordered.1 value later
        · rename_i missed
          have later : value ≠ latestIndex := by
            rintro rfl
            obtain ⟨multisig, some⟩ := fetched
            exact missed multisig some
          exact inductionHypothesis ordered.2
            ((List.mem_cons.mp member).resolve_left later) later

/-! ## The latest index -/

instance totalUInt32Ge :
    Std.Total (fun left right : UInt32 => left ≥ right) where
  total left right := UInt32.le_total right left

instance isTransUInt32Ge : IsTrans UInt32 (· ≥ ·) where
  trans _ _ _ first second := UInt32.le_trans second first

/-- With a fetchable reported index below the highest report, an index is
found: the highest value that is a quorum among the reports, if there is one,
and otherwise a value at least as high as the fetchable one. -/
theorem latestIndex_of_fetchCheckpoint [Crypto]
    (syncer : MultisigCheckpointSyncer)
    (value highest : UInt32)
    (reported : value ∈ latestIndices syncer.checkpointSyncers)
    (highestReported : highest ∈ latestIndices syncer.checkpointSyncers)
    (lower : value < highest)
    (positive : 1 ≤ syncer.threshold)
    (fetched : ∃ multisig,
      syncer.fetchCheckpoint value = .ok (some multisig)) :
    ∃ index, syncer.latestIndex = .ok (some index) ∧
      (IsHighestQuorum syncer.threshold
          (latestIndices syncer.checkpointSyncers) index ∨
        (∀ other, (latestIndices syncer.checkpointSyncers).count other <
            syncer.threshold) ∧
          value ≤ index) := by
  have permuted := List.perm_insertionSort (· ≥ ·)
    (latestIndices syncer.checkpointSyncers)
  have descending := List.pairwise_insertionSort (· ≥ ·)
    (latestIndices syncer.checkpointSyncers)
  unfold MultisigCheckpointSyncer.latestIndex
  cases sorted : (latestIndices syncer.checkpointSyncers).insertionSort
      (· ≥ ·) with
  | nil =>
      rw [sorted] at permuted
      rw [← permuted.mem_iff] at reported
      cases reported
  | cons top rest =>
      rw [sorted] at permuted descending
      have first := findQuorum_spec (.start positive) descending
      simp only
      cases quorum : findQuorum syncer.threshold 0 0 (top :: rest) with
      | some index =>
          rw [quorum] at first
          exact ⟨index, rfl, .inl (first.perm permuted)⟩
      | none =>
          rw [quorum] at first
          have ordered := List.pairwise_cons.mp descending
          have aboveTop : highest ≤ top := by
            rcases List.mem_cons.mp (permuted.mem_iff.mpr highestReported) with
              same | later
            · rw [same]
              exact UInt32.le_refl _
            · exact ordered.1 highest later
          have notTop : value ≠ top := by
            rintro rfl
            exact UInt32.not_lt.mpr aboveTop lower
          have inRest : value ∈ rest :=
            (List.mem_cons.mp (permuted.mem_iff.mpr reported)).resolve_left
              notTop
          obtain ⟨index, found, above⟩ :=
            exists_probe_eq_some ordered.2 inRest notTop fetched
          refine ⟨index, by rw [found], .inr ⟨fun other => ?_, above⟩⟩
          rw [← permuted.count_eq]
          exact first other

/-- Two validators that have both signed index `8`, the first of which is
already at `10`, and two that stopped at index `5`. -/
def MultisigCheckpointSyncer.lagging : MultisigCheckpointSyncer where
  threshold := 2
  checkpointSyncers := [
    (1, .holding 10 [⟨.sample 8, .naming 1⟩, ⟨.sample 10, .naming 1⟩]),
    (2, .holding 8 [⟨.sample 8, .naming 2⟩]),
    (3, .holding 5 [⟨.sample 5, .naming 3⟩]),
    (4, .holding 5 [⟨.sample 5, .naming 4⟩])]
  nodup_validators := by decide

/-- The reports at `5` are a quorum, so the index is found by the first
strategy. -/
theorem latestIndex_of_fetchCheckpoint_lagging :
    ∃ index,
      @MultisigCheckpointSyncer.latestIndex .transparent .lagging =
        .ok (some index) ∧
      (IsHighestQuorum 2 [10, 8, 5, 5] index ∨
        (∀ other : UInt32, [10, 8, 5, 5].count other < 2) ∧ 8 ≤ index) :=
  @latestIndex_of_fetchCheckpoint .transparent .lagging 8 10 (by decide)
    (by decide) (by decide) (by decide)
    ⟨⟨.sample 8, [.naming 1, .naming 2]⟩, by decide⟩

/-- Index `8` is fetchable and reported below the highest index `10`, but the
two validators that stopped hold the latest index at `5`. -/
theorem latestIndex_lagging :
    1 ≤ MultisigCheckpointSyncer.lagging.threshold ∧
      8 ∈ latestIndices MultisigCheckpointSyncer.lagging.checkpointSyncers ∧
      10 ∈ latestIndices MultisigCheckpointSyncer.lagging.checkpointSyncers ∧
      (@MultisigCheckpointSyncer.fetchCheckpoint .transparent .lagging 8 =
        .ok (some ⟨.sample 8, [.naming 1, .naming 2]⟩)) ∧
      @MultisigCheckpointSyncer.latestIndex .transparent .lagging =
        .ok (some 5) ∧
      (5 : UInt32) < 8 := by
  decide

/-! ## What is fetched -/

/-- A checkpoint can be fetched for an index. -/
def Fetchable
    (fetch : UInt32 → Except Report (Option MultisigSignedCheckpoint))
    (index : UInt32) : Prop :=
  ∃ multisig, fetch index = .ok (some multisig)

/-- The second strategy with the indices for which it fetches a checkpoint, in
order. -/
def probeTrace
    (fetch : UInt32 → Except Report (Option MultisigSignedCheckpoint)) :
    UInt32 → List UInt32 → Option UInt32 × List UInt32
  | _, [] => (none, [])
  | lastProcessedIndex, latestIndex :: rest =>
      if latestIndex = lastProcessedIndex then
        probeTrace fetch lastProcessedIndex rest
      else
        match fetch latestIndex with
        | .ok (some _) => (some latestIndex, [latestIndex])
        | _ =>
            let (found, probed) := probeTrace fetch latestIndex rest
            (found, latestIndex :: probed)

/-- The latest index with the indices for which a checkpoint is fetched, by
whatever answers the fetches get. -/
def MultisigCheckpointSyncer.latestIndexTrace
    (syncer : MultisigCheckpointSyncer)
    (fetch : UInt32 → Except Report (Option MultisigSignedCheckpoint)) :
    Option UInt32 × List UInt32 :=
  match (latestIndices syncer.checkpointSyncers).insertionSort (· ≥ ·) with
  | [] => (none, [])
  | highest :: rest =>
      match findQuorum syncer.threshold 0 0 (highest :: rest) with
      | some index => (some index, [])
      | none => probeTrace fetch highest rest

/-- The trace has the result of the second strategy. -/
theorem probeTrace_fst
    (fetch : UInt32 → Except Report (Option MultisigSignedCheckpoint))
    (lastProcessedIndex : UInt32)
    (sorted : List UInt32) :
    (probeTrace fetch lastProcessedIndex sorted).1 =
      probe fetch lastProcessedIndex sorted := by
  induction sorted generalizing lastProcessedIndex with
  | nil => rfl
  | cons latestIndex rest inductionHypothesis =>
      rw [probeTrace, probe]
      split
      · exact inductionHypothesis _
      · split
        · rfl
        · exact inductionHypothesis _

/-- The trace has the result of `latest_index`. -/
theorem latestIndex_eq_latestIndexTrace [Crypto]
    (syncer : MultisigCheckpointSyncer) :
    syncer.latestIndex =
      .ok (syncer.latestIndexTrace syncer.fetchCheckpoint).1 := by
  unfold MultisigCheckpointSyncer.latestIndex
    MultisigCheckpointSyncer.latestIndexTrace
  split
  · rfl
  · split
    · rfl
    · rw [probeTrace_fst]

/-- Probing a list below an index: the values below the index are fetched in
descending order, each once, down to the first one that is fetchable. -/
structure Probes
    (fetch : UInt32 → Except Report (Option MultisigSignedCheckpoint))
    (bound : UInt32) (sorted : List UInt32)
    (outcome : Option UInt32 × List UInt32) : Prop where
  descending : outcome.2.Pairwise (· > ·)
  probed_iff : ∀ index, index ∈ outcome.2 ↔
    index ∈ sorted ∧ index < bound ∧
      ∀ found, outcome.1 = some found → found ≤ index
  found : ∀ index, outcome.1 = some index →
    index ∈ sorted ∧ index < bound ∧ Fetchable fetch index
  highest : ∀ index ∈ sorted, index < bound → Fetchable fetch index →
    ∃ found, outcome.1 = some found ∧ index ≤ found

/-- Nothing is probed twice: a value that equals the last one is skipped. -/
theorem Probes.skip
    {fetch : UInt32 → Except Report (Option MultisigSignedCheckpoint)}
    {bound : UInt32}
    {rest : List UInt32}
    {outcome : Option UInt32 × List UInt32}
    (probes : Probes fetch bound rest outcome) :
    Probes fetch bound (bound :: rest) outcome where
  descending := probes.descending
  probed_iff index := by
    rw [probes.probed_iff, List.mem_cons]
    constructor
    · rintro ⟨member, rest⟩
      exact ⟨.inr member, rest⟩
    · rintro ⟨rfl | member, below, least⟩
      · exact absurd below (UInt32.lt_irrefl _)
      · exact ⟨member, below, least⟩
  found index some := by
    obtain ⟨member, rest⟩ := probes.found index some
    exact ⟨List.mem_cons_of_mem _ member, rest⟩
  highest index member below fetchable := by
    rcases List.mem_cons.mp member with rfl | member
    · exact absurd below (UInt32.lt_irrefl _)
    · exact probes.highest index member below fetchable

/-- A value that is fetchable ends the search. -/
theorem Probes.hit
    {fetch : UInt32 → Except Report (Option MultisigSignedCheckpoint)}
    {bound latestIndex : UInt32}
    {rest : List UInt32}
    (below : latestIndex < bound)
    (lower : ∀ index ∈ rest, index ≤ latestIndex)
    (fetchable : Fetchable fetch latestIndex) :
    Probes fetch bound (latestIndex :: rest)
      (some latestIndex, [latestIndex]) where
  descending := List.pairwise_singleton _ _
  probed_iff index := by
    rw [List.mem_singleton]
    constructor
    · rintro rfl
      refine ⟨List.mem_cons_self, below, ?_⟩
      intro found same
      rw [Option.some.inj same]
      exact UInt32.le_refl _
    · rintro ⟨member, -, least⟩
      have above := least latestIndex rfl
      rcases List.mem_cons.mp member with same | later
      · exact same
      · exact UInt32.le_antisymm (lower index later) above
  found index same := by
    rw [← Option.some.inj same]
    exact ⟨List.mem_cons_self, below, fetchable⟩
  highest index member _ _ := by
    refine ⟨latestIndex, rfl, ?_⟩
    rcases List.mem_cons.mp member with rfl | later
    · exact UInt32.le_refl _
    · exact lower index later

/-- A value that is not fetchable is followed by the search below it. -/
theorem Probes.miss
    {fetch : UInt32 → Except Report (Option MultisigSignedCheckpoint)}
    {bound latestIndex : UInt32}
    {rest : List UInt32}
    {outcome : Option UInt32 × List UInt32}
    (below : latestIndex < bound)
    (lower : ∀ index ∈ rest, index ≤ latestIndex)
    (missing : ¬ Fetchable fetch latestIndex)
    (probes : Probes fetch latestIndex rest outcome) :
    Probes fetch bound (latestIndex :: rest)
      (outcome.1, latestIndex :: outcome.2) where
  descending := List.pairwise_cons.mpr
    ⟨fun index member => ((probes.probed_iff index).mp member).2.1,
      probes.descending⟩
  probed_iff index := by
    rw [List.mem_cons, List.mem_cons]
    constructor
    · rintro (rfl | member)
      · refine ⟨.inl rfl, below, ?_⟩
        intro found same
        exact UInt32.le_of_lt (probes.found found same).2.1
      · obtain ⟨later, less, least⟩ := (probes.probed_iff index).mp member
        exact ⟨.inr later, UInt32.lt_trans less below, least⟩
    · rintro ⟨same | later, less, least⟩
      · exact .inl same
      · by_cases same : index = latestIndex
        · exact .inl same
        · exact .inr ((probes.probed_iff index).mpr
            ⟨later, UInt32.lt_of_le_of_ne (lower index later) same, least⟩)
  found index same := by
    obtain ⟨later, less, fetchable⟩ := probes.found index same
    exact ⟨List.mem_cons_of_mem _ later, UInt32.lt_trans less below,
      fetchable⟩
  highest index member less fetchable := by
    have other : index ≠ latestIndex := by
      rintro rfl
      exact missing fetchable
    have later := (List.mem_cons.mp member).resolve_left other
    exact probes.highest index later
      (UInt32.lt_of_le_of_ne (lower index later) other) fetchable

/-- The second strategy probes a descending list below its last index. -/
theorem probes_probeTrace
    (fetch : UInt32 → Except Report (Option MultisigSignedCheckpoint))
    {lastProcessedIndex : UInt32}
    {sorted : List UInt32}
    (descending : (lastProcessedIndex :: sorted).Pairwise (· ≥ ·)) :
    Probes fetch lastProcessedIndex sorted
      (probeTrace fetch lastProcessedIndex sorted) := by
  induction sorted generalizing lastProcessedIndex with
  | nil => exact ⟨List.Pairwise.nil, by simp [probeTrace], nofun, nofun⟩
  | cons latestIndex rest inductionHypothesis =>
      obtain ⟨top, ordered⟩ := List.pairwise_cons.mp descending
      have lower := (List.pairwise_cons.mp ordered).1
      rw [probeTrace]
      split
      · rename_i same
        subst same
        exact (inductionHypothesis ordered).skip
      · rename_i different
        have below : latestIndex < lastProcessedIndex :=
          UInt32.lt_of_le_of_ne (top latestIndex List.mem_cons_self) different
        split
        · rename_i multisig fetched
          exact .hit below lower ⟨multisig, fetched⟩
        · rename_i failed
          refine .miss below lower ?_ (inductionHypothesis ordered)
          rintro ⟨multisig, fetched⟩
          exact failed multisig fetched

/-- The highest of the values reported below the highest report for which a
checkpoint can be fetched. -/
structure IsHighestFetchable
    (fetch : UInt32 → Except Report (Option MultisigSignedCheckpoint))
    (reports : List UInt32) (index : UInt32) : Prop where
  reported : index ∈ reports
  below : ∃ higher ∈ reports, index < higher
  fetchable : Fetchable fetch index
  highest : ∀ other ∈ reports, (∃ higher ∈ reports, other < higher) →
    Fetchable fetch other → other ≤ index

/-- The result of `latest_index` and the indices that it fetches: the highest
quorum among the reports without a fetch, and without a quorum the highest
fetchable value below the highest report, after a fetch for each value from
there on down to it. -/
structure FindsLatest (threshold : Nat) (reports : List UInt32)
    (fetch : UInt32 → Except Report (Option MultisigSignedCheckpoint))
    (outcome : Option UInt32 × List UInt32) : Prop where
  empty : reports = [] → outcome = (none, [])
  quorum : ∀ value, threshold ≤ reports.count value →
    ∃ index, IsHighestQuorum threshold reports index ∧
      outcome = (some index, [])
  fetched : (∀ value, reports.count value < threshold) →
    ∀ index, outcome.1 = some index ↔ IsHighestFetchable fetch reports index
  missing : (∀ value, reports.count value < threshold) →
    (outcome.1 = none ↔ ∀ index ∈ reports,
      (∃ higher ∈ reports, index < higher) → ¬ Fetchable fetch index)
  descending : outcome.2.Pairwise (· > ·)
  probed_iff : (∀ value, reports.count value < threshold) →
    ∀ index, index ∈ outcome.2 ↔
      index ∈ reports ∧ (∃ higher ∈ reports, index < higher) ∧
        ∀ found, outcome.1 = some found → found ≤ index

/-- Probing below the highest report, without a quorum. -/
theorem Probes.findsLatest
    {threshold : Nat}
    {reports : List UInt32}
    {fetch : UInt32 → Except Report (Option MultisigSignedCheckpoint)}
    {top : UInt32}
    {outcome : Option UInt32 × List UInt32}
    (pending : ∀ value, reports.count value < threshold)
    (reported : top ∈ reports)
    (highest : ∀ index ∈ reports, index ≤ top)
    (probes : Probes fetch top reports outcome) :
    FindsLatest threshold reports fetch outcome := by
  have below_iff : ∀ index,
      (∃ higher ∈ reports, index < higher) ↔ index < top := by
    intro index
    constructor
    · rintro ⟨higher, member, less⟩
      exact UInt32.lt_of_lt_of_le less (highest higher member)
    · exact fun less => ⟨top, reported, less⟩
  constructor
  case empty =>
    rintro rfl
    cases reported
  case quorum =>
    intro value reached
    exact absurd reached (Nat.not_le.mpr (pending value))
  case fetched =>
    intro _ index
    constructor
    · intro found
      obtain ⟨member, less, fetchable⟩ := probes.found index found
      refine ⟨member, (below_iff index).mpr less, fetchable, ?_⟩
      intro other otherMember otherBelow otherFetchable
      obtain ⟨least, same, above⟩ := probes.highest other otherMember
        ((below_iff other).mp otherBelow) otherFetchable
      rw [found] at same
      rwa [Option.some.inj same]
    · rintro ⟨member, less, fetchable, largest⟩
      obtain ⟨found, some, above⟩ := probes.highest index member
        ((below_iff index).mp less) fetchable
      obtain ⟨foundMember, foundLess, foundFetchable⟩ :=
        probes.found found some
      have under := largest found foundMember
        ((below_iff found).mpr foundLess) foundFetchable
      rw [some, UInt32.le_antisymm under above]
  case missing =>
    intro _
    constructor
    · intro none index member less fetchable
      obtain ⟨found, some, -⟩ :=
        probes.highest index member ((below_iff index).mp less) fetchable
      rw [none] at some
      cases some
    · intro missing
      cases result : outcome.1 with
      | none => rfl
      | some index =>
          obtain ⟨member, less, fetchable⟩ := probes.found index result
          exact absurd fetchable
            (missing index member ((below_iff index).mpr less))
  case descending => exact probes.descending
  case probed_iff =>
    intro _ index
    rw [probes.probed_iff, below_iff]

/-- Probing depends on the list only through its members. -/
theorem Probes.congr
    {fetch : UInt32 → Except Report (Option MultisigSignedCheckpoint)}
    {bound : UInt32}
    {first second : List UInt32}
    {outcome : Option UInt32 × List UInt32}
    (probes : Probes fetch bound first outcome)
    (same : ∀ index, index ∈ first ↔ index ∈ second) :
    Probes fetch bound second outcome where
  descending := probes.descending
  probed_iff index := by rw [probes.probed_iff, same]
  found index some := by
    rw [← same]
    exact probes.found index some
  highest index member := probes.highest index ((same index).mpr member)

/-- Whatever is reported and however the fetches end, `latest_index` finds the
highest quorum among the reports, and otherwise the highest fetchable value
below the highest report, which it looks for downwards and without fetching
anything twice. -/
theorem latestIndex_findsLatest [Crypto]
    (syncer : MultisigCheckpointSyncer)
    (positive : 1 ≤ syncer.threshold) :
    syncer.latestIndex =
        .ok (syncer.latestIndexTrace syncer.fetchCheckpoint).1 ∧
      ∀ fetch, FindsLatest syncer.threshold
        (latestIndices syncer.checkpointSyncers) fetch
        (syncer.latestIndexTrace fetch) := by
  refine ⟨latestIndex_eq_latestIndexTrace syncer, ?_⟩
  intro fetch
  have permuted := List.perm_insertionSort (· ≥ ·)
    (latestIndices syncer.checkpointSyncers)
  have descending := List.pairwise_insertionSort (· ≥ ·)
    (latestIndices syncer.checkpointSyncers)
  unfold MultisigCheckpointSyncer.latestIndexTrace
  cases sorted : (latestIndices syncer.checkpointSyncers).insertionSort
      (· ≥ ·) with
  | nil =>
      rw [sorted] at permuted
      rw [← permuted.nil_eq]
      exact {
        empty := fun _ => rfl
        quorum := fun value reached => absurd (positive.trans reached) (by simp)
        fetched := fun _ index =>
          ⟨nofun, fun fetchable => absurd fetchable.reported (by simp)⟩
        missing := fun _ => by simp
        descending := List.Pairwise.nil
        probed_iff := fun _ index => by simp }
  | cons top rest =>
      rw [sorted] at permuted descending
      have first := findQuorum_spec (.start positive) descending
      simp only
      cases quorum : findQuorum syncer.threshold 0 0 (top :: rest) with
      | some index =>
          rw [quorum] at first
          have highest : IsHighestQuorum syncer.threshold
              (latestIndices syncer.checkpointSyncers) index :=
            first.perm permuted
          have reached := Nat.not_lt.mpr highest.reached
          have reported : latestIndices syncer.checkpointSyncers ≠ [] := by
            intro none
            rw [none] at reached
            exact reached positive
          exact {
            empty := fun none => absurd none reported
            quorum := fun value _ => ⟨index, highest, rfl⟩
            fetched := fun pending => absurd (pending index) reached
            missing := fun pending => absurd (pending index) reached
            descending := List.Pairwise.nil
            probed_iff := fun pending => absurd (pending index) reached }
      | none =>
          rw [quorum] at first
          have ordered := (List.pairwise_cons.mp descending).1
          refine Probes.findsLatest ?_ (permuted.mem_iff.mp (by simp)) ?_
            ((probes_probeTrace fetch descending).skip.congr fun index =>
              permuted.mem_iff)
          · intro value
            rw [← permuted.count_eq]
            exact first value
          · intro index member
            rcases List.mem_cons.mp (permuted.mem_iff.mpr member) with
              rfl | later
            · exact UInt32.le_refl _
            · exact ordered index later

/-- Three validators whose reports `10`, `8` and `0` are no quorum; two of them
have signed index `0`. -/
def MultisigCheckpointSyncer.scattered : MultisigCheckpointSyncer where
  threshold := 2
  checkpointSyncers := [
    (1, .holding 0 [⟨.sample 0, .naming 1⟩]),
    (2, .holding 10 [⟨.sample 0, .naming 2⟩]),
    (3, .holding 8 [])]
  nodup_validators := by decide

/-- Index `0` is found once index `8` has been tried. -/
theorem latestIndex_findsLatest_scattered :
    let fetch := @MultisigCheckpointSyncer.fetchCheckpoint .transparent
      .scattered
    @MultisigCheckpointSyncer.latestIndex .transparent .scattered =
        .ok (some 0) ∧
      FindsLatest 2 [0, 10, 8] fetch (some 0, [8, 0]) := by
  intro fetch
  have trace : MultisigCheckpointSyncer.scattered.latestIndexTrace fetch =
      (some 0, [8, 0]) := by
    decide
  obtain ⟨found, finds⟩ :=
    @latestIndex_findsLatest .transparent .scattered (by decide)
  have finds := finds fetch
  rw [trace] at finds
  rw [found, trace]
  exact ⟨rfl, finds⟩

end Abacus
