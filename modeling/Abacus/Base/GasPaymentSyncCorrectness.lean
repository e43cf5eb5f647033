import Abacus.Base.GasPaymentSync
import Abacus.Library.Machine

/-!
# Gas payments are counted once

Windows overlap, so that payments are passed to the database again and again.
In every run with restarts between database operations the totals are the sums
of the distinct payments passed so far, and all payments up to the recorded
block have been passed.
-/

namespace Abacus

open AbacusDB (Counted leafTotal)
open Journal (Program)

/-- The gas payments with their blocks; the metadata identifies a payment. -/
structure GasChain where
  paid : List (UInt32 × InterchainGasPaymentWithMeta)
  nodup_meta : (paid.map fun sent => sent.2.paymentMeta).Nodup

namespace GasChain

/-- The payments. -/
def payments (chain : GasChain) : List InterchainGasPaymentWithMeta :=
  chain.paid.map Prod.snd

/-- The payments of a range of blocks. -/
def window (chain : GasChain) (fromBlock toBlock : UInt32) :
    List InterchainGasPaymentWithMeta :=
  (chain.paid.filter fun sent =>
    decide (fromBlock ≤ sent.1) && decide (sent.1 ≤ toBlock)).map Prod.snd

/-- The provider returns exactly the payments of each window, in any order. -/
def Complete (chain : GasChain) (poll : GasPoll) : Prop :=
  ∀ fromBlock toBlock response,
    poll.fetchGasPayments fromBlock toBlock = .ok response →
      response.Perm (chain.window fromBlock toBlock)

/-- What an event may bring. -/
def Answers (chain : GasChain) : GasEvent → Prop
  | .poll poll => chain.Complete poll
  | _ => True

/-- The payments of each leaf fit into a total. -/
def Bounded (chain : GasChain) : Prop :=
  ∀ leafIndex, leafTotal chain.payments leafIndex < 2 ^ 256

/-- A payment is in the window of its block. -/
theorem mem_window_of_mem
    {chain : GasChain}
    {sent : UInt32 × InterchainGasPaymentWithMeta}
    (member : sent ∈ chain.paid)
    {fromBlock toBlock : UInt32}
    (above : fromBlock ≤ sent.1)
    (below : sent.1 ≤ toBlock) :
    sent.2 ∈ chain.window fromBlock toBlock := by
  refine List.mem_map_of_mem (List.mem_filter.mpr ⟨member, ?_⟩)
  rw [Bool.and_eq_true, decide_eq_true_iff, decide_eq_true_iff]
  exact ⟨above, below⟩

/-- A window consists of payments of the chain. -/
theorem window_subset
    (chain : GasChain)
    (fromBlock toBlock : UInt32) :
    chain.window fromBlock toBlock ⊆ chain.payments := by
  intro payment member
  obtain ⟨sent, inside, rfl⟩ := List.mem_map.mp member
  exact List.mem_map_of_mem (List.mem_of_mem_filter inside)

/-- Two payments of the chain with the same metadata are the same. -/
theorem eq_of_paymentMeta_eq
    {chain : GasChain}
    {first second : InterchainGasPaymentWithMeta}
    (one : first ∈ chain.payments)
    (two : second ∈ chain.payments)
    (same : first.paymentMeta = second.paymentMeta) :
    first = second := by
  have distinct := chain.nodup_meta
  rw [show (chain.paid.map fun sent => sent.2.paymentMeta) =
    chain.payments.map InterchainGasPaymentWithMeta.paymentMeta by
      rw [payments, List.map_map]; rfl] at distinct
  exact List.inj_on_of_nodup_map distinct one two same

end GasChain

/-- What a fetched window is. -/
theorem of_fetchGasWindow_eq_some
    {chunkSize : UInt32}
    {poll : GasPoll}
    {fromBlock : UInt32}
    {window : GasWindow}
    (fetches : fetchGasWindow chunkSize poll fromBlock = .ok (some window)) :
    ∃ fullChunkFrom, fullChunkFrom ≤ fromBlock ∧
      poll.fetchGasPayments fullChunkFrom window.toBlock =
        .ok window.gasPayments := by
  unfold fetchGasWindow at fetches
  split at fetches
  · cases fetches
  · rename_i tip finalized
    split at fetches
    · cases fetches
    · rename_i behind
      obtain ⟨candidate, added, fetches⟩ := exists_of_bind_eq_ok fetches
      obtain ⟨response, answered, fetches⟩ := exists_of_bind_eq_ok fetches
      have bounds := window_bounds added (UInt32.not_le.mp behind)
      cases fetches
      refine ⟨_, bounds.2, ?_⟩
      generalize poll.fetchGasPayments _ _ = outcome at answered ⊢
      cases outcome with
      | error error => cases answered
      | ok payments =>
          cases answered
          rfl

/-! ## The invariant -/

/-- The payments from a first block on that are low enough have been
passed. -/
def PassedBelow (chain : GasChain) (configFrom : UInt32)
    (passed : List InterchainGasPaymentWithMeta) (low : UInt32 → Prop) :
    Prop :=
  ∀ sent ∈ chain.paid, configFrom ≤ sent.1 → low sent.1 → sent.2 ∈ passed

/-- What has been passed at a phase: everything below the head of the loop;
inside a window, everything up to its end except for the remaining
payments. -/
def GasPhase.Covers (chain : GasChain) (configFrom : UInt32)
    (passed : List InterchainGasPaymentWithMeta) : GasPhase → Prop
  | .head fromBlock => PassedBelow chain configFrom passed (· < fromBlock)
  | .processing window remaining =>
      remaining ⊆ chain.payments ∧
        PassedBelow chain configFrom (passed ++ remaining)
          (· ≤ window.toBlock)
  | .ended _ => True

/-- The invariant of the indexer and of the payments passed so far. -/
structure GasIndexer.Counts (chain : GasChain) (configFrom : UInt32)
    (passed : List InterchainGasPaymentWithMeta) (indexer : GasIndexer) :
    Prop where
  counted : Counted passed indexer.db
  known : passed ⊆ chain.payments
  persisted : ∀ block,
    indexer.db .latestIndexedGasPaymentBlock = some block →
      PassedBelow chain configFrom passed (· ≤ block)
  covers : indexer.phase.Covers chain configFrom passed

section Steps

variable {chain : GasChain}
variable {configFrom chunkSize : UInt32}
variable {passed : List InterchainGasPaymentWithMeta}
variable {indexer : GasIndexer}

/-- Moving past a block up to which everything has been passed. -/
theorem covers_ofResult_checkedAdd
    {block : UInt32}
    (below : PassedBelow chain configFrom passed (· ≤ block)) :
    (GasPhase.ofResult (checkedAdd block 1)).Covers chain configFrom
      passed := by
  rcases checkedAdd_cases (ε := Report) block 1 with
    ⟨next, added, counted⟩ | overflow
  · rw [added]
    intro sent member above low
    refine below sent member above ?_
    rw [UInt32.lt_iff_toNat_lt, counted] at low
    exact UInt32.le_iff_toNat_le.mpr (Nat.lt_succ_iff.mp low)
  · rw [overflow]
    trivial

/-- A restart keeps the invariant. -/
theorem GasIndexer.Counts.start
    {db : AbacusDB}
    (counted : Counted passed db)
    (known : passed ⊆ chain.payments)
    (persisted : ∀ block, db .latestIndexedGasPaymentBlock = some block →
      PassedBelow chain configFrom passed (· ≤ block)) :
    (GasIndexer.start configFrom db).Counts chain configFrom passed := by
  refine ⟨counted, known, persisted, ?_⟩
  change (GasPhase.ofResult ((resumeBlock configFrom).result db)).Covers
    chain configFrom passed
  rw [result_resumeBlock]
  cases latest : db .latestIndexedGasPaymentBlock with
  | none =>
      intro sent _ above below
      exact absurd above (UInt32.not_le.mpr below)
  | some block => exact covers_ofResult_checkedAdd (persisted block latest)

/-- An answer of a complete provider keeps the invariant: the window reaches
back to the head of the loop. -/
theorem GasPhase.Covers.poll
    {phase : GasPhase}
    (covers : phase.Covers chain configFrom passed)
    {poll : GasPoll}
    (complete : chain.Complete poll) :
    (phase.poll chunkSize poll).Covers chain configFrom passed := by
  cases phase with
  | processing window remaining => exact covers
  | ended fault => trivial
  | head fromBlock =>
      cases fetches : fetchGasWindow chunkSize poll fromBlock with
      | error fault =>
          simp only [GasPhase.poll, fetches]
          trivial
      | ok outcome =>
          cases outcome with
          | none =>
              simp only [GasPhase.poll, fetches]
              exact covers
          | some window =>
              simp only [GasPhase.poll, fetches]
              obtain ⟨fullChunkFrom, full, answer⟩ :=
                of_fetchGasWindow_eq_some fetches
              have response := complete _ _ _ answer
              refine ⟨fun payment member =>
                chain.window_subset _ _ (response.subset member), ?_⟩
              intro sent member above low
              by_cases earlier : sent.1 < fromBlock
              · exact List.mem_append_left _
                  (covers sent member above earlier)
              · apply List.mem_append_right
                apply response.symm.subset
                exact GasChain.mem_window_of_mem member
                  (UInt32.le_trans full (UInt32.not_lt.mp earlier)) low

/-- Processing a payment does not touch the record of the indexed block. -/
theorem latestIndexed_processGasPayment
    (payment : InterchainGasPaymentWithMeta)
    (db : AbacusDB) :
    (AbacusDB.processGasPayment payment).final db
        .latestIndexedGasPaymentBlock =
      db .latestIndexedGasPaymentBlock := by
  rcases AbacusDB.processGasPayment_cases payment db with
    ⟨-, run⟩ | ⟨-, -, run⟩ | ⟨-, -, run⟩
  all_goals
    rw [Program.final, Program.journal, run]
    apply Journal.replay_of_forall_ne
    simp [AbacusDB.processedPut, AbacusDB.totalPut]

/-- Finishing a window keeps the invariant: the recorded block is its last. -/
theorem GasIndexer.Counts.finish
    {db : AbacusDB}
    {window : GasWindow}
    (counts : GasIndexer.Counts chain configFrom passed
      ⟨db, .processing window []⟩) :
    (GasIndexer.operation ⟨db, .processing window []⟩).Counts chain configFrom
      passed := by
  obtain ⟨counted, known, -, -, below⟩ := counts
  rw [List.append_nil] at below
  refine ⟨?_, known, ?_, covers_ofResult_checkedAdd below⟩
  · change Counted passed ((finishGasWindow window.toBlock).final db)
    rw [final_finishGasWindow]
    exact counted.congr
      (fun _ => Journal.Put.apply_of_ne (by simp) db)
      (fun _ => Journal.Put.apply_of_ne (by simp) db)
  · intro block recorded
    have last : (finishGasWindow window.toBlock).final db
        .latestIndexedGasPaymentBlock = some window.toBlock := by
      rw [final_finishGasWindow]
      exact Journal.Put.apply_mk_self _ _ db
    obtain rfl := Option.some.inj (last.symm.trans recorded)
    exact below

/-- Processing a payment of a window keeps the invariant, with the payment
passed. -/
theorem GasIndexer.Counts.process
    (bounded : chain.Bounded)
    {db : AbacusDB}
    {window : GasWindow}
    {payment : InterchainGasPaymentWithMeta}
    {remaining : List InterchainGasPaymentWithMeta}
    (counts : GasIndexer.Counts chain configFrom passed
      ⟨db, .processing window (payment :: remaining)⟩) :
    (GasIndexer.operation
      ⟨db, .processing window (payment :: remaining)⟩).Counts chain configFrom
        (passed ++ [payment]) := by
  obtain ⟨counted, known, persisted, rest, below⟩ := counts
  have inside : passed ++ [payment] ⊆ chain.payments := by
    intro other member
    rcases List.mem_append.mp member with earlier | now
    · exact known earlier
    · rw [List.mem_singleton.mp now]
      exact rest (by simp)
  have limit := Nat.lt_of_le_of_lt
    (AbacusDB.leafTotal_le_of_subset inside payment.payment.leafIndex)
    (bounded payment.payment.leafIndex)
  obtain ⟨returned, counted⟩ := counted.processGasPayment
    (fun other member same => GasChain.eq_of_paymentMeta_eq
      (known member) (rest (by simp)) same) limit
  simp only [GasIndexer.operation, returned]
  refine ⟨counted, inside, fun block recorded => ?_, ?_, ?_⟩
  · have recorded :=
      (latestIndexed_processGasPayment payment db).symm.trans recorded
    intro sent member above low
    exact List.mem_append_left _
      (persisted block recorded sent member above low)
  · exact fun other member => rest (List.mem_cons_of_mem _ member)
  · intro sent member above low
    rw [List.append_assoc]
    exact below sent member above low

/-- The next operation keeps the invariant. -/
theorem GasIndexer.Counts.operation
    (bounded : chain.Bounded)
    (counts : indexer.Counts chain configFrom passed) :
    indexer.operation.Counts chain configFrom
      (passed ++ indexer.passed .operation) := by
  obtain ⟨db, phase⟩ := indexer
  cases phase with
  | head fromBlock =>
      rw [GasIndexer.passed, List.append_nil]
      exact counts
  | ended fault =>
      rw [GasIndexer.passed, List.append_nil]
      exact counts
  | processing window remaining =>
      cases remaining with
      | nil =>
          rw [GasIndexer.passed, List.append_nil]
          exact counts.finish
      | cons payment remaining => exact counts.process bounded

/-- Every event keeps the invariant. -/
theorem GasIndexer.Counts.step
    (bounded : chain.Bounded)
    (counts : indexer.Counts chain configFrom passed)
    {event : GasEvent}
    (answers : chain.Answers event) :
    (indexer.step configFrom chunkSize event).Counts chain configFrom
      (passed ++ indexer.passed event) := by
  cases event with
  | poll poll =>
      simp only [GasIndexer.passed, List.append_nil]
      exact ⟨counts.counted, counts.known, counts.persisted,
        counts.covers.poll answers⟩
  | operation => exact counts.operation bounded
  | restart =>
      simp only [GasIndexer.passed, List.append_nil]
      exact .start counts.counted counts.known counts.persisted

end Steps

/-! ## Runs -/

/-- In every run from the empty database, with restarts between any two
database operations, against a provider that returns exactly the payments of
each window: the total of each leaf is the sum of the distinct payments passed
so far, and every payment up to the recorded block has been passed. -/
theorem run_gas_counted
    (chain : GasChain)
    (bounded : chain.Bounded)
    (configFrom chunkSize : UInt32)
    (events : List GasEvent)
    (answers : ∀ event ∈ events, chain.Answers event) :
    (∀ leafIndex, ∃ total,
        (AbacusDB.retrieveGasPaymentForLeaf leafIndex).result
            (Machine.run (GasIndexer.step configFrom chunkSize)
              (GasIndexer.start configFrom Journal.empty) events).db =
          .ok total ∧
        total.toNat = leafTotal
          (Machine.log (GasIndexer.step configFrom chunkSize)
            GasIndexer.passed (GasIndexer.start configFrom Journal.empty)
            events) leafIndex) ∧
      ∀ block,
        AbacusDB.retrieveLatestIndexedGasPaymentBlock.result
            (Machine.run (GasIndexer.step configFrom chunkSize)
              (GasIndexer.start configFrom Journal.empty) events).db =
          .ok (some block) →
        ∀ sent ∈ chain.paid, configFrom ≤ sent.1 → sent.1 ≤ block →
          sent.2 ∈ Machine.log (GasIndexer.step configFrom chunkSize)
            GasIndexer.passed (GasIndexer.start configFrom Journal.empty)
            events := by
  have initial : (GasIndexer.start configFrom Journal.empty).Counts chain
      configFrom [] :=
    .start AbacusDB.counted_empty (List.nil_subset _) (by
      rintro block ⟨⟩)
  have reached := Machine.invariant_log (GasIndexer.step configFrom chunkSize)
    GasIndexer.passed (GasIndexer.Counts chain configFrom)
    (fun _ _ _ answer counts => counts.step bounded answer) initial
    (Machine.admissibleRun_of_forall _ _ answers)
  rw [List.nil_append] at reached
  refine ⟨fun leafIndex => ⟨_, rfl, reached.counted.total leafIndex⟩, ?_⟩
  intro block recorded
  simp only [Program.result, AbacusDB.retrieveLatestIndexedGasPaymentBlock,
    AbacusDB.run_retrieve, Except.ok.injEq] at recorded
  exact reached.persisted block recorded

/-- Two payments for one leaf, in the blocks `5` and `12`. -/
def GasChain.pair : GasChain where
  paid := [
    (5, {
      payment := { leafIndex := 0, amount := 7 }
      paymentMeta := { transactionHash := H256.zero, logIndex := 0 } }),
    (12, {
      payment := { leafIndex := 0, amount := 9 }
      paymentMeta := { transactionHash := H256.zero, logIndex := 1 } })]
  nodup_meta := by decide

/-- A complete provider at some block. -/
def GasChain.poll (chain : GasChain) (tip : UInt32) : GasPoll where
  finalizedBlockNumber := .ok tip
  fetchGasPayments fromBlock toBlock := .ok (chain.window fromBlock toBlock)

theorem GasChain.complete_poll (chain : GasChain) (tip : UInt32) :
    chain.Complete (chain.poll tip) := by
  intro fromBlock toBlock response answer
  cases answer
  exact List.Perm.refl _

theorem GasChain.bounded_pair : GasChain.pair.Bounded := by
  intro leafIndex
  have most : leafTotal GasChain.pair.payments leafIndex ≤
      ∑ payment ∈ GasChain.pair.payments.toFinset,
        payment.payment.amount.toNat :=
    Finset.sum_le_sum_of_subset (Finset.filter_subset _ _)
  exact most.trans_lt (by decide)

/-- The window behind the first one is fetched twice, since the loop is
restarted inside of it, and it overlaps the first one: the payment of block `5`
is passed three times, and counted once. -/
theorem run_gas_counted_overlapping :
    let events : List GasEvent :=
      [.poll (GasChain.pair.poll 10), .operation, .operation, .restart,
        .poll (GasChain.pair.poll 15), .operation, .restart,
        .poll (GasChain.pair.poll 15), .operation, .operation, .operation]
    Machine.log (GasIndexer.step 0 10) GasIndexer.passed
        (GasIndexer.start 0 Journal.empty) events =
      List.replicate 3 GasChain.pair.paid[0].2 ++
        [GasChain.pair.paid[1].2] ∧
    ∃ total,
      (AbacusDB.retrieveGasPaymentForLeaf 0).result
          (Machine.run (GasIndexer.step 0 10)
            (GasIndexer.start 0 Journal.empty) events).db = .ok total ∧
        total.toNat = 7 + 9 := by
  intro events
  have passed : Machine.log (GasIndexer.step 0 10) GasIndexer.passed
      (GasIndexer.start 0 Journal.empty) events =
        List.replicate 3 GasChain.pair.paid[0].2 ++
          [GasChain.pair.paid[1].2] := by
    decide +kernel
  obtain ⟨total, read, counted⟩ := (run_gas_counted GasChain.pair
    GasChain.bounded_pair 0 10 events
    (by simp [events, GasChain.Answers, GasChain.complete_poll])).1 0
  refine ⟨passed, total, read, ?_⟩
  rw [counted, passed]
  decide +kernel

end Abacus
