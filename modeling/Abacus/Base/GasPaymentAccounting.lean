import Abacus.Base.GasPaymentSyncCorrectness
import Abacus.Base.SyncKeys
import Abacus.Db.GasPaymentAccounts

/-!
# The accounts of the gas loop

Between two iterations of the gas loop, every payment below its start is
recorded as processed. An iteration keeps this and loses no payment, a crash in
the middle of it loses at most one.
-/

namespace Abacus

open AbacusDB (GasLedger LosesAtMost gasPaymentProcessed leafTotal)
open Journal (Program)

/-- All payments of low blocks are recorded as processed. -/
def GasChain.RecordedWhere (chain : GasChain) (low : UInt32 → Prop)
    (db : AbacusDB) : Prop :=
  ∀ sent ∈ chain.paid, low sent.1 →
    gasPaymentProcessed db sent.2.paymentMeta = true

/-- The gas records of a database: all but a number of the recorded payments
are counted, and all payments up to the latest indexed block are recorded. -/
structure GasRecords (chain : GasChain) (number : Nat) (db : AbacusDB) :
    Prop where
  accounted : LosesAtMost chain.payments number db
  persisted : ∀ block, db .latestIndexedGasPaymentBlock = some block →
    chain.RecordedWhere (· ≤ block) db

/-- The gas records between two iterations of the loop. -/
structure GasHead (chain : GasChain) (number : Nat) (fromBlock : UInt32)
    (db : AbacusDB) : Prop extends GasRecords chain number db where
  below : chain.RecordedWhere (· < fromBlock) db

section Records

variable {chain : GasChain}
variable {number : Nat}
variable {db : AbacusDB}

theorem GasRecords.mono
    {more : Nat}
    (records : GasRecords chain number db)
    (less : number ≤ more) :
    GasRecords chain more db :=
  { records with accounted := records.accounted.mono less }

/-- There are no records in the empty database. -/
theorem gasRecords_empty (chain : GasChain) (number : Nat) :
    GasRecords chain number Journal.empty where
  accounted := AbacusDB.losesAtMost_empty _ number
  persisted _ nothing := by cases nothing

/-- Other records do not matter. -/
theorem GasRecords.congr
    {other : AbacusDB}
    (agree : Journal.AgreeOn Record.OfGas other db)
    (records : GasRecords chain number db) :
    GasRecords chain number other where
  accounted := records.accounted.congr
    (fun paymentMeta => agree (.gasPaymentMetaProcessed paymentMeta) trivial)
    fun leafIndex => agree (.gasPaymentForLeaf leafIndex) trivial
  persisted block latest sent member low := by
    rw [gasPaymentProcessed, agree (.gasPaymentMetaProcessed _) trivial]
    rw [agree .latestIndexedGasPaymentBlock trivial] at latest
    exact records.persisted block latest sent member low

theorem GasHead.congr
    {other : AbacusDB}
    (agree : Journal.AgreeOn Record.OfGas other db)
    {fromBlock : UInt32}
    (head : GasHead chain number fromBlock db) :
    GasHead chain number fromBlock other where
  toGasRecords := head.toGasRecords.congr agree
  below sent member low := by
    rw [gasPaymentProcessed, agree (.gasPaymentMetaProcessed _) trivial]
    exact head.below sent member low

/-- The loop starts behind the recorded block, or in front of all payments. -/
theorem gasHead_resumeBlock
    (records : GasRecords chain number db)
    {configFrom fromBlock : UInt32}
    (early : ∀ sent ∈ chain.paid, configFrom ≤ sent.1)
    (resumes : (resumeBlock configFrom).result db = .ok fromBlock) :
    GasHead chain number fromBlock db where
  toGasRecords := records
  below sent member low := by
    rw [result_resumeBlock] at resumes
    cases latest : db .latestIndexedGasPaymentBlock with
    | none =>
        rw [latest] at resumes
        cases resumes
        exact absurd (early sent member) (UInt32.not_le.mpr low)
    | some block =>
        rw [latest] at resumes
        refine records.persisted block latest sent member ?_
        have next := toNat_of_checkedAdd resumes
        rw [UInt32.lt_iff_toNat_lt, next] at low
        exact UInt32.le_iff_toNat_le.mpr (Nat.lt_succ_iff.mp low)

/-- The payments of the chain that are recorded as processed. -/
def GasChain.recorded (chain : GasChain) (db : AbacusDB) :
    List InterchainGasPaymentWithMeta :=
  chain.payments.filter fun payment =>
    gasPaymentProcessed db payment.paymentMeta

theorem GasChain.mem_recorded
    {sent : UInt32 × InterchainGasPaymentWithMeta}
    (member : sent ∈ chain.paid)
    (processed : gasPaymentProcessed db sent.2.paymentMeta = true) :
    sent.2 ∈ chain.recorded db :=
  List.mem_filter.mpr ⟨List.mem_map_of_mem member, processed⟩

/-- The records of a database as a ledger of what is recorded in it. -/
theorem GasRecords.ledger (records : GasRecords chain number db) :
    GasLedger chain.payments number (chain.recorded db)
      (db .latestIndexedGasPaymentBlock) db where
  accounted := records.accounted
  recorded _ member := (List.mem_filter.mp member).2
  indexed := rfl

/-- What a ledger covers. -/
theorem recordedWhere_of_ledger
    {done : List InterchainGasPaymentWithMeta}
    {latest : Option UInt32}
    (ledger : GasLedger chain.payments number done latest db)
    {low : UInt32 → Prop}
    (covered : ∀ sent ∈ chain.paid, low sent.1 → sent.2 ∈ done) :
    chain.RecordedWhere low db :=
  fun sent member inside =>
    ledger.recorded sent.2 (covered sent member inside)

/-- A ledger that covers the payments up to the latest indexed block. -/
theorem gasRecords_of_ledger
    {done : List InterchainGasPaymentWithMeta}
    {latest : Option UInt32}
    (ledger : GasLedger chain.payments number done latest db)
    (covered : ∀ block, latest = some block →
      ∀ sent ∈ chain.paid, sent.1 ≤ block → sent.2 ∈ done) :
    GasRecords chain number db where
  accounted := ledger.accounted
  persisted block recorded :=
    recordedWhere_of_ledger ledger
      (covered block (ledger.indexed.symm.trans recorded))

/-- The totals are the sums of distinct payments of the chain. Together with at
most a number of lost payments, these are all payments of low blocks. -/
def GasChain.CountsAllBut (chain : GasChain) (number : Nat)
    (low : UInt32 → Prop) (db : AbacusDB) : Prop :=
  ∃ counted lost : List InterchainGasPaymentWithMeta,
    counted.Disjoint lost ∧ counted ++ lost ⊆ chain.payments ∧
      lost.length ≤ number ∧
      (∀ sent ∈ chain.paid, low sent.1 → sent.2 ∈ counted ++ lost) ∧
      ∀ leafIndex, ∃ total,
        (AbacusDB.retrieveGasPaymentForLeaf leafIndex).result db =
          .ok total ∧
        total.toNat = leafTotal counted leafIndex

/-- What is recorded as processed is counted or lost. -/
theorem GasRecords.countsAllBut
    (records : GasRecords chain number db)
    {low : UInt32 → Prop}
    (recorded : chain.RecordedWhere low db) :
    chain.CountsAllBut number low db := by
  obtain ⟨counted, lost, accounts, inside, bound⟩ := records.accounted
  refine ⟨counted, lost, accounts.disjoint, inside, bound, ?_,
    fun leafIndex => ⟨_, rfl, accounts.total leafIndex⟩⟩
  intro sent member below
  obtain ⟨payment, listed, same⟩ :=
    (accounts.processed sent.2.paymentMeta).mp (recorded sent member below)
  rw [← GasChain.eq_of_paymentMeta_eq (inside listed)
    (List.mem_map_of_mem member) same]
  exact listed

end Records

/-! ## One iteration -/

section Iteration

variable {chain : GasChain}
variable {number : Nat}

/-- The end of an iteration: the record of its last block, up to which all
payments are in the ledger. -/
theorem crashTriple_finishGasWindow
    {done : List InterchainGasPaymentWithMeta}
    {latest : Option UInt32}
    {toBlock : UInt32}
    (earlier : ∀ block, latest = some block →
      ∀ sent ∈ chain.paid, sent.1 ≤ block → sent.2 ∈ done)
    (covered : ∀ sent ∈ chain.paid, sent.1 ≤ toBlock → sent.2 ∈ done) :
    Program.CrashTriple (GasLedger chain.payments number done latest)
      (finishGasWindow toBlock) (GasHead chain number)
      (GasRecords chain (number + 1)) := by
  -- behind the put, the window counts as indexed
  have indexed : ∀ db,
      GasLedger chain.payments number done (some toBlock) db →
        GasRecords chain number db :=
    fun db ledger => gasRecords_of_ledger ledger fun block same =>
      Option.some.inj same ▸ covered
  have records : Program.CrashTriple
      (GasLedger chain.payments number done latest)
      (AbacusDB.storeLatestIndexedGasPaymentBlock toBlock)
      (fun _ => GasLedger chain.payments number done (some toBlock))
      (GasRecords chain (number + 1)) :=
    Program.CrashTriple.put
      (fun db ledger =>
        (gasRecords_of_ledger ledger earlier).mono (Nat.le_succ _))
      (fun db ledger =>
        (indexed _ (ledger.indexedPut toBlock)).mono (Nat.le_succ _))
      fun db ledger => ledger.indexedPut toBlock
  refine records.bind fun _ => Program.CrashTriple.lift
    (fun db ledger => (indexed db ledger).mono (Nat.le_succ _))
    fun next added db ledger => ⟨indexed db ledger, ?_⟩
  refine recordedWhere_of_ledger ledger fun sent member low => ?_
  rw [UInt32.lt_iff_toNat_lt, toNat_of_checkedAdd added] at low
  exact covered sent member
    (UInt32.le_iff_toNat_le.mpr (Nat.lt_succ_iff.mp low))

/-- An iteration against a complete provider loses no payment, and a crash in
the middle of it loses at most one. -/
theorem crashTriple_gasIteration
    (bounded : chain.Bounded)
    {poll : GasPoll}
    (complete : chain.Complete poll)
    (chunkSize fromBlock : UInt32) :
    Program.CrashTriple (GasHead chain number fromBlock)
      (gasIteration chunkSize poll fromBlock) (GasHead chain number)
      (GasRecords chain (number + 1)) := by
  have kept : ∀ db, GasHead chain number fromBlock db →
      GasRecords chain (number + 1) db :=
    fun db head => head.toGasRecords.mono (Nat.le_succ _)
  unfold gasIteration
  cases fetches : fetchGasWindow chunkSize poll fromBlock with
  | error fault => exact Program.CrashTriple.fail kept
  | ok outcome =>
      cases outcome with
      | none => exact Program.CrashTriple.pure kept fun _ head => head
      | some window =>
          obtain ⟨fullChunkFrom, full, answer⟩ :=
            of_fetchGasWindow_eq_some fetches
          have response := complete _ _ _ answer
          intro db head
          have earlier : ∀ block,
              db .latestIndexedGasPaymentBlock = some block →
                ∀ sent ∈ chain.paid, sent.1 ≤ block →
                  sent.2 ∈ chain.recorded db :=
            fun block latest sent member low => chain.mem_recorded member
              (head.persisted block latest sent member low)
          have processes : Program.CrashTriple
              (GasLedger chain.payments number (chain.recorded db)
                (db .latestIndexedGasPaymentBlock))
              (AbacusDB.processGasPayments window.gasPayments)
              (fun _ => GasLedger chain.payments number
                (chain.recorded db ++ window.gasPayments)
                (db .latestIndexedGasPaymentBlock))
              (GasRecords chain (number + 1)) :=
            (AbacusDB.crashTriple_processGasPayments bounded
              fun payment member => chain.window_subset _ _
                (response.subset member)).conseq (fun _ _ ledger => ledger)
              fun _ ledger => gasRecords_of_ledger ledger earlier
          refine processes.bind (fun _ => crashTriple_finishGasWindow ?_ ?_)
            db head.toGasRecords.ledger
          · exact fun block latest sent member low =>
              List.mem_append_left _ (earlier block latest sent member low)
          · -- what is not below the start of the loop is in the window
            intro sent member low
            by_cases before : sent.1 < fromBlock
            · exact List.mem_append_left _ (chain.mem_recorded member
                (head.below sent member before))
            · refine List.mem_append_right _ (response.symm.subset ?_)
              exact GasChain.mem_window_of_mem member
                (UInt32.le_trans full (UInt32.not_lt.mp before)) low

end Iteration

end Abacus
