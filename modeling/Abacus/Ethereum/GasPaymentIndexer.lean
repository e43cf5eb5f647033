import Abacus.Base.SyncWindow
import Abacus.Db.GasPaymentCrash

/-!
# Gas payments from event logs

The indexer of the gas paymaster converts every event of a window. A leaf
index is a number of 256 bits in the event and of 32 bits in a payment, and
the conversion panics when it does not fit; anybody can emit such an event.
-/

namespace Abacus

open AbacusDB (processGasPayments gasPaymentTotal gasPaymentProcessed
  freshPayments)
open Journal (Program)

/-- What the numeric library documents about `U256::as_u32`: it converts the
numbers that fit, and panics on the others. -/
structure ConvertsU256 (asU32 : U256 → Except (Fault Report) UInt32) :
    Prop where
  fits : ∀ value : U256, value.toNat < 2 ^ 32 →
    asU32 value = .ok (UInt32.ofNat value.toNat)
  panics : ∀ value : U256, 2 ^ 32 ≤ value.toNat →
    ∃ reason, asU32 value = .error (.panic reason)

/-- The event of a gas payment. -/
structure GasPaymentFilter where
  outbox : Address
  leafIndex : U256
  amount : U256
  deriving DecidableEq

/-- Where an event stands on the chain. -/
structure LogMeta where
  transactionHash : H256
  logIndex : U256
  deriving DecidableEq

/-- An event with its place. -/
abbrev GasPaymentLog := GasPaymentFilter × LogMeta

/-- The indexer: the outbox it is for, and the query for the events of an
outbox in a range of blocks. -/
structure EthereumInterchainGasPaymasterIndexer where
  outboxAddress : Address
  queryWithMeta :
    Address → UInt32 → UInt32 → Except Report (List GasPaymentLog)

/-- The payment of an event, with its leaf index. -/
def gasPaymentOf (leafIndex : UInt32) (log : GasPaymentLog) :
    InterchainGasPaymentWithMeta where
  payment := { leafIndex := leafIndex, amount := log.1.amount }
  paymentMeta := {
    transactionHash := log.2.transactionHash
    logIndex := log.2.logIndex }

section Indexer

variable (asU32 : U256 → Except (Fault Report) UInt32)

/-- The conversion of an event. -/
def convertLog (log : GasPaymentLog) :
    Except (Fault Report) InterchainGasPaymentWithMeta := do
  let leafIndex ← asU32 log.1.leafIndex
  return gasPaymentOf leafIndex log

/-- The payments of a range of blocks. -/
def fetchGasPayments (indexer : EthereumInterchainGasPaymasterIndexer)
    (fromBlock toBlock : UInt32) :
    Except (Fault Report) (List InterchainGasPaymentWithMeta) := do
  let events ← (indexer.queryWithMeta indexer.outboxAddress fromBlock
    toBlock).mapError Fault.error
  events.mapM (convertLog asU32)

end Indexer

/-- One iteration of the loop over an indexer whose fetch can panic. -/
def indexerIteration
    (fetch : UInt32 → UInt32 →
      Except (Fault Report) (List InterchainGasPaymentWithMeta))
    (chunkSize : UInt32) (finalizedBlockNumber : Except Report UInt32)
    (fromBlock : UInt32) : DbM UInt32 :=
  match finalizedBlockNumber with
  | .error _ => return fromBlock
  | .ok tip =>
      if tip ≤ fromBlock then return fromBlock
      else do
        let window ← Program.lift (syncWindow chunkSize fromBlock tip)
        let gasPayments ← Program.lift (fetch window.1 window.2)
        processGasPayments gasPayments
        finishGasWindow window.2

/-- Over an indexer that does not panic, it is the iteration of the loop. -/
theorem indexerIteration_eq_gasIteration
    (poll : GasPoll)
    (chunkSize fromBlock : UInt32) :
    indexerIteration
        (fun first last => (poll.fetchGasPayments first last).mapError
          Fault.error)
        chunkSize poll.finalizedBlockNumber fromBlock =
      gasIteration chunkSize poll fromBlock := by
  unfold indexerIteration gasIteration
  cases finalized : poll.finalizedBlockNumber with
  | error error =>
      have none : fetchGasWindow chunkSize poll fromBlock = .ok none := by
        rw [fetchGasWindow, finalized]
      rw [none]
      rfl
  | ok tip =>
      by_cases behind : fromBlock < tip
      · simp only [UInt32.not_le.mpr behind, if_false]
        rw [fetchGasWindow_eq_syncWindow finalized behind]
        cases syncWindow chunkSize fromBlock tip with
        | error fault => rfl
        | ok window =>
            rw [Program.lift_ok_bind]
            change _ = Program.lift
              (((poll.fetchGasPayments window.1 window.2).mapError
                Fault.error).map fun gasPayments =>
                  some (GasWindow.mk window.2 gasPayments)) >>= _
            cases poll.fetchGasPayments window.1 window.2 <;> rfl
      · have none : fetchGasWindow chunkSize poll fromBlock = .ok none := by
          rw [fetchGasWindow, finalized]
          simp only [UInt32.not_lt.mp behind, if_true]
        rw [none]
        simp only [UInt32.not_lt.mp behind, if_true]
        rfl

/-! ## Totals -/

namespace AbacusDB

/-- What the payments that are not processed yet add to the total of a
leaf. -/
def addedTotal (db : AbacusDB) (payments : List InterchainGasPaymentWithMeta)
    (leafIndex : UInt32) : Nat :=
  ((freshPayments (gasPaymentProcessed db) payments).map fun payment =>
    if leafIndex = payment.payment.leafIndex then
      payment.payment.amount.toNat
    else 0).sum

/-- No total is raised above the highest number. -/
def TotalsFit (db : AbacusDB) (payments : List InterchainGasPaymentWithMeta) :
    Prop :=
  ∀ leafIndex, (gasPaymentTotal db leafIndex).toNat +
    addedTotal db payments leafIndex < 2 ^ 256

/-- A processed payment adds nothing. -/
theorem addedTotal_cons_of_processed
    {db : AbacusDB}
    {payment : InterchainGasPaymentWithMeta}
    (known : gasPaymentProcessed db payment.paymentMeta = true)
    (rest : List InterchainGasPaymentWithMeta)
    (leafIndex : UInt32) :
    addedTotal db (payment :: rest) leafIndex =
      addedTotal db rest leafIndex := by
  rw [addedTotal, freshPayments, if_pos known, addedTotal]

/-- A fresh payment adds its amount to its leaf. -/
theorem addedTotal_cons_of_fresh
    {db : AbacusDB}
    {payment : InterchainGasPaymentWithMeta}
    (fresh : gasPaymentProcessed db payment.paymentMeta = false)
    (rest : List InterchainGasPaymentWithMeta)
    (leafIndex : UInt32) :
    addedTotal db (payment :: rest) leafIndex =
      (if leafIndex = payment.payment.leafIndex then
        payment.payment.amount.toNat
      else 0) + addedTotal (processed payment db) rest leafIndex := by
  have same : gasPaymentProcessed (processed payment db) =
      fun other => gasPaymentProcessed db other ||
        other == payment.paymentMeta := by
    funext other
    rw [gasPaymentProcessed_processed]
  rw [addedTotal, freshPayments, if_neg (by simp [fresh]), List.map_cons,
    List.sum_cons, addedTotal, same]

/-- Payments are processed exactly if no total overflows. -/
theorem processGasPayments_eq_ok_iff
    (payments : List InterchainGasPaymentWithMeta)
    (db : AbacusDB) :
    (processGasPayments payments).result db = .ok () ↔
      TotalsFit db payments := by
  induction payments generalizing db with
  | nil =>
      refine iff_of_true rfl fun leafIndex => ?_
      simpa [addedTotal, freshPayments] using
        (gasPaymentTotal db leafIndex).isLt
  | cons payment rest inductionHypothesis =>
      rcases processGasPayment_cases payment db with
        ⟨known, -⟩ | ⟨fresh, fits, -⟩ | ⟨fresh, overflow, run⟩
      · rw [Program.result, processGasPayments_cons_of_processed known,
          ← Program.result, inductionHypothesis]
        unfold TotalsFit
        simp only [addedTotal_cons_of_processed known]
      · rw [Program.result, processGasPayments_cons_of_fresh fresh fits,
          ← Program.result, inductionHypothesis]
        unfold TotalsFit
        simp only [addedTotal_cons_of_fresh fresh,
          toNat_gasPaymentTotal_processed fits, Nat.add_assoc]
      · refine iff_of_false ?_ fun totals => overflow ?_
        · intro completes
          exact overflow (of_processGasPayments_cons_eq_ok fresh completes).1
        · have total := totals payment.payment.leafIndex
          rw [addedTotal_cons_of_fresh fresh, if_pos rfl] at total
          unfold Fits
          omega

end AbacusDB

/-! ## Events that fit -/

section Events

variable {asU32 : U256 → Except (Fault Report) UInt32}

/-- The leaf index of an event fits into 32 bits. -/
def GasPaymentLog.Fits (log : GasPaymentLog) : Prop :=
  log.1.leafIndex.toNat < 2 ^ 32

instance (log : GasPaymentLog) : Decidable log.Fits :=
  inferInstanceAs (Decidable (_ < _))

/-- The payments of the events whose leaf indices fit, in order. -/
def fittingPayments (events : List GasPaymentLog) :
    List InterchainGasPaymentWithMeta :=
  (events.filter fun log => log.Fits).map fun log =>
    gasPaymentOf (UInt32.ofNat log.1.leafIndex.toNat) log

/-- Events that all fit are converted to their payments. -/
theorem mapM_convertLog_of_fits
    (converts : ConvertsU256 asU32)
    {events : List GasPaymentLog}
    (fit : ∀ log ∈ events, log.Fits) :
    events.mapM (convertLog asU32) = .ok (fittingPayments events) := by
  have all : events.filter (fun log => log.Fits) = events :=
    List.filter_eq_self.mpr fun log member => by simpa using fit log member
  rw [fittingPayments, all]
  refine mapM_eq_ok fun log member => ?_
  rw [convertLog, converts.fits _ (fit log member)]
  rfl

/-- One event that does not fit makes the conversion panic. -/
theorem mapM_convertLog_panics
    (converts : ConvertsU256 asU32)
    {events : List GasPaymentLog}
    {log : GasPaymentLog}
    (member : log ∈ events)
    (large : ¬ log.Fits) :
    ∃ reason, events.mapM (convertLog asU32) = .error (.panic reason) := by
  induction events with
  | nil => cases member
  | cons first rest inductionHypothesis =>
      rw [List.mapM_cons]
      by_cases fits : first.Fits
      · have later : log ∈ rest := by
          rcases List.mem_cons.mp member with rfl | later
          · exact absurd fits large
          · exact later
        obtain ⟨reason, panicked⟩ := inductionHypothesis later
        rw [convertLog, converts.fits _ fits, panicked]
        exact ⟨reason, rfl⟩
      · obtain ⟨reason, panicked⟩ :=
          converts.panics _ (Nat.not_lt.mp fits)
        rw [convertLog, panicked]
        exact ⟨reason, rfl⟩

/-- An indexer whose query answers with some events. -/
def answering (outboxAddress : Address) (events : List GasPaymentLog) :
    EthereumInterchainGasPaymasterIndexer where
  outboxAddress := outboxAddress
  queryWithMeta _ _ _ := .ok events

/-- The loop over an indexer whose query answers with some events. -/
def iterationOn (asU32 : U256 → Except (Fault Report) UInt32)
    (outboxAddress : Address) (events : List GasPaymentLog)
    (chunkSize tip fromBlock : UInt32) : DbM UInt32 :=
  indexerIteration (fetchGasPayments asU32 (answering outboxAddress events))
    chunkSize (.ok tip) fromBlock

/-- The events do not disturb the indexer: the payments of all events that fit
are returned, in order, and the loop moves on to where it moves without
events. -/
structure Undisturbed (asU32 : U256 → Except (Fault Report) UInt32)
    (outboxAddress : Address) (events : List GasPaymentLog) (db : AbacusDB) :
    Prop where
  returns : ∀ fromBlock toBlock, ∃ gasPayments,
    fetchGasPayments asU32 (answering outboxAddress events) fromBlock
        toBlock = .ok gasPayments ∧
      (fittingPayments events).Sublist gasPayments
  continues : ∀ chunkSize tip fromBlock next,
    (iterationOn asU32 outboxAddress [] chunkSize tip fromBlock).result db =
        .ok next →
      (iterationOn asU32 outboxAddress events chunkSize tip
        fromBlock).result db = .ok next

/-- The end of an iteration that searches a window. -/
theorem result_iterationOn
    {outboxAddress : Address}
    {events : List GasPaymentLog}
    {gasPayments : List InterchainGasPaymentWithMeta}
    (converted : events.mapM (convertLog asU32) = .ok gasPayments)
    {chunkSize tip fromBlock : UInt32}
    (behind : fromBlock < tip)
    {window : UInt32 × UInt32}
    (found : syncWindow chunkSize fromBlock tip = .ok window)
    (db : AbacusDB) :
    (iterationOn asU32 outboxAddress events chunkSize tip
        fromBlock).result db =
      match (processGasPayments gasPayments).result db with
      | .ok () => checkedAdd window.2 1
      | .error fault => .error fault := by
  have fetched : fetchGasPayments asU32 (answering outboxAddress events)
      window.1 window.2 = .ok gasPayments := converted
  unfold iterationOn indexerIteration
  simp only [UInt32.not_le.mpr behind, if_false]
  rw [found, Program.lift_ok_bind, fetched, Program.lift_ok_bind]
  cases run : processGasPayments gasPayments db with
  | mk outcome puts =>
      cases outcome with
      | error fault =>
          rw [Program.result, Program.run_bind_error run, Program.result, run]
      | ok done =>
          rw [Program.result, Program.run_bind_ok run, Program.result, run]
          exact result_finishGasWindow window.2 (Journal.replay db puts)

/-- Without events, the loop moves on behind its window. -/
theorem result_iterationOn_nil
    (asU32 : U256 → Except (Fault Report) UInt32)
    (outboxAddress : Address)
    {chunkSize tip fromBlock : UInt32}
    (behind : fromBlock < tip)
    {window : UInt32 × UInt32}
    (found : syncWindow chunkSize fromBlock tip = .ok window)
    (db : AbacusDB) :
    (iterationOn asU32 outboxAddress [] chunkSize tip fromBlock).result db =
      checkedAdd window.2 1 := by
  have none : ([] : List GasPaymentLog).mapM (convertLog asU32) = .ok [] :=
    rfl
  exact result_iterationOn none behind found db

/-- Up to the tip, the loop waits whatever the events are. -/
theorem result_iterationOn_of_not_behind
    (asU32 : U256 → Except (Fault Report) UInt32)
    (outboxAddress : Address)
    (events : List GasPaymentLog)
    (chunkSize : UInt32)
    {tip fromBlock : UInt32}
    (reached : ¬ fromBlock < tip)
    (db : AbacusDB) :
    (iterationOn asU32 outboxAddress events chunkSize tip
      fromBlock).result db = .ok fromBlock := by
  unfold iterationOn indexerIteration
  simp only [UInt32.not_lt.mp reached, if_true]
  rfl

/-- Without a window, the loop panics whatever the events are. -/
theorem result_iterationOn_of_error
    (asU32 : U256 → Except (Fault Report) UInt32)
    (outboxAddress : Address)
    (events : List GasPaymentLog)
    {chunkSize tip fromBlock : UInt32}
    (behind : fromBlock < tip)
    {fault : Fault Report}
    (found : syncWindow chunkSize fromBlock tip = .error fault)
    (db : AbacusDB) :
    (iterationOn asU32 outboxAddress events chunkSize tip
      fromBlock).result db = .error fault := by
  unfold iterationOn indexerIteration
  simp only [UInt32.not_le.mpr behind, if_false]
  rw [found, Program.lift_error_bind]
  rfl

/-- Events that are all returned fit. -/
theorem fits_of_fetchGasPayments
    (converts : ConvertsU256 asU32)
    {outboxAddress : Address}
    {events : List GasPaymentLog}
    {fromBlock toBlock : UInt32}
    {gasPayments : List InterchainGasPaymentWithMeta}
    (fetched : fetchGasPayments asU32 (answering outboxAddress events)
      fromBlock toBlock = .ok gasPayments) :
    ∀ log ∈ events, log.Fits := by
  intro log member
  by_contra large
  obtain ⟨reason, panicked⟩ := mapM_convertLog_panics converts member large
  cases panicked.symm.trans fetched

/-- Events disturb neither the indexer nor the loop exactly if their leaf
indices fit and no total of a leaf overflows. -/
theorem undisturbed_iff
    (converts : ConvertsU256 asU32)
    (outboxAddress : Address)
    (events : List GasPaymentLog)
    (db : AbacusDB) :
    Undisturbed asU32 outboxAddress events db ↔
      (∀ log ∈ events, log.Fits) ∧
        AbacusDB.TotalsFit db (fittingPayments events) := by
  constructor
  · intro undisturbed
    obtain ⟨gasPayments, fetched, -⟩ := undisturbed.returns 0 0
    have fit := fits_of_fetchGasPayments converts fetched
    refine ⟨fit, ?_⟩
    -- The window of block 0 alone is found whatever the events are.
    have found : syncWindow 0 0 1 = .ok (0, 0) := by decide
    have without := result_iterationOn_nil asU32 outboxAddress (by decide)
      found db
    have continued := undisturbed.continues 0 1 0 1 without
    rw [result_iterationOn (mapM_convertLog_of_fits converts fit) (by decide)
      found] at continued
    rw [← AbacusDB.processGasPayments_eq_ok_iff]
    cases processed :
        (processGasPayments (fittingPayments events)).result db with
    | ok done => rfl
    | error fault =>
        rw [processed] at continued
        cases continued
  · rintro ⟨fit, totals⟩
    have converted := mapM_convertLog_of_fits converts fit
    refine ⟨fun _ _ => ⟨_, converted, List.Sublist.refl _⟩, ?_⟩
    intro chunkSize tip fromBlock next without
    by_cases behind : fromBlock < tip
    · cases found : syncWindow chunkSize fromBlock tip with
      | error fault =>
          rw [result_iterationOn_of_error asU32 outboxAddress [] behind found]
            at without
          cases without
      | ok window =>
          rw [result_iterationOn_nil asU32 outboxAddress behind found]
            at without
          rw [result_iterationOn converted behind found,
            (AbacusDB.processGasPayments_eq_ok_iff _ db).mpr totals]
          exact without
    · rw [result_iterationOn_of_not_behind _ _ _ _ behind] at without ⊢
      exact without

end Events

/-- A conversion that behaves as documented. -/
def checkedAsU32 (value : U256) : Except (Fault Report) UInt32 :=
  if value.toNat < 2 ^ 32 then .ok (UInt32.ofNat value.toNat)
  else .error (.panic .overflow)

theorem convertsU256_checkedAsU32 : ConvertsU256 checkedAsU32 where
  fits _ small := if_pos small
  panics _ large := ⟨_, if_neg (Nat.not_lt.mpr large)⟩

/-- An event that pays one unit for a leaf index. -/
def unitLog (leafIndex : U256) : GasPaymentLog :=
  (⟨0, leafIndex, 1⟩, ⟨H256.zero, 0⟩)

/-- An event for leaf 3. -/
theorem undisturbed_iff_unitLog :
    Undisturbed checkedAsU32 0 [unitLog 3] Journal.empty ↔
      (∀ log ∈ [unitLog 3], log.Fits) ∧
        AbacusDB.TotalsFit Journal.empty (fittingPayments [unitLog 3]) :=
  undisturbed_iff convertsU256_checkedAsU32 0 [unitLog 3] Journal.empty

/-- An event for the leaf index 2^32 makes the indexer panic, and with it the
loop. -/
theorem fetchGasPayments_large_leafIndex :
    let events := [unitLog 3, unitLog 0x100000000]
    fetchGasPayments checkedAsU32 (answering 0 events) 0 0 =
        .error (.panic .overflow) ∧
      ¬ Undisturbed checkedAsU32 0 events Journal.empty := by
  intro events
  have panicked : fetchGasPayments checkedAsU32 (answering 0 events) 0 0 =
      .error (.panic .overflow) := by decide
  refine ⟨panicked, fun undisturbed => ?_⟩
  obtain ⟨gasPayments, fetched, -⟩ := undisturbed.returns 0 0
  cases panicked.symm.trans fetched

end Abacus
