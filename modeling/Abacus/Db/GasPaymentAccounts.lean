import Abacus.Db.GasPayments
import Abacus.Library.CrashTriple

/-!
# The accounts of gas payments

A payment that is recorded as processed is counted in the total of its leaf, or
it has been lost in a crash between its two puts. Processing a payment, whether
it has been processed before or not, loses no further one, and a crash loses at
most one.
-/

namespace Abacus

namespace AbacusDB

open Journal (Program)

/-- The payments that are recorded as processed are the counted and the lost
ones, and the totals are the sums of the counted ones. -/
structure Accounts (counted lost : List InterchainGasPaymentWithMeta)
    (db : AbacusDB) : Prop where
  processed : ∀ paymentMeta, gasPaymentProcessed db paymentMeta = true ↔
    ∃ payment ∈ counted ++ lost, payment.paymentMeta = paymentMeta
  total : ∀ leafIndex,
    (gasPaymentTotal db leafIndex).toNat = leafTotal counted leafIndex
  disjoint : counted.Disjoint lost

/-- Of the known payments that are recorded as processed, all but a number are
counted. -/
def LosesAtMost (known : List InterchainGasPaymentWithMeta) (number : Nat)
    (db : AbacusDB) : Prop :=
  ∃ counted lost, Accounts counted lost db ∧ counted ++ lost ⊆ known ∧
    lost.length ≤ number

/-- Nothing is recorded in the empty database. -/
theorem losesAtMost_empty
    (known : List InterchainGasPaymentWithMeta)
    (number : Nat) :
    LosesAtMost known number Journal.empty := by
  refine ⟨[], [], ⟨fun _ => ?_, fun _ => rfl, ?_⟩, ?_, Nat.zero_le _⟩
  · exact iff_of_false Bool.false_ne_true (by simp)
  · exact List.disjoint_nil_left _
  · exact List.nil_subset _

section Payments

variable {known : List InterchainGasPaymentWithMeta}
variable {number : Nat}
variable {db : AbacusDB}

theorem LosesAtMost.mono
    {more : Nat}
    (loses : LosesAtMost known number db)
    (less : number ≤ more) :
    LosesAtMost known more db := by
  obtain ⟨counted, lost, accounts, inside, bound⟩ := loses
  exact ⟨counted, lost, accounts, inside, bound.trans less⟩

/-- Other records do not matter. -/
theorem LosesAtMost.congr
    {other : AbacusDB}
    (loses : LosesAtMost known number db)
    (flags : ∀ paymentMeta, other (.gasPaymentMetaProcessed paymentMeta) =
      db (.gasPaymentMetaProcessed paymentMeta))
    (totals : ∀ leafIndex, other (.gasPaymentForLeaf leafIndex) =
      db (.gasPaymentForLeaf leafIndex)) :
    LosesAtMost known number other := by
  obtain ⟨counted, lost, accounts, inside, bound⟩ := loses
  refine ⟨counted, lost, ⟨?_, ?_, accounts.disjoint⟩, inside, bound⟩
  · intro paymentMeta
    rw [gasPaymentProcessed, flags]
    exact accounts.processed paymentMeta
  · intro leafIndex
    rw [gasPaymentTotal, totals]
    exact accounts.total leafIndex

variable {payment : InterchainGasPaymentWithMeta}

/-- What is not recorded as processed is neither counted nor lost. -/
theorem Accounts.not_mem
    {counted lost : List InterchainGasPaymentWithMeta}
    (accounts : Accounts counted lost db)
    (fresh : gasPaymentProcessed db payment.paymentMeta = false) :
    payment ∉ counted ++ lost := by
  intro member
  have processed :=
    (accounts.processed payment.paymentMeta).mpr ⟨payment, member, rfl⟩
  rw [fresh] at processed
  cases processed

/-- Between its two puts, a payment is lost. -/
theorem LosesAtMost.processedPut
    (loses : LosesAtMost known number db)
    (fresh : gasPaymentProcessed db payment.paymentMeta = false)
    (member : payment ∈ known) :
    LosesAtMost known (number + 1)
      ((AbacusDB.processedPut payment).apply db) := by
  obtain ⟨counted, lost, accounts, inside, bound⟩ := loses
  have new := accounts.not_mem fresh
  refine ⟨counted, lost ++ [payment], ⟨?_, ?_, ?_⟩, ?_, ?_⟩
  · intro paymentMeta
    rw [gasPaymentProcessed_processedPut, Bool.or_eq_true,
      accounts.processed, beq_iff_eq]
    simp only [← List.append_assoc, List.mem_append (t := [payment]),
      List.mem_singleton, or_and_right, exists_or, exists_eq_left,
      eq_comm (a := paymentMeta)]
  · intro leafIndex
    rw [gasPaymentTotal_processedPut]
    exact accounts.total leafIndex
  · rw [List.disjoint_append_right, List.disjoint_singleton]
    exact ⟨accounts.disjoint, fun other => new (List.mem_append_left _ other)⟩
  · rw [← List.append_assoc]
    exact List.append_subset.mpr
      ⟨inside, List.cons_subset.mpr ⟨member, List.nil_subset _⟩⟩
  · rw [List.length_append]
    exact Nat.succ_le_succ bound

/-- A payment that has not been processed fits into its total, if all known
payments of each leaf do. -/
theorem Accounts.fits
    {counted lost : List InterchainGasPaymentWithMeta}
    (accounts : Accounts counted lost db)
    (inside : counted ++ lost ⊆ known)
    (fresh : gasPaymentProcessed db payment.paymentMeta = false)
    (member : payment ∈ known)
    (bounded : ∀ leafIndex, leafTotal known leafIndex < 2 ^ 256) :
    Fits db payment.payment := by
  have new : payment ∉ counted := fun other =>
    accounts.not_mem fresh (List.mem_append_left _ other)
  have both : counted ++ [payment] ⊆ known :=
    List.append_subset.mpr ⟨(List.append_subset.mp inside).1,
      List.cons_subset.mpr ⟨member, List.nil_subset _⟩⟩
  have limit := Nat.lt_of_le_of_lt
    (leafTotal_le_of_subset both payment.payment.leafIndex)
    (bounded payment.payment.leafIndex)
  rw [leafTotal_concat_of_not_mem new, if_pos rfl, ← accounts.total] at limit
  exact limit

/-- Behind its two puts, a payment is counted. -/
theorem LosesAtMost.processed
    (loses : LosesAtMost known number db)
    (fresh : gasPaymentProcessed db payment.paymentMeta = false)
    (member : payment ∈ known)
    (bounded : ∀ leafIndex, leafTotal known leafIndex < 2 ^ 256) :
    Fits db payment.payment ∧
      LosesAtMost known number (AbacusDB.processed payment db) := by
  obtain ⟨counted, lost, accounts, inside, bound⟩ := loses
  have new := accounts.not_mem fresh
  have fits := accounts.fits inside fresh member bounded
  refine ⟨fits, counted ++ [payment], lost, ⟨?_, ?_, ?_⟩, ?_, bound⟩
  · intro paymentMeta
    rw [gasPaymentProcessed_processed, Bool.or_eq_true, accounts.processed,
      beq_iff_eq]
    simp only [List.mem_append, List.mem_singleton, or_and_right, exists_or,
      exists_eq_left, eq_comm (a := paymentMeta), or_right_comm]
  · intro leafIndex
    rw [toNat_gasPaymentTotal_processed fits, accounts.total,
      leafTotal_concat_of_not_mem fun other =>
        new (List.mem_append_left _ other)]
  · rw [List.disjoint_append_left, List.singleton_disjoint]
    exact ⟨accounts.disjoint, fun other => new (List.mem_append_right _ other)⟩
  · obtain ⟨first, second⟩ := List.append_subset.mp inside
    exact List.append_subset.mpr ⟨List.append_subset.mpr
      ⟨first, List.cons_subset.mpr ⟨member, List.nil_subset _⟩⟩, second⟩

end Payments

/-! ## Crashes -/

/-- The gas records: all but a number of the recorded payments are counted,
some payments are recorded, and so is the latest indexed block. -/
structure GasLedger (known : List InterchainGasPaymentWithMeta) (number : Nat)
    (done : List InterchainGasPaymentWithMeta) (latest : Option UInt32)
    (db : AbacusDB) : Prop where
  accounted : LosesAtMost known number db
  recorded : ∀ payment ∈ done,
    gasPaymentProcessed db payment.paymentMeta = true
  indexed : db .latestIndexedGasPaymentBlock = latest

section Crashes

variable {known done : List InterchainGasPaymentWithMeta}
variable {number : Nat}
variable {latest : Option UInt32}

/-- Behind the first put of a payment. -/
theorem GasLedger.processedPut
    {db : AbacusDB}
    {payment : InterchainGasPaymentWithMeta}
    (ledger : GasLedger known number done latest db)
    (fresh : gasPaymentProcessed db payment.paymentMeta = false)
    (member : payment ∈ known) :
    GasLedger known (number + 1) done latest
      ((AbacusDB.processedPut payment).apply db) where
  accounted := ledger.accounted.processedPut fresh member
  recorded other listed := by
    rw [gasPaymentProcessed_processedPut, ledger.recorded other listed,
      Bool.true_or]
  indexed := by
    rw [Journal.Put.apply_of_ne (by simp [AbacusDB.processedPut])]
    exact ledger.indexed

/-- Behind both puts of a payment. -/
theorem GasLedger.processed
    {db : AbacusDB}
    {payment : InterchainGasPaymentWithMeta}
    (ledger : GasLedger known number done latest db)
    (accounted : LosesAtMost known number (AbacusDB.processed payment db)) :
    GasLedger known number (done ++ [payment]) latest
      (AbacusDB.processed payment db) where
  accounted := accounted
  recorded other listed := by
    rw [gasPaymentProcessed_processed, Bool.or_eq_true, beq_iff_eq]
    rcases List.mem_append.mp listed with earlier | now
    · exact .inl (ledger.recorded other earlier)
    · exact .inr (congrArg _ (List.mem_singleton.mp now))
  indexed := by
    rw [AbacusDB.processed, Journal.replay_of_forall_ne]
    · exact ledger.indexed
    · simp [AbacusDB.processedPut, totalPut]

/-- Behind the record of an indexed block. -/
theorem GasLedger.indexedPut
    {db : AbacusDB}
    (ledger : GasLedger known number done latest db)
    (block : UInt32) :
    GasLedger known number done (some block)
      (Journal.Put.apply ⟨.latestIndexedGasPaymentBlock, block⟩ db) := by
  have flags (paymentMeta : InterchainGasPaymentMeta) :
      Journal.Put.apply ⟨.latestIndexedGasPaymentBlock, block⟩ db
          (.gasPaymentMetaProcessed paymentMeta) =
        db (.gasPaymentMetaProcessed paymentMeta) :=
    Journal.Put.apply_of_ne (by simp) db
  refine ⟨ledger.accounted.congr flags fun _ =>
    Journal.Put.apply_of_ne (by simp) db, ?_, Journal.Put.apply_mk_self _ _ _⟩
  intro payment listed
  rw [gasPaymentProcessed, flags]
  exact ledger.recorded payment listed

/-- Processing a payment loses none, and a crash in the middle loses it. -/
theorem crashTriple_processGasPayment
    (bounded : ∀ leafIndex, leafTotal known leafIndex < 2 ^ 256)
    {payment : InterchainGasPaymentWithMeta}
    (member : payment ∈ known) :
    Program.CrashTriple (GasLedger known number done latest)
      (processGasPayment payment)
      (fun _ => GasLedger known number (done ++ [payment]) latest)
      (GasLedger known (number + 1) done latest) := by
  intro db ledger
  have kept : GasLedger known (number + 1) done latest db :=
    { ledger with accounted := ledger.accounted.mono (Nat.le_succ _) }
  rcases processGasPayment_cases payment db with
    ⟨processed, run⟩ | ⟨fresh, -, run⟩ | ⟨fresh, overflow, -⟩
  · simp only [Program.crashed, Program.final, Program.journal, run]
    refine ⟨fun count => ?_, fun _ _ => { ledger with recorded := ?_ }⟩
    · rw [List.take_nil]
      exact kept
    · intro other listed
      rcases List.mem_append.mp listed with earlier | now
      · exact ledger.recorded other earlier
      · rw [List.mem_singleton.mp now]
        exact processed
  · have counts := (ledger.accounted.processed fresh member bounded).2
    have after := ledger.processed counts
    simp only [Program.crashed, Program.final, Program.journal, run]
    refine ⟨fun count => ?_, fun _ _ => after⟩
    rcases count with _ | _ | count
    · exact kept
    · exact ledger.processedPut fresh member
    · rw [List.take_of_length_le (by simp)]
      exact ⟨after.accounted.mono (Nat.le_succ _), fun other listed =>
        after.recorded other (List.mem_append_left _ listed), after.indexed⟩
  · exact absurd (ledger.accounted.processed fresh member bounded).1 overflow

/-- So does processing any payments. -/
theorem crashTriple_processGasPayments
    (bounded : ∀ leafIndex, leafTotal known leafIndex < 2 ^ 256)
    {payments : List InterchainGasPaymentWithMeta}
    (inside : payments ⊆ known) :
    Program.CrashTriple (GasLedger known number done latest)
      (processGasPayments payments)
      (fun _ => GasLedger known number (done ++ payments) latest)
      (GasLedger known (number + 1) done latest) := by
  induction payments generalizing done with
  | nil =>
      refine Program.CrashTriple.pure (fun db ledger => ?_) fun db ledger => ?_
      · exact { ledger with
          accounted := ledger.accounted.mono (Nat.le_succ _) }
      · rw [List.append_nil]
        exact ledger
  | cons payment payments inductionHypothesis =>
      obtain ⟨first, rest⟩ := List.cons_subset.mp inside
      refine (crashTriple_processGasPayment bounded first).bind fun _ => ?_
      refine (inductionHypothesis rest).conseq (fun _ db ledger => ?_)
        fun db ledger => ⟨ledger.accounted, fun other listed =>
          ledger.recorded other (List.mem_append_left _ listed),
          ledger.indexed⟩
      rw [List.append_assoc] at ledger
      exact ledger

end Crashes

end AbacusDB

end Abacus
