import Abacus.Db.AbacusDB
import Mathlib.Algebra.Order.BigOperators.Group.Finset

/-!
# Gas payments in the database

A payment is processed once: the record of its identity is put first, then the
new total of its leaf. The totals are the sums of the distinct payments that
have been processed.
-/

namespace Abacus

namespace AbacusDB

open Journal (Program)

/-- Whether a payment is recorded as processed. -/
def gasPaymentProcessed (db : AbacusDB)
    (paymentMeta : InterchainGasPaymentMeta) : Bool :=
  (db (.gasPaymentMetaProcessed paymentMeta)).getD false

/-- The total recorded for a leaf. -/
def gasPaymentTotal (db : AbacusDB) (leafIndex : UInt32) : U256 :=
  (db (.gasPaymentForLeaf leafIndex)).getD 0

theorem run_retrieveGasPaymentForLeaf (leafIndex : UInt32) (db : AbacusDB) :
    retrieveGasPaymentForLeaf leafIndex db =
      (.ok (gasPaymentTotal db leafIndex), []) := rfl

theorem run_retrieveGasPaymentMetaProcessed
    (paymentMeta : InterchainGasPaymentMeta)
    (db : AbacusDB) :
    retrieveGasPaymentMetaProcessed paymentMeta db =
      (.ok (gasPaymentProcessed db paymentMeta), []) := rfl

/-! ## Puts -/

/-- The put that records a payment as processed. -/
def processedPut (payment : InterchainGasPaymentWithMeta) : DbPut :=
  ⟨.gasPaymentMetaProcessed payment.paymentMeta, true⟩

/-- The put of the total that includes a payment. -/
def totalPut (db : AbacusDB) (payment : InterchainGasPayment) : DbPut :=
  ⟨.gasPaymentForLeaf payment.leafIndex,
    gasPaymentTotal db payment.leafIndex + payment.amount⟩

@[simp] theorem gasPaymentProcessed_processedPut
    (payment : InterchainGasPaymentWithMeta)
    (db : AbacusDB)
    (other : InterchainGasPaymentMeta) :
    gasPaymentProcessed ((processedPut payment).apply db) other =
      (gasPaymentProcessed db other || other == payment.paymentMeta) := by
  unfold gasPaymentProcessed
  by_cases same : other = payment.paymentMeta
  · subst same
    simp [processedPut]
  · rw [Journal.Put.apply_of_ne (by simpa [processedPut] using same),
      beq_eq_false_iff_ne.mpr same, Bool.or_false]

@[simp] theorem gasPaymentTotal_processedPut
    (payment : InterchainGasPaymentWithMeta)
    (db : AbacusDB)
    (leafIndex : UInt32) :
    gasPaymentTotal ((processedPut payment).apply db) leafIndex =
      gasPaymentTotal db leafIndex := by
  rw [gasPaymentTotal, Journal.Put.apply_of_ne (by simp [processedPut]),
    gasPaymentTotal]

@[simp] theorem gasPaymentProcessed_totalPut
    (payment : InterchainGasPayment)
    (first db : AbacusDB)
    (paymentMeta : InterchainGasPaymentMeta) :
    gasPaymentProcessed ((totalPut first payment).apply db) paymentMeta =
      gasPaymentProcessed db paymentMeta := by
  rw [gasPaymentProcessed, Journal.Put.apply_of_ne (by simp [totalPut]),
    gasPaymentProcessed]

@[simp] theorem gasPaymentTotal_totalPut
    (payment : InterchainGasPayment)
    (first db : AbacusDB)
    (leafIndex : UInt32) :
    gasPaymentTotal ((totalPut first payment).apply db) leafIndex =
      if leafIndex = payment.leafIndex then
        gasPaymentTotal first payment.leafIndex + payment.amount
      else gasPaymentTotal db leafIndex := by
  unfold gasPaymentTotal
  split
  · rename_i same
    subst same
    simp [totalPut, gasPaymentTotal]
  · rename_i different
    rw [Journal.Put.apply_of_ne (by simpa [totalPut] using different)]

/-! ## Processing -/

/-- The total of the leaf of a payment can be raised by its amount. -/
def Fits (db : AbacusDB) (payment : InterchainGasPayment) : Prop :=
  (gasPaymentTotal db payment.leafIndex).toNat + payment.amount.toNat <
    2 ^ 256

/-- What processing a payment does: nothing if it is recorded as processed;
otherwise it is recorded, and the total is raised unless it overflows. -/
theorem processGasPayment_cases
    (payment : InterchainGasPaymentWithMeta)
    (db : AbacusDB) :
    (gasPaymentProcessed db payment.paymentMeta = true ∧
        processGasPayment payment db = (.ok (), [])) ∨
      (gasPaymentProcessed db payment.paymentMeta = false ∧
        Fits db payment.payment ∧
        processGasPayment payment db =
          (.ok (), [processedPut payment, totalPut db payment.payment])) ∨
      (gasPaymentProcessed db payment.paymentMeta = false ∧
        ¬ Fits db payment.payment ∧
        processGasPayment payment db =
          (.error (.panic .overflow), [processedPut payment])) := by
  unfold processGasPayment
  rw [Program.run_bind_ok (run_retrieveGasPaymentMetaProcessed _ _),
    Journal.replay_nil]
  cases processed : gasPaymentProcessed db payment.paymentMeta with
  | true => exact .inl ⟨rfl, rfl⟩
  | false =>
      have total := run_retrieveGasPaymentForLeaf payment.payment.leafIndex
        ((processedPut payment).apply db)
      rw [gasPaymentTotal_processedPut] at total
      have recorded : storeGasPaymentMetaProcessed payment.paymentMeta db =
          (.ok (), [processedPut payment]) := rfl
      simp only [Bool.false_eq_true, if_false]
      rw [Program.run_bind_ok recorded, Journal.replay_cons,
        Journal.replay_nil, updateGasPaymentForLeaf,
        Program.run_bind_ok total]
      by_cases fits : Fits db payment.payment
      · have added : addU256 (gasPaymentTotal db payment.payment.leafIndex)
            payment.payment.amount = .ok _ := if_pos fits
        refine .inr (.inl ⟨trivial, fits, ?_⟩)
        rw [added]
        rfl
      · have overflow : addU256 (gasPaymentTotal db payment.payment.leafIndex)
            payment.payment.amount = .error _ := if_neg fits
        refine .inr (.inr ⟨trivial, fits, ?_⟩)
        rw [overflow]
        rfl

/-- Process the payments of a window, one after the other. -/
def processGasPayments (payments : List InterchainGasPaymentWithMeta) :
    DbM Unit :=
  payments.forM processGasPayment

/-- The database after a payment that could be processed. -/
def processed (payment : InterchainGasPaymentWithMeta) (db : AbacusDB) :
    AbacusDB :=
  Journal.replay db [processedPut payment, totalPut db payment.payment]

@[simp] theorem gasPaymentProcessed_processed
    (payment : InterchainGasPaymentWithMeta)
    (db : AbacusDB)
    (other : InterchainGasPaymentMeta) :
    gasPaymentProcessed (processed payment db) other =
      (gasPaymentProcessed db other || other == payment.paymentMeta) := by
  simp [processed]

@[simp] theorem gasPaymentTotal_processed
    (payment : InterchainGasPaymentWithMeta)
    (db : AbacusDB)
    (leafIndex : UInt32) :
    gasPaymentTotal (processed payment db) leafIndex =
      if leafIndex = payment.payment.leafIndex then
        gasPaymentTotal db payment.payment.leafIndex + payment.payment.amount
      else gasPaymentTotal db leafIndex := by
  simp [processed]

/-- A total that fits is the sum of the numbers. -/
theorem toNat_gasPaymentTotal_processed
    {payment : InterchainGasPaymentWithMeta}
    {db : AbacusDB}
    (fits : Fits db payment.payment)
    (leafIndex : UInt32) :
    (gasPaymentTotal (processed payment db) leafIndex).toNat =
      (gasPaymentTotal db leafIndex).toNat +
        if leafIndex = payment.payment.leafIndex then
          payment.payment.amount.toNat
        else 0 := by
  rw [gasPaymentTotal_processed]
  split
  · rename_i same
    rw [same, BitVec.toNat_add, Nat.mod_eq_of_lt fits]
  · rfl

/-- The payments that are counted: those not recorded as processed, each at
its first occurrence. -/
def freshPayments (known : InterchainGasPaymentMeta → Bool) :
    List InterchainGasPaymentWithMeta → List InterchainGasPaymentWithMeta
  | [] => []
  | payment :: rest =>
      if known payment.paymentMeta then freshPayments known rest
      else payment :: freshPayments
        (fun other => known other || other == payment.paymentMeta) rest

/-! ## Sums of distinct payments -/

/-- The sum of the distinct payments for a leaf. -/
def leafTotal (payments : List InterchainGasPaymentWithMeta)
    (leafIndex : UInt32) : Nat :=
  ∑ payment ∈ payments.toFinset with payment.payment.leafIndex = leafIndex,
    payment.payment.amount.toNat

/-- A payment that is repeated is not counted again. -/
theorem leafTotal_concat_of_mem
    {payments : List InterchainGasPaymentWithMeta}
    {payment : InterchainGasPaymentWithMeta}
    (member : payment ∈ payments)
    (leafIndex : UInt32) :
    leafTotal (payments ++ [payment]) leafIndex =
      leafTotal payments leafIndex := by
  have same : (payments ++ [payment]).toFinset = payments.toFinset := by
    ext other
    simp only [List.mem_toFinset, List.mem_append, List.mem_singleton]
    exact ⟨fun either => either.elim id fun equal => equal ▸ member, .inl⟩
  rw [leafTotal, same, leafTotal]

/-- A new payment is counted for its leaf. -/
theorem leafTotal_concat_of_not_mem
    {payments : List InterchainGasPaymentWithMeta}
    {payment : InterchainGasPaymentWithMeta}
    (new : payment ∉ payments)
    (leafIndex : UInt32) :
    leafTotal (payments ++ [payment]) leafIndex =
      leafTotal payments leafIndex +
        if leafIndex = payment.payment.leafIndex then
          payment.payment.amount.toNat
        else 0 := by
  have extended : (payments ++ [payment]).toFinset =
      insert payment payments.toFinset := by
    ext other
    simp only [List.mem_toFinset, List.mem_append, List.mem_singleton,
      Finset.mem_insert]
    exact Or.comm
  have absent : payment ∉ payments.toFinset.filter fun other =>
      other.payment.leafIndex = leafIndex := by
    simp [new]
  rw [leafTotal, extended, Finset.filter_insert, leafTotal]
  by_cases same : leafIndex = payment.payment.leafIndex
  · rw [if_pos same.symm, if_pos same, Finset.sum_insert absent, Nat.add_comm]
  · rw [if_neg (Ne.symm same), if_neg same, Nat.add_zero]

/-- More payments do not lower a sum. -/
theorem leafTotal_le_of_subset
    {first second : List InterchainGasPaymentWithMeta}
    (subset : first ⊆ second)
    (leafIndex : UInt32) :
    leafTotal first leafIndex ≤ leafTotal second leafIndex := by
  apply Finset.sum_le_sum_of_subset
  intro payment member
  rw [Finset.mem_filter, List.mem_toFinset] at member ⊢
  exact ⟨subset member.1, member.2⟩

/-- The database counts exactly some payments: these are recorded as
processed, and the totals are their sums. -/
structure Counted (passed : List InterchainGasPaymentWithMeta)
    (db : AbacusDB) : Prop where
  processed : ∀ paymentMeta, gasPaymentProcessed db paymentMeta = true ↔
    ∃ payment ∈ passed, payment.paymentMeta = paymentMeta
  total : ∀ leafIndex,
    (gasPaymentTotal db leafIndex).toNat = leafTotal passed leafIndex

/-- The empty database counts nothing. -/
theorem counted_empty : Counted [] Journal.empty where
  processed paymentMeta := iff_of_false Bool.false_ne_true (by simp)
  total _ := rfl

/-- Other records do not matter. -/
theorem Counted.congr
    {passed : List InterchainGasPaymentWithMeta}
    {first second : AbacusDB}
    (counted : Counted passed first)
    (flags : ∀ paymentMeta, second (.gasPaymentMetaProcessed paymentMeta) =
      first (.gasPaymentMetaProcessed paymentMeta))
    (totals : ∀ leafIndex, second (.gasPaymentForLeaf leafIndex) =
      first (.gasPaymentForLeaf leafIndex)) :
    Counted passed second where
  processed paymentMeta := by
    rw [gasPaymentProcessed, flags]
    exact counted.processed paymentMeta
  total leafIndex := by
    rw [gasPaymentTotal, totals]
    exact counted.total leafIndex

/-- Counting a payment again changes nothing. -/
theorem Counted.concat_of_mem
    {passed : List InterchainGasPaymentWithMeta}
    {db : AbacusDB}
    (counted : Counted passed db)
    {payment : InterchainGasPaymentWithMeta}
    (member : payment ∈ passed) :
    Counted (passed ++ [payment]) db where
  processed paymentMeta := by
    rw [counted.processed]
    simp only [List.mem_append, List.mem_singleton]
    constructor
    · rintro ⟨other, inside, same⟩
      exact ⟨other, .inl inside, same⟩
    · rintro ⟨other, inside | rfl, same⟩
      · exact ⟨other, inside, same⟩
      · exact ⟨other, member, same⟩
  total leafIndex := by
    rw [counted.total, leafTotal_concat_of_mem member]

/-- A new payment is counted once its two puts have been made. -/
theorem Counted.concat_of_not_mem
    {passed : List InterchainGasPaymentWithMeta}
    {db : AbacusDB}
    (counted : Counted passed db)
    {payment : InterchainGasPaymentWithMeta}
    (new : payment ∉ passed)
    (fits : Fits db payment.payment) :
    Counted (passed ++ [payment]) (AbacusDB.processed payment db) where
  processed paymentMeta := by
    rw [gasPaymentProcessed_processed, Bool.or_eq_true, counted.processed,
      beq_iff_eq]
    simp only [List.mem_append, List.mem_singleton]
    constructor
    · rintro (⟨other, inside, same⟩ | same)
      · exact ⟨other, .inl inside, same⟩
      · exact ⟨payment, .inr rfl, same.symm⟩
    · rintro ⟨other, inside | rfl, same⟩
      · exact .inl ⟨other, inside, same⟩
      · exact .inr same.symm
  total leafIndex := by
    rw [toNat_gasPaymentTotal_processed fits, counted.total,
      leafTotal_concat_of_not_mem new]

/-- Processing a payment counts it, unless it has been counted. -/
theorem Counted.processGasPayment
    {passed : List InterchainGasPaymentWithMeta}
    {db : AbacusDB}
    (counted : Counted passed db)
    {payment : InterchainGasPaymentWithMeta}
    (identified : ∀ other ∈ passed,
      other.paymentMeta = payment.paymentMeta → other = payment)
    (bounded : leafTotal (passed ++ [payment]) payment.payment.leafIndex <
      2 ^ 256) :
    (AbacusDB.processGasPayment payment).result db = .ok () ∧
      Counted (passed ++ [payment])
        ((AbacusDB.processGasPayment payment).final db) := by
  have recorded : gasPaymentProcessed db payment.paymentMeta = true ↔
      payment ∈ passed := by
    rw [counted.processed]
    constructor
    · rintro ⟨other, inside, same⟩
      exact identified other inside same ▸ inside
    · intro member
      exact ⟨payment, member, rfl⟩
  rcases processGasPayment_cases payment db with
    ⟨known, run⟩ | ⟨fresh, fits, run⟩ | ⟨fresh, overflow, -⟩
  · rw [Program.result, Program.final, Program.journal, run]
    exact ⟨rfl, counted.concat_of_mem (recorded.mp known)⟩
  · have new : payment ∉ passed := by
      rw [← recorded, fresh]
      exact Bool.false_ne_true
    rw [Program.result, Program.final, Program.journal, run]
    exact ⟨rfl, counted.concat_of_not_mem new fits⟩
  · have new : payment ∉ passed := by
      rw [← recorded, fresh]
      exact Bool.false_ne_true
    rw [leafTotal_concat_of_not_mem new, if_pos rfl, ← counted.total]
      at bounded
    exact absurd bounded overflow

end AbacusDB

end Abacus
