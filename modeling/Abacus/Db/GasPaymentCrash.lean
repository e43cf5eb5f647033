import Abacus.Db.GasPayments
import Abacus.Library.CrashTriple

/-!
# Crash consistency of gas payments

A payment is two puts. After a crash between them it is recorded as processed
and not counted, and processing the payments again skips it. At every other
point processing them again leads to the totals of an uninterrupted run.
-/

namespace Abacus

namespace AbacusDB

open Journal (Program)

/-- The crash falls between the two puts of a payment of a non-zero amount. -/
def LosesPayment (known : InterchainGasPaymentMeta → Bool)
    (payments : List InterchainGasPaymentWithMeta) (count : Nat) : Prop :=
  ∃ position payment, count = 2 * position + 1 ∧
    (freshPayments known payments)[position]? = some payment ∧
    payment.payment.amount ≠ 0

/-! ## Lists of payments -/

section Lists

variable {payment : InterchainGasPaymentWithMeta}
variable {db : AbacusDB}

/-- A processed payment at the head of a list is skipped. -/
theorem processGasPayments_cons_of_processed
    (known : gasPaymentProcessed db payment.paymentMeta = true)
    (rest : List InterchainGasPaymentWithMeta) :
    processGasPayments (payment :: rest) db =
      processGasPayments rest db := by
  rcases processGasPayment_cases payment db with
    ⟨-, run⟩ | ⟨fresh, -, -⟩ | ⟨fresh, -, -⟩
  · exact Program.run_bind_ok run _
  · rw [known] at fresh
    cases fresh
  · rw [known] at fresh
    cases fresh

/-- A fresh payment at the head of a list is two puts. -/
theorem processGasPayments_cons_of_fresh
    (fresh : gasPaymentProcessed db payment.paymentMeta = false)
    (fits : Fits db payment.payment)
    (rest : List InterchainGasPaymentWithMeta) :
    processGasPayments (payment :: rest) db =
      ((processGasPayments rest (processed payment db)).1,
        processedPut payment :: totalPut db payment.payment ::
          (processGasPayments rest (processed payment db)).2) := by
  rcases processGasPayment_cases payment db with
    ⟨known, -⟩ | ⟨-, -, run⟩ | ⟨-, overflow, -⟩
  · rw [fresh] at known
    cases known
  · exact Program.run_bind_ok run _
  · exact absurd fits overflow

/-- If a list with a fresh payment at its head is processed, the payment fits
and the rest is processed. -/
theorem of_processGasPayments_cons_eq_ok
    {rest : List InterchainGasPaymentWithMeta}
    (fresh : gasPaymentProcessed db payment.paymentMeta = false)
    (completes : (processGasPayments (payment :: rest)).result db = .ok ()) :
    Fits db payment.payment ∧
      (processGasPayments rest).result (processed payment db) = .ok () := by
  rcases processGasPayment_cases payment db with
    ⟨known, -⟩ | ⟨-, fits, -⟩ | ⟨-, -, run⟩
  · rw [fresh] at known
    cases known
  · rw [Program.result, processGasPayments_cons_of_fresh fresh fits]
      at completes
    exact ⟨fits, completes⟩
  · have stops : processGasPayments (payment :: rest) db = _ :=
      Program.run_bind_error run _
    rw [Program.result, stops] at completes
    cases completes

/-- What is recorded as processed stays so, also after a crash. -/
theorem gasPaymentProcessed_crashed
    {paymentMeta : InterchainGasPaymentMeta}
    (known : gasPaymentProcessed db paymentMeta = true)
    (payments : List InterchainGasPaymentWithMeta)
    (count : Nat) :
    gasPaymentProcessed ((processGasPayments payments).crashed db count)
      paymentMeta = true := by
  have each : ∀ payment, Program.CrashTriple
      (fun db => gasPaymentProcessed db paymentMeta = true)
      (processGasPayment payment)
      (fun _ db => gasPaymentProcessed db paymentMeta = true)
      (fun db => gasPaymentProcessed db paymentMeta = true) := by
    intro payment db known
    rcases processGasPayment_cases payment db with
      ⟨-, run⟩ | ⟨-, -, run⟩ | ⟨-, -, run⟩
    all_goals
      simp only [Program.crashed, Program.final, Program.journal,
        Program.result, run]
      refine ⟨fun count => ?_, by simp [known]⟩
      rcases count with _ | _ | count <;> simp [known]
  exact (Program.CrashTriple.forM (fun _ known => known)
    (fun payment _ => each payment) db known).1 count

end Lists

/-! ## A total that is behind -/

/-- Two databases with the same processed payments, one of which is behind in
the total of one leaf. -/
structure Behind (leafIndex : UInt32) (amount : Nat)
    (ahead behind : AbacusDB) : Prop where
  processed : ∀ paymentMeta, gasPaymentProcessed behind paymentMeta =
    gasPaymentProcessed ahead paymentMeta
  total : ∀ other, (gasPaymentTotal ahead other).toNat =
    (gasPaymentTotal behind other).toNat +
      if other = leafIndex then amount else 0

/-- Between its two puts, the total of a payment is behind. -/
theorem behind_processedPut
    {payment : InterchainGasPaymentWithMeta}
    {db : AbacusDB}
    (fits : Fits db payment.payment) :
    Behind payment.payment.leafIndex payment.payment.amount.toNat
      (processed payment db) ((processedPut payment).apply db) where
  processed paymentMeta := by simp
  total other := by
    rw [toNat_gasPaymentTotal_processed fits, gasPaymentTotal_processedPut]

/-- Processing a further payment leaves the total as far behind. -/
theorem Behind.processed_payment
    {leafIndex : UInt32}
    {amount : Nat}
    {ahead behind : AbacusDB}
    {payment : InterchainGasPaymentWithMeta}
    (lag : Behind leafIndex amount ahead behind)
    (fits : Fits ahead payment.payment) :
    Fits behind payment.payment ∧
      Behind leafIndex amount (AbacusDB.processed payment ahead)
        (AbacusDB.processed payment behind) := by
  have total := lag.total payment.payment.leafIndex
  have fitsBehind : Fits behind payment.payment := by
    unfold Fits at fits ⊢
    omega
  refine ⟨fitsBehind, ?_, ?_⟩
  · intro paymentMeta
    rw [gasPaymentProcessed_processed, gasPaymentProcessed_processed,
      lag.processed]
  · intro other
    rw [toNat_gasPaymentTotal_processed fits,
      toNat_gasPaymentTotal_processed fitsBehind, lag.total other]
    omega

/-- Processing any further payments leaves the total as far behind. -/
theorem Behind.processGasPayments
    {leafIndex : UInt32}
    {amount : Nat}
    {ahead behind : AbacusDB}
    (lag : Behind leafIndex amount ahead behind)
    {payments : List InterchainGasPaymentWithMeta}
    (completes : (processGasPayments payments).result ahead = .ok ()) :
    Behind leafIndex amount ((AbacusDB.processGasPayments payments).final ahead)
      ((AbacusDB.processGasPayments payments).final behind) := by
  induction payments generalizing ahead behind with
  | nil => exact lag
  | cons payment rest inductionHypothesis =>
      cases known : gasPaymentProcessed ahead payment.paymentMeta with
      | true =>
          have knownBehind := (lag.processed payment.paymentMeta).trans known
          rw [Program.result, processGasPayments_cons_of_processed known]
            at completes
          simp only [Program.final, Program.journal,
            processGasPayments_cons_of_processed known,
            processGasPayments_cons_of_processed knownBehind]
          exact inductionHypothesis lag completes
      | false =>
          have freshBehind := (lag.processed payment.paymentMeta).trans known
          obtain ⟨fits, completes⟩ :=
            of_processGasPayments_cons_eq_ok known completes
          obtain ⟨fitsBehind, lag⟩ := lag.processed_payment fits
          simp only [Program.final, Program.journal,
            processGasPayments_cons_of_fresh known fits,
            processGasPayments_cons_of_fresh freshBehind fitsBehind]
          exact inductionHypothesis lag completes

/-! ## Processing again after a crash -/

/-- The database after a crash and a second, full processing. -/
def reprocessed (payments : List InterchainGasPaymentWithMeta)
    (db : AbacusDB) (count : Nat) : AbacusDB :=
  (processGasPayments payments).final
    ((processGasPayments payments).crashed db count)

/-- Two databases with the same totals. -/
def SameTotals (first second : AbacusDB) : Prop :=
  ∀ leafIndex, gasPaymentTotal first leafIndex =
    gasPaymentTotal second leafIndex

section Reprocessed

variable {payment : InterchainGasPaymentWithMeta}
variable {db : AbacusDB}

/-- A processed payment does not matter. -/
theorem reprocessed_cons_of_processed
    (known : gasPaymentProcessed db payment.paymentMeta = true)
    (rest : List InterchainGasPaymentWithMeta)
    (count : Nat) :
    reprocessed (payment :: rest) db count = reprocessed rest db count := by
  have still := gasPaymentProcessed_crashed known rest count
  have same : (processGasPayments (payment :: rest)).crashed db count =
      (processGasPayments rest).crashed db count := by
    simp only [Program.crashed, Program.journal,
      processGasPayments_cons_of_processed known]
  rw [reprocessed, same]
  simp only [Program.final, Program.journal,
    processGasPayments_cons_of_processed still, reprocessed]

/-- After a crash between the two puts of a payment, the payment is
skipped. -/
theorem reprocessed_cons_one
    (fresh : gasPaymentProcessed db payment.paymentMeta = false)
    (fits : Fits db payment.payment)
    (rest : List InterchainGasPaymentWithMeta) :
    reprocessed (payment :: rest) db 1 =
      (processGasPayments rest).final ((processedPut payment).apply db) := by
  have crashed : (processGasPayments (payment :: rest)).crashed db 1 =
      (processedPut payment).apply db := by
    simp only [Program.crashed, Program.journal,
      processGasPayments_cons_of_fresh fresh fits, List.take_succ_cons,
      List.take_zero, Journal.replay_cons, Journal.replay_nil]
  rw [reprocessed, crashed]
  simp only [Program.final, Program.journal]
  rw [processGasPayments_cons_of_processed (by simp)]

/-- After a crash behind the two puts of a payment, the payment is
counted. -/
theorem reprocessed_cons_add_two
    (fresh : gasPaymentProcessed db payment.paymentMeta = false)
    (fits : Fits db payment.payment)
    (rest : List InterchainGasPaymentWithMeta)
    (count : Nat) :
    reprocessed (payment :: rest) db (count + 2) =
      reprocessed rest (processed payment db) count := by
  have crashed : (processGasPayments (payment :: rest)).crashed db
      (count + 2) =
        (processGasPayments rest).crashed (processed payment db) count := by
    simp only [Program.crashed, Program.journal,
      processGasPayments_cons_of_fresh fresh fits, List.take_succ_cons,
      Journal.replay_cons]
    rfl
  have known : gasPaymentProcessed (processed payment db)
      payment.paymentMeta = true := by
    simp
  have still := gasPaymentProcessed_crashed known rest count
  rw [reprocessed, crashed]
  simp only [Program.final, Program.journal,
    processGasPayments_cons_of_processed still, reprocessed]

/-- Known payments are not lost. -/
theorem losesPayment_cons_of_known
    {known : InterchainGasPaymentMeta → Bool}
    (recorded : known payment.paymentMeta = true)
    (rest : List InterchainGasPaymentWithMeta)
    (count : Nat) :
    LosesPayment known (payment :: rest) count ↔
      LosesPayment known rest count := by
  unfold LosesPayment
  rw [freshPayments, if_pos recorded]

/-- A crash after one put loses the first fresh payment, unless its amount is
zero. -/
theorem losesPayment_cons_one
    {known : InterchainGasPaymentMeta → Bool}
    (fresh : known payment.paymentMeta = false)
    (rest : List InterchainGasPaymentWithMeta) :
    LosesPayment known (payment :: rest) 1 ↔ payment.payment.amount ≠ 0 := by
  unfold LosesPayment
  rw [freshPayments, if_neg (by simp [fresh])]
  constructor
  · rintro ⟨position, lost, after, found, nonzero⟩
    obtain rfl : position = 0 := by omega
    cases found
    exact nonzero
  · intro nonzero
    exact ⟨0, payment, rfl, rfl, nonzero⟩

/-- Behind the first fresh payment, a crash loses one of the others. -/
theorem losesPayment_cons_add_two
    {known : InterchainGasPaymentMeta → Bool}
    (fresh : known payment.paymentMeta = false)
    (rest : List InterchainGasPaymentWithMeta)
    (count : Nat) :
    LosesPayment known (payment :: rest) (count + 2) ↔
      LosesPayment (fun other => known other || other == payment.paymentMeta)
        rest count := by
  unfold LosesPayment
  rw [freshPayments, if_neg (by simp [fresh])]
  constructor
  · rintro ⟨position, lost, after, found, nonzero⟩
    cases position with
    | zero => omega
    | succ position => exact ⟨position, lost, by omega, found, nonzero⟩
  · rintro ⟨position, lost, after, found, nonzero⟩
    exact ⟨position + 1, lost, by omega, found, nonzero⟩

/-- After a crash between the puts of a fresh payment, the totals are those of
an uninterrupted run only if the amount is zero. -/
theorem sameTotals_cons_one_iff
    (fresh : gasPaymentProcessed db payment.paymentMeta = false)
    {rest : List InterchainGasPaymentWithMeta}
    (completes : (processGasPayments (payment :: rest)).result db = .ok ()) :
    SameTotals (reprocessed (payment :: rest) db 1)
        ((processGasPayments (payment :: rest)).final db) ↔
      payment.payment.amount = 0 := by
  obtain ⟨fits, completes⟩ := of_processGasPayments_cons_eq_ok fresh completes
  have lag := (behind_processedPut fits).processGasPayments completes
  have uninterrupted : (processGasPayments (payment :: rest)).final db =
      (processGasPayments rest).final (processed payment db) := by
    simp only [Program.final, Program.journal,
      processGasPayments_cons_of_fresh fresh fits]
    rfl
  have nothing : (0 : U256).toNat = 0 := rfl
  rw [reprocessed_cons_one fresh fits, uninterrupted]
  constructor
  · intro same
    have total := lag.total payment.payment.leafIndex
    rw [same, if_pos rfl] at total
    apply BitVec.eq_of_toNat_eq
    rw [nothing]
    omega
  · intro zero leafIndex
    have total := lag.total leafIndex
    rw [zero, nothing, ite_self] at total
    exact (BitVec.eq_of_toNat_eq total).symm

end Reprocessed

/-- The totals after a crash and a second processing are those of an
uninterrupted run, unless the crash loses a payment. -/
theorem sameTotals_reprocessed_iff
    {db : AbacusDB}
    {payments : List InterchainGasPaymentWithMeta}
    (completes : (processGasPayments payments).result db = .ok ())
    (count : Nat) :
    SameTotals (reprocessed payments db count)
        ((processGasPayments payments).final db) ↔
      ¬ LosesPayment (gasPaymentProcessed db) payments count := by
  induction payments generalizing db count with
  | nil =>
      refine iff_of_true (fun _ => ?_) ?_
      · cases count <;> rfl
      · rintro ⟨position, payment, -, found, -⟩
        cases found
  | cons payment rest inductionHypothesis =>
      cases known : gasPaymentProcessed db payment.paymentMeta with
      | true =>
          rw [Program.result, processGasPayments_cons_of_processed known]
            at completes
          rw [reprocessed_cons_of_processed known,
            losesPayment_cons_of_known known,
            ← inductionHypothesis completes]
          simp only [Program.final, Program.journal,
            processGasPayments_cons_of_processed known]
      | false =>
          rcases count with _ | _ | count
          · refine iff_of_true (fun _ => rfl) ?_
            rintro ⟨position, lost, after, -⟩
            omega
          · rw [sameTotals_cons_one_iff known completes,
              losesPayment_cons_one known, not_not]
          · obtain ⟨fits, completes⟩ :=
              of_processGasPayments_cons_eq_ok known completes
            have recorded : gasPaymentProcessed (processed payment db) =
                fun other => gasPaymentProcessed db other ||
                  other == payment.paymentMeta := by
              funext other
              exact gasPaymentProcessed_processed payment db other
            rw [reprocessed_cons_add_two known fits,
              losesPayment_cons_add_two known, ← recorded,
              ← inductionHypothesis completes]
            simp only [Program.final, Program.journal,
              processGasPayments_cons_of_fresh known fits]
            rfl

/-- After a crash at any put and a second processing of the same payments, the
totals are those of one uninterrupted run if and only if the crash does not
fall between the two puts of a payment with a non-zero amount. -/
theorem replayed_totals_iff
    (db : AbacusDB)
    (payments : List InterchainGasPaymentWithMeta)
    (completes : (processGasPayments payments).result db = .ok ())
    (count : Nat) :
    (∀ leafIndex,
        (retrieveGasPaymentForLeaf leafIndex).result
            ((processGasPayments payments).final
              ((processGasPayments payments).crashed db count)) =
          (retrieveGasPaymentForLeaf leafIndex).result
            ((processGasPayments payments).final db)) ↔
      ¬ LosesPayment (gasPaymentProcessed db) payments count := by
  rw [← sameTotals_reprocessed_iff completes count]
  apply forall_congr'
  intro leafIndex
  simp only [Program.result, run_retrieveGasPaymentForLeaf, reprocessed,
    Except.ok.injEq]

/-- A payment of five for leaf `0`. -/
def samplePayment : InterchainGasPaymentWithMeta where
  payment := { leafIndex := 0, amount := 5 }
  paymentMeta := { transactionHash := H256.zero, logIndex := 0 }

/-- A payment of seven for leaf `1`, in the same transaction. -/
def otherPayment : InterchainGasPaymentWithMeta where
  payment := { leafIndex := 1, amount := 7 }
  paymentMeta := { transactionHash := H256.zero, logIndex := 1 }

/-- After a crash between two payments, the totals of both leaves are those of
an uninterrupted run, but not after one between the puts of the second
payment. -/
theorem replayed_totals_iff_counted :
    let payments := [samplePayment, otherPayment]
    let after (count : Nat) := (processGasPayments payments).final
      ((processGasPayments payments).crashed Journal.empty count)
    let uninterrupted := (processGasPayments payments).final Journal.empty
    (∀ leafIndex,
      (retrieveGasPaymentForLeaf leafIndex).result (after 2) =
        (retrieveGasPaymentForLeaf leafIndex).result uninterrupted) ∧
      ¬ ∀ leafIndex,
        (retrieveGasPaymentForLeaf leafIndex).result (after 3) =
          (retrieveGasPaymentForLeaf leafIndex).result uninterrupted := by
  intro payments after uninterrupted
  have completes : (processGasPayments payments).result Journal.empty =
      .ok () := by
    decide +kernel
  constructor
  · refine (replayed_totals_iff Journal.empty payments completes 2).mpr ?_
    rintro ⟨position, payment, odd, -⟩
    omega
  · intro same
    refine (replayed_totals_iff Journal.empty payments completes 3).mp same ?_
    exact ⟨1, otherPayment, rfl, by decide +kernel, by decide⟩

/-- After a crash between the two puts, the payment is lost. -/
theorem crash_loses_payment :
    (retrieveGasPaymentForLeaf 0).result
        ((processGasPayments [samplePayment]).final
          ((processGasPayments [samplePayment]).crashed Journal.empty 1)) =
        .ok 0 ∧
      (retrieveGasPaymentForLeaf 0).result
        ((processGasPayments [samplePayment]).final Journal.empty) =
        .ok 5 :=
  ⟨rfl, rfl⟩

end AbacusDB

end Abacus
