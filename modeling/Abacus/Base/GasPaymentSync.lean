import Abacus.Base.OutboxSync
import Abacus.Db.GasPayments

/-!
# The gas payment indexer

The loop that fetches gas payments in overlapping windows of blocks and
processes them. One iteration is a program over the database. Since the loop
can be restarted between any two database operations, it is also a machine
that makes one operation at a time.
-/

namespace Abacus

open Journal (Program)

/-- What the provider answers in one iteration: the number of the latest
finalized block, and the gas payments of a window. -/
structure GasPoll where
  finalizedBlockNumber : Except Report UInt32
  fetchGasPayments :
    UInt32 → UInt32 → Except Report (List InterchainGasPaymentWithMeta)

/-- The fetched window: its last block and its payments. -/
structure GasWindow where
  toBlock : UInt32
  gasPayments : List InterchainGasPaymentWithMeta
  deriving DecidableEq

/-- The first half of an iteration, up to the fetch. The full chunk is
searched again, also close to the tip. -/
def fetchGasWindow (chunkSize : UInt32) (poll : GasPoll)
    (fromBlock : UInt32) : Except (Fault Report) (Option GasWindow) :=
  match poll.finalizedBlockNumber with
  | .error _ => .ok none
  | .ok tip =>
      if tip ≤ fromBlock then .ok none
      else do
        let candidate ← checkedAdd fromBlock chunkSize
        let toBlock := if tip ≤ candidate then tip else candidate
        let fullChunkFrom :=
          if chunkSize ≤ toBlock then toBlock - chunkSize else 0
        let gasPayments ←
          (poll.fetchGasPayments fullChunkFrom toBlock).mapError Fault.error
        return some ⟨toBlock, gasPayments⟩

/-- The end of an iteration: record the last block of the window, and move on
to the next one. -/
def finishGasWindow (toBlock : UInt32) : DbM UInt32 := do
  AbacusDB.storeLatestIndexedGasPaymentBlock toBlock
  nextBlock toBlock

/-- One iteration of the loop. -/
def gasIteration (chunkSize : UInt32) (poll : GasPoll)
    (fromBlock : UInt32) : DbM UInt32 := do
  match ← (Program.lift (fetchGasWindow chunkSize poll fromBlock) :
    DbM (Option GasWindow)) with
  | none => return fromBlock
  | some window => do
      AbacusDB.processGasPayments window.gasPayments
      finishGasWindow window.toBlock

/-- The block from which the loop starts. -/
def resumeBlock (configFrom : UInt32) : DbM UInt32 := do
  match ← AbacusDB.retrieveLatestIndexedGasPaymentBlock with
  | some block => Program.lift (checkedAdd block 1)
  | none => return configFrom

/-- The loop starts behind the recorded block. -/
theorem result_resumeBlock (configFrom : UInt32) (db : AbacusDB) :
    (resumeBlock configFrom).result db =
      match (db .latestIndexedGasPaymentBlock : Option UInt32) with
      | some block => checkedAdd block 1
      | none => .ok configFrom := by
  rw [Program.result, resumeBlock,
    AbacusDB.retrieveLatestIndexedGasPaymentBlock,
    Program.run_bind_ok (AbacusDB.run_retrieve _ db), Journal.replay_nil]
  cases db .latestIndexedGasPaymentBlock <;> rfl

/-- The end of an iteration is one put. -/
theorem final_finishGasWindow (toBlock : UInt32) (db : AbacusDB) :
    (finishGasWindow toBlock).final db =
      Journal.Put.apply ⟨.latestIndexedGasPaymentBlock, toBlock⟩ db := rfl

/-! ## One operation at a time -/

/-- Where the loop is: at its head, in front of the remaining payments of a
window, or at its end. -/
inductive GasPhase
  | head (fromBlock : UInt32)
  | processing (window : GasWindow)
      (remaining : List InterchainGasPaymentWithMeta)
  | ended (fault : Fault Report)

/-- The phase behind an iteration. -/
def GasPhase.ofResult : Except (Fault Report) UInt32 → GasPhase
  | .ok fromBlock => .head fromBlock
  | .error fault => .ended fault

/-- The indexer: its database and its phase. -/
structure GasIndexer where
  db : AbacusDB
  phase : GasPhase

/-- The indexer when it starts. -/
def GasIndexer.start (configFrom : UInt32) (db : AbacusDB) : GasIndexer where
  db := db
  phase := .ofResult ((resumeBlock configFrom).result db)

/-- What happens to the indexer: the provider answers, the next operation on
the database is made, or the indexer is restarted. -/
inductive GasEvent
  | poll (poll : GasPoll)
  | operation
  | restart

/-- The phase behind an answer of the provider. -/
def GasPhase.poll (chunkSize : UInt32) (poll : GasPoll) :
    GasPhase → GasPhase
  | .head fromBlock =>
      match fetchGasWindow chunkSize poll fromBlock with
      | .error fault => .ended fault
      | .ok none => .head fromBlock
      | .ok (some window) => .processing window window.gasPayments
  | phase => phase

/-- The next operation on the database: a payment, or behind the last payment
the record of the window. -/
def GasIndexer.operation (indexer : GasIndexer) : GasIndexer :=
  match indexer.phase with
  | .processing window (payment :: remaining) => {
      db := (AbacusDB.processGasPayment payment).final indexer.db
      phase :=
        match (AbacusDB.processGasPayment payment).result indexer.db with
        | .ok () => .processing window remaining
        | .error fault => .ended fault }
  | .processing window [] => {
      db := (finishGasWindow window.toBlock).final indexer.db
      phase := .ofResult
        ((finishGasWindow window.toBlock).result indexer.db) }
  | _ => indexer

/-- The indexer after an event. -/
def GasIndexer.step (configFrom chunkSize : UInt32) (indexer : GasIndexer) :
    GasEvent → GasIndexer
  | .poll poll => { indexer with phase := indexer.phase.poll chunkSize poll }
  | .operation => indexer.operation
  | .restart => .start configFrom indexer.db

/-- The payment that an event passes on to the database. -/
def GasIndexer.passed (indexer : GasIndexer) :
    GasEvent → List InterchainGasPaymentWithMeta
  | .operation =>
      match indexer.phase with
      | .processing _ (payment :: _) => [payment]
      | _ => []
  | _ => []

/-! ## Iterations as runs -/

section Iterations

variable (configFrom chunkSize : UInt32)

/-- Operations do nothing at the end of the loop. -/
theorem run_operations_ended
    (db : AbacusDB)
    (fault : Fault Report)
    (count : Nat) :
    Machine.run (GasIndexer.step configFrom chunkSize) ⟨db, .ended fault⟩
        (List.replicate count .operation) =
      ⟨db, .ended fault⟩ := by
  induction count with
  | zero => rfl
  | succ count inductionHypothesis => exact inductionHypothesis

/-- The operations of a window, one at a time, are its program. -/
theorem run_operations_processing
    (window : GasWindow)
    (remaining : List InterchainGasPaymentWithMeta)
    (db : AbacusDB) :
    Machine.run (GasIndexer.step configFrom chunkSize)
        ⟨db, .processing window remaining⟩
        (List.replicate (remaining.length + 1) .operation) =
      { db := Program.final (do
          AbacusDB.processGasPayments remaining
          finishGasWindow window.toBlock) db
        phase := .ofResult (Program.result (do
          AbacusDB.processGasPayments remaining
          finishGasWindow window.toBlock) db) } := by
  induction remaining generalizing db with
  | nil => rfl
  | cons payment remaining inductionHypothesis =>
      rw [List.length_cons, List.replicate_succ, Machine.run_cons]
      cases run : AbacusDB.processGasPayment payment db with
      | mk outcome puts =>
          have whole : AbacusDB.processGasPayments (payment :: remaining) =
              (AbacusDB.processGasPayment payment >>= fun _ =>
                AbacusDB.processGasPayments remaining) := rfl
          cases outcome with
          | error fault =>
              have stops := Program.run_bind_error run fun _ =>
                AbacusDB.processGasPayments remaining
              have stopped := Program.run_bind_error stops fun _ =>
                finishGasWindow window.toBlock
              rw [whole]
              simp only [Program.final, Program.journal, Program.result,
                stopped, GasIndexer.step, GasIndexer.operation, run,
                GasPhase.ofResult]
              exact run_operations_ended configFrom chunkSize _ fault _
          | ok done =>
              have later := inductionHypothesis (Journal.replay db puts)
              rw [whole, Program.bind_assoc]
              simp only [Program.final, Program.journal, Program.result,
                Program.run_bind_ok run, Journal.replay_append,
                GasIndexer.step, GasIndexer.operation, run] at later ⊢
              exact later

/-- An answer of the provider and then the operations of the window, one at a
time, are one iteration. -/
theorem run_iteration
    (poll : GasPoll)
    (fromBlock : UInt32)
    (db : AbacusDB) :
    ∃ count,
      Machine.run (GasIndexer.step configFrom chunkSize) ⟨db, .head fromBlock⟩
          (.poll poll :: List.replicate count .operation) =
        { db := (gasIteration chunkSize poll fromBlock).final db
          phase := .ofResult
            ((gasIteration chunkSize poll fromBlock).result db) } := by
  have answered : Machine.run (GasIndexer.step configFrom chunkSize)
      ⟨db, .head fromBlock⟩ [.poll poll] =
        ⟨db, (GasPhase.head fromBlock).poll chunkSize poll⟩ := rfl
  unfold gasIteration
  cases fetches : fetchGasWindow chunkSize poll fromBlock with
  | error fault =>
      refine ⟨0, ?_⟩
      rw [List.replicate_zero, answered, GasPhase.poll, fetches]
      rfl
  | ok outcome =>
      cases outcome with
      | none =>
          refine ⟨0, ?_⟩
          rw [List.replicate_zero, answered, GasPhase.poll, fetches]
          rfl
      | some window =>
          refine ⟨window.gasPayments.length + 1, ?_⟩
          have operations := run_operations_processing configFrom chunkSize
            window window.gasPayments db
          rw [Machine.run_cons]
          simp only [GasIndexer.step, GasPhase.poll, fetches]
          exact operations

end Iterations

end Abacus
