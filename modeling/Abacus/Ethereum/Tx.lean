import Abacus.Core.Primitives

/-!
# Transactions on an Ethereum chain

How the outcome of a submitted transaction is reported. A transaction that was
mined has a receipt, whether or not it was reverted; the outcome tells the two
apart in its `executed` field.
-/

namespace Abacus

/-- The part of a transaction receipt that is read. -/
structure TransactionReceipt where
  transactionHash : H256
  status : Option UInt64
  deriving DecidableEq

/-- The result of a transaction. -/
structure TxOutcome where
  txid : H256
  executed : Bool
  deriving DecidableEq

/-- The outcome of a receipt; a receipt without a status is unwrapped. -/
def TxOutcome.ofReceipt (receipt : TransactionReceipt) :
    Except (Fault ε) TxOutcome :=
  match receipt.status with
  | some status =>
      .ok {
        txid := receipt.transactionHash
        executed := status.toUInt32 == 1 }
  | none => .error (.panic .missingReceiptStatus)

/-- What waiting for a dispatched transaction ends with. -/
inductive Confirmation
  | receipt (receipt : TransactionReceipt)
  | dropped
  | failed (error : ChainCommunicationError)
  | timedOut
  deriving DecidableEq

/-- Dispatch a transaction and wait for it to be mined. -/
def reportTx (dispatched : Except ChainCommunicationError H256)
    (confirmation : Confirmation) :
    Except ChainCommunicationError TransactionReceipt := do
  let txHash ← dispatched
  match confirmation with
  | .receipt receipt => return receipt
  | .dropped => throw (.droppedError txHash)
  | .failed error => throw error
  | .timedOut => throw .transactionTimeout

/-- Submit a message to the validator manager: estimate the gas, dispatch the
transaction and convert its receipt. -/
def EthereumInboxValidatorManager.process
    (estimatedGas : Except ChainCommunicationError U256)
    (dispatched : Except ChainCommunicationError H256)
    (confirmation : Confirmation) :
    Except (Fault ChainCommunicationError) TxOutcome := do
  let _ ← estimatedGas.mapError Fault.error
  let receipt ← (reportTx dispatched confirmation).mapError Fault.error
  TxOutcome.ofReceipt receipt

/-- A submission returns an outcome exactly when the transaction was mined, and
the outcome is executed exactly when the status of its receipt is one. -/
theorem EthereumInboxValidatorManager.process_eq_ok_iff
    {estimatedGas : Except ChainCommunicationError U256}
    {dispatched : Except ChainCommunicationError H256}
    {confirmation : Confirmation}
    {outcome : TxOutcome} :
    process estimatedGas dispatched confirmation = .ok outcome ↔
      (∃ gas, estimatedGas = .ok gas) ∧ (∃ txHash, dispatched = .ok txHash) ∧
        ∃ receipt status, confirmation = .receipt receipt ∧
          receipt.status = some status ∧
          outcome.txid = receipt.transactionHash ∧
          outcome.executed = (status.toUInt32 == 1) := by
  constructor
  · intro processed
    obtain ⟨gas, estimated, dispatch⟩ := exists_of_bind_eq_ok processed
    obtain ⟨mined, reported, converted⟩ := exists_of_bind_eq_ok dispatch
    clear processed dispatch
    cases estimatedGas with
    | error error => cases estimated
    | ok estimate =>
        cases dispatched with
        | error error => cases reported
        | ok txHash =>
            cases confirmation with
            | dropped => cases reported
            | failed error => cases reported
            | timedOut => cases reported
            | receipt receipt =>
                cases reported
                refine ⟨⟨estimate, rfl⟩, ⟨txHash, rfl⟩, ?_⟩
                unfold TxOutcome.ofReceipt at converted
                split at converted
                · rename_i status known
                  cases converted
                  exact ⟨_, status, rfl, known, rfl, rfl⟩
                · cases converted
  · rintro ⟨⟨gas, rfl⟩, ⟨txHash, rfl⟩, receipt, status, rfl, known, txid,
      executed⟩
    have converted : TxOutcome.ofReceipt receipt =
        (.ok outcome : Except (Fault ChainCommunicationError) TxOutcome) := by
      cases outcome
      simp only at txid executed
      simp only [TxOutcome.ofReceipt, known, txid, executed]
    exact converted

end Abacus
