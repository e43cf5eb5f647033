import Abacus.Base.GasPaymentSync
import Abacus.Base.OutboxSync
import Abacus.Library.Within

/-!
# The records of the sync loops

The outbox loop reads and puts message records only, and the gas loop reads and
puts gas records only. No record is of both kinds.
-/

namespace Abacus

open Journal (Program)

/-- The records of the messages and of the progress of the outbox loop. -/
def Record.OfMessages : Record → Prop
  | .leaf _ => True
  | .message _ => True
  | .latestLeafIndex => True
  | .latestLeafIndexForDestination _ => True
  | .latestValidMessageRangeStartBlock => True
  | _ => False

/-- The records of the gas loop. -/
def Record.OfGas : Record → Prop
  | .gasPaymentForLeaf _ => True
  | .gasPaymentMetaProcessed _ => True
  | .latestIndexedGasPaymentBlock => True
  | _ => False

/-- No record is a gas record and a message record. -/
theorem Record.OfGas.not_ofMessages
    {key : Record}
    (gas : key.OfGas) :
    ¬ key.OfMessages := by
  cases key <;> first | exact gas.elim | exact fun messages => messages.elim

/-! ## The outbox loop -/

section Outbox

theorem within_updateLatestLeafIndex (leafIndex : UInt32) :
    (AbacusDB.updateLatestLeafIndex leafIndex).Within Record.OfMessages := by
  refine Program.Within.bind (Program.Within.get trivial) ?_
  rintro (_ | idx)
  · exact Program.Within.put trivial _
  · dsimp only
    split
    · exact Program.Within.pure ()
    · exact Program.Within.put trivial _

theorem within_updateLatestLeafIndexForDestination
    (destination leafIndex : UInt32) :
    (AbacusDB.updateLatestLeafIndexForDestination destination
      leafIndex).Within Record.OfMessages := by
  refine Program.Within.bind (Program.Within.get trivial) ?_
  rintro (_ | idx)
  · exact Program.Within.put trivial _
  · dsimp only
    split
    · exact Program.Within.pure ()
    · exact Program.Within.put trivial _

variable [Crypto]

theorem within_storeRawCommittedMessage (message : RawCommittedMessage) :
    (AbacusDB.storeRawCommittedMessage message).Within Record.OfMessages := by
  refine Program.Within.bind (Program.Within.lift _) fun parsed => ?_
  refine Program.Within.bind ?_ fun _ => Program.Within.put trivial _
  refine Program.Within.bind (Program.Within.put trivial _) fun _ => ?_
  exact Program.Within.bind (within_updateLatestLeafIndex _) fun _ =>
    within_updateLatestLeafIndexForDestination _ _

theorem within_storeBatchMessage (message : RawCommittedMessage) :
    (AbacusDB.storeBatchMessage message).Within Record.OfMessages := by
  refine Program.Within.bind ?_ fun _ => Program.Within.bind
    (Program.Within.lift _) fun _ => Program.Within.pure _
  refine Program.Within.bind (Program.Within.get trivial) ?_
  rintro (_ | idx)
  · exact within_storeRawCommittedMessage message
  · exact Program.Within.bind (Program.Within.lift _) fun _ =>
      within_storeRawCommittedMessage message

theorem within_storeMessages (messages : List RawCommittedMessage) :
    (AbacusDB.storeMessages messages).Within Record.OfMessages := by
  unfold AbacusDB.storeMessages
  generalize (0 : UInt32) = first
  induction messages generalizing first with
  | nil => exact Program.Within.pure first
  | cons message rest inductionHypothesis =>
      exact Program.Within.bind (within_storeBatchMessage message)
        inductionHypothesis

theorem within_processWindow (fetched : Fetched) (state : SyncState) :
    (processWindow fetched state).Within Record.OfMessages := by
  refine Program.Within.bind (Program.Within.get trivial) fun latest => ?_
  dsimp only
  split
  · exact Program.Within.bind (Program.Within.lift _) fun _ =>
      Program.Within.pure _
  · refine Program.Within.bind (Program.Within.lift _) fun validity => ?_
    cases validity with
    | empty => exact Program.Within.lift _
    | invalidContinuation => exact Program.Within.pure _
    | containsGaps => exact Program.Within.pure _
    | valid =>
        refine Program.Within.bind (within_storeMessages _) fun _ => ?_
        refine Program.Within.bind (Program.Within.put trivial _) fun _ => ?_
        exact Program.Within.bind (Program.Within.lift _) fun _ =>
          Program.Within.pure _

/-- An iteration of the outbox loop stays within the message records. -/
theorem within_syncIteration
    (chunkSize : UInt32)
    (poll : Poll)
    (state : SyncState) :
    (syncIteration chunkSize poll state).Within Record.OfMessages := by
  refine Program.Within.bind (Program.Within.lift _) ?_
  rintro (_ | fetched)
  · exact Program.Within.pure state
  · exact within_processWindow fetched state

end Outbox

/-! ## The gas loop -/

theorem within_processGasPayment (payment : InterchainGasPaymentWithMeta) :
    (AbacusDB.processGasPayment payment).Within Record.OfGas := by
  refine Program.Within.bind (Program.Within.bind (Program.Within.get trivial)
    fun _ => Program.Within.pure _) ?_
  rintro (_ | _)
  · refine Program.Within.bind (Program.Within.put trivial _) fun _ => ?_
    refine Program.Within.bind (Program.Within.bind
      (Program.Within.get trivial) fun _ => Program.Within.pure _)
      fun existing => ?_
    exact Program.Within.bind (Program.Within.lift _) fun total =>
      Program.Within.put trivial _
  · exact Program.Within.pure ()

theorem within_processGasPayments
    (payments : List InterchainGasPaymentWithMeta) :
    (AbacusDB.processGasPayments payments).Within Record.OfGas := by
  induction payments with
  | nil => exact Program.Within.pure ()
  | cons payment payments inductionHypothesis =>
      exact Program.Within.bind (within_processGasPayment payment) fun _ =>
        inductionHypothesis

/-- An iteration of the gas loop stays within the gas records. -/
theorem within_gasIteration
    (chunkSize : UInt32)
    (poll : GasPoll)
    (fromBlock : UInt32) :
    (gasIteration chunkSize poll fromBlock).Within Record.OfGas := by
  refine Program.Within.bind (Program.Within.lift _) ?_
  rintro (_ | window)
  · exact Program.Within.pure fromBlock
  · refine Program.Within.bind (within_processGasPayments _) fun _ => ?_
    exact Program.Within.bind (Program.Within.put trivial _) fun _ =>
      Program.Within.lift _

end Abacus
