import Abacus.Base.GasPaymentSync
import Abacus.Base.OutboxSyncCorrectness
import Abacus.Library.Writes

/-!
# What the sync loops put

The outbox loop puts dispatched messages and its own progress, and the gas
loop puts gas records. Neither puts a record of the other, or the processing
status of a leaf.
-/

namespace Abacus

open Journal (Program)

/-- The puts of the outbox loop: the leaf of a dispatched message at its index,
a dispatched message at its leaf, and the progress of the loop. -/
inductive OutboxPut [Crypto] (chain : OutboxChain) : DbPut → Prop
  | leaf {message : RawCommittedMessage}
      (sent : chain.messageAt message.leafIndex = some message) :
      OutboxPut chain ⟨.leaf message.leafIndex, message.leaf⟩
  | message {message : RawCommittedMessage}
      (sent : chain.messageAt message.leafIndex = some message) :
      OutboxPut chain ⟨.message message.leaf, message⟩
  | latest (leafIndex : UInt32) :
      OutboxPut chain ⟨.latestLeafIndex, leafIndex⟩
  | latestForDestination (destination leafIndex : UInt32) :
      OutboxPut chain ⟨.latestLeafIndexForDestination destination, leafIndex⟩
  | rangeStart (block : UInt32) :
      OutboxPut chain ⟨.latestValidMessageRangeStartBlock, block⟩

/-- The puts of the gas loop. -/
inductive GasPut : DbPut → Prop
  | processed (paymentMeta : InterchainGasPaymentMeta) :
      GasPut ⟨.gasPaymentMetaProcessed paymentMeta, true⟩
  | total (leafIndex : UInt32) (amount : U256) :
      GasPut ⟨.gasPaymentForLeaf leafIndex, amount⟩
  | latestBlock (block : UInt32) :
      GasPut ⟨.latestIndexedGasPaymentBlock, block⟩

/-! ## The outbox loop -/

section Outbox

variable [Crypto] {chain : OutboxChain}

theorem writes_updateLatestLeafIndex (leafIndex : UInt32) :
    (AbacusDB.updateLatestLeafIndex leafIndex).Writes (OutboxPut chain) := by
  refine Program.Writes.bind (Program.Writes.get _) ?_
  rintro (_ | idx)
  · exact Program.Writes.put (.latest leafIndex)
  · dsimp only
    split
    · exact Program.Writes.pure ()
    · exact Program.Writes.put (.latest leafIndex)

theorem writes_updateLatestLeafIndexForDestination
    (destination leafIndex : UInt32) :
    (AbacusDB.updateLatestLeafIndexForDestination destination
      leafIndex).Writes (OutboxPut chain) := by
  refine Program.Writes.bind (Program.Writes.get _) ?_
  rintro (_ | idx)
  · exact Program.Writes.put (.latestForDestination destination leafIndex)
  · dsimp only
    split
    · exact Program.Writes.pure ()
    · exact Program.Writes.put (.latestForDestination destination leafIndex)

section Message

variable {message : RawCommittedMessage}
variable (sent : chain.messageAt message.leafIndex = some message)
include sent

theorem writes_storeRawCommittedMessage :
    (AbacusDB.storeRawCommittedMessage message).Writes (OutboxPut chain) := by
  refine Program.Writes.bind (Program.Writes.lift _) fun parsed => ?_
  refine Program.Writes.bind ?_ fun _ =>
    Program.Writes.put (.message sent)
  refine Program.Writes.bind (Program.Writes.put (.leaf sent)) fun _ => ?_
  exact Program.Writes.bind (writes_updateLatestLeafIndex _) fun _ =>
    writes_updateLatestLeafIndexForDestination _ _

theorem writes_storeBatchMessage :
    (AbacusDB.storeBatchMessage message).Writes (OutboxPut chain) := by
  refine Program.Writes.bind ?_ fun _ => Program.Writes.bind
    (Program.Writes.lift _) fun _ => Program.Writes.pure _
  refine Program.Writes.bind (Program.Writes.get _) ?_
  rintro (_ | idx)
  · exact writes_storeRawCommittedMessage sent
  · exact Program.Writes.bind (Program.Writes.lift _) fun _ =>
      writes_storeRawCommittedMessage sent

end Message

/-- Storing dispatched messages puts nothing else. -/
theorem writes_storeMessages
    {messages : List RawCommittedMessage}
    (sent : ∀ message ∈ messages,
      chain.messageAt message.leafIndex = some message) :
    (AbacusDB.storeMessages messages).Writes (OutboxPut chain) := by
  unfold AbacusDB.storeMessages
  generalize (0 : UInt32) = first
  induction messages generalizing first with
  | nil => exact Program.Writes.pure first
  | cons message rest inductionHypothesis =>
      refine Program.Writes.bind
        (writes_storeBatchMessage (sent message List.mem_cons_self)) ?_
      exact inductionHypothesis fun later member =>
        sent later (List.mem_cons_of_mem _ member)

theorem writes_processWindow
    {fetched : Fetched}
    (sent : ∀ message ∈ fetched.sortedMessages,
      chain.messageAt message.leafIndex = some message)
    (state : SyncState) :
    (processWindow fetched state).Writes (OutboxPut chain) := by
  refine Program.Writes.bind (Program.Writes.get _) fun latest => ?_
  dsimp only
  split
  · exact Program.Writes.bind (Program.Writes.lift _) fun _ =>
      Program.Writes.pure _
  · refine Program.Writes.bind (Program.Writes.lift _) fun validity => ?_
    cases validity with
    | empty => exact Program.Writes.lift _
    | invalidContinuation => exact Program.Writes.pure _
    | containsGaps => exact Program.Writes.pure _
    | valid =>
        refine Program.Writes.bind (writes_storeMessages fun message member =>
          sent message (mem_of_mem_filterStored member)) fun _ => ?_
        refine Program.Writes.bind (Program.Writes.put (.rangeStart _))
          fun _ => ?_
        exact Program.Writes.bind (Program.Writes.lift _) fun _ =>
          Program.Writes.pure _

/-- Against a faithful provider, an iteration of the outbox loop puts
dispatched messages and its progress. -/
theorem writes_syncIteration
    {poll : Poll}
    (faithful : chain.Faithful poll)
    (chunkSize : UInt32)
    (state : SyncState) :
    (syncIteration chunkSize poll state).Writes (OutboxPut chain) := by
  intro db put member
  unfold syncIteration at member
  cases fetches : fetchWindow chunkSize poll state with
  | error fault =>
      rw [fetches] at member
      cases member
  | ok window =>
      rw [fetches] at member
      cases window with
      | none => cases member
      | some fetched =>
          exact writes_processWindow
            (OutboxChain.messageAt_of_fetchWindow faithful fetches) state db
            put member

end Outbox

/-! ## The gas loop -/

theorem writes_processGasPayment (payment : InterchainGasPaymentWithMeta) :
    (AbacusDB.processGasPayment payment).Writes GasPut := by
  refine Program.Writes.bind (Program.Writes.bind (Program.Writes.get _)
    fun _ => Program.Writes.pure _) ?_
  rintro (_ | _)
  · refine Program.Writes.bind (Program.Writes.put (.processed _))
      fun _ => ?_
    refine Program.Writes.bind (Program.Writes.bind (Program.Writes.get _)
      fun _ => Program.Writes.pure _) fun existing => ?_
    exact Program.Writes.bind (Program.Writes.lift _) fun total =>
      Program.Writes.put (.total _ total)
  · exact Program.Writes.pure ()

theorem writes_processGasPayments
    (payments : List InterchainGasPaymentWithMeta) :
    (AbacusDB.processGasPayments payments).Writes GasPut := by
  induction payments with
  | nil => exact Program.Writes.pure ()
  | cons payment payments inductionHypothesis =>
      exact Program.Writes.bind (writes_processGasPayment payment) fun _ =>
        inductionHypothesis

/-- An iteration of the gas loop puts gas records only. -/
theorem writes_gasIteration
    (chunkSize : UInt32)
    (poll : GasPoll)
    (fromBlock : UInt32) :
    (gasIteration chunkSize poll fromBlock).Writes GasPut := by
  refine Program.Writes.bind (Program.Writes.lift _) ?_
  rintro (_ | window)
  · exact Program.Writes.pure fromBlock
  · refine Program.Writes.bind (writes_processGasPayments _) fun _ => ?_
    exact Program.Writes.bind (Program.Writes.put (.latestBlock _)) fun _ =>
      Program.Writes.lift _

end Abacus
