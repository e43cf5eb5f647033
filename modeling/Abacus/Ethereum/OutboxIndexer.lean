import Abacus.Base.OutboxSyncCompleteness
import Abacus.Ethereum.GasPaymentIndexer

/-!
# Messages from event logs

The indexer of the outbox asks its provider for the number of the last block,
from which it takes off the blocks that are not final yet, and for the events
of a window, which it sorts by leaf index and converts.
-/

namespace Abacus

/-- What the numeric library documents about `U64::as_u32`. -/
structure ConvertsU64 (asU32 : UInt64 → Except (Fault Report) UInt32) :
    Prop where
  fits : ∀ value : UInt64, value.toNat < 2 ^ 32 →
    asU32 value = .ok (UInt32.ofNat value.toNat)
  panics : ∀ value : UInt64, 2 ^ 32 ≤ value.toNat →
    ∃ reason, asU32 value = .error (.panic reason)

/-- The event of a dispatched message. -/
structure DispatchFilter where
  leafIndex : U256
  message : List UInt8
  deriving DecidableEq

/-- The indexer: the number of blocks until a block is final, the number of the
last block, and the query for the events in a range of blocks. -/
structure EthereumOutboxIndexer where
  finalityBlocks : UInt32
  getBlockNumber : Except Report UInt64
  query : UInt32 → UInt32 → Except Report (List DispatchFilter)

namespace EthereumOutboxIndexer

/-- The number of the last final block; while the chain is short this is the
first block. -/
def getFinalizedBlockNumber
    (blockAsU32 : UInt64 → Except (Fault Report) UInt32)
    (indexer : EthereumOutboxIndexer) : Except (Fault Report) UInt32 := do
  let blockNumber ← indexer.getBlockNumber.mapError Fault.error
  let number ← blockAsU32 blockNumber
  return if indexer.finalityBlocks ≤ number then
    number - indexer.finalityBlocks
  else 0

/-- The conversion of an event. -/
def convert (asU32 : U256 → Except (Fault Report) UInt32)
    (event : DispatchFilter) : Except (Fault Report) RawCommittedMessage := do
  let leafIndex ← asU32 event.leafIndex
  return { leafIndex := leafIndex, message := event.message }

/-- The messages of a range of blocks, sorted by their leaf index. -/
def fetchSortedMessages (asU32 : U256 → Except (Fault Report) UInt32)
    (indexer : EthereumOutboxIndexer) (fromBlock toBlock : UInt32) :
    Except (Fault Report) (List RawCommittedMessage) := do
  let events ← (indexer.query fromBlock toBlock).mapError Fault.error
  (events.mergeSort fun first second =>
    decide (first.leafIndex ≤ second.leafIndex)).mapM (convert asU32)

/-- The answers of an indexer that does not panic. -/
structure Answers (blockAsU32 : UInt64 → Except (Fault Report) UInt32)
    (asU32 : U256 → Except (Fault Report) UInt32)
    (indexer : EthereumOutboxIndexer) (poll : Poll) : Prop where
  finalizedBlockNumber : indexer.getFinalizedBlockNumber blockAsU32 =
    poll.finalizedBlockNumber.mapError Fault.error
  fetchSortedMessages : ∀ fromBlock toBlock,
    indexer.fetchSortedMessages asU32 fromBlock toBlock =
      (poll.fetchSortedMessages fromBlock toBlock).mapError Fault.error

/-! ## Sorting -/

/-- The event of a message. -/
def eventOf (message : RawCommittedMessage) : DispatchFilter where
  leafIndex := BitVec.ofNat 256 message.leafIndex.toNat
  message := message.message

theorem toNat_leafIndex_eventOf (message : RawCommittedMessage) :
    (eventOf message).leafIndex.toNat = message.leafIndex.toNat := by
  have bound := message.leafIndex.toNat_lt
  rw [eventOf, BitVec.toNat_ofNat, Nat.mod_eq_of_lt]
  omega

/-- The message of an event. -/
def messageOf (event : DispatchFilter) : RawCommittedMessage where
  leafIndex := UInt32.ofNat event.leafIndex.toNat
  message := event.message

@[simp] theorem messageOf_eventOf (message : RawCommittedMessage) :
    messageOf (eventOf message) = message := by
  simp only [messageOf, toNat_leafIndex_eventOf, UInt32.ofNat_toNat]
  rfl

/-- The event of a message is converted to the message. -/
theorem convert_eventOf
    {asU32 : U256 → Except (Fault Report) UInt32}
    (converts : ConvertsU256 asU32)
    (message : RawCommittedMessage) :
    convert asU32 (eventOf message) = .ok message := by
  have same := toNat_leafIndex_eventOf message
  have fits := converts.fits (eventOf message).leafIndex (by
    rw [same]
    exact message.leafIndex.toNat_lt)
  rw [convert, fits, same, UInt32.ofNat_toNat]
  rfl

/-- In whatever order the events of messages with ascending indices are
returned, sorting restores the order of the messages. -/
theorem mergeSort_events
    {messages : List RawCommittedMessage}
    (ascending : messages.Pairwise fun first second =>
      first.leafIndex < second.leafIndex)
    {events : List DispatchFilter}
    (complete : events.Perm (messages.map eventOf)) :
    events.mergeSort (fun first second =>
      decide (first.leafIndex ≤ second.leafIndex)) =
        messages.map eventOf := by
  have sorted : (events.mergeSort fun first second =>
      decide (first.leafIndex ≤ second.leafIndex)).Pairwise
        fun first second => decide (first.leafIndex ≤ second.leafIndex) =
          true := by
    apply List.pairwise_mergeSort
    · intro left middle right first second
      simp only [decide_eq_true_eq] at first second ⊢
      exact BitVec.le_trans first second
    · intro left right
      simpa using BitVec.le_total left.leafIndex right.leafIndex
  have whole := (List.mergeSort_perm events fun first second =>
    decide (first.leafIndex ≤ second.leafIndex)).trans complete
  have original : (messages.map eventOf).Pairwise fun first second =>
      first.leafIndex < second.leafIndex := by
    rw [List.pairwise_map]
    refine ascending.imp fun {first second} less => ?_
    rw [BitVec.lt_def, toNat_leafIndex_eventOf, toNat_leafIndex_eventOf]
    exact UInt32.lt_iff_toNat_lt.mp less
  -- two events with the same index are the same event of the messages
  refine List.Perm.eq_of_pairwise ?_ sorted
    (original.imp fun less => decide_eq_true (BitVec.le_of_lt less)) whole
  intro one other oneMember otherMember below above
  have distinct : ((messages.map eventOf).map
      DispatchFilter.leafIndex).Nodup := by
    rw [List.Nodup, List.pairwise_map]
    exact original.imp fun less => BitVec.ne_of_lt less
  exact List.inj_on_of_nodup_map distinct (whole.subset oneMember) otherMember
    (BitVec.le_antisymm (of_decide_eq_true below) (of_decide_eq_true above))

/-- The messages of a complete response, in whatever order it lists their
events. -/
theorem fetchSortedMessages_eq
    {asU32 : U256 → Except (Fault Report) UInt32}
    (converts : ConvertsU256 asU32)
    {indexer : EthereumOutboxIndexer}
    {fromBlock toBlock : UInt32}
    {messages : List RawCommittedMessage}
    (ascending : messages.Pairwise fun first second =>
      first.leafIndex < second.leafIndex)
    {events : List DispatchFilter}
    (complete : events.Perm (messages.map eventOf))
    (returned : indexer.query fromBlock toBlock = .ok events) :
    indexer.fetchSortedMessages asU32 fromBlock toBlock = .ok messages := by
  have each : ∀ event ∈ messages.map eventOf,
      convert asU32 event = .ok (messageOf event) := by
    intro event member
    obtain ⟨message, -, rfl⟩ := List.mem_map.mp member
    rw [convert_eventOf converts, messageOf_eventOf]
  have restored : (messages.map eventOf).map messageOf = messages := by
    simp [Function.comp_def]
  rw [fetchSortedMessages, returned]
  change ((events.mergeSort _).mapM _ : Except (Fault Report) _) = _
  rw [mergeSort_events ascending complete, mapM_eq_ok each, restored]

end EthereumOutboxIndexer

end Abacus
