import Abacus.Db.AbacusDB
import Abacus.Library.Machine

/-!
# The typed maps of an outbox

What a handle is for: one map for each kind of record, running maxima for the
latest indices, and running sums for the gas payments. Each entity has maps of
its own, whatever handles and operations on other entities there are.
-/

namespace Abacus

/-- The operations of a handle that write. The index of a proof is a 64-bit
number. -/
inductive DbOperation
  | storeRawCommittedMessage (message : RawCommittedMessage)
  | updateLatestLeafIndex (leafIndex : UInt32)
  | updateLatestLeafIndexForDestination (destination leafIndex : UInt32)
  | storeProof (leafIndex : UInt32) (proof : Proof H256)
      (fits : proof.index < 2 ^ 64)
  | markLeafAsProcessed (leafIndex : UInt32)
  | processGasPayment (payment : InterchainGasPaymentWithMeta)
  | storeLatestValidMessageRangeStartBlock (blockNum : UInt32)
  | storeLatestIndexedGasPaymentBlock (latestBlock : UInt32)

/-- What an operation returns: all but the storing of a message that cannot be
decoded succeed. -/
def DbOperation.outcome : DbOperation → Except (Fault Report) Unit
  | .storeRawCommittedMessage message =>
      ((AbacusMessage.parse message.message).mapError Fault.error).map
        fun _ => ()
  | _ => .ok ()

/-- An operation of one of several handles. -/
structure DbEvent (ι : Type) where
  handle : ι
  operation : DbOperation

/-- The data of one outbox. -/
structure TypedMaps where
  leaf : UInt32 → Option H256
  message : H256 → Option RawCommittedMessage
  messageAt : UInt32 → Option RawCommittedMessage
  proof : UInt32 → Option (Proof H256)
  latestLeafIndex : Option UInt32
  latestLeafIndexForDestination : UInt32 → Option UInt32
  leafProcessed : UInt32 → Bool
  gasPaymentProcessed : InterchainGasPaymentMeta → Bool
  gasPaymentForLeaf : UInt32 → Nat
  latestValidMessageRangeStartBlock : Option UInt32
  latestIndexedGasPaymentBlock : Option UInt32

namespace TypedMaps

/-- Maps of an outbox of which nothing is known. -/
def empty : TypedMaps where
  leaf _ := none
  message _ := none
  messageAt _ := none
  proof _ := none
  latestLeafIndex := none
  latestLeafIndexForDestination _ := none
  leafProcessed _ := false
  gasPaymentProcessed _ := false
  gasPaymentForLeaf _ := 0
  latestValidMessageRangeStartBlock := none
  latestIndexedGasPaymentBlock := none

/-- A running maximum. -/
def raised (latest : Option UInt32) (leafIndex : UInt32) : Option UInt32 :=
  some (latest.elim leafIndex (max leafIndex))

/-- Raise the latest index for a destination. -/
def raiseForDestination (maps : TypedMaps) (destination leafIndex : UInt32) :
    UInt32 → Option UInt32 :=
  Function.update maps.latestLeafIndexForDestination destination
    (raised (maps.latestLeafIndexForDestination destination) leafIndex)

/-- Count a payment, unless it has been counted. -/
def count (maps : TypedMaps) (payment : InterchainGasPaymentWithMeta) :
    TypedMaps :=
  if maps.gasPaymentProcessed payment.paymentMeta then maps
  else { maps with
    gasPaymentProcessed :=
      Function.update maps.gasPaymentProcessed payment.paymentMeta true
    gasPaymentForLeaf :=
      Function.update maps.gasPaymentForLeaf payment.payment.leafIndex
        (maps.gasPaymentForLeaf payment.payment.leafIndex +
          payment.payment.amount.toNat) }

section Operations

variable [Crypto]

/-- The maps with a message in them. -/
def insert (maps : TypedMaps) (message : RawCommittedMessage)
    (destination : UInt32) : TypedMaps :=
  { maps with
    leaf := Function.update maps.leaf message.leafIndex (some message.leaf)
    message := Function.update maps.message message.leaf (some message)
    messageAt :=
      Function.update maps.messageAt message.leafIndex (some message)
    latestLeafIndex := raised maps.latestLeafIndex message.leafIndex
    latestLeafIndexForDestination :=
      maps.raiseForDestination destination message.leafIndex }

/-- What an operation does to the maps of its entity. -/
def apply (maps : TypedMaps) : DbOperation → TypedMaps
  | .storeRawCommittedMessage message =>
      match AbacusMessage.parse message.message with
      | .ok parsed => maps.insert message parsed.destination
      | .error _ => maps
  | .updateLatestLeafIndex leafIndex =>
      { maps with latestLeafIndex := raised maps.latestLeafIndex leafIndex }
  | .updateLatestLeafIndexForDestination destination leafIndex =>
      { maps with
        latestLeafIndexForDestination :=
          maps.raiseForDestination destination leafIndex }
  | .storeProof leafIndex proof _ =>
      { maps with proof := Function.update maps.proof leafIndex (some proof) }
  | .markLeafAsProcessed leafIndex =>
      { maps with
        leafProcessed := Function.update maps.leafProcessed leafIndex true }
  | .processGasPayment payment => maps.count payment
  | .storeLatestValidMessageRangeStartBlock blockNum =>
      { maps with latestValidMessageRangeStartBlock := some blockNum }
  | .storeLatestIndexedGasPaymentBlock latestBlock =>
      { maps with latestIndexedGasPaymentBlock := some latestBlock }

/-! ## Messages are found by their index -/

/-- The maps hold some messages: each is found under its own leaf, and the one
at an index is found through the leaf there. -/
structure Holds (stored : RawCommittedMessage → Prop) (maps : TypedMaps) :
    Prop where
  leaf : ∀ leafIndex, maps.leaf leafIndex =
    (maps.messageAt leafIndex).map RawCommittedMessage.leaf
  found : ∀ leafIndex message, maps.messageAt leafIndex = some message →
    maps.message message.leaf = some message
  stored : ∀ leaf message, maps.message leaf = some message →
    message.leaf = leaf ∧ stored message

theorem holds_empty (stored : RawCommittedMessage → Prop) :
    Holds stored empty where
  leaf _ := rfl
  found leafIndex message contrary := by cases contrary
  stored leaf message contrary := by cases contrary

variable {stored : RawCommittedMessage → Prop} {maps : TypedMaps}

/-- The message at an index. -/
theorem Holds.message_bind_leaf
    (holds : Holds stored maps)
    (leafIndex : UInt32) :
    (maps.leaf leafIndex).bind maps.message = maps.messageAt leafIndex := by
  rw [holds.leaf]
  cases at_index : maps.messageAt leafIndex with
  | none => rfl
  | some message => exact holds.found leafIndex message at_index

/-- A message whose leaf collides with no other one can be inserted. -/
theorem Holds.insert
    (holds : Holds stored maps)
    {message : RawCommittedMessage}
    (member : stored message)
    (collisionFree : ∀ other, stored other → other.leaf = message.leaf →
      other = message)
    (destination : UInt32) :
    Holds stored (maps.insert message destination) where
  leaf leafIndex := by
    simp only [TypedMaps.insert, Function.update_apply]
    split
    · rfl
    · exact holds.leaf leafIndex
  found leafIndex other at_index := by
    simp only [TypedMaps.insert, Function.update_apply] at at_index ⊢
    split at at_index
    · obtain rfl := Option.some.inj at_index
      rw [if_pos rfl]
    · have before := holds.found leafIndex other at_index
      split
      · rename_i same
        rw [collisionFree other (holds.stored _ other before).2 same]
      · exact before
  stored leaf other found := by
    simp only [TypedMaps.insert, Function.update_apply] at found
    split at found
    · rename_i same
      obtain rfl := Option.some.inj found
      exact ⟨same.symm, member⟩
    · exact holds.stored leaf other found

/-- Every operation keeps the messages found. -/
theorem Holds.apply
    (holds : Holds stored maps)
    (operation : DbOperation)
    (member : ∀ message,
      operation = .storeRawCommittedMessage message → stored message)
    (collisionFree : ∀ first second, stored first → stored second →
      first.leaf = second.leaf → first = second) :
    Holds stored (maps.apply operation) := by
  cases operation with
  | storeRawCommittedMessage message =>
      have inside := member message rfl
      simp only [TypedMaps.apply]
      split
      · exact holds.insert inside
          (fun other outside => collisionFree other message outside inside) _
      · exact holds
  | processGasPayment payment =>
      simp only [TypedMaps.apply, count]
      split
      · exact holds
      · exact ⟨holds.leaf, holds.found, holds.stored⟩
  | _ => exact ⟨holds.leaf, holds.found, holds.stored⟩

/-- Totals only grow. -/
theorem gasPaymentForLeaf_le_apply
    (maps : TypedMaps)
    (operation : DbOperation)
    (leafIndex : UInt32) :
    maps.gasPaymentForLeaf leafIndex ≤
      (maps.apply operation).gasPaymentForLeaf leafIndex := by
  cases operation with
  | storeRawCommittedMessage message =>
      simp only [TypedMaps.apply]
      split
      · exact le_rfl
      · exact le_rfl
  | processGasPayment payment =>
      simp only [TypedMaps.apply, count]
      split
      · exact le_rfl
      · simp only [Function.update_apply]
        split
        · rename_i same
          rw [same]
          exact Nat.le_add_right _ _
        · exact le_rfl
  | _ => exact le_rfl

end Operations

/-! ## Many handles -/

section Handles

variable {ι E : Type}

/-- An event stores a message. -/
def Stored (events : List (DbEvent ι)) (message : RawCommittedMessage) :
    Prop :=
  ∃ event ∈ events, event.operation = .storeRawCommittedMessage message

variable [Crypto] [DecidableEq E] (entity : ι → E)

/-- An event changes the maps of the entity of its handle, and no others. -/
def step (maps : E → TypedMaps) (event : DbEvent ι) : E → TypedMaps :=
  Function.update maps (entity event.handle)
    ((maps (entity event.handle)).apply event.operation)

/-- The maps of every entity after some events. -/
def after (events : List (DbEvent ι)) : E → TypedMaps :=
  Machine.run (step entity) (fun _ => empty) events

/-- The messages that events store are found, if no leaves collide. -/
theorem holds_after
    {events : List (DbEvent ι)}
    (collisionFree : ∀ first second, Stored events first →
      Stored events second → first.leaf = second.leaf → first = second)
    (name : E) :
    Holds (Stored events) (after entity events name) := by
  have kept : ∀ maps event, event ∈ events →
      (∀ name, Holds (Stored events) (maps name)) →
        ∀ name, Holds (Stored events) (step entity maps event name) := by
    intro maps event member holds name
    rw [step, Function.update_apply]
    split
    · exact (holds _).apply event.operation
        (fun message stores => ⟨event, member, stores⟩) collisionFree
    · exact holds name
  exact Machine.invariant_run (step entity)
    (fun maps => ∀ name, Holds (Stored events) (maps name)) kept
    (fun _ => holds_empty _)
    (Machine.admissibleRun_of_forall _ _ fun event member => member) name

/-- The totals before an event are at most the final ones. -/
theorem gasPaymentForLeaf_le_after
    (before after : List (DbEvent ι))
    (name : E)
    (leafIndex : UInt32) :
    (TypedMaps.after entity before name).gasPaymentForLeaf leafIndex ≤
      (TypedMaps.after entity (before ++ after) name).gasPaymentForLeaf
        leafIndex := by
  unfold TypedMaps.after
  rw [Machine.run_append]
  have grows : ∀ maps event, (maps name).gasPaymentForLeaf leafIndex ≤
      (step entity maps event name).gasPaymentForLeaf leafIndex := by
    intro maps event
    rw [step, Function.update_apply]
    split
    · rename_i same
      rw [same]
      exact gasPaymentForLeaf_le_apply _ _ _
    · exact le_rfl
  exact @Machine.relation_run _ _ (step entity)
    (fun earlier later => (earlier name).gasPaymentForLeaf leafIndex ≤
      (later name).gasPaymentForLeaf leafIndex)
    (fun _ => le_rfl) (fun _ _ _ => le_trans) grows _ _

end Handles

end TypedMaps

end Abacus
