import Abacus.Db.GasPayments
import Abacus.Db.HandleSimulation
import Abacus.Db.TypedMaps

/-!
# Handles refine typed maps

Handles of any entities share one key-value store. After every sequence of
their operations, every read of a handle returns what the typed maps of its
entity say: the store represents the typed databases of the entities, and
these are described by the maps.
-/

namespace Abacus

open Journal (Layout Program)

/-- An operation of a handle. -/
def DbOperation.onHandle [Crypto] (handle : DbHandle) :
    DbOperation → RocksM Unit
  | .storeRawCommittedMessage message =>
      handle.storeRawCommittedMessage message
  | .updateLatestLeafIndex leafIndex => handle.updateLatestLeafIndex leafIndex
  | .updateLatestLeafIndexForDestination destination leafIndex =>
      handle.updateLatestLeafIndexForDestination destination leafIndex
  | .storeProof leafIndex proof _ => handle.storeProof leafIndex proof
  | .markLeafAsProcessed leafIndex => handle.markLeafAsProcessed leafIndex
  | .processGasPayment payment => handle.processGasPayment payment
  | .storeLatestValidMessageRangeStartBlock blockNum =>
      handle.storeLatestValidMessageRangeStartBlock blockNum
  | .storeLatestIndexedGasPaymentBlock latestBlock =>
      handle.storeLatestIndexedGasPaymentBlock latestBlock

/-- An operation on the typed database of an entity. -/
def DbOperation.onDatabase [Crypto] : DbOperation → DbM Unit
  | .storeRawCommittedMessage message =>
      AbacusDB.storeRawCommittedMessage message
  | .updateLatestLeafIndex leafIndex =>
      AbacusDB.updateLatestLeafIndex leafIndex
  | .updateLatestLeafIndexForDestination destination leafIndex =>
      AbacusDB.updateLatestLeafIndexForDestination destination leafIndex
  | .storeProof leafIndex proof _ => AbacusDB.storeProof leafIndex proof
  | .markLeafAsProcessed leafIndex => AbacusDB.markLeafAsProcessed leafIndex
  | .processGasPayment payment => AbacusDB.processGasPayment payment
  | .storeLatestValidMessageRangeStartBlock blockNum =>
      AbacusDB.storeLatestValidMessageRangeStartBlock blockNum
  | .storeLatestIndexedGasPaymentBlock latestBlock =>
      AbacusDB.storeLatestIndexedGasPaymentBlock latestBlock

/-- Every operation of a handle simulates the one on the typed database. -/
theorem DbOperation.simulates [Crypto]
    (entity : Entity)
    (operation : DbOperation) :
    dbLayout.Simulates entity (operation.onHandle entity.handle)
      operation.onDatabase := by
  cases operation with
  | storeRawCommittedMessage message =>
      exact DbHandle.simulates_storeRawCommittedMessage entity message
  | updateLatestLeafIndex leafIndex =>
      exact DbHandle.simulates_updateLatestLeafIndex entity leafIndex
  | updateLatestLeafIndexForDestination destination leafIndex =>
      exact DbHandle.simulates_updateLatestLeafIndexForDestination entity
        destination leafIndex
  | storeProof leafIndex proof fits =>
      exact DbHandle.simulates_storeProof entity leafIndex fits
  | markLeafAsProcessed leafIndex =>
      exact DbHandle.simulates_markLeafAsProcessed entity leafIndex
  | processGasPayment payment =>
      exact DbHandle.simulates_processGasPayment entity payment
  | storeLatestValidMessageRangeStartBlock blockNum =>
      exact DbHandle.simulates_storeLatestValidMessageRangeStartBlock entity
        blockNum
  | storeLatestIndexedGasPaymentBlock latestBlock =>
      exact DbHandle.simulates_storeLatestIndexedGasPaymentBlock entity
        latestBlock

/-! ## Maps describe a typed database -/

namespace TypedMaps

/-- What the maps say about the value of a record. -/
def Matches (maps : TypedMaps) : (key : Record) → Option key.Value → Prop
  | .leaf leafIndex, value => value = maps.leaf leafIndex
  | .proof leafIndex, value => value = maps.proof leafIndex
  | .message leaf, value => value = maps.message leaf
  | .latestLeafIndex, value => value = maps.latestLeafIndex
  | .latestLeafIndexForDestination destination, value =>
      value = maps.latestLeafIndexForDestination destination
  | .leafProcessStatus leafIndex, value =>
      value = if maps.leafProcessed leafIndex then some (1 : UInt32) else none
  | .gasPaymentForLeaf leafIndex, value =>
      BitVec.toNat (Option.getD (α := U256) value 0) =
        maps.gasPaymentForLeaf leafIndex
  | .gasPaymentMetaProcessed paymentMeta, value =>
      Option.getD (α := Bool) value false =
        maps.gasPaymentProcessed paymentMeta
  | .latestValidMessageRangeStartBlock, value =>
      value = maps.latestValidMessageRangeStartBlock
  | .latestIndexedGasPaymentBlock, value =>
      value = maps.latestIndexedGasPaymentBlock

/-- The maps say what the database holds. -/
def Describes (maps : TypedMaps) (db : AbacusDB) : Prop :=
  ∀ key, maps.Matches key (db key)

theorem describes_empty : empty.Describes Journal.empty := by
  intro key
  cases key <;> rfl

variable {maps : TypedMaps} {db : AbacusDB}

/-- A put of one record, after which the maps say the same about the other
records. -/
theorem Describes.put
    {after : TypedMaps}
    (describes : maps.Describes db)
    {key : Record}
    {value : key.Value}
    (own : after.Matches key (some value))
    (others : ∀ other found, other ≠ key → maps.Matches other found →
      after.Matches other found) :
    after.Describes (Journal.Put.apply ⟨key, value⟩ db) := by
  intro other
  by_cases same : other = key
  · subst same
    rw [Journal.Put.apply_mk_self]
    exact own
  · rw [Journal.Put.apply_of_ne same]
    exact others other _ same (describes other)

/-- A latest index is either high enough already or put. -/
theorem raisingPuts_cases
    (put : DbPut)
    (known : Option UInt32)
    (leafIndex : UInt32) :
    (raised known leafIndex = known ∧
        AbacusDB.raisingPuts put known leafIndex = []) ∨
      (raised known leafIndex = some leafIndex ∧
        AbacusDB.raisingPuts put known leafIndex = [put]) := by
  cases known with
  | none => exact .inr ⟨rfl, rfl⟩
  | some idx =>
      by_cases low : leafIndex ≤ idx
      · exact .inl ⟨congrArg some (if_pos low), if_pos low⟩
      · exact .inr ⟨congrArg some (if_neg low), if_neg low⟩

/-- Raising the latest index. -/
theorem Describes.raiseLatest
    (describes : maps.Describes db)
    (leafIndex : UInt32) :
    Describes { maps with
        latestLeafIndex := raised maps.latestLeafIndex leafIndex }
      (Journal.replay db (AbacusDB.raisingPuts ⟨.latestLeafIndex, leafIndex⟩
        (db .latestLeafIndex) leafIndex)) := by
  have known : db .latestLeafIndex = maps.latestLeafIndex :=
    describes .latestLeafIndex
  rw [known]
  rcases raisingPuts_cases ⟨.latestLeafIndex, leafIndex⟩
      maps.latestLeafIndex leafIndex with ⟨high, puts⟩ | ⟨low, puts⟩
  · rw [puts, high]
    exact describes
  · rw [puts, low]
    refine describes.put rfl fun other found different holds => ?_
    cases other with
    | latestLeafIndex => exact absurd rfl different
    | _ => exact holds

/-- Raising the latest index for a destination. -/
theorem Describes.raiseLatestForDestination
    (describes : maps.Describes db)
    (destination leafIndex : UInt32) :
    Describes { maps with
        latestLeafIndexForDestination :=
          maps.raiseForDestination destination leafIndex }
      (Journal.replay db (AbacusDB.raisingPuts
        ⟨.latestLeafIndexForDestination destination, leafIndex⟩
        (db (.latestLeafIndexForDestination destination)) leafIndex)) := by
  have known : db (.latestLeafIndexForDestination destination) =
      maps.latestLeafIndexForDestination destination :=
    describes (.latestLeafIndexForDestination destination)
  rw [known, raiseForDestination]
  rcases raisingPuts_cases
      ⟨.latestLeafIndexForDestination destination, leafIndex⟩
      (maps.latestLeafIndexForDestination destination) leafIndex with
    ⟨high, puts⟩ | ⟨low, puts⟩
  · rw [puts, high, Function.update_eq_self]
    exact describes
  · rw [puts, low]
    refine describes.put ?_ fun other found different holds => ?_
    · simp only [Matches, Function.update_self]
    · cases other with
      | latestLeafIndexForDestination otherDestination =>
          have apart : otherDestination ≠ destination :=
            fun same => different (congrArg _ same)
          exact holds.trans (Function.update_of_ne apart _ _).symm
      | _ => exact holds

/-- Storing a leaf by its index. -/
theorem Describes.putLeaf
    (describes : maps.Describes db)
    (leafIndex : UInt32)
    (leaf : H256) :
    Describes { maps with
        leaf := Function.update maps.leaf leafIndex (some leaf) }
      (Journal.Put.apply ⟨.leaf leafIndex, leaf⟩ db) := by
  refine describes.put ?_ fun other found different holds => ?_
  · simp only [Matches, Function.update_self]
  · cases other with
    | leaf otherIndex =>
        have apart : otherIndex ≠ leafIndex :=
          fun same => different (congrArg _ same)
        exact holds.trans (Function.update_of_ne apart _ _).symm
    | _ => exact holds

/-- Storing the body of a message. -/
theorem Describes.putMessage
    (describes : maps.Describes db)
    (leaf : H256)
    (message : RawCommittedMessage) :
    Describes { maps with
        message := Function.update maps.message leaf (some message) }
      (Journal.Put.apply ⟨.message leaf, message⟩ db) := by
  refine describes.put ?_ fun other found different holds => ?_
  · simp only [Matches, Function.update_self]
  · cases other with
    | message otherLeaf =>
        have apart : otherLeaf ≠ leaf :=
          fun same => different (congrArg _ same)
        exact holds.trans (Function.update_of_ne apart _ _).symm
    | _ => exact holds

/-- Storing a proof. -/
theorem Describes.putProof
    (describes : maps.Describes db)
    (leafIndex : UInt32)
    (proof : Proof H256) :
    Describes { maps with
        proof := Function.update maps.proof leafIndex (some proof) }
      (Journal.Put.apply ⟨.proof leafIndex, proof⟩ db) := by
  refine describes.put ?_ fun other found different holds => ?_
  · simp only [Matches, Function.update_self]
  · cases other with
    | proof otherIndex =>
        have apart : otherIndex ≠ leafIndex :=
          fun same => different (congrArg _ same)
        exact holds.trans (Function.update_of_ne apart _ _).symm
    | _ => exact holds

/-- Marking a leaf as processed. -/
theorem Describes.putLeafProcessStatus
    (describes : maps.Describes db)
    (leafIndex : UInt32) :
    Describes { maps with
        leafProcessed := Function.update maps.leafProcessed leafIndex true }
      (Journal.Put.apply ⟨.leafProcessStatus leafIndex, (1 : UInt32)⟩
        db) := by
  refine describes.put ?_ fun other found different holds => ?_
  · simp only [Matches, Function.update_self, if_true]
  · cases other with
    | leafProcessStatus otherIndex =>
        have apart : otherIndex ≠ leafIndex :=
          fun same => different (congrArg _ same)
        simp only [Matches, Function.update_of_ne apart]
        exact holds
    | _ => exact holds

/-- Counting a payment that has not been counted. -/
theorem Describes.putPayment
    (describes : maps.Describes db)
    {payment : InterchainGasPaymentWithMeta}
    (fits : AbacusDB.Fits db payment.payment) :
    Describes { maps with
        gasPaymentProcessed :=
          Function.update maps.gasPaymentProcessed payment.paymentMeta true
        gasPaymentForLeaf :=
          Function.update maps.gasPaymentForLeaf payment.payment.leafIndex
            (maps.gasPaymentForLeaf payment.payment.leafIndex +
              payment.payment.amount.toNat) }
      (AbacusDB.processed payment db) := by
  have total : (AbacusDB.gasPaymentTotal db
      payment.payment.leafIndex).toNat =
        maps.gasPaymentForLeaf payment.payment.leafIndex :=
    describes (.gasPaymentForLeaf payment.payment.leafIndex)
  have recorded : Describes { maps with
      gasPaymentProcessed :=
        Function.update maps.gasPaymentProcessed payment.paymentMeta true }
      ((AbacusDB.processedPut payment).apply db) := by
    refine describes.put ?_ fun other found different holds => ?_
    · simp only [Matches, Function.update_self, Option.getD_some]
    · cases other with
      | gasPaymentMetaProcessed otherMeta =>
          have apart : otherMeta ≠ payment.paymentMeta :=
            fun same => different (congrArg _ same)
          exact holds.trans (Function.update_of_ne apart _ _).symm
      | _ => exact holds
  refine recorded.put ?_ fun other found different holds => ?_
  · simp only [Matches, Function.update_self, Option.getD_some]
    rw [BitVec.toNat_add, Nat.mod_eq_of_lt fits, total]
  · cases other with
    | gasPaymentForLeaf otherIndex =>
        have apart : otherIndex ≠ payment.payment.leafIndex :=
          fun same => different (congrArg _ same)
        exact holds.trans (Function.update_of_ne apart _ _).symm
    | _ => exact holds

/-- Processing a payment: nothing happens if it has been counted. -/
theorem Describes.processGasPayment
    (describes : maps.Describes db)
    (payment : InterchainGasPaymentWithMeta)
    (bounded : (maps.count payment).gasPaymentForLeaf
      payment.payment.leafIndex < 2 ^ 256) :
    (AbacusDB.processGasPayment payment).result db = .ok () ∧
      (maps.count payment).Describes
        ((AbacusDB.processGasPayment payment).final db) := by
  have flag : AbacusDB.gasPaymentProcessed db payment.paymentMeta =
      maps.gasPaymentProcessed payment.paymentMeta :=
    describes (.gasPaymentMetaProcessed payment.paymentMeta)
  have total : (AbacusDB.gasPaymentTotal db
      payment.payment.leafIndex).toNat =
        maps.gasPaymentForLeaf payment.payment.leafIndex :=
    describes (.gasPaymentForLeaf payment.payment.leafIndex)
  rw [count] at bounded ⊢
  rcases AbacusDB.processGasPayment_cases payment db with
    ⟨known, run⟩ | ⟨fresh, fits, run⟩ | ⟨fresh, overflow, -⟩
  · rw [Program.result, Program.final, Program.journal, run,
      if_pos (flag ▸ known)]
    exact ⟨rfl, describes⟩
  · rw [Program.result, Program.final, Program.journal, run,
      if_neg (by rw [← flag, fresh]; exact Bool.false_ne_true)]
    exact ⟨rfl, describes.putPayment fits⟩
  · rw [if_neg (by rw [← flag, fresh]; exact Bool.false_ne_true)] at bounded
    simp only [Function.update_self] at bounded
    rw [AbacusDB.Fits, total] at overflow
    exact absurd bounded overflow

/-- The status of a leaf that the maps give. -/
theorem Describes.processingStatus
    (describes : maps.Describes db)
    (leafIndex : UInt32) :
    Option.map (fun status : UInt32 => status == 1)
        (db (.leafProcessStatus leafIndex)) =
      if maps.leafProcessed leafIndex then some true else none := by
  have status : db (.leafProcessStatus leafIndex) =
      if maps.leafProcessed leafIndex then some (1 : UInt32) else none :=
    describes (.leafProcessStatus leafIndex)
  rw [status]
  split <;> rfl

section Operations

variable [Crypto]

/-- The message at an index that the maps give. -/
theorem Describes.message_bind_leaf
    (describes : maps.Describes db)
    {stored : RawCommittedMessage → Prop}
    (holds : maps.Holds stored)
    (index : UInt32) :
    ((db (.leaf index)).bind fun leaf => db (.message leaf)) =
      maps.messageAt index := by
  have leaf : db (.leaf index) = maps.leaf index :=
    describes (.leaf index)
  have message : (fun leaf => db (.message leaf)) = maps.message :=
    funext fun leaf => describes (.message leaf)
  rw [leaf, message, holds.message_bind_leaf]

/-- Storing a message that can be decoded. -/
theorem Describes.insert
    (describes : maps.Describes db)
    (message : RawCommittedMessage)
    (destination : UInt32) :
    (maps.insert message destination).Describes
      (Journal.replay db (AbacusDB.messagePuts db message destination)) := by
  have stored := (((describes.putLeaf message.leafIndex message.leaf
    ).raiseLatest message.leafIndex).raiseLatestForDestination destination
      message.leafIndex).putMessage message.leaf message
  rw [AbacusDB.messagePuts, Journal.replay_cons, Journal.replay_append,
    Journal.replay_append, Journal.replay_cons, Journal.replay_nil]
  rw [AbacusDB.replay_raisingPuts_of_ne (by simp),
    Journal.Put.apply_of_ne (by simp), Journal.Put.apply_of_ne (by simp)]
    at stored
  exact stored

/-- Storing a message: nothing happens if it cannot be decoded. -/
theorem Describes.storeRawCommittedMessage
    (describes : maps.Describes db)
    (message : RawCommittedMessage) :
    (AbacusDB.storeRawCommittedMessage message).result db =
        (DbOperation.storeRawCommittedMessage message).outcome ∧
      (maps.apply (.storeRawCommittedMessage message)).Describes
        ((AbacusDB.storeRawCommittedMessage message).final db) := by
  rw [DbOperation.outcome, apply]
  cases parses : AbacusMessage.parse message.message with
  | ok parsed =>
      rw [Program.result, Program.final, Program.journal,
        AbacusDB.run_storeRawCommittedMessage parses]
      exact ⟨rfl, describes.insert message parsed.destination⟩
  | error report =>
      have failed : liftReport (AbacusMessage.parse message.message) db =
          (.error (.error report), []) := by
        rw [parses]
        rfl
      rw [Program.result, Program.final, Program.journal,
        AbacusDB.storeRawCommittedMessage, Program.run_bind_error failed]
      exact ⟨rfl, describes⟩

/-- Every operation returns what it should, and the maps after it say what the
database after it holds. -/
theorem Describes.apply
    (describes : maps.Describes db)
    (operation : DbOperation)
    (bounded : ∀ leafIndex,
      (maps.apply operation).gasPaymentForLeaf leafIndex < 2 ^ 256) :
    operation.onDatabase.result db = operation.outcome ∧
      (maps.apply operation).Describes (operation.onDatabase.final db) := by
  cases operation with
  | storeRawCommittedMessage message =>
      exact describes.storeRawCommittedMessage message
  | updateLatestLeafIndex leafIndex =>
      refine ⟨?_, ?_⟩
      · exact congrArg Prod.fst
          (AbacusDB.run_updateLatestLeafIndex leafIndex db)
      · rw [Program.final, Program.journal, DbOperation.onDatabase,
          AbacusDB.run_updateLatestLeafIndex]
        exact describes.raiseLatest leafIndex
  | updateLatestLeafIndexForDestination destination leafIndex =>
      refine ⟨?_, ?_⟩
      · exact congrArg Prod.fst
          (AbacusDB.run_updateLatestLeafIndexForDestination destination
            leafIndex db)
      · rw [Program.final, Program.journal, DbOperation.onDatabase,
          AbacusDB.run_updateLatestLeafIndexForDestination]
        exact describes.raiseLatestForDestination destination leafIndex
  | storeProof leafIndex proof fits =>
      exact ⟨rfl, describes.putProof leafIndex proof⟩
  | markLeafAsProcessed leafIndex =>
      exact ⟨rfl, describes.putLeafProcessStatus leafIndex⟩
  | processGasPayment payment =>
      exact describes.processGasPayment payment (bounded _)
  | storeLatestValidMessageRangeStartBlock blockNum =>
      refine ⟨rfl, describes.put rfl fun other found different holds => ?_⟩
      cases other with
      | latestValidMessageRangeStartBlock => exact absurd rfl different
      | _ => exact holds
  | storeLatestIndexedGasPaymentBlock latestBlock =>
      refine ⟨rfl, describes.put rfl fun other found different holds => ?_⟩
      cases other with
      | latestIndexedGasPaymentBlock => exact absurd rfl different
      | _ => exact holds

end Operations

end TypedMaps

/-! ## Many handles over one store -/

/-- The store holds what the maps of the entities say. -/
def Refines (rocks : Rocks) (maps : Entity → TypedMaps) : Prop :=
  ∃ stores, dbLayout.Represents rocks stores ∧
    ∀ entity, (maps entity).Describes (stores entity)

theorem refines_empty : Refines Journal.empty fun _ => TypedMaps.empty :=
  ⟨fun _ => Journal.empty, dbLayout.represents_empty,
    fun _ => TypedMaps.describes_empty⟩

/-- Every read of the handle of an entity returns what the maps say, and
neither fails nor writes. -/
structure Serves (rocks : Rocks) (handle : DbHandle) (maps : TypedMaps) :
    Prop where
  latestLeafIndex : handle.retrieveLatestLeafIndex rocks =
    (.ok maps.latestLeafIndex, [])
  latestLeafIndexForDestination : ∀ destination,
    handle.retrieveLatestLeafIndexForDestination destination rocks =
      (.ok (maps.latestLeafIndexForDestination destination), [])
  leafByLeafIndex : ∀ leafIndex,
    handle.leafByLeafIndex leafIndex rocks = (.ok (maps.leaf leafIndex), [])
  messageByLeaf : ∀ leaf,
    handle.messageByLeaf leaf rocks = (.ok (maps.message leaf), [])
  messageByLeafIndex : ∀ index,
    handle.messageByLeafIndex index rocks = (.ok (maps.messageAt index), [])
  proofByLeafIndex : ∀ leafIndex,
    handle.proofByLeafIndex leafIndex rocks = (.ok (maps.proof leafIndex), [])
  leafProcessingStatus : ∀ leafIndex,
    handle.retrieveLeafProcessingStatus leafIndex rocks =
      (.ok (if maps.leafProcessed leafIndex then some true else none), [])
  gasPaymentMetaProcessed : ∀ paymentMeta,
    handle.retrieveGasPaymentMetaProcessed paymentMeta rocks =
      (.ok (maps.gasPaymentProcessed paymentMeta), [])
  gasPaymentForLeaf : ∀ leafIndex, ∃ total : U256,
    handle.retrieveGasPaymentForLeaf leafIndex rocks = (.ok total, []) ∧
      total.toNat = maps.gasPaymentForLeaf leafIndex
  latestValidMessageRangeStartBlock :
    handle.retrieveLatestValidMessageRangeStartBlock rocks =
      (.ok maps.latestValidMessageRangeStartBlock, [])
  latestIndexedGasPaymentBlock :
    handle.retrieveLatestIndexedGasPaymentBlock rocks =
      (.ok maps.latestIndexedGasPaymentBlock, [])

section Handles

open TypedMaps (Stored)

variable [Crypto] {ι : Type} (entity : ι → Entity)

/-- An event runs its operation on the shared store. -/
def Rocks.step (rocks : Rocks) (event : DbEvent ι) : Rocks :=
  (event.operation.onHandle (entity event.handle).handle).final rocks

/-- The shared store after some events. -/
def Rocks.after (events : List (DbEvent ι)) : Rocks :=
  Machine.run (Rocks.step entity) Journal.empty events

/-- An operation of a handle returns what it should, and changes the maps of
its entity and no others. -/
theorem Refines.step
    {rocks : Rocks}
    {maps : Entity → TypedMaps}
    (refines : Refines rocks maps)
    (event : DbEvent ι)
    (bounded : ∀ leafIndex, (TypedMaps.step entity maps event
      (entity event.handle)).gasPaymentForLeaf leafIndex < 2 ^ 256) :
    (event.operation.onHandle (entity event.handle).handle).result rocks =
        event.operation.outcome ∧
      Refines (Rocks.step entity rocks event)
        (TypedMaps.step entity maps event) := by
  obtain ⟨stores, represents, describes⟩ := refines
  simp only [TypedMaps.step, Function.update_self] at bounded
  obtain ⟨outcome, described⟩ :=
    (describes (entity event.handle)).apply event.operation bounded
  obtain ⟨same, represented⟩ := event.operation.simulates
    (entity event.handle) rocks stores represents
  refine ⟨same.trans outcome, _, represented, fun name => ?_⟩
  rw [TypedMaps.step, Function.update_apply, Function.update_apply]
  split
  · exact described
  · exact describes name

/-- What refines the maps serves them. -/
theorem Refines.serves
    {rocks : Rocks}
    {maps : Entity → TypedMaps}
    (refines : Refines rocks maps)
    {stored : RawCommittedMessage → Prop}
    {name : Entity}
    (holds : (maps name).Holds stored) :
    Serves rocks name.handle (maps name) := by
  obtain ⟨stores, represents, describes⟩ := refines
  have described := describes name
  exact {
    latestLeafIndex :=
      (DbHandle.reads_retrieveLatestLeafIndex name).returns represents
        (described .latestLeafIndex)
    latestLeafIndexForDestination := fun destination =>
      (DbHandle.reads_retrieveLatestLeafIndexForDestination name
        destination).returns represents
          (described (.latestLeafIndexForDestination destination))
    leafByLeafIndex := fun leafIndex =>
      (DbHandle.reads_leafByLeafIndex name leafIndex).returns represents
        (described (.leaf leafIndex))
    messageByLeaf := fun leaf =>
      (DbHandle.reads_messageByLeaf name leaf).returns represents
        (described (.message leaf))
    messageByLeafIndex := fun index =>
      (DbHandle.reads_messageByLeafIndex name index).returns represents
        (described.message_bind_leaf holds index)
    proofByLeafIndex := fun leafIndex =>
      (DbHandle.reads_proofByLeafIndex name leafIndex).returns represents
        (described (.proof leafIndex))
    leafProcessingStatus := fun leafIndex =>
      (DbHandle.reads_retrieveLeafProcessingStatus name leafIndex).returns
        represents (described.processingStatus leafIndex)
    gasPaymentMetaProcessed := fun paymentMeta =>
      (DbHandle.reads_retrieveGasPaymentMetaProcessed name
        paymentMeta).returns represents
          (described (.gasPaymentMetaProcessed paymentMeta))
    gasPaymentForLeaf := fun leafIndex =>
      ⟨_, (DbHandle.reads_retrieveGasPaymentForLeaf name leafIndex).returns
        represents rfl, described (.gasPaymentForLeaf leafIndex)⟩
    latestValidMessageRangeStartBlock :=
      (DbHandle.reads_retrieveLatestValidMessageRangeStartBlock name).returns
        represents (described .latestValidMessageRangeStartBlock)
    latestIndexedGasPaymentBlock :=
      (DbHandle.reads_retrieveLatestIndexedGasPaymentBlock name).returns
        represents (described .latestIndexedGasPaymentBlock) }

/-- No total reaches the bound of the stored numbers. -/
def Bounded (maps : Entity → TypedMaps) : Prop :=
  ∀ name leafIndex, (maps name).gasPaymentForLeaf leafIndex < 2 ^ 256

/-- If the final totals are bounded, so are all earlier ones. -/
theorem Bounded.before
    {before after : List (DbEvent ι)}
    (bounded : Bounded (TypedMaps.after entity (before ++ after))) :
    Bounded (TypedMaps.after entity before) :=
  fun name leafIndex =>
    (TypedMaps.gasPaymentForLeaf_le_after entity before after name
      leafIndex).trans_lt (bounded name leafIndex)

/-- So are those right behind an event. -/
theorem Bounded.step
    {before after : List (DbEvent ι)}
    {event : DbEvent ι}
    (bounded : Bounded (TypedMaps.after entity (before ++ event :: after))) :
    Bounded (TypedMaps.step entity (TypedMaps.after entity before) event) := by
  rw [List.append_cons] at bounded
  have earlier := bounded.before entity
  rwa [TypedMaps.after, Machine.run_concat] at earlier

/-- After every sequence of events the store refines the maps. -/
theorem refines_after
    {events : List (DbEvent ι)}
    (bounded : Bounded (TypedMaps.after entity events)) :
    Refines (Rocks.after entity events) (TypedMaps.after entity events) := by
  refine Machine.simulation_run (Rocks.step entity) Refines
    (fun rocks maps event fits refines => (refines.step entity event fits).2)
    refines_empty (Machine.admissibleRun_of_forall_split _ ?_)
  intro before event after split
  rw [split] at bounded
  exact bounded.step entity (entity event.handle)

/-- Everything in the store is a record of an entity and can be decoded. -/
def AllDecode (rocks : Rocks) : Prop :=
  ∀ bytes content, rocks bytes = some content →
    ∃ (name : Entity) (key : Record) (value : key.Value),
      bytes = name.address key ∧ key.decode content = .ok value

/-- Handles of any entities refine typed maps: after every sequence of
operations of any handles, if no leaves of messages collide and no total
reaches `2 ^ 256`, every read of the handle of an entity returns what the maps
of the entity say. Every operation has returned what it should, everything
that is stored can be decoded, and different records of any entities have
different keys. -/
theorem handles_refine_maps
    {events : List (DbEvent ι)}
    (collisionFree : ∀ first second, Stored events first →
      Stored events second → first.leaf = second.leaf → first = second)
    (bounded : Bounded (TypedMaps.after entity events)) :
    (∀ name, Serves (Rocks.after entity events) name.handle
        (TypedMaps.after entity events name)) ∧
      (∀ before event after, events = before ++ event :: after →
        (event.operation.onHandle (entity event.handle).handle).result
            (Rocks.after entity before) =
          event.operation.outcome) ∧
      AllDecode (Rocks.after entity events) ∧
      ∀ (first second : Entity) (firstKey secondKey : Record),
        first.address firstKey = second.address secondKey →
          first = second ∧ firstKey = secondKey := by
  have refines := refines_after entity bounded
  refine ⟨fun name => refines.serves
    (TypedMaps.holds_after entity collisionFree name), ?_, ?_,
    fun _ _ _ _ same => Entity.address_injective same⟩
  · intro before event after split
    rw [split] at bounded
    have earlier := refines_after entity (bounded.before entity)
    exact (earlier.step entity event
      (bounded.step entity (entity event.handle))).1
  · obtain ⟨stores, represents, -⟩ := refines
    exact fun bytes content present => represents.exists_decode present

end Handles

/-- The handles of two outboxes. -/
def celoOrPolygon : Bool → Entity
  | true => ⟨"celo", by decide⟩
  | false => ⟨"polygon", by decide⟩

/-- A message of one outbox and a payment of the other, both for leaf `3`: each
handle finds its own record and not the one of the other. -/
theorem handles_refine_maps_two :
    let message : RawCommittedMessage := ⟨3, List.replicate 72 0⟩
    let payment : InterchainGasPaymentWithMeta :=
      ⟨⟨3, 7⟩, ⟨H256.zero, 0⟩⟩
    let rocks := @Rocks.after Crypto.transparent Bool celoOrPolygon
      [⟨true, .storeRawCommittedMessage message⟩,
        ⟨false, .processGasPayment payment⟩]
    (celoOrPolygon true).handle.messageByLeafIndex 3 rocks =
        (.ok (some message), []) ∧
      (celoOrPolygon false).handle.messageByLeafIndex 3 rocks =
        (.ok none, []) ∧
      ∃ total : U256,
        (celoOrPolygon false).handle.retrieveGasPaymentForLeaf 3 rocks =
          (.ok total, []) ∧ total.toNat = 7 := by
  intro message payment rocks
  let := Crypto.transparent
  let events : List (DbEvent Bool) :=
    [⟨true, .storeRawCommittedMessage message⟩,
      ⟨false, .processGasPayment payment⟩]
  have only : ∀ other, TypedMaps.Stored events other → other = message := by
    rintro other ⟨event, member, stores⟩
    obtain rfl | rfl : event = _ ∨ event = _ := by
      simpa only [events, List.mem_cons, List.not_mem_nil, or_false]
        using member
    · exact (DbOperation.storeRawCommittedMessage.inj stores).symm
    · cases stores
  have small : ∀ leafIndex : UInt32,
      Function.update (fun _ => 0) 3 7 leafIndex < 2 ^ 256 := by
    intro leafIndex
    rw [Function.update_apply]
    split <;> decide
  have bounded : Bounded (TypedMaps.after celoOrPolygon events) := by
    intro name leafIndex
    by_cases polygon : name = celoOrPolygon false
    · subst polygon
      exact small leafIndex
    · by_cases celo : name = celoOrPolygon true
      · subst celo
        exact Nat.two_pow_pos 256
      · simp only [TypedMaps.after, Machine.run_cons, Machine.run_nil, events,
          TypedMaps.step, Function.update_of_ne polygon,
          Function.update_of_ne celo]
        exact Nat.two_pow_pos 256
  obtain ⟨serves, -⟩ := handles_refine_maps celoOrPolygon
    (fun first second inFirst inSecond _ =>
      (only first inFirst).trans (only second inSecond).symm) bounded
  exact ⟨(serves _).messageByLeafIndex 3, (serves _).messageByLeafIndex 3,
    (serves _).gasPaymentForLeaf 3⟩

end Abacus
