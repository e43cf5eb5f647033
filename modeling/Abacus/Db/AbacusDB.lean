import Abacus.Accumulator.Merkle
import Abacus.Core.Message
import Abacus.Library.Journal

/-!
# The agent database

The records of one outbox, each kind with its own type of value, and the
operations on them as programs that read the store and journal their puts.
-/

namespace Abacus

/-- A gas payment for a leaf. -/
structure InterchainGasPayment where
  leafIndex : UInt32
  amount : U256
  deriving DecidableEq

/-- What identifies a gas payment. -/
structure InterchainGasPaymentMeta where
  transactionHash : H256
  logIndex : U256
  deriving DecidableEq

/-- A gas payment with its identity. -/
structure InterchainGasPaymentWithMeta where
  payment : InterchainGasPayment
  paymentMeta : InterchainGasPaymentMeta
  deriving DecidableEq

/-- The keys of the database, by record kind. -/
inductive Record
  | leaf (leafIndex : UInt32)
  | proof (leafIndex : UInt32)
  | message (leaf : H256)
  | latestLeafIndex
  | latestLeafIndexForDestination (destination : UInt32)
  | leafProcessStatus (leafIndex : UInt32)
  | gasPaymentForLeaf (leafIndex : UInt32)
  | gasPaymentMetaProcessed (paymentMeta : InterchainGasPaymentMeta)
  | latestValidMessageRangeStartBlock
  | latestIndexedGasPaymentBlock
  deriving DecidableEq

/-- The type of the value under a key. -/
abbrev Record.Value : Record → Type
  | .leaf _ => H256
  | .proof _ => Proof H256
  | .message _ => RawCommittedMessage
  | .latestLeafIndex => UInt32
  | .latestLeafIndexForDestination _ => UInt32
  | .leafProcessStatus _ => UInt32
  | .gasPaymentForLeaf _ => U256
  | .gasPaymentMetaProcessed _ => Bool
  | .latestValidMessageRangeStartBlock => UInt32
  | .latestIndexedGasPaymentBlock => UInt32

/-- Contents of the database. -/
abbrev AbacusDB := Journal.Store Record Record.Value

/-- One put of a record. -/
abbrev DbPut := Journal.Put Record Record.Value

/-- A program over the database. -/
abbrev DbM (α : Type) :=
  Journal.Program Record Record.Value (Fault Report) α

open Journal (Program)

/-- A fallible computation without panics, as a program. -/
def liftReport (outcome : Except Report α) : DbM α :=
  Program.lift (outcome.mapError Fault.error)

namespace AbacusDB

/-- Retrieve the value of a record. -/
def retrieve (key : Record) : DbM (Option key.Value) :=
  Program.get key

/-- Store the value of a record. -/
def store (key : Record) (value : key.Value) : DbM Unit :=
  Program.put key value

/-! ## Messages -/

/-- The highest known leaf index. -/
def retrieveLatestLeafIndex : DbM (Option UInt32) :=
  retrieve .latestLeafIndex

/-- Raise the highest known leaf index. -/
def updateLatestLeafIndex (leafIndex : UInt32) : DbM Unit := do
  match ← retrieveLatestLeafIndex with
  | some idx =>
      if leafIndex ≤ idx then return ()
      else store .latestLeafIndex leafIndex
  | none => store .latestLeafIndex leafIndex

/-- The highest known leaf index for a destination. -/
def retrieveLatestLeafIndexForDestination (destination : UInt32) :
    DbM (Option UInt32) :=
  retrieve (.latestLeafIndexForDestination destination)

/-- Raise the highest known leaf index for a destination. -/
def updateLatestLeafIndexForDestination (destination leafIndex : UInt32) :
    DbM Unit := do
  match ← retrieveLatestLeafIndexForDestination destination with
  | some idx =>
      if leafIndex ≤ idx then return ()
      else
        store (.latestLeafIndexForDestination destination) leafIndex
  | none => store (.latestLeafIndexForDestination destination) leafIndex

/-- Store a leaf by its index and raise the two latest indices. -/
def storeLeaf (leafIndex destination : UInt32) (leaf : H256) : DbM Unit := do
  store (.leaf leafIndex) leaf
  updateLatestLeafIndex leafIndex
  updateLatestLeafIndexForDestination destination leafIndex

/-- Store a message: its leaf, the latest indices, and last its body. -/
def storeRawCommittedMessage [Crypto] (message : RawCommittedMessage) :
    DbM Unit := do
  let parsed ← liftReport (AbacusMessage.parse message.message)
  let leaf := message.leaf
  storeLeaf message.leafIndex parsed.destination leaf
  store (.message leaf) message

/-- Store a message after the latest one. The predecessor of its index is
computed for a log entry, and the subtraction can panic. -/
def storeLatestMessage [Crypto] (message : RawCommittedMessage) :
    DbM Unit := do
  match ← retrieveLatestLeafIndex with
  | some _ => do
      let _ ← (Program.lift (checkedSub message.leafIndex 1) : DbM UInt32)
      storeRawCommittedMessage message
  | none => storeRawCommittedMessage message

/-- Store one message of a batch; the result is its leaf index. -/
def storeBatchMessage [Crypto] (message : RawCommittedMessage) :
    DbM UInt32 := do
  storeLatestMessage message
  let committedMessage ← liftReport (CommittedMessage.tryFrom message)
  return committedMessage.leafIndex

/-- Store a list of messages; the result is the leaf index of the last one. -/
def storeMessages [Crypto] (messages : List RawCommittedMessage) :
    DbM UInt32 :=
  messages.foldlM (fun _ message => storeBatchMessage message) 0

/-- The leaf at an index. -/
def leafByLeafIndex (leafIndex : UInt32) : DbM (Option H256) :=
  retrieve (.leaf leafIndex)

/-- The message of a leaf. -/
def messageByLeaf (leaf : H256) : DbM (Option RawCommittedMessage) :=
  retrieve (.message leaf)

/-- The message at an index. -/
def messageByLeafIndex (index : UInt32) :
    DbM (Option RawCommittedMessage) := do
  match ← leafByLeafIndex index with
  | none => return none
  | some leaf => messageByLeaf leaf

/-! ## Proofs and processing status -/

/-- Store the proof of a leaf. -/
def storeProof (leafIndex : UInt32) (proof : Proof H256) : DbM Unit :=
  store (.proof leafIndex) proof

/-- The stored proof of a leaf. -/
def proofByLeafIndex (leafIndex : UInt32) : DbM (Option (Proof H256)) :=
  retrieve (.proof leafIndex)

/-- Mark a leaf as processed. -/
def markLeafAsProcessed (leafIndex : UInt32) : DbM Unit :=
  store (.leafProcessStatus leafIndex) (1 : UInt32)

/-- The processing status of a leaf. -/
def retrieveLeafProcessingStatus (leafIndex : UInt32) :
    DbM (Option Bool) := do
  let value : Option UInt32 ← retrieve (.leafProcessStatus leafIndex)
  return value.map fun status => status == 1

/-! ## Gas payments -/

/-- Record a gas payment as processed. -/
def storeGasPaymentMetaProcessed (paymentMeta : InterchainGasPaymentMeta) :
    DbM Unit :=
  store (.gasPaymentMetaProcessed paymentMeta) true

/-- Whether a gas payment has been processed. -/
def retrieveGasPaymentMetaProcessed (paymentMeta : InterchainGasPaymentMeta) :
    DbM Bool := do
  let value : Option Bool ← retrieve (.gasPaymentMetaProcessed paymentMeta)
  return value.getD false

/-- The total gas payment for a leaf. -/
def retrieveGasPaymentForLeaf (leafIndex : UInt32) : DbM U256 := do
  let value : Option U256 ← retrieve (.gasPaymentForLeaf leafIndex)
  return value.getD 0

/-- Addition of two 256-bit integers, which panics on overflow. -/
def addU256 (left right : U256) : Except (Fault Report) U256 :=
  if left.toNat + right.toNat < 2 ^ 256 then .ok (left + right)
  else .error (.panic .overflow)

/-- Add a gas payment to the total of its leaf. -/
def updateGasPaymentForLeaf (gasPayment : InterchainGasPayment) :
    DbM Unit := do
  let existingPayment ← retrieveGasPaymentForLeaf gasPayment.leafIndex
  let total ← (Program.lift (addU256 existingPayment gasPayment.amount) :
    DbM U256)
  store (.gasPaymentForLeaf gasPayment.leafIndex) total

/-- Process a gas payment that has not been processed yet. -/
def processGasPayment (gasPaymentWithMeta : InterchainGasPaymentWithMeta) :
    DbM Unit := do
  if ← retrieveGasPaymentMetaProcessed gasPaymentWithMeta.paymentMeta then
    return ()
  else do
    storeGasPaymentMetaProcessed gasPaymentWithMeta.paymentMeta
    updateGasPaymentForLeaf gasPaymentWithMeta.payment

/-! ## Progress of the indexer -/

/-- Store the start of the latest valid message range. -/
def storeLatestValidMessageRangeStartBlock (blockNum : UInt32) : DbM Unit :=
  store .latestValidMessageRangeStartBlock blockNum

/-- The start of the latest valid message range. -/
def retrieveLatestValidMessageRangeStartBlock : DbM (Option UInt32) :=
  retrieve .latestValidMessageRangeStartBlock

/-- Store the latest block indexed for gas payments. -/
def storeLatestIndexedGasPaymentBlock (latestBlock : UInt32) : DbM Unit :=
  store .latestIndexedGasPaymentBlock latestBlock

/-- The latest block indexed for gas payments. -/
def retrieveLatestIndexedGasPaymentBlock : DbM (Option UInt32) :=
  retrieve .latestIndexedGasPaymentBlock

/-! ## What the operations do -/

@[simp] theorem run_retrieve (key : Record) (db : AbacusDB) :
    retrieve key db = (.ok (db key), []) := rfl

@[simp] theorem run_store (key : Record) (value : key.Value) (db : AbacusDB) :
    store key value db = (.ok (), [⟨key, value⟩]) := rfl

/-- A message is found by its index through its leaf. -/
@[simp] theorem run_messageByLeafIndex (index : UInt32) (db : AbacusDB) :
    messageByLeafIndex index db =
      (.ok ((db (.leaf index)).bind fun leaf => db (.message leaf)), []) := by
  unfold messageByLeafIndex leafByLeafIndex messageByLeaf
  rw [Program.run_bind_ok (run_retrieve _ _)]
  cases db (.leaf index) with
  | none => rfl
  | some leaf => rfl

/-- A processing status is read off its record. -/
@[simp] theorem run_retrieveLeafProcessingStatus
    (leafIndex : UInt32)
    (db : AbacusDB) :
    retrieveLeafProcessingStatus leafIndex db =
      (.ok (Option.map (fun status : UInt32 => status == 1)
        (db (.leafProcessStatus leafIndex))), []) := rfl

/-- The put that raises a latest index, unless the known one is as high. -/
def raisingPuts (put : DbPut) (known : Option UInt32) (leafIndex : UInt32) :
    List DbPut :=
  match known with
  | some idx => if leafIndex ≤ idx then [] else [put]
  | none => [put]

@[simp] theorem run_updateLatestLeafIndex
    (leafIndex : UInt32)
    (db : AbacusDB) :
    updateLatestLeafIndex leafIndex db =
      (.ok (), raisingPuts ⟨.latestLeafIndex, leafIndex⟩
        (db .latestLeafIndex) leafIndex) := by
  unfold updateLatestLeafIndex retrieveLatestLeafIndex raisingPuts
  rw [Program.run_bind_ok (run_retrieve _ _), Journal.replay_nil]
  cases db .latestLeafIndex with
  | none => rfl
  | some idx =>
      simp only
      split <;> rfl

@[simp] theorem run_updateLatestLeafIndexForDestination
    (destination leafIndex : UInt32)
    (db : AbacusDB) :
    updateLatestLeafIndexForDestination destination leafIndex db =
      (.ok (), raisingPuts
        ⟨.latestLeafIndexForDestination destination, leafIndex⟩
        (db (.latestLeafIndexForDestination destination)) leafIndex) := by
  unfold updateLatestLeafIndexForDestination
    retrieveLatestLeafIndexForDestination raisingPuts
  rw [Program.run_bind_ok (run_retrieve _ _), Journal.replay_nil]
  cases db (.latestLeafIndexForDestination destination) with
  | none => rfl
  | some idx =>
      simp only
      split <;> rfl

/-- An index above the known one is put. -/
theorem raisingPuts_eq_singleton
    {known : Option UInt32}
    {leafIndex : UInt32}
    (above : ∀ idx, known = some idx → idx < leafIndex)
    (put : DbPut) :
    raisingPuts put known leafIndex = [put] := by
  cases known with
  | none => rfl
  | some idx => exact if_neg (UInt32.not_le.mpr (above idx rfl))

/-- Raising a latest index makes at most its one put. -/
theorem raisingPuts_sublist
    (put : DbPut)
    (known : Option UInt32)
    (leafIndex : UInt32) :
    (raisingPuts put known leafIndex).Sublist [put] := by
  unfold raisingPuts
  split
  · split
    · exact List.nil_sublist _
    · exact List.Sublist.refl _
  · exact List.Sublist.refl _

/-- Raising a latest index touches no other record. -/
theorem replay_raisingPuts_of_ne
    {key : Record}
    {put : DbPut}
    (different : key ≠ put.key)
    (known : Option UInt32)
    (leafIndex : UInt32)
    (db : AbacusDB) :
    Journal.replay db (raisingPuts put known leafIndex) key = db key := by
  apply Journal.replay_of_forall_ne
  intro each member
  have same := (raisingPuts_sublist put known leafIndex).subset member
  rwa [List.mem_singleton.mp same]

/-- The puts of storing one message, in order. -/
def messagePuts [Crypto] (db : AbacusDB) (message : RawCommittedMessage)
    (destination : UInt32) : List DbPut :=
  ⟨.leaf message.leafIndex, message.leaf⟩ ::
    (raisingPuts ⟨.latestLeafIndex, message.leafIndex⟩
        (db .latestLeafIndex) message.leafIndex ++
      raisingPuts
        ⟨.latestLeafIndexForDestination destination, message.leafIndex⟩
        (db (.latestLeafIndexForDestination destination))
        message.leafIndex ++
      [⟨.message message.leaf, message⟩])

/-- Storing a message makes at most four puts. -/
theorem messagePuts_sublist [Crypto]
    (db : AbacusDB)
    (message : RawCommittedMessage)
    (destination : UInt32) :
    (messagePuts db message destination).Sublist
      [⟨.leaf message.leafIndex, message.leaf⟩,
        ⟨.latestLeafIndex, message.leafIndex⟩,
        ⟨.latestLeafIndexForDestination destination, message.leafIndex⟩,
        ⟨.message message.leaf, message⟩] := by
  have latest := raisingPuts_sublist ⟨.latestLeafIndex, message.leafIndex⟩
    (db .latestLeafIndex) message.leafIndex
  have forDestination := raisingPuts_sublist
    ⟨.latestLeafIndexForDestination destination, message.leafIndex⟩
    (db (.latestLeafIndexForDestination destination)) message.leafIndex
  exact ((latest.append forDestination).append
    (List.Sublist.refl [⟨.message message.leaf, message⟩])).cons_cons _

/-- Storing a parseable message makes exactly its puts. -/
theorem run_storeRawCommittedMessage [Crypto]
    {message : RawCommittedMessage}
    {parsed : AbacusMessage}
    (parses : AbacusMessage.parse message.message = .ok parsed)
    (db : AbacusDB) :
    storeRawCommittedMessage message db =
      (.ok (), messagePuts db message parsed.destination) := by
  have lifted : liftReport (AbacusMessage.parse message.message) db =
      (.ok parsed, []) := by
    rw [parses]
    rfl
  have latest : (⟨.leaf message.leafIndex, message.leaf⟩ : DbPut).apply db
      .latestLeafIndex = db .latestLeafIndex :=
    Journal.Put.apply_of_ne (by simp) db
  have destination : Journal.replay
      ((⟨.leaf message.leafIndex, message.leaf⟩ : DbPut).apply db)
      (raisingPuts ⟨.latestLeafIndex, message.leafIndex⟩
        (db .latestLeafIndex) message.leafIndex)
      (.latestLeafIndexForDestination parsed.destination) =
        db (.latestLeafIndexForDestination parsed.destination) := by
    rw [replay_raisingPuts_of_ne (by simp)]
    exact Journal.Put.apply_of_ne (by simp) db
  have leafStored :
      storeLeaf message.leafIndex parsed.destination message.leaf db =
        (.ok (), ⟨.leaf message.leafIndex, message.leaf⟩ ::
          (raisingPuts ⟨.latestLeafIndex, message.leafIndex⟩
              (db .latestLeafIndex) message.leafIndex ++
            raisingPuts
              ⟨.latestLeafIndexForDestination parsed.destination,
                message.leafIndex⟩
              (db (.latestLeafIndexForDestination parsed.destination))
              message.leafIndex)) := by
    unfold storeLeaf
    rw [Program.run_bind_ok (run_store _ _ _), Journal.replay_cons,
      Journal.replay_nil, Program.run_bind_ok (run_updateLatestLeafIndex _ _),
      run_updateLatestLeafIndexForDestination, latest, destination]
    rfl
  unfold storeRawCommittedMessage
  rw [Program.run_bind_ok lifted, Journal.replay_nil,
    Program.run_bind_ok leafStored, run_store]
  simp [messagePuts]

/-- A message that does not parse is not stored at all. -/
theorem run_storeRawCommittedMessage_error [Crypto]
    {message : RawCommittedMessage}
    {error : Report}
    (fails : AbacusMessage.parse message.message = .error error)
    (db : AbacusDB) :
    storeRawCommittedMessage message db = (.error (.error error), []) := by
  unfold storeRawCommittedMessage
  apply Program.run_bind_error
  rw [fails]
  rfl

/-- Logging the predecessor's index does not change how a message is stored,
except that it panics for index zero once some message is known. -/
theorem run_storeLatestMessage [Crypto]
    (message : RawCommittedMessage)
    {db : AbacusDB}
    (positive : db .latestLeafIndex = none ∨ 1 ≤ message.leafIndex) :
    storeLatestMessage message db = storeRawCommittedMessage message db := by
  unfold storeLatestMessage retrieveLatestLeafIndex
  rw [Program.run_bind_ok (run_retrieve _ _), Journal.replay_nil]
  cases latest : db .latestLeafIndex with
  | none => rfl
  | some idx =>
      rcases positive with none | positive
      · rw [none] at latest
        cases latest
      · have predecessor : (Program.lift (checkedSub message.leafIndex 1) :
            DbM UInt32) db = (.ok (message.leafIndex - 1), []) := by
          rw [Program.run_lift, checkedSub, if_pos positive]
        simp only
        rw [Program.run_bind_ok predecessor]
        rfl

/-- One message of a batch is stored like any other. -/
theorem run_storeBatchMessage [Crypto]
    {message : RawCommittedMessage}
    {parsed : AbacusMessage}
    {db : AbacusDB}
    (parses : AbacusMessage.parse message.message = .ok parsed)
    (positive : db .latestLeafIndex = none ∨ 1 ≤ message.leafIndex) :
    storeBatchMessage message db =
      (.ok message.leafIndex,
        messagePuts db message parsed.destination) := by
  have committed : ∀ after : AbacusDB,
      liftReport (CommittedMessage.tryFrom message) after =
        (.ok ⟨message.leafIndex, parsed⟩, []) := by
    intro after
    rw [CommittedMessage.tryFrom, parses]
    rfl
  have stored := run_storeLatestMessage message positive
  rw [run_storeRawCommittedMessage parses] at stored
  unfold storeBatchMessage
  rw [Program.run_bind_ok stored, Program.run_bind_ok (committed _)]
  simp

/-- A message of a batch that does not parse stops it before any put. -/
theorem run_storeBatchMessage_error [Crypto]
    {message : RawCommittedMessage}
    {error : Report}
    {db : AbacusDB}
    (fails : AbacusMessage.parse message.message = .error error)
    (positive : db .latestLeafIndex = none ∨ 1 ≤ message.leafIndex) :
    storeBatchMessage message db = (.error (.error error), []) := by
  have stored := run_storeLatestMessage message positive
  rw [run_storeRawCommittedMessage_error fails] at stored
  unfold storeBatchMessage
  exact Program.run_bind_error stored _

/-- The puts of a batch do not depend on the result passed along. -/
theorem journal_foldlM_storeBatchMessage [Crypto]
    (messages : List RawCommittedMessage)
    (first second : UInt32)
    (db : AbacusDB) :
    Program.journal (messages.foldlM
        (fun _ message => storeBatchMessage message) first : DbM UInt32) db =
      Program.journal (messages.foldlM
        (fun _ message => storeBatchMessage message) second : DbM UInt32)
        db := by
  cases messages <;> rfl

/-- A batch makes the puts of its first message and then those of the
others. -/
theorem journal_storeMessages_cons [Crypto]
    {message : RawCommittedMessage}
    {parsed : AbacusMessage}
    {db : AbacusDB}
    (parses : AbacusMessage.parse message.message = .ok parsed)
    (positive : db .latestLeafIndex = none ∨ 1 ≤ message.leafIndex)
    (rest : List RawCommittedMessage) :
    (storeMessages (message :: rest)).journal db =
      messagePuts db message parsed.destination ++
        (storeMessages rest).journal
          (Journal.replay db
            (messagePuts db message parsed.destination)) := by
  unfold storeMessages
  rw [journal_foldlM_storeBatchMessage rest 0 message.leafIndex,
    List.foldlM_cons, Program.journal,
    Program.run_bind_ok (run_storeBatchMessage parses positive)]
  rfl

/-! ## What a stored message leaves behind -/

/-- A put of a leaf writes that leaf and no other. -/
theorem apply_leaf
    (leafIndex : UInt32)
    (leaf : H256)
    (db : AbacusDB)
    (index : UInt32) :
    (⟨.leaf leafIndex, leaf⟩ : DbPut).apply db (.leaf index) =
      if index = leafIndex then some leaf else db (.leaf index) := by
  split
  · rename_i same
    subst same
    simp
  · rename_i different
    exact Journal.Put.apply_of_ne (by simpa using different) db

section Stored

variable [Crypto]
variable (db : AbacusDB)
variable (message : RawCommittedMessage)
variable (destination : UInt32)

/-- Storing a message writes its own leaf and no other. -/
theorem replay_messagePuts_leaf (index : UInt32) :
    Journal.replay db (messagePuts db message destination) (.leaf index) =
      if index = message.leafIndex then some message.leaf
      else db (.leaf index) := by
  rw [messagePuts, Journal.replay_cons, Journal.replay_append,
    Journal.replay_append, Journal.replay_cons, Journal.replay_nil,
    Journal.Put.apply_of_ne (by simp), replay_raisingPuts_of_ne (by simp),
    replay_raisingPuts_of_ne (by simp)]
  exact apply_leaf message.leafIndex message.leaf db index

/-- Storing a message writes its own body and no other. -/
theorem replay_messagePuts_message (leaf : H256) :
    Journal.replay db (messagePuts db message destination) (.message leaf) =
      if leaf = message.leaf then some message else db (.message leaf) := by
  rw [messagePuts, Journal.replay_cons, Journal.replay_append,
    Journal.replay_append, Journal.replay_cons, Journal.replay_nil]
  split
  · rename_i same
    subst same
    simp
  · rename_i different
    rw [Journal.Put.apply_of_ne (by simpa using different),
      replay_raisingPuts_of_ne (by simp), replay_raisingPuts_of_ne (by simp)]
    exact Journal.Put.apply_of_ne (by simp) db

/-- Storing a message above the latest one makes it the latest. -/
theorem replay_messagePuts_latestLeafIndex
    (above : ∀ idx, db .latestLeafIndex = some idx →
      idx < message.leafIndex) :
    Journal.replay db (messagePuts db message destination)
        .latestLeafIndex =
      some message.leafIndex := by
  rw [messagePuts, Journal.replay_cons, Journal.replay_append,
    Journal.replay_append, Journal.replay_cons, Journal.replay_nil,
    Journal.Put.apply_of_ne (by simp), replay_raisingPuts_of_ne (by simp),
    raisingPuts_eq_singleton above]
  simp

end Stored

end AbacusDB

end Abacus
