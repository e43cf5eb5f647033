import Abacus.Db.Encoding

/-!
# The database of bytes

All records of all entities lie in one store of byte strings. A key is the name
of the entity, an underscore, a text for the kind of the record, and the
encoded key of the record, without delimiters. A handle reads and writes the
records of its entity.
-/

namespace Abacus

open Journal (Program)

/-- Contents of the key-value store. -/
abbrev Rocks := Journal.Store (List UInt8) fun _ => List UInt8

/-- A program over the key-value store. -/
abbrev RocksM (α : Type) :=
  Program (List UInt8) (fun _ => List UInt8) (Fault Report) α

/-- The bytes of a text. -/
def utf8 (text : String) : List UInt8 := text.toUTF8.data.toList

/-! ## The key-value store -/

namespace DB

/-- Store under a prefixed key. -/
def prefixStore (keyPrefix key value : List UInt8) : RocksM Unit :=
  Program.put (keyPrefix ++ key) value

/-- Retrieve from a prefixed key. -/
def prefixRetrieve (keyPrefix key : List UInt8) :
    RocksM (Option (List UInt8)) :=
  Program.get (keyPrefix ++ key)

/-- Store the encoding of a value. -/
def storeEncodable [Encode V] (keyPrefix key : List UInt8) (value : V) :
    RocksM Unit :=
  prefixStore keyPrefix key (Encode.toVec value)

/-- Retrieve a value and decode it. -/
def retrieveDecodable (V : Type) [Decode V] (keyPrefix key : List UInt8) :
    RocksM (Option V) := do
  match ← prefixRetrieve keyPrefix key with
  | some val =>
      some <$> Program.lift ((readFromSlice val).mapError Fault.error)
  | none => return none

/-- Store a value under an encoded key. -/
def storeKeyedEncodable [Encode K] [Encode V] (keyPrefix : List UInt8)
    (key : K) (value : V) : RocksM Unit :=
  storeEncodable keyPrefix (Encode.toVec key) value

/-- Retrieve the value of an encoded key. -/
def retrieveKeyedDecodable (V : Type) [Encode K] [Decode V]
    (keyPrefix : List UInt8) (key : K) : RocksM (Option V) :=
  retrieveDecodable V keyPrefix (Encode.toVec key)

end DB

/-! ## Handles of an entity -/

/-- A handle for the data of an entity. -/
structure TypedDB where
  entity : String
  deriving DecidableEq

namespace TypedDB

variable (db : TypedDB)

/-- The prefix of the keys of an entity. -/
def fullPrefix (keyPrefix : List UInt8) : List UInt8 :=
  utf8 db.entity ++ (95 :: keyPrefix)

/-- Store the encoding of a value. -/
def storeEncodable [Encode V] (keyPrefix key : List UInt8) (value : V) :
    RocksM Unit :=
  DB.storeEncodable (db.fullPrefix keyPrefix) key value

/-- Retrieve a value and decode it. -/
def retrieveDecodable (V : Type) [Decode V] (keyPrefix key : List UInt8) :
    RocksM (Option V) :=
  DB.retrieveDecodable V (db.fullPrefix keyPrefix) key

/-- Store a value under an encoded key. -/
def storeKeyedEncodable [Encode K] [Encode V] (keyPrefix : List UInt8)
    (key : K) (value : V) : RocksM Unit :=
  DB.storeKeyedEncodable (db.fullPrefix keyPrefix) key value

/-- Retrieve the value of an encoded key. -/
def retrieveKeyedDecodable (V : Type) [Encode K] [Decode V]
    (keyPrefix : List UInt8) (key : K) : RocksM (Option V) :=
  DB.retrieveKeyedDecodable V (db.fullPrefix keyPrefix) key

end TypedDB

/-! ## Handles of an outbox -/

/-- A handle for the data of an outbox. -/
abbrev DbHandle := TypedDB

/-- `if let Ok(Some(..))`: an error counts as no value. -/
def valueOrNone (program : RocksM (Option α)) : RocksM (Option α) :=
  fun rocks =>
    match program rocks with
    | (.error (.error _), puts) => (.ok none, puts)
    | outcome => outcome

/-- `expect("db failure")`: an error is a panic. -/
def expectDb (program : RocksM α) : RocksM α :=
  fun rocks =>
    match program rocks with
    | (.error (.error _), puts) => (.error (.panic .dbFailure), puts)
    | outcome => outcome

namespace DbHandle

def leafPrefix : List UInt8 := utf8 "leaf_"

def proofPrefix : List UInt8 := utf8 "proof_"

def messagePrefix : List UInt8 := utf8 "message_"

def latestLeafIndexKey : List UInt8 := utf8 "latest_known_leaf_index_"

def latestLeafIndexForDestinationPrefix : List UInt8 :=
  utf8 "latest_known_leaf_index_for_destination_"

def leafProcessStatusPrefix : List UInt8 := utf8 "leaf_process_status_"

def gasPaymentForLeafPrefix : List UInt8 := utf8 "gas_payment_for_leaf_"

def gasPaymentMetaProcessedPrefix : List UInt8 :=
  utf8 "gas_payment_meta_processed_"

def latestValidMessageRangeStartBlockKey : List UInt8 :=
  utf8 "latest_valid_message_range_start_block"

def latestIndexedGasPaymentBlockKey : List UInt8 :=
  utf8 "latest_indexed_gas_payment_block"

variable (db : DbHandle)

/-- The highest known leaf index. -/
def retrieveLatestLeafIndex : RocksM (Option UInt32) :=
  db.retrieveDecodable UInt32 [] latestLeafIndexKey

/-- Raise the highest known leaf index. -/
def updateLatestLeafIndex (leafIndex : UInt32) : RocksM Unit := do
  match ← valueOrNone db.retrieveLatestLeafIndex with
  | some idx =>
      if leafIndex ≤ idx then return ()
      else db.storeEncodable [] latestLeafIndexKey leafIndex
  | none => db.storeEncodable [] latestLeafIndexKey leafIndex

/-- The highest known leaf index for a destination. -/
def retrieveLatestLeafIndexForDestination (destination : UInt32) :
    RocksM (Option UInt32) :=
  db.retrieveKeyedDecodable UInt32 latestLeafIndexForDestinationPrefix
    destination

/-- Raise the highest known leaf index for a destination. -/
def updateLatestLeafIndexForDestination (destination leafIndex : UInt32) :
    RocksM Unit := do
  match ← valueOrNone
      (db.retrieveLatestLeafIndexForDestination destination) with
  | some idx =>
      if leafIndex ≤ idx then return ()
      else
        db.storeKeyedEncodable latestLeafIndexForDestinationPrefix
          destination leafIndex
  | none =>
      db.storeKeyedEncodable latestLeafIndexForDestinationPrefix
        destination leafIndex

/-- Store a leaf by its index and raise the two latest indices. -/
def storeLeaf (leafIndex destination : UInt32) (leaf : H256) :
    RocksM Unit := do
  db.storeKeyedEncodable leafPrefix leafIndex leaf
  db.updateLatestLeafIndex leafIndex
  db.updateLatestLeafIndexForDestination destination leafIndex

/-- Store a message: its leaf, the latest indices, and last its body. -/
def storeRawCommittedMessage [Crypto] (message : RawCommittedMessage) :
    RocksM Unit := do
  let parsed ← (Program.lift
    ((AbacusMessage.parse message.message).mapError Fault.error) :
      RocksM AbacusMessage)
  let leaf := message.leaf
  db.storeLeaf message.leafIndex parsed.destination leaf
  db.storeKeyedEncodable messagePrefix leaf message

/-- The message of a leaf. -/
def messageByLeaf (leaf : H256) : RocksM (Option RawCommittedMessage) :=
  db.retrieveKeyedDecodable RawCommittedMessage messagePrefix leaf

/-- The leaf at an index. -/
def leafByLeafIndex (leafIndex : UInt32) : RocksM (Option H256) :=
  db.retrieveKeyedDecodable H256 leafPrefix leafIndex

/-- The message at an index. -/
def messageByLeafIndex (index : UInt32) :
    RocksM (Option RawCommittedMessage) := do
  match ← db.leafByLeafIndex index with
  | none => return none
  | some leaf => db.messageByLeaf leaf

/-- Store the proof of a leaf. -/
def storeProof (leafIndex : UInt32) (proof : Proof H256) : RocksM Unit :=
  db.storeKeyedEncodable proofPrefix leafIndex proof

/-- The stored proof of a leaf. -/
def proofByLeafIndex (leafIndex : UInt32) : RocksM (Option (Proof H256)) :=
  db.retrieveKeyedDecodable (Proof H256) proofPrefix leafIndex

/-- Mark a leaf as processed. -/
def markLeafAsProcessed (leafIndex : UInt32) : RocksM Unit :=
  db.storeKeyedEncodable leafProcessStatusPrefix leafIndex (1 : UInt32)

/-- The processing status of a leaf. -/
def retrieveLeafProcessingStatus (leafIndex : UInt32) :
    RocksM (Option Bool) := do
  let value ← db.retrieveKeyedDecodable UInt32 leafProcessStatusPrefix
    leafIndex
  return value.map fun status => status == 1

/-- Record a gas payment as processed. -/
def storeGasPaymentMetaProcessed (paymentMeta : InterchainGasPaymentMeta) :
    RocksM Unit :=
  db.storeKeyedEncodable gasPaymentMetaProcessedPrefix paymentMeta true

/-- Whether a gas payment has been processed. -/
def retrieveGasPaymentMetaProcessed
    (paymentMeta : InterchainGasPaymentMeta) : RocksM Bool := do
  let value ← db.retrieveKeyedDecodable Bool gasPaymentMetaProcessedPrefix
    paymentMeta
  return value.getD false

/-- The total gas payment for a leaf. -/
def retrieveGasPaymentForLeaf (leafIndex : UInt32) : RocksM U256 := do
  let value ← db.retrieveKeyedDecodable U256 gasPaymentForLeafPrefix leafIndex
  return value.getD 0

/-- Add a gas payment to the total of its leaf. -/
def updateGasPaymentForLeaf (gasPayment : InterchainGasPayment) :
    RocksM Unit := do
  let existingPayment ← db.retrieveGasPaymentForLeaf gasPayment.leafIndex
  let total ← (Program.lift
    (AbacusDB.addU256 existingPayment gasPayment.amount) : RocksM U256)
  db.storeKeyedEncodable gasPaymentForLeafPrefix gasPayment.leafIndex total

/-- Process a gas payment that has not been processed yet. -/
def processGasPayment (gasPaymentWithMeta : InterchainGasPaymentWithMeta) :
    RocksM Unit := do
  if ← db.retrieveGasPaymentMetaProcessed gasPaymentWithMeta.paymentMeta then
    return ()
  else do
    db.storeGasPaymentMetaProcessed gasPaymentWithMeta.paymentMeta
    db.updateGasPaymentForLeaf gasPaymentWithMeta.payment

/-- Store the start of the latest valid message range. -/
def storeLatestValidMessageRangeStartBlock (blockNum : UInt32) :
    RocksM Unit :=
  db.storeEncodable [] latestValidMessageRangeStartBlockKey blockNum

/-- The start of the latest valid message range. -/
def retrieveLatestValidMessageRangeStartBlock : RocksM (Option UInt32) :=
  expectDb (db.retrieveDecodable UInt32 []
    latestValidMessageRangeStartBlockKey)

/-- Store the latest block indexed for gas payments. -/
def storeLatestIndexedGasPaymentBlock (latestBlock : UInt32) : RocksM Unit :=
  db.storeEncodable [] latestIndexedGasPaymentBlockKey latestBlock

/-- The latest block indexed for gas payments. -/
def retrieveLatestIndexedGasPaymentBlock : RocksM (Option UInt32) :=
  expectDb (db.retrieveDecodable UInt32 [] latestIndexedGasPaymentBlockKey)

end DbHandle

end Abacus
