import Abacus.Db.GasPayments
import Abacus.Db.KeyLayout

/-!
# Handles simulate typed databases

Every operation of a handle does to the key-value store what the operation of
the same name does to the typed database of the entity, and returns the same.
No stored value fails to decode.
-/

namespace Abacus

open Journal (Layout Program)

/-! ## Reading a record -/

/-- Reading the encoding of a value. -/
theorem DB.run_retrieveDecodable [Decode V]
    {keyPrefix key : List UInt8}
    {rocks : Rocks}
    {value : Option V}
    {encode : V → List UInt8}
    (stored : rocks (keyPrefix ++ key) = value.map encode)
    (decodes : ∀ found, value = some found →
      readFromSlice (encode found) = .ok found) :
    retrieveDecodable V keyPrefix key rocks = (.ok value, []) := by
  have content : prefixRetrieve keyPrefix key rocks =
      (.ok (value.map encode), []) := by
    rw [← stored]
    rfl
  rw [retrieveDecodable, Program.run_bind_ok content]
  cases value with
  | none => rfl
  | some found =>
      simp only [Option.map_some, decodes found rfl]
      rfl

section

variable {entity : Entity}
variable {program : RocksM (Option α)} {value : AbacusDB → Option α}

/-- A read has no error that could be ignored. -/
theorem reads_valueOrNone (reads : dbLayout.Reads entity program value) :
    dbLayout.Reads entity (valueOrNone program) value := by
  intro rocks stores represents
  rw [valueOrNone, reads rocks stores represents]

/-- A read has no error that could become a panic. -/
theorem reads_expectDb (reads : dbLayout.Reads entity program value) :
    dbLayout.Reads entity (expectDb program) value := by
  intro rocks stores represents
  rw [expectDb, reads rocks stores represents]

end

namespace DbHandle

variable (entity : Entity)

theorem reads_leafByLeafIndex (leafIndex : UInt32) :
    dbLayout.Reads entity (entity.handle.leafByLeafIndex leafIndex)
      fun db => db (.leaf leafIndex) :=
  fun _ _ represents =>
    DB.run_retrieveDecodable (represents.content entity (.leaf leafIndex))
      (represents.decodes entity (.leaf leafIndex))

theorem reads_messageByLeaf (leaf : H256) :
    dbLayout.Reads entity (entity.handle.messageByLeaf leaf)
      fun db => db (.message leaf) :=
  fun _ _ represents =>
    DB.run_retrieveDecodable (represents.content entity (.message leaf))
      (represents.decodes entity (.message leaf))

theorem reads_proofByLeafIndex (leafIndex : UInt32) :
    dbLayout.Reads entity (entity.handle.proofByLeafIndex leafIndex)
      fun db => db (.proof leafIndex) :=
  fun _ _ represents =>
    DB.run_retrieveDecodable (represents.content entity (.proof leafIndex))
      (represents.decodes entity (.proof leafIndex))

theorem reads_retrieveLatestLeafIndex :
    dbLayout.Reads entity entity.handle.retrieveLatestLeafIndex
      fun db => db .latestLeafIndex :=
  fun _ _ represents =>
    DB.run_retrieveDecodable (represents.content entity .latestLeafIndex)
      (represents.decodes entity .latestLeafIndex)

theorem reads_retrieveLatestLeafIndexForDestination (destination : UInt32) :
    dbLayout.Reads entity
      (entity.handle.retrieveLatestLeafIndexForDestination destination)
      fun db => db (.latestLeafIndexForDestination destination) :=
  fun _ _ represents =>
    DB.run_retrieveDecodable
      (represents.content entity (.latestLeafIndexForDestination destination))
      (represents.decodes entity (.latestLeafIndexForDestination destination))

theorem reads_messageByLeafIndex (index : UInt32) :
    dbLayout.Reads entity (entity.handle.messageByLeafIndex index)
      fun db => (db (.leaf index)).bind fun leaf => db (.message leaf) := by
  refine Layout.Reads.bind (reads_leafByLeafIndex entity index)
    (?_ : ∀ found, dbLayout.Reads entity _ fun db =>
      found.bind fun leaf => db (.message leaf))
  rintro (_ | leaf)
  · exact Layout.Reads.pure none
  · exact reads_messageByLeaf entity leaf

theorem reads_retrieveLeafProcessingStatus (leafIndex : UInt32) :
    dbLayout.Reads entity
      (entity.handle.retrieveLeafProcessingStatus leafIndex)
      fun db => Option.map (fun status : UInt32 => status == 1)
        (db (.leafProcessStatus leafIndex)) := by
  have record : dbLayout.Reads entity
      (entity.handle.retrieveKeyedDecodable UInt32 leafProcessStatusPrefix
        leafIndex) fun db => db (.leafProcessStatus leafIndex) :=
    fun _ _ represents =>
      DB.run_retrieveDecodable
        (represents.content entity (.leafProcessStatus leafIndex))
        (represents.decodes entity (.leafProcessStatus leafIndex))
  exact record.bind fun value => Layout.Reads.pure _

theorem reads_retrieveGasPaymentMetaProcessed
    (paymentMeta : InterchainGasPaymentMeta) :
    dbLayout.Reads entity
      (entity.handle.retrieveGasPaymentMetaProcessed paymentMeta)
      fun db => AbacusDB.gasPaymentProcessed db paymentMeta := by
  have record : dbLayout.Reads entity
      (entity.handle.retrieveKeyedDecodable Bool gasPaymentMetaProcessedPrefix
        paymentMeta) fun db => db (.gasPaymentMetaProcessed paymentMeta) :=
    fun _ _ represents =>
      DB.run_retrieveDecodable
        (represents.content entity (.gasPaymentMetaProcessed paymentMeta))
        (represents.decodes entity (.gasPaymentMetaProcessed paymentMeta))
  exact record.bind fun value => Layout.Reads.pure _

theorem reads_retrieveGasPaymentForLeaf (leafIndex : UInt32) :
    dbLayout.Reads entity (entity.handle.retrieveGasPaymentForLeaf leafIndex)
      fun db => AbacusDB.gasPaymentTotal db leafIndex := by
  have record : dbLayout.Reads entity
      (entity.handle.retrieveKeyedDecodable U256 gasPaymentForLeafPrefix
        leafIndex) fun db => db (.gasPaymentForLeaf leafIndex) :=
    fun _ _ represents =>
      DB.run_retrieveDecodable
        (represents.content entity (.gasPaymentForLeaf leafIndex))
        fun found _ => readFromSlice_u256 found
  exact record.bind fun value => Layout.Reads.pure _

theorem reads_retrieveLatestValidMessageRangeStartBlock :
    dbLayout.Reads entity
      entity.handle.retrieveLatestValidMessageRangeStartBlock
      fun db => db .latestValidMessageRangeStartBlock :=
  reads_expectDb fun _ _ represents =>
    DB.run_retrieveDecodable
      (represents.content entity .latestValidMessageRangeStartBlock)
      (represents.decodes entity .latestValidMessageRangeStartBlock)

theorem reads_retrieveLatestIndexedGasPaymentBlock :
    dbLayout.Reads entity
      entity.handle.retrieveLatestIndexedGasPaymentBlock
      fun db => db .latestIndexedGasPaymentBlock :=
  reads_expectDb fun _ _ represents =>
    DB.run_retrieveDecodable
      (represents.content entity .latestIndexedGasPaymentBlock)
      (represents.decodes entity .latestIndexedGasPaymentBlock)

/-! ## Messages -/

theorem simulates_updateLatestLeafIndex (leafIndex : UInt32) :
    dbLayout.Simulates entity
      (entity.handle.updateLatestLeafIndex leafIndex)
      (AbacusDB.updateLatestLeafIndex leafIndex) := by
  have write : dbLayout.Simulates entity
      (entity.handle.storeEncodable [] latestLeafIndexKey leafIndex)
      (AbacusDB.store .latestLeafIndex leafIndex) :=
    Layout.Simulates.store (readFromSlice_u32 leafIndex)
  apply ((reads_valueOrNone (reads_retrieveLatestLeafIndex entity)).simulates
    (AbacusDB.run_retrieve .latestLeafIndex)).bind
  rintro (_ | idx)
  · exact write
  · simp only
    split
    · exact Layout.Simulates.pure ()
    · exact write

theorem simulates_updateLatestLeafIndexForDestination
    (destination leafIndex : UInt32) :
    dbLayout.Simulates entity
      (entity.handle.updateLatestLeafIndexForDestination destination leafIndex)
      (AbacusDB.updateLatestLeafIndexForDestination destination
        leafIndex) := by
  have write : dbLayout.Simulates entity
      (entity.handle.storeKeyedEncodable latestLeafIndexForDestinationPrefix
        destination leafIndex)
      (AbacusDB.store (.latestLeafIndexForDestination destination)
        leafIndex) :=
    Layout.Simulates.store (readFromSlice_u32 leafIndex)
  apply ((reads_valueOrNone
    (reads_retrieveLatestLeafIndexForDestination entity
      destination)).simulates
      (AbacusDB.run_retrieve (.latestLeafIndexForDestination destination))).bind
  rintro (_ | idx)
  · exact write
  · simp only
    split
    · exact Layout.Simulates.pure ()
    · exact write

theorem simulates_storeLeaf (leafIndex destination : UInt32) (leaf : H256) :
    dbLayout.Simulates entity
      (entity.handle.storeLeaf leafIndex destination leaf)
      (AbacusDB.storeLeaf leafIndex destination leaf) := by
  have write : dbLayout.Simulates entity
      (entity.handle.storeKeyedEncodable leafPrefix leafIndex leaf)
      (AbacusDB.store (.leaf leafIndex) leaf) :=
    Layout.Simulates.store (readFromSlice_h256 leaf)
  exact write.bind fun _ =>
    (simulates_updateLatestLeafIndex entity leafIndex).bind fun _ =>
      simulates_updateLatestLeafIndexForDestination entity destination
        leafIndex

theorem simulates_storeRawCommittedMessage [Crypto]
    (message : RawCommittedMessage) :
    dbLayout.Simulates entity
      (entity.handle.storeRawCommittedMessage message)
      (AbacusDB.storeRawCommittedMessage message) := by
  have write : dbLayout.Simulates entity
      (entity.handle.storeKeyedEncodable messagePrefix message.leaf message)
      (AbacusDB.store (.message message.leaf) message) :=
    Layout.Simulates.store (readFromSlice_rawCommittedMessage message)
  exact (Layout.Simulates.lift _).bind fun parsed =>
    (simulates_storeLeaf entity message.leafIndex parsed.destination
      message.leaf).bind fun _ => write

/-! ## Proofs and processing status -/

theorem simulates_storeProof
    (leafIndex : UInt32)
    {proof : Proof H256}
    (fits : proof.index < 2 ^ 64) :
    dbLayout.Simulates entity (entity.handle.storeProof leafIndex proof)
      (AbacusDB.storeProof leafIndex proof) :=
  Layout.Simulates.store (readFromSlice_proof fits)

theorem simulates_markLeafAsProcessed (leafIndex : UInt32) :
    dbLayout.Simulates entity (entity.handle.markLeafAsProcessed leafIndex)
      (AbacusDB.markLeafAsProcessed leafIndex) :=
  Layout.Simulates.store (readFromSlice_u32 1)

/-! ## Gas payments -/

/-- A total is read back. -/
theorem decodes_gasPaymentForLeaf (leafIndex : UInt32) (total : U256) :
    dbLayout.Decodes (.gasPaymentForLeaf leafIndex) total := by
  have encode : dbLayout.encode (.gasPaymentForLeaf leafIndex) total =
      Encode.toVec total := rfl
  have decode : dbLayout.decode (.gasPaymentForLeaf leafIndex) =
      readFromSlice (α := U256) := rfl
  rw [Layout.Decodes, encode, decode]
  exact readFromSlice_u256 total

theorem simulates_updateGasPaymentForLeaf (payment : InterchainGasPayment) :
    dbLayout.Simulates entity
      (entity.handle.updateGasPaymentForLeaf payment)
      (AbacusDB.updateGasPaymentForLeaf payment) :=
  ((reads_retrieveGasPaymentForLeaf entity payment.leafIndex).simulates
    (AbacusDB.run_retrieveGasPaymentForLeaf payment.leafIndex)).bind
      fun _ => (Layout.Simulates.lift _).bind fun total =>
        Layout.Simulates.store
          (decodes_gasPaymentForLeaf payment.leafIndex total)

theorem simulates_processGasPayment
    (payment : InterchainGasPaymentWithMeta) :
    dbLayout.Simulates entity (entity.handle.processGasPayment payment)
      (AbacusDB.processGasPayment payment) := by
  have record : dbLayout.Simulates entity
      (entity.handle.storeGasPaymentMetaProcessed payment.paymentMeta)
      (AbacusDB.storeGasPaymentMetaProcessed payment.paymentMeta) :=
    Layout.Simulates.store (readFromSlice_bool true)
  apply ((reads_retrieveGasPaymentMetaProcessed entity
    payment.paymentMeta).simulates
      (AbacusDB.run_retrieveGasPaymentMetaProcessed payment.paymentMeta)).bind
  rintro (_ | _)
  · exact record.bind fun _ =>
      simulates_updateGasPaymentForLeaf entity payment.payment
  · exact Layout.Simulates.pure ()

/-! ## Progress of the indexer -/

theorem simulates_storeLatestValidMessageRangeStartBlock
    (blockNum : UInt32) :
    dbLayout.Simulates entity
      (entity.handle.storeLatestValidMessageRangeStartBlock blockNum)
      (AbacusDB.storeLatestValidMessageRangeStartBlock blockNum) :=
  Layout.Simulates.store (readFromSlice_u32 blockNum)

theorem simulates_storeLatestIndexedGasPaymentBlock (latestBlock : UInt32) :
    dbLayout.Simulates entity
      (entity.handle.storeLatestIndexedGasPaymentBlock latestBlock)
      (AbacusDB.storeLatestIndexedGasPaymentBlock latestBlock) :=
  Layout.Simulates.store (readFromSlice_u32 latestBlock)

end DbHandle

end Abacus
