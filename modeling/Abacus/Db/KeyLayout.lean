import Abacus.Db.RocksDB
import Abacus.Library.Layout
import Mathlib.Data.List.Basic

/-!
# No two records share a key

The keys have no delimiters, and some prefixes begin with others. They are
told apart by the underscore behind the entity, by the lengths of the rest,
and where two lengths agree by the second byte.
-/

namespace Abacus

open DbHandle

/-- An entity whose name contains no underscore. -/
structure Entity where
  name : String
  no_underscore : 95 ∉ utf8 name
  deriving DecidableEq

/-- The handle of an entity. -/
def Entity.handle (entity : Entity) : DbHandle := ⟨entity.name⟩

/-- The bytes of a text determine it. -/
theorem utf8_injective : Function.Injective utf8 := by
  intro first second same
  have bytes : first.toUTF8 = second.toUTF8 :=
    ByteArray.ext (Array.toList_inj.mp same)
  exact String.toByteArray_inj.mp bytes

namespace Record

/-- The text for the kind of a record. -/
def keyPrefix : Record → List UInt8
  | .leaf _ => leafPrefix
  | .proof _ => proofPrefix
  | .message _ => messagePrefix
  | .latestLeafIndexForDestination _ => latestLeafIndexForDestinationPrefix
  | .leafProcessStatus _ => leafProcessStatusPrefix
  | .gasPaymentForLeaf _ => gasPaymentForLeafPrefix
  | .gasPaymentMetaProcessed _ => gasPaymentMetaProcessedPrefix
  | .latestLeafIndex | .latestValidMessageRangeStartBlock
  | .latestIndexedGasPaymentBlock => []

/-- The key of a record behind its prefix. -/
def keyBytes : Record → List UInt8
  | .leaf leafIndex => Encode.toVec leafIndex
  | .proof leafIndex => Encode.toVec leafIndex
  | .message hash => Encode.toVec hash
  | .latestLeafIndex => latestLeafIndexKey
  | .latestLeafIndexForDestination destination => Encode.toVec destination
  | .leafProcessStatus leafIndex => Encode.toVec leafIndex
  | .gasPaymentForLeaf leafIndex => Encode.toVec leafIndex
  | .gasPaymentMetaProcessed paymentMeta => Encode.toVec paymentMeta
  | .latestValidMessageRangeStartBlock => latestValidMessageRangeStartBlockKey
  | .latestIndexedGasPaymentBlock => latestIndexedGasPaymentBlockKey

/-- The encoding of a value of a record. -/
def encode : (key : Record) → key.Value → List UInt8
  | .leaf _, value => Encode.toVec (α := H256) value
  | .proof _, value => Encode.toVec (α := Proof H256) value
  | .message _, value => Encode.toVec (α := RawCommittedMessage) value
  | .latestLeafIndex, value => Encode.toVec (α := UInt32) value
  | .latestLeafIndexForDestination _, value => Encode.toVec (α := UInt32) value
  | .leafProcessStatus _, value => Encode.toVec (α := UInt32) value
  | .gasPaymentForLeaf _, value => Encode.toVec (α := U256) value
  | .gasPaymentMetaProcessed _, value => Encode.toVec (α := Bool) value
  | .latestValidMessageRangeStartBlock, value =>
      Encode.toVec (α := UInt32) value
  | .latestIndexedGasPaymentBlock, value => Encode.toVec (α := UInt32) value

/-- The decoder of a value of a record. -/
def decode : (key : Record) → List UInt8 → Except Report key.Value
  | .leaf _ => readFromSlice (α := H256)
  | .proof _ => readFromSlice (α := Proof H256)
  | .message _ => readFromSlice (α := RawCommittedMessage)
  | .latestLeafIndex => readFromSlice (α := UInt32)
  | .latestLeafIndexForDestination _ => readFromSlice (α := UInt32)
  | .leafProcessStatus _ => readFromSlice (α := UInt32)
  | .gasPaymentForLeaf _ => readFromSlice (α := U256)
  | .gasPaymentMetaProcessed _ => readFromSlice (α := Bool)
  | .latestValidMessageRangeStartBlock => readFromSlice (α := UInt32)
  | .latestIndexedGasPaymentBlock => readFromSlice (α := UInt32)

/-! ## Kinds -/

/-- The kinds of records. -/
inductive Kind
  | leaf
  | proof
  | message
  | latestLeafIndex
  | latestLeafIndexForDestination
  | leafProcessStatus
  | gasPaymentForLeaf
  | gasPaymentMetaProcessed
  | latestValidMessageRangeStartBlock
  | latestIndexedGasPaymentBlock
  deriving DecidableEq

/-- The kind of a record. -/
def kind : Record → Kind
  | .leaf _ => .leaf
  | .proof _ => .proof
  | .message _ => .message
  | .latestLeafIndex => .latestLeafIndex
  | .latestLeafIndexForDestination _ => .latestLeafIndexForDestination
  | .leafProcessStatus _ => .leafProcessStatus
  | .gasPaymentForLeaf _ => .gasPaymentForLeaf
  | .gasPaymentMetaProcessed _ => .gasPaymentMetaProcessed
  | .latestValidMessageRangeStartBlock => .latestValidMessageRangeStartBlock
  | .latestIndexedGasPaymentBlock => .latestIndexedGasPaymentBlock

/-- What tells the kinds apart: the length of the key behind the entity, and
its second byte. -/
def Kind.mark : Kind → Nat × UInt8
  | .leaf => (9, 101)
  | .proof => (10, 114)
  | .message => (40, 101)
  | .latestLeafIndex => (24, 97)
  | .latestLeafIndexForDestination => (44, 97)
  | .leafProcessStatus => (24, 101)
  | .gasPaymentForLeaf => (25, 97)
  | .gasPaymentMetaProcessed => (91, 97)
  | .latestValidMessageRangeStartBlock => (38, 97)
  | .latestIndexedGasPaymentBlock => (32, 97)

theorem Kind.mark_injective : Function.Injective Kind.mark := by
  intro first second same
  cases first <;> cases second <;> first | rfl | exact absurd same (by decide)

/-- The encoded metadata of a payment is two times 32 bytes. -/
theorem length_toVec_meta (paymentMeta : InterchainGasPaymentMeta) :
    (Encode.toVec paymentMeta).length = 64 := by
  change (paymentMeta.transactionHash.bytes ++
    (u256ToLittleEndian paymentMeta.logIndex).bytes).length = 64
  rw [List.length_append, FixedBytes.length_bytes, FixedBytes.length_bytes]

/-- The mark of a byte string. -/
def markOf (bytes : List UInt8) : Nat × UInt8 :=
  (bytes.length, bytes.getD 1 0)

/-- The mark of a text with a key behind it. -/
theorem markOf_append
    {front rest : List UInt8}
    {length total : Nat}
    {second : UInt8}
    (marked : markOf front = (length, second))
    (long : 2 ≤ length)
    (sum : length + rest.length = total) :
    markOf (front ++ rest) = (total, second) := by
  obtain ⟨rfl, rfl⟩ := Prod.mk.inj marked
  rw [markOf, List.length_append, sum]
  congr 1
  rw [List.getD_eq_getElem?_getD, List.getD_eq_getElem?_getD,
    List.getElem?_append_left long]

/-- The mark of a kind is read off every key of the kind. -/
theorem markOf_key (key : Record) :
    markOf (key.keyPrefix ++ key.keyBytes) = key.kind.mark := by
  have four : ∀ value : UInt32, (Encode.toVec value).length = 4 :=
    fun value => (u32ToBeBytes value).length_bytes
  cases key with
  | leaf leafIndex =>
      exact markOf_append (show markOf leafPrefix = (5, 101) by decide)
        (by decide) (by rw [keyBytes, four])
  | proof leafIndex =>
      exact markOf_append (show markOf proofPrefix = (6, 114) by decide)
        (by decide) (by rw [keyBytes, four])
  | message hash =>
      exact markOf_append (show markOf messagePrefix = (8, 101) by decide)
        (by decide) (congrArg (8 + ·) hash.length_bytes)
  | latestLeafIndex => decide
  | latestLeafIndexForDestination destination =>
      exact markOf_append
        (show markOf latestLeafIndexForDestinationPrefix = (40, 97) by decide)
        (by decide) (by rw [keyBytes, four])
  | leafProcessStatus leafIndex =>
      exact markOf_append
        (show markOf leafProcessStatusPrefix = (20, 101) by decide)
        (by decide) (by rw [keyBytes, four])
  | gasPaymentForLeaf leafIndex =>
      exact markOf_append
        (show markOf gasPaymentForLeafPrefix = (21, 97) by decide)
        (by decide) (by rw [keyBytes, four])
  | gasPaymentMetaProcessed paymentMeta =>
      exact markOf_append
        (show markOf gasPaymentMetaProcessedPrefix = (27, 97) by decide)
        (by decide) (congrArg (27 + ·) (length_toVec_meta paymentMeta))
  | latestValidMessageRangeStartBlock => decide
  | latestIndexedGasPaymentBlock => decide

/-! ## Injectivity -/

/-- The encoding of a `u32` determines it. -/
theorem toVec_u32_injective
    {first second : UInt32}
    (same : Encode.toVec first = Encode.toVec second) :
    first = second :=
  (readsExactly_u32 first).eq_of_isPrefix (readsExactly_u32 second)
    (same ▸ List.prefix_rfl)

/-- The encoding of the metadata of a payment determines it. -/
theorem toVec_meta_injective
    {first second : InterchainGasPaymentMeta}
    (same : Encode.toVec first = Encode.toVec second) :
    first = second :=
  (readsExactly_interchainGasPaymentMeta first).eq_of_isPrefix
    (readsExactly_interchainGasPaymentMeta second) (same ▸ List.prefix_rfl)

/-- Two records with the same key are the same. -/
theorem key_injective
    {first second : Record}
    (same : first.keyPrefix ++ first.keyBytes =
      second.keyPrefix ++ second.keyBytes) :
    first = second := by
  have kinds : first.kind = second.kind := by
    apply Kind.mark_injective
    rw [← markOf_key, ← markOf_key, same]
  cases first with
  | leaf leafIndex =>
      cases second with
      | leaf other =>
          rw [toVec_u32_injective (List.append_cancel_left same)]
      | _ => cases kinds
  | proof leafIndex =>
      cases second with
      | proof other =>
          rw [toVec_u32_injective (List.append_cancel_left same)]
      | _ => cases kinds
  | message hash =>
      cases second with
      | message other =>
          rw [FixedBytes.ext (List.append_cancel_left same)]
      | _ => cases kinds
  | latestLeafIndexForDestination destination =>
      cases second with
      | latestLeafIndexForDestination other =>
          rw [toVec_u32_injective (List.append_cancel_left same)]
      | _ => cases kinds
  | leafProcessStatus leafIndex =>
      cases second with
      | leafProcessStatus other =>
          rw [toVec_u32_injective (List.append_cancel_left same)]
      | _ => cases kinds
  | gasPaymentForLeaf leafIndex =>
      cases second with
      | gasPaymentForLeaf other =>
          rw [toVec_u32_injective (List.append_cancel_left same)]
      | _ => cases kinds
  | gasPaymentMetaProcessed paymentMeta =>
      cases second with
      | gasPaymentMetaProcessed other =>
          rw [toVec_meta_injective (List.append_cancel_left same)]
      | _ => cases kinds
  | latestLeafIndex =>
      cases second with
      | latestLeafIndex => rfl
      | _ => cases kinds
  | latestValidMessageRangeStartBlock =>
      cases second with
      | latestValidMessageRangeStartBlock => rfl
      | _ => cases kinds
  | latestIndexedGasPaymentBlock =>
      cases second with
      | latestIndexedGasPaymentBlock => rfl
      | _ => cases kinds

end Record

/-! ## The layout -/

/-- The key of a record of an entity. -/
def Entity.address (entity : Entity) (key : Record) : List UInt8 :=
  entity.handle.fullPrefix key.keyPrefix ++ key.keyBytes

/-- Different records of any entities have different keys. -/
theorem Entity.address_injective
    {first second : Entity}
    {firstKey secondKey : Record}
    (same : first.address firstKey = second.address secondKey) :
    first = second ∧ firstKey = secondKey := by
  unfold Entity.address TypedDB.fullPrefix at same
  rw [List.append_assoc, List.append_assoc, List.cons_append,
    List.cons_append] at same
  obtain ⟨names, keys⟩ := Bytes.append_separator_inj first.no_underscore
    second.no_underscore same
  refine ⟨?_, Record.key_injective keys⟩
  obtain ⟨firstName, firstPlain⟩ := first
  obtain ⟨secondName, secondPlain⟩ := second
  obtain rfl : firstName = secondName := utf8_injective names
  rfl

/-- The databases of the entities in one key-value store. -/
def dbLayout : Journal.Layout Entity Record Record.Value (List UInt8)
    (List UInt8) Report where
  address := Entity.address
  encode := Record.encode
  decode := Record.decode
  address_injective := Entity.address_injective

end Abacus
