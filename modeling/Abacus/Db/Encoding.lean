import Abacus.Db.AbacusDB
import Abacus.Library.Codec

/-!
# Canonical encodings

The types that are stored in the database have a canonical encoding as bytes
and a decoder that reads it back from a byte string.
-/

namespace Abacus

open Codec (Canonical ReadsExactly)

/-- Types with a canonical encoding. -/
class Encode (α : Type) where
  toVec : α → List UInt8

/-- Types that can be read from a byte string. -/
class Decode (α : Type) where
  readFrom : Reader α

/-- Read a value from the front of a slice. -/
def readFromSlice [Decode α] (bytes : List UInt8) : Except Report α :=
  (Decode.readFrom bytes).map Prod.fst

/-! ## Integers, hashes and booleans -/

instance instEncodeU32 : Encode UInt32 where
  toVec value := (u32ToBeBytes value).bytes

instance instDecodeU32 : Decode UInt32 where
  readFrom := do
    let buf ← readExact 4
    return u32FromBeBytes buf

instance instEncodeH256 : Encode H256 where
  toVec hash := hash.bytes

instance instDecodeH256 : Decode H256 where
  readFrom := readExact 32

/-- `to_little_endian`: the 32 bytes of a `U256`, least significant first. -/
def u256ToLittleEndian (value : U256) : FixedBytes 32 :=
  ⟨(Bytes.bigEndian 32 value.toNat).reverse, by simp⟩

/-- `from_little_endian`: the `U256` of 32 bytes, least significant first. -/
def u256FromLittleEndian (bytes : FixedBytes 32) : U256 :=
  BitVec.ofNat 256 (Bytes.toNat bytes.bytes.reverse)

/-- Thirty-two bytes hold a `U256`. -/
theorem u256_ofNat_bigEndian (value : U256) :
    BitVec.ofNat 256 (Bytes.toNat (Bytes.bigEndian 32 value.toNat)) =
      value := by
  have fits : value.toNat < 256 ^ 32 := value.isLt
  rw [Bytes.toNat_bigEndian_of_lt fits, BitVec.ofNat_toNat,
    BitVec.setWidth_eq]

@[simp] theorem u256FromLittleEndian_toLittleEndian (value : U256) :
    u256FromLittleEndian (u256ToLittleEndian value) = value := by
  rw [u256FromLittleEndian, u256ToLittleEndian, List.reverse_reverse]
  exact u256_ofNat_bigEndian value

instance instEncodeU256 : Encode U256 where
  toVec value := (u256ToLittleEndian value).bytes

instance instDecodeU256 : Decode U256 where
  readFrom := do
    let buf ← readExact 32
    return u256FromLittleEndian buf

instance instEncodeBool : Encode Bool where
  toVec value := [if value then 1 else 0]

instance instDecodeBool : Decode Bool where
  readFrom := do
    let buf ← readExact 1
    match buf.bytes with
    | [0] => return false
    | [1] => return true
    | _ => throw (.abacus .ioError)

/-! ## Proofs, messages and metadata of payments -/

/-- The eight bytes of a `usize`, most significant first. -/
def usizeToBeBytes (value : Nat) : FixedBytes 8 :=
  ⟨Bytes.bigEndian 8 value, by simp⟩

instance instEncodeProof : Encode (Proof H256) where
  toVec proof := proof.leaf.bytes ++ (usizeToBeBytes proof.index).bytes ++
    proof.path.flatMap FixedBytes.bytes

instance instEncodeInterchainGasPaymentMeta :
    Encode InterchainGasPaymentMeta where
  toVec paymentMeta := paymentMeta.transactionHash.bytes ++
    (u256ToLittleEndian paymentMeta.logIndex).bytes

instance instDecodeInterchainGasPaymentMeta :
    Decode InterchainGasPaymentMeta where
  readFrom := do
    let transactionHash ← Decode.readFrom
    let logIndex ← Decode.readFrom
    return { transactionHash := transactionHash, logIndex := logIndex }

/-- Read a number of hashes. -/
def readHashes : (count : Nat) →
    Reader { path : List H256 // path.length = count }
  | 0 => return ⟨[], rfl⟩
  | count + 1 => do
      let hash ← readExact 32
      let rest ← readHashes count
      return ⟨hash :: rest.1, by simp [rest.2]⟩

instance instDecodeProof : Decode (Proof H256) where
  readFrom := do
    let leaf ← readExact 32
    let indexBytes ← readExact 8
    let path ← readHashes treeDepth
    return {
      leaf := leaf
      index := Bytes.toNat indexBytes.bytes
      path := path.1
      length_path := path.2 }

instance instEncodeRawCommittedMessage : Encode RawCommittedMessage where
  toVec raw := (u32ToBeBytes raw.leafIndex).bytes ++ raw.message

instance instDecodeRawCommittedMessage : Decode RawCommittedMessage where
  readFrom := do
    let idx ← readExact 4
    let message ← readToEnd
    return { leafIndex := u32FromBeBytes idx, message := message }

/-! ## Reading back what was written -/

/-- Bytes of a fixed length are read exactly. -/
theorem readsExactly_readExact (front : FixedBytes n) :
    ReadsExactly (readExact n) front.bytes front where
  reads _ := readExact_eq_ok_iff.mpr rfl
  refuses short inside proper := by
    have fewer : ¬ n ≤ short.length := by
      intro enough
      refine proper (inside.eq_of_length (Nat.le_antisymm inside.length_le ?_))
      rwa [front.length_bytes]
    exact ⟨_, dif_neg fewer⟩

theorem readsExactly_u32 (value : UInt32) :
    ReadsExactly Decode.readFrom (Encode.toVec value) value :=
  (readsExactly_readExact (u32ToBeBytes value)).bind_pure _
    (u32FromBeBytes_toBeBytes value)

theorem readsExactly_h256 (hash : H256) :
    ReadsExactly Decode.readFrom (Encode.toVec hash) hash :=
  readsExactly_readExact hash

theorem readsExactly_u256 (value : U256) :
    ReadsExactly Decode.readFrom (Encode.toVec value) value :=
  (readsExactly_readExact (u256ToLittleEndian value)).bind_pure _
    (u256FromLittleEndian_toLittleEndian value)

theorem readsExactly_bool (value : Bool) :
    ReadsExactly Decode.readFrom (Encode.toVec value) value := by
  have byte := readsExactly_readExact
    (⟨Encode.toVec value, rfl⟩ : FixedBytes 1)
  rw [← List.append_nil (Encode.toVec value)]
  refine byte.bind ?_
  cases value with
  | false => exact .pure false
  | true => exact .pure true

theorem readsExactly_interchainGasPaymentMeta
    (paymentMeta : InterchainGasPaymentMeta) :
    ReadsExactly Decode.readFrom (Encode.toVec paymentMeta) paymentMeta := by
  change ReadsExactly _ (Encode.toVec paymentMeta.transactionHash ++
    Encode.toVec paymentMeta.logIndex) paymentMeta
  refine (readsExactly_h256 paymentMeta.transactionHash).bind ?_
  exact (readsExactly_u256 paymentMeta.logIndex).bind_pure _ rfl

/-- The hashes of a path are read back. -/
theorem readsExactly_readHashes
    {count : Nat}
    {path : List H256}
    (length : path.length = count) :
    ReadsExactly (readHashes count) (path.flatMap FixedBytes.bytes)
      ⟨path, length⟩ := by
  induction path generalizing count with
  | nil =>
      subst length
      exact .pure _
  | cons hash path inductionHypothesis =>
      cases count with
      | zero => cases length
      | succ count =>
          rw [List.flatMap_cons]
          refine (readsExactly_readExact hash).bind ?_
          exact (inductionHypothesis (Nat.succ.inj length)).bind_pure _ rfl

theorem readsExactly_proof
    {proof : Proof H256}
    (fits : proof.index < 2 ^ 64) :
    ReadsExactly Decode.readFrom (Encode.toVec proof) proof := by
  have number : Bytes.toNat (usizeToBeBytes proof.index).bytes =
      proof.index :=
    Bytes.toNat_bigEndian_of_lt fits
  change ReadsExactly _ (proof.leaf.bytes ++
    (usizeToBeBytes proof.index).bytes ++
      proof.path.flatMap FixedBytes.bytes) proof
  rw [List.append_assoc]
  refine (readsExactly_readExact proof.leaf).bind ?_
  refine (readsExactly_readExact (usizeToBeBytes proof.index)).bind ?_
  refine (readsExactly_readHashes proof.length_path).bind_pure _ ?_
  simp only [number]

/-- The encoding of a raw message whose index is read from four bytes. -/
theorem toVec_rawCommittedMessage
    (front : FixedBytes 4)
    (message : List UInt8) :
    Encode.toVec (⟨u32FromBeBytes front, message⟩ : RawCommittedMessage) =
      front.bytes ++ message := by
  change (u32ToBeBytes (u32FromBeBytes front)).bytes ++ message = _
  rw [u32ToBeBytes_fromBeBytes]

/-- The raw message that is read is the one whose encoding the input is. -/
theorem readFrom_rawCommittedMessage_eq_ok_iff
    {bytes rest : List UInt8}
    {raw : RawCommittedMessage} :
    (Decode.readFrom : Reader RawCommittedMessage) bytes = .ok (raw, rest) ↔
      bytes = Encode.toVec raw ∧ rest = [] := by
  refine readExact_bind_eq_ok_iff.trans ?_
  constructor
  · rintro ⟨front, message, rfl, read⟩
    cases read
    exact ⟨(toVec_rawCommittedMessage front message).symm, rfl⟩
  · rintro ⟨rfl, rfl⟩
    refine ⟨u32ToBeBytes raw.leafIndex, raw.message, rfl, ?_⟩
    rw [u32FromBeBytes_toBeBytes]
    rfl

/-- A raw message is read from every input that holds a leaf index. -/
theorem canonical_rawCommittedMessage :
    Canonical (Decode.readFrom : Reader RawCommittedMessage) Encode.toVec
      4 := by
  refine .of_eq_ok_iff
    (fun _ _ _ => readFrom_rawCommittedMessage_eq_ok_iff) fun input => ?_
  constructor
  · rintro ⟨raw, rfl⟩
    change 4 ≤ ((u32ToBeBytes raw.leafIndex).bytes ++ raw.message).length
    rw [List.length_append, FixedBytes.length_bytes]
    exact Nat.le_add_right 4 raw.message.length
  · intro enough
    obtain ⟨front, message, rfl, -⟩ := exists_eq_fixedBytes_append 4 0 enough
    exact ⟨_, (toVec_rawCommittedMessage front message).symm⟩

/-- What is read exactly is read from a slice. -/
theorem readFromSlice_of_readsExactly [Encode α] [Decode α]
    {value : α}
    (reads : ReadsExactly Decode.readFrom (Encode.toVec value) value) :
    readFromSlice (Encode.toVec value) = .ok value := by
  have whole := reads.reads []
  rw [List.append_nil] at whole
  rw [readFromSlice, whole]
  rfl

theorem readFromSlice_u32 (value : UInt32) :
    readFromSlice (Encode.toVec value) = .ok value :=
  readFromSlice_of_readsExactly (readsExactly_u32 value)

theorem readFromSlice_h256 (hash : H256) :
    readFromSlice (Encode.toVec hash) = .ok hash :=
  readFromSlice_of_readsExactly (readsExactly_h256 hash)

theorem readFromSlice_u256 (value : U256) :
    readFromSlice (Encode.toVec value) = .ok value :=
  readFromSlice_of_readsExactly (readsExactly_u256 value)

theorem readFromSlice_bool (value : Bool) :
    readFromSlice (Encode.toVec value) = .ok value :=
  readFromSlice_of_readsExactly (readsExactly_bool value)

theorem readFromSlice_proof
    {proof : Proof H256}
    (fits : proof.index < 2 ^ 64) :
    readFromSlice (Encode.toVec proof) = .ok proof :=
  readFromSlice_of_readsExactly (readsExactly_proof fits)

theorem readFromSlice_rawCommittedMessage (raw : RawCommittedMessage) :
    readFromSlice (Encode.toVec raw) = .ok raw := by
  rw [readFromSlice, (canonical_rawCommittedMessage).reads raw]
  rfl

end Abacus
