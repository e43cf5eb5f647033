import Abacus.Db.EncodingRoundTrip

/-!
# Counting the bytes that are written

Every encoding is written to a writer, and the number of written bytes is
returned: a constant of the type, or a constant and the length of a body. The
number is the one of the bytes that are appended, except for raw messages.
-/

namespace Abacus

open Codec (Appends)

/-! ## Writing -/

/-- A writer into a vector of bytes. -/
abbrev Writer (α : Type) := StateT (List UInt8) (Except Report) α

/-- `write_all` to a vector appends all bytes and does not fail. -/
def writeAll (bytes : List UInt8) : Writer Unit :=
  modify fun buffer => buffer ++ bytes

/-- Types that can be written; the number of written bytes is returned. -/
class EncodeTo (α : Type) where
  writeTo : α → Writer Nat

export EncodeTo (writeTo)

instance instEncodeToU32 : EncodeTo UInt32 where
  writeTo value := do
    writeAll (u32ToBeBytes value).bytes
    return 4

instance instEncodeToU64 : EncodeTo UInt64 where
  writeTo value := do
    writeAll (u64ToBeBytes value).bytes
    return 8

instance instEncodeToBool : EncodeTo Bool where
  writeTo value := do
    writeAll [if value then 1 else 0]
    return 1

instance instEncodeToH256 : EncodeTo H256 where
  writeTo hash := do
    writeAll hash.bytes
    return 32

instance instEncodeToU256 : EncodeTo U256 where
  writeTo value := do
    writeAll (u256ToLittleEndian value).bytes
    return 32

instance instEncodeToSignature [SignatureBytes] : EncodeTo Signature where
  writeTo signature := do
    writeAll (SignatureBytes.toVec signature)
    return 65

instance instEncodeToAbacusIdentifier : EncodeTo AbacusIdentifier where
  writeTo identifier := writeTo identifier.address

/-- The length of a message without its body. -/
def abacusMessagePrefixLen : Nat := 72

instance instEncodeToAbacusMessage : EncodeTo AbacusMessage where
  writeTo message := do
    writeAll (u32ToBeBytes message.origin).bytes
    writeAll message.sender.bytes
    writeAll (u32ToBeBytes message.destination).bytes
    writeAll message.recipient.bytes
    writeAll message.body
    return abacusMessagePrefixLen + message.body.length

instance instEncodeToRawCommittedMessage : EncodeTo RawCommittedMessage where
  writeTo raw := do
    writeAll (u32ToBeBytes raw.leafIndex).bytes
    writeAll raw.message
    return 4 + 32 + raw.message.length

instance instEncodeToCheckpoint : EncodeTo Checkpoint where
  writeTo checkpoint := do
    writeAll (u32ToBeBytes checkpoint.outboxDomain).bytes
    writeAll checkpoint.root.bytes
    writeAll (u32ToBeBytes checkpoint.index).bytes
    return 4 + 32 + 4

instance instEncodeToCheckpointMeta : EncodeTo CheckpointMeta where
  writeTo checkpointMeta := do
    let written ← writeTo checkpointMeta.blockNumber
    return written

instance instEncodeToSignedCheckpoint [SignatureBytes] :
    EncodeTo SignedCheckpoint where
  writeTo signed := do
    let checkpoint ← writeTo signed.checkpoint
    let signature ← writeTo signed.signature
    return checkpoint + signature

instance instEncodeToInterchainGasPaymentMeta :
    EncodeTo InterchainGasPaymentMeta where
  writeTo paymentMeta := do
    let transactionHash ← writeTo paymentMeta.transactionHash
    let logIndex ← writeTo paymentMeta.logIndex
    return transactionHash + logIndex

instance instEncodeToProof : EncodeTo (Proof H256) where
  writeTo proof := do
    writeAll proof.leaf.bytes
    writeAll (usizeToBeBytes proof.index).bytes
    proof.path.forM fun hash => writeAll hash.bytes
    return 32 + 8 + treeDepth * 32

/-! ## The types of the core crate -/

/-- The types with a canonical encoding. -/
inductive CodedType
  | u32
  | u64
  | bool
  | h256
  | u256
  | signature
  | abacusIdentifier
  | abacusMessage
  | rawCommittedMessage
  | checkpoint
  | checkpointMeta
  | signedCheckpoint
  | interchainGasPaymentMeta
  | proof
  deriving DecidableEq

namespace CodedType

/-- The values of a type. -/
abbrev Value : CodedType → Type
  | u32 => UInt32
  | u64 => UInt64
  | bool => Bool
  | h256 => H256
  | u256 => U256
  | signature => Signature
  | abacusIdentifier => AbacusIdentifier
  | abacusMessage => AbacusMessage
  | rawCommittedMessage => RawCommittedMessage
  | checkpoint => Checkpoint
  | checkpointMeta => CheckpointMeta
  | signedCheckpoint => SignedCheckpoint
  | interchainGasPaymentMeta => InterchainGasPaymentMeta
  | proof => Proof H256

variable [SignatureBytes]

/-- The writers of the types. -/
instance encodeTo : (type : CodedType) → EncodeTo type.Value
  | u32 => instEncodeToU32
  | u64 => instEncodeToU64
  | bool => instEncodeToBool
  | h256 => instEncodeToH256
  | u256 => instEncodeToU256
  | signature => instEncodeToSignature
  | abacusIdentifier => instEncodeToAbacusIdentifier
  | abacusMessage => instEncodeToAbacusMessage
  | rawCommittedMessage => instEncodeToRawCommittedMessage
  | checkpoint => instEncodeToCheckpoint
  | checkpointMeta => instEncodeToCheckpointMeta
  | signedCheckpoint => instEncodeToSignedCheckpoint
  | interchainGasPaymentMeta => instEncodeToInterchainGasPaymentMeta
  | proof => instEncodeToProof

/-- The encodings of the types. -/
instance encode : (type : CodedType) → Encode type.Value
  | u32 => instEncodeU32
  | u64 => instEncodeU64
  | bool => instEncodeBool
  | h256 => instEncodeH256
  | u256 => instEncodeU256
  | signature => instEncodeSignature
  | abacusIdentifier => instEncodeAbacusIdentifier
  | abacusMessage => instEncodeAbacusMessage
  | rawCommittedMessage => instEncodeRawCommittedMessage
  | checkpoint => instEncodeCheckpoint
  | checkpointMeta => instEncodeCheckpointMeta
  | signedCheckpoint => instEncodeSignedCheckpoint
  | interchainGasPaymentMeta => instEncodeInterchainGasPaymentMeta
  | proof => instEncodeProof

end CodedType

/-! ## Written bytes -/

/-- The encoding is appended, and the number of its bytes is returned. -/
def CountsBytes [Encode α] [EncodeTo α] (value : α) : Prop :=
  Appends (writeTo value) (Encode.toVec value) (Encode.toVec value).length

theorem appends_writeAll (bytes : List UInt8) :
    Appends (writeAll bytes) bytes () := fun _ => rfl

/-- A value whose bytes are written at once and counted by a constant. -/
theorem appends_writeAll_fixedBytes (bytes : FixedBytes n) :
    Appends (do writeAll bytes.bytes; return n) bytes.bytes
      bytes.bytes.length := by
  rw [bytes.length_bytes]
  exact (appends_writeAll bytes.bytes).bind_pure fun _ => n

theorem countsBytes_u32 (value : UInt32) : CountsBytes value :=
  appends_writeAll_fixedBytes (u32ToBeBytes value)

theorem countsBytes_u64 (value : UInt64) : CountsBytes value :=
  appends_writeAll_fixedBytes (u64ToBeBytes value)

theorem countsBytes_bool (value : Bool) : CountsBytes value :=
  (appends_writeAll [if value then 1 else 0]).bind_pure 1

theorem countsBytes_h256 (hash : H256) : CountsBytes hash :=
  appends_writeAll_fixedBytes hash

theorem countsBytes_u256 (value : U256) : CountsBytes value :=
  appends_writeAll_fixedBytes (u256ToLittleEndian value)

/-- A value is counted if the writer appends the encoding and returns its
length. -/
theorem CountsBytes.of_appends [Encode α] [EncodeTo α]
    {value : α}
    {output : List UInt8}
    {count : Nat}
    (appends : Appends (writeTo value) output count)
    (encoding : Encode.toVec value = output)
    (length : output.length = count) :
    CountsBytes value := by
  rwa [CountsBytes, encoding, length]

theorem countsBytes_abacusIdentifier (identifier : AbacusIdentifier) :
    CountsBytes identifier :=
  countsBytes_h256 identifier.address

theorem countsBytes_abacusMessage (message : AbacusMessage) :
    CountsBytes message := by
  refine .of_appends
    ((appends_writeAll (u32ToBeBytes message.origin).bytes).bind
      ((appends_writeAll message.sender.bytes).bind
        ((appends_writeAll (u32ToBeBytes message.destination).bytes).bind
          ((appends_writeAll message.recipient.bytes).bind
            ((appends_writeAll message.body).bind_pure _))))) ?_ ?_
  · change message.toVec = _
    simp only [AbacusMessage.toVec, List.append_assoc]
  · simp only [List.length_append, FixedBytes.length_bytes,
      abacusMessagePrefixLen]
    omega

theorem countsBytes_checkpoint (checkpoint : Checkpoint) :
    CountsBytes checkpoint := by
  refine .of_appends
    ((appends_writeAll (u32ToBeBytes checkpoint.outboxDomain).bytes).bind
      ((appends_writeAll checkpoint.root.bytes).bind
        ((appends_writeAll (u32ToBeBytes checkpoint.index).bytes).bind_pure
          _))) ?_ ?_
  · exact List.append_assoc _ _ _
  · simp only [List.length_append, FixedBytes.length_bytes]

theorem countsBytes_checkpointMeta (checkpointMeta : CheckpointMeta) :
    CountsBytes checkpointMeta :=
  .of_appends ((countsBytes_u64 checkpointMeta.blockNumber).bind_pure id)
    rfl rfl

theorem countsBytes_interchainGasPaymentMeta
    (paymentMeta : InterchainGasPaymentMeta) :
    CountsBytes paymentMeta := by
  refine .of_appends
    ((countsBytes_h256 paymentMeta.transactionHash).bind
      ((countsBytes_u256 paymentMeta.logIndex).bind_pure _)) ?_ ?_
  · rfl
  · exact List.length_append

theorem countsBytes_proof (proof : Proof H256) : CountsBytes proof := by
  refine .of_appends
    ((appends_writeAll proof.leaf.bytes).bind
      ((appends_writeAll (usizeToBeBytes proof.index).bytes).bind
        ((Appends.forM (fun hash => appends_writeAll (FixedBytes.bytes hash))
          proof.path).bind_pure _))) ?_ ?_
  · exact List.append_assoc _ _ _
  · have hashes : (proof.path.flatMap FixedBytes.bytes).length =
        treeDepth * 32 := by
      simp [List.length_flatMap, FixedBytes.length_bytes, proof.length_path]
    simp only [List.length_append, FixedBytes.length_bytes, hashes]
    omega

section Signatures

variable [SignatureBytes]

theorem countsBytes_signature
    {signature : Signature}
    (length : (SignatureBytes.toVec signature).length = 65) :
    CountsBytes signature :=
  .of_appends ((appends_writeAll (SignatureBytes.toVec signature)).bind_pure
    fun _ => 65) rfl length

theorem countsBytes_signedCheckpoint
    {signed : SignedCheckpoint}
    (length : (SignatureBytes.toVec signed.signature).length = 65) :
    CountsBytes signed := by
  refine .of_appends
    ((countsBytes_checkpoint signed.checkpoint).bind
      ((countsBytes_signature length).bind_pure _)) ?_ ?_
  · rfl
  · exact List.length_append

end Signatures

/-- The bytes of a raw message are counted with 32 more than there are. -/
theorem appends_rawCommittedMessage (raw : RawCommittedMessage) :
    Appends (writeTo raw) (Encode.toVec raw)
      ((Encode.toVec raw).length + 32) := by
  have length : (Encode.toVec raw).length + 32 =
      4 + 32 + raw.message.length := by
    change ((u32ToBeBytes raw.leafIndex).bytes ++ raw.message).length + 32 = _
    rw [List.length_append, FixedBytes.length_bytes]
    omega
  rw [length]
  exact (appends_writeAll (u32ToBeBytes raw.leafIndex).bytes).bind
    ((appends_writeAll raw.message).bind_pure _)

theorem not_countsBytes_rawCommittedMessage (raw : RawCommittedMessage) :
    ¬ CountsBytes raw := by
  intro counts
  have same := (counts.unique (appends_rawCommittedMessage raw)).1
  omega

/-- The values of every type but the raw messages are counted. -/
theorem countsBytes_iff [SignatureBytes]
    (signatures : ∀ signature, (SignatureBytes.toVec signature).length = 65)
    (type : CodedType)
    (value : type.Value) :
    CountsBytes value ↔ type ≠ .rawCommittedMessage := by
  cases type with
  | rawCommittedMessage =>
      exact iff_of_false (not_countsBytes_rawCommittedMessage value) (by simp)
  | u32 => exact iff_of_true (countsBytes_u32 value) (by simp)
  | u64 => exact iff_of_true (countsBytes_u64 value) (by simp)
  | bool => exact iff_of_true (countsBytes_bool value) (by simp)
  | h256 => exact iff_of_true (countsBytes_h256 value) (by simp)
  | u256 => exact iff_of_true (countsBytes_u256 value) (by simp)
  | signature =>
      exact iff_of_true (countsBytes_signature (signatures value)) (by simp)
  | abacusIdentifier =>
      exact iff_of_true (countsBytes_abacusIdentifier value) (by simp)
  | abacusMessage =>
      exact iff_of_true (countsBytes_abacusMessage value) (by simp)
  | checkpoint => exact iff_of_true (countsBytes_checkpoint value) (by simp)
  | checkpointMeta =>
      exact iff_of_true (countsBytes_checkpointMeta value) (by simp)
  | signedCheckpoint =>
      exact iff_of_true (countsBytes_signedCheckpoint (signatures _))
        (by simp)
  | interchainGasPaymentMeta =>
      exact iff_of_true (countsBytes_interchainGasPaymentMeta value) (by simp)
  | proof => exact iff_of_true (countsBytes_proof value) (by simp)

/-- The bytes of a signed checkpoint are counted, with signatures of three parts
in sequence. -/
theorem countsBytes_iff_signedCheckpoint :
    let _ := SignatureBytes.concatenated
    let signed : SignedCheckpoint := ⟨⟨0, H256.zero, 0⟩, ⟨0, 0, 0⟩⟩
    CountsBytes signed :=
  (@countsBytes_iff .concatenated (fun _ => by simp [SignatureBytes.toVec])
    .signedCheckpoint ⟨⟨0, H256.zero, 0⟩, ⟨0, 0, 0⟩⟩).mpr (by decide)

/-- For an empty raw message, 36 bytes are counted and four are written. -/
theorem writeTo_empty_raw_message :
    let raw : RawCommittedMessage := ⟨0, []⟩
    writeTo raw [] = .ok (36, [0, 0, 0, 0]) ∧
      (Encode.toVec raw).length = 4 ∧ ¬ CountsBytes raw :=
  ⟨by decide, by decide, not_countsBytes_rawCommittedMessage _⟩

end Abacus
