import Abacus.Db.Encoding
import Abacus.Core.Checkpoint

/-!
# Round trips of the canonical encodings

Checkpoints, signatures and messages have a canonical encoding, too. The
encodings of fixed length are read back in front of anything and are refused
when they are cut off; those that read to the end are read from every input
that holds their fixed front. The bytes of a signature are a third party's.
-/

namespace Abacus

open Codec (Canonical ReadsExactly)

/-! ## Integers and identifiers -/

/-- The eight bytes of a `u64`, most significant first. -/
def u64ToBeBytes (value : UInt64) : FixedBytes 8 :=
  ⟨Bytes.bigEndian 8 value.toNat, Bytes.length_bigEndian 8 _⟩

/-- The `u64` of eight bytes, most significant first. -/
def u64FromBeBytes (bytes : FixedBytes 8) : UInt64 :=
  UInt64.ofNat (Bytes.toNat bytes.bytes)

@[simp] theorem u64FromBeBytes_toBeBytes (value : UInt64) :
    u64FromBeBytes (u64ToBeBytes value) = value := by
  have fits : value.toNat < 256 ^ 8 := value.toNat_lt
  rw [u64FromBeBytes, u64ToBeBytes, Bytes.toNat_bigEndian_of_lt fits,
    UInt64.ofNat_toNat]

instance instEncodeU64 : Encode UInt64 where
  toVec value := (u64ToBeBytes value).bytes

instance instDecodeU64 : Decode UInt64 where
  readFrom := do
    let buf ← readExact 8
    return u64FromBeBytes buf

/-- An identifier of a network, always serialized as 32 bytes. -/
structure AbacusIdentifier where
  address : H256
  deriving DecidableEq

instance instEncodeAbacusIdentifier : Encode AbacusIdentifier where
  toVec identifier := Encode.toVec identifier.address

instance instDecodeAbacusIdentifier : Decode AbacusIdentifier where
  readFrom := do
    let address ← Decode.readFrom
    return { address := address }

/-! ## Checkpoints -/

/-- What is stored about a checkpoint. -/
structure CheckpointMeta where
  blockNumber : UInt64
  deriving DecidableEq

instance instEncodeCheckpoint : Encode Checkpoint where
  toVec checkpoint := (u32ToBeBytes checkpoint.outboxDomain).bytes ++
    checkpoint.root.bytes ++ (u32ToBeBytes checkpoint.index).bytes

instance instDecodeCheckpoint : Decode Checkpoint where
  readFrom := do
    let outboxDomain ← readExact 4
    let root ← readExact 32
    let index ← readExact 4
    return {
      outboxDomain := u32FromBeBytes outboxDomain
      root := root
      index := u32FromBeBytes index }

instance instEncodeCheckpointMeta : Encode CheckpointMeta where
  toVec checkpointMeta := Encode.toVec checkpointMeta.blockNumber

instance instDecodeCheckpointMeta : Decode CheckpointMeta where
  readFrom := do
    let blockNumber ← readExact 8
    return { blockNumber := u64FromBeBytes blockNumber }

/-! ## Signatures -/

/-- The byte format of a signature, which a third-party crate defines. -/
class SignatureBytes where
  toVec : Signature → List UInt8
  tryFrom : List UInt8 → Except SignatureError Signature

/-- The format of the two numbers and the recovery byte in sequence. -/
@[reducible] def SignatureBytes.concatenated : SignatureBytes where
  toVec signature := Bytes.bigEndian 32 signature.r.toNat ++
    Bytes.bigEndian 32 signature.s.toNat ++
    Bytes.bigEndian 1 signature.v.toNat
  tryFrom bytes :=
    if bytes.length ≠ 65 then .error (.invalidLength bytes.length)
    else .ok {
      r := BitVec.ofNat 256 (Bytes.toNat (bytes.take 32))
      s := BitVec.ofNat 256 (Bytes.toNat ((bytes.drop 32).take 32))
      v := UInt64.ofNat (Bytes.toNat ((bytes.drop 32).drop 32)) }

section

variable [SignatureBytes]

/-- A signature whose 65 bytes are parsed back. -/
structure SignatureBytes.RoundTrips (signature : Signature) : Prop where
  length_toVec : (toVec signature).length = 65
  tryFrom_toVec : tryFrom (toVec signature) = .ok signature

instance instEncodeSignature : Encode Signature where
  toVec := SignatureBytes.toVec

/-- One `read` into a buffer of 65 bytes, which may return fewer. -/
def readSignature : Reader Signature := fun bytes =>
  let buf := bytes.take 65
  if buf.length ≠ 65 then
    .error (.abacus (.signatureError (.invalidLength buf.length)))
  else
    match SignatureBytes.tryFrom buf with
    | .ok signature => .ok (signature, bytes.drop 65)
    | .error error => .error (.abacus (.signatureError error))

instance instDecodeSignature : Decode Signature where
  readFrom := readSignature

instance instEncodeSignedCheckpoint : Encode SignedCheckpoint where
  toVec signed := Encode.toVec signed.checkpoint ++
    Encode.toVec signed.signature

instance instDecodeSignedCheckpoint : Decode SignedCheckpoint where
  readFrom := do
    let checkpoint ← Decode.readFrom
    let signature ← Decode.readFrom
    return { checkpoint := checkpoint, signature := signature }

end

/-! ## Messages -/

instance instEncodeAbacusMessage : Encode AbacusMessage where
  toVec := AbacusMessage.toVec

instance instDecodeAbacusMessage : Decode AbacusMessage where
  readFrom := AbacusMessage.readFrom

/-! ## Reading back what was written -/

/-- The encoding of a value is read back in front of anything, and no part of
it is read. -/
def RoundTrips [Encode α] [Decode α] (value : α) : Prop :=
  ReadsExactly Decode.readFrom (Encode.toVec value) value

theorem roundTrips_u64 (value : UInt64) : RoundTrips value :=
  (readsExactly_readExact (u64ToBeBytes value)).bind_pure _
    (u64FromBeBytes_toBeBytes value)

theorem roundTrips_abacusIdentifier (identifier : AbacusIdentifier) :
    RoundTrips identifier :=
  (readsExactly_h256 identifier.address).bind_pure _ rfl

theorem roundTrips_checkpoint (checkpoint : Checkpoint) :
    RoundTrips checkpoint := by
  change ReadsExactly _ ((u32ToBeBytes checkpoint.outboxDomain).bytes ++
    checkpoint.root.bytes ++ (u32ToBeBytes checkpoint.index).bytes) _
  rw [List.append_assoc]
  refine (readsExactly_readExact (u32ToBeBytes checkpoint.outboxDomain)).bind
    ?_
  refine (readsExactly_readExact checkpoint.root).bind ?_
  refine (readsExactly_readExact (u32ToBeBytes checkpoint.index)).bind_pure
    _ ?_
  simp only [u32FromBeBytes_toBeBytes]

theorem roundTrips_checkpointMeta (checkpointMeta : CheckpointMeta) :
    RoundTrips checkpointMeta := by
  refine (readsExactly_readExact
    (u64ToBeBytes checkpointMeta.blockNumber)).bind_pure _ ?_
  rw [u64FromBeBytes_toBeBytes]

section

variable [SignatureBytes]

theorem roundTrips_signature
    {signature : Signature}
    (parsed : SignatureBytes.RoundTrips signature) :
    RoundTrips signature where
  reads rest := by
    have length := parsed.length_toVec
    change readSignature (SignatureBytes.toVec signature ++ rest) = _
    rw [readSignature, List.take_left' length, List.drop_left' length]
    simp only [length, parsed.tryFrom_toVec, ne_eq, not_true_eq_false,
      if_false]
  refuses front inside proper := by
    have short : (front.take 65).length ≠ 65 := by
      intro enough
      refine proper (inside.eq_of_length ?_)
      have longest := inside.length_le
      have length : (Encode.toVec signature).length = 65 :=
        parsed.length_toVec
      rw [List.length_take] at enough
      omega
    exact ⟨_, if_pos short⟩

theorem roundTrips_signedCheckpoint
    {signed : SignedCheckpoint}
    (parsed : SignatureBytes.RoundTrips signed.signature) :
    RoundTrips signed := by
  refine (roundTrips_checkpoint signed.checkpoint).bind ?_
  exact (roundTrips_signature parsed).bind_pure _ rfl

end

/-- A message is read from every input that holds its fixed prefix. -/
theorem canonical_abacusMessage :
    Canonical (Decode.readFrom : Reader AbacusMessage) Encode.toVec 72 := by
  refine .of_eq_ok_iff (fun _ _ _ => AbacusMessage.readFrom_eq_ok_iff)
    fun input => ?_
  constructor
  · rintro ⟨message, rfl⟩
    exact message.length_toVec
  · intro enough
    obtain ⟨origin, _, rfl, behindOrigin⟩ :=
      exists_eq_fixedBytes_append 4 68 enough
    obtain ⟨sender, _, rfl, behindSender⟩ :=
      exists_eq_fixedBytes_append 32 36 behindOrigin
    obtain ⟨destination, _, rfl, behindDestination⟩ :=
      exists_eq_fixedBytes_append 4 32 behindSender
    obtain ⟨recipient, body, rfl, -⟩ :=
      exists_eq_fixedBytes_append 32 0 behindDestination
    refine ⟨⟨u32FromBeBytes origin, sender, u32FromBeBytes destination,
      recipient, body⟩, ?_⟩
    change _ = AbacusMessage.toVec _
    simp only [AbacusMessage.toVec, u32ToBeBytes_fromBeBytes,
      List.append_assoc]

/-- Signatures whose recovery identifier is a byte are parsed back from their
concatenated numbers. -/
theorem SignatureBytes.concatenated_roundTrips
    {signature : Signature}
    (byte : signature.v.toNat < 256) :
    @SignatureBytes.RoundTrips .concatenated signature := by
  have lengthR : (Bytes.bigEndian 32 signature.r.toNat).length = 32 :=
    Bytes.length_bigEndian 32 _
  have lengthS : (Bytes.bigEndian 32 signature.s.toNat).length = 32 :=
    Bytes.length_bigEndian 32 _
  have encoded : concatenated.toVec signature =
      Bytes.bigEndian 32 signature.r.toNat ++
        (Bytes.bigEndian 32 signature.s.toNat ++
          Bytes.bigEndian 1 signature.v.toNat) :=
    List.append_assoc _ _ _
  have length : (concatenated.toVec signature).length = 65 := by
    rw [encoded]
    simp only [List.length_append, Bytes.length_bigEndian]
  refine @RoundTrips.mk .concatenated _ length ?_
  have recovery : UInt64.ofNat
      (Bytes.toNat (Bytes.bigEndian 1 signature.v.toNat)) = signature.v := by
    rw [Bytes.toNat_bigEndian_of_lt byte, UInt64.ofNat_toNat]
  refine (if_neg (not_not.mpr length)).trans ?_
  simp only [encoded, List.take_left' lengthR, List.drop_left' lengthR,
    List.take_left' lengthS, List.drop_left' lengthS, u256_ofNat_bigEndian,
    recovery]

/-! ## The whole format -/

/-- Every value of a type of fixed length round-trips, and the readers of the
two types that read to the end are canonical. -/
theorem encodings_roundTrip [SignatureBytes] :
    (∀ value : UInt32, RoundTrips value) ∧
    (∀ value : UInt64, RoundTrips value) ∧
    (∀ value : Bool, RoundTrips value) ∧
    (∀ hash : H256, RoundTrips hash) ∧
    (∀ value : U256, RoundTrips value) ∧
    (∀ identifier : AbacusIdentifier, RoundTrips identifier) ∧
    (∀ checkpoint : Checkpoint, RoundTrips checkpoint) ∧
    (∀ checkpointMeta : CheckpointMeta, RoundTrips checkpointMeta) ∧
    (∀ paymentMeta : InterchainGasPaymentMeta, RoundTrips paymentMeta) ∧
    (∀ proof : Proof H256, proof.index < 2 ^ 64 → RoundTrips proof) ∧
    (∀ signed : SignedCheckpoint,
      SignatureBytes.RoundTrips signed.signature → RoundTrips signed) ∧
    Canonical (Decode.readFrom : Reader AbacusMessage) Encode.toVec 72 ∧
    Canonical (Decode.readFrom : Reader RawCommittedMessage) Encode.toVec
      4 :=
  ⟨readsExactly_u32, roundTrips_u64, readsExactly_bool, readsExactly_h256,
    readsExactly_u256, roundTrips_abacusIdentifier, roundTrips_checkpoint,
    roundTrips_checkpointMeta, readsExactly_interchainGasPaymentMeta,
    fun _ => readsExactly_proof, fun _ => roundTrips_signedCheckpoint,
    canonical_abacusMessage, canonical_rawCommittedMessage⟩

theorem encodings_roundTrip_signed :
    let _ := SignatureBytes.concatenated
    RoundTrips (⟨⟨1, H256.zero, 2⟩, ⟨3, 4, 27⟩⟩ : SignedCheckpoint) ∧
    RoundTrips (⟨H256.zero, 5, List.replicate treeDepth H256.zero,
      List.length_replicate⟩ : Proof H256) :=
  let _ := SignatureBytes.concatenated
  ⟨encodings_roundTrip.2.2.2.2.2.2.2.2.2.2.1 _
      (SignatureBytes.concatenated_roundTrips (by decide)),
    encodings_roundTrip.2.2.2.2.2.2.2.2.2.1 _ (by decide)⟩

end Abacus
