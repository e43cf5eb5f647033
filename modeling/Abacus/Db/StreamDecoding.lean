import Abacus.Db.WrittenBytes
import Abacus.Library.Chunks

/-!
# Decoding from a stream

The decoders read from any source of bytes. A source may deliver its bytes in
chunks; what a decoder returns depends on the chunks only where a signature is
read, since its 65 bytes are asked for in a single read.
-/

namespace Abacus

open Chunks (Agrees Chunked)

/-! ## Sources of bytes -/

/-- Sources of bytes. One read delivers at most as many bytes as asked for. -/
class Read (R : Type) where
  read : Nat → StateT R (Except Report) (List UInt8)
  readExact : (n : Nat) → StateT R (Except Report) (FixedBytes n)
  readToEnd : StateT R (Except Report) (List UInt8)

/-- A slice delivers as many bytes as it has. -/
instance instReadSlice : Read (List UInt8) where
  read n := fun bytes => .ok (bytes.take n, bytes.drop n)
  readExact := readExact
  readToEnd := readToEnd

/-- The bytes that are read exactly are as many as asked for. -/
theorem length_of_readExactly
    {n : Nat}
    {input rest : Chunked UInt8}
    {bytes : List UInt8}
    (read : input.readExactly n = some (bytes, rest)) :
    bytes.length = n := by
  rw [Chunked.readExactly_eq] at read
  split at read
  · rename_i enough
    cases read
    exact List.length_take_of_le enough
  · cases read

/-- How many bytes are asked for when reading to the end: the buffer has 32
bytes at first and is doubled when it is full. -/
def spareCapacity (before : Nat) : Nat := max 31 (before - 1)

/-- A stream delivers its chunks; the other reads are the loops of the standard
library. -/
instance instReadChunked : Read (Chunked UInt8) where
  read n := fun input => .ok (input.read n)
  readExact n := fun input =>
    match read : input.readExactly n with
    | some (bytes, rest) => .ok (⟨bytes, length_of_readExactly read⟩, rest)
    | none => .error (.abacus .ioError)
  readToEnd := fun input => .ok (input.readToEnd spareCapacity 0)

/-! ## Decoders -/

/-- Types that can be read from any source. -/
class DecodeFrom (α : Type) where
  readFrom : {R : Type} → [Read R] → StateT R (Except Report) α

export DecodeFrom (readFrom)

instance instDecodeFromU32 : DecodeFrom UInt32 where
  readFrom := do
    let buf ← Read.readExact 4
    return u32FromBeBytes buf

instance instDecodeFromU64 : DecodeFrom UInt64 where
  readFrom := do
    let buf ← Read.readExact 8
    return u64FromBeBytes buf

instance instDecodeFromBool : DecodeFrom Bool where
  readFrom := do
    let buf ← Read.readExact 1
    match buf.bytes with
    | [0] => return false
    | [1] => return true
    | _ => throw (.abacus .ioError)

instance instDecodeFromH256 : DecodeFrom H256 where
  readFrom := Read.readExact 32

instance instDecodeFromU256 : DecodeFrom U256 where
  readFrom := do
    let buf ← Read.readExact 32
    return u256FromLittleEndian buf

instance instDecodeFromSignature [SignatureBytes] : DecodeFrom Signature where
  readFrom := do
    let buf ← Read.read 65
    if buf.length ≠ 65 then
      throw (.abacus (.signatureError (.invalidLength buf.length)))
    else
      match SignatureBytes.tryFrom buf with
      | .ok signature => return signature
      | .error error => throw (.abacus (.signatureError error))

instance instDecodeFromAbacusIdentifier : DecodeFrom AbacusIdentifier where
  readFrom := do
    let address ← readFrom
    return { address := address }

instance instDecodeFromAbacusMessage : DecodeFrom AbacusMessage where
  readFrom := do
    let origin ← Read.readExact 4
    let sender ← Read.readExact 32
    let destination ← Read.readExact 4
    let recipient ← Read.readExact 32
    let body ← Read.readToEnd
    return {
      origin := u32FromBeBytes origin
      sender := sender
      destination := u32FromBeBytes destination
      recipient := recipient
      body := body }

instance instDecodeFromRawCommittedMessage :
    DecodeFrom RawCommittedMessage where
  readFrom := do
    let idx ← Read.readExact 4
    let message ← Read.readToEnd
    return { leafIndex := u32FromBeBytes idx, message := message }

instance instDecodeFromCheckpoint : DecodeFrom Checkpoint where
  readFrom := do
    let outboxDomain ← Read.readExact 4
    let root ← Read.readExact 32
    let index ← Read.readExact 4
    return {
      outboxDomain := u32FromBeBytes outboxDomain
      root := root
      index := u32FromBeBytes index }

instance instDecodeFromCheckpointMeta : DecodeFrom CheckpointMeta where
  readFrom := do
    let blockNumber ← Read.readExact 8
    return { blockNumber := u64FromBeBytes blockNumber }

instance instDecodeFromSignedCheckpoint [SignatureBytes] :
    DecodeFrom SignedCheckpoint where
  readFrom := do
    let checkpoint ← readFrom
    let signature ← readFrom
    return { checkpoint := checkpoint, signature := signature }

instance instDecodeFromInterchainGasPaymentMeta :
    DecodeFrom InterchainGasPaymentMeta where
  readFrom := do
    let transactionHash ← readFrom
    let logIndex ← readFrom
    return { transactionHash := transactionHash, logIndex := logIndex }

/-- The length of a path of hashes. -/
theorem length_of_path
    {count : Nat}
    (path : { path : List H256 // path.length = count }) :
    path.1.length = count := path.2

/-- The length of a path with one more hash. -/
theorem length_cons_of_path
    {count : Nat}
    (hash : H256)
    (rest : { path : List H256 // path.length = count }) :
    (hash :: rest.1).length = count + 1 :=
  congrArg Nat.succ rest.2

/-- Read a number of hashes from any source. -/
def readHashesFrom {R : Type} [Read R] : (count : Nat) →
    StateT R (Except Report) { path : List H256 // path.length = count }
  | 0 => return ⟨[], List.length_nil⟩
  | count + 1 => do
      let hash ← Read.readExact 32
      let rest ← readHashesFrom count
      return ⟨hash :: rest.1, length_cons_of_path hash rest⟩

instance instDecodeFromProof : DecodeFrom (Proof H256) where
  readFrom := do
    let leaf ← Read.readExact 32
    let indexBytes ← Read.readExact 8
    let path ← readHashesFrom treeDepth
    return {
      leaf := leaf
      index := Bytes.toNat indexBytes.bytes
      path := path.1
      length_path := length_of_path path }

/-- From a slice, the hashes are read as they are said to be read. -/
theorem readHashesFrom_slice (count : Nat) :
    (readHashesFrom count : Reader _) = readHashes count := by
  induction count with
  | zero => rfl
  | succ count inductionHypothesis =>
      rw [readHashesFrom, readHashes, inductionHypothesis]
      rfl

section Types

variable [SignatureBytes]

/-- The decoders of the types. -/
instance CodedType.decodeFrom : (type : CodedType) → DecodeFrom type.Value
  | u32 => instDecodeFromU32
  | u64 => instDecodeFromU64
  | bool => instDecodeFromBool
  | h256 => instDecodeFromH256
  | u256 => instDecodeFromU256
  | signature => instDecodeFromSignature
  | abacusIdentifier => instDecodeFromAbacusIdentifier
  | abacusMessage => instDecodeFromAbacusMessage
  | rawCommittedMessage => instDecodeFromRawCommittedMessage
  | checkpoint => instDecodeFromCheckpoint
  | checkpointMeta => instDecodeFromCheckpointMeta
  | signedCheckpoint => instDecodeFromSignedCheckpoint
  | interchainGasPaymentMeta => instDecodeFromInterchainGasPaymentMeta
  | proof => instDecodeFromProof

/-- The decoders of the types from a slice. -/
instance CodedType.decode : (type : CodedType) → Decode type.Value
  | u32 => instDecodeU32
  | u64 => instDecodeU64
  | bool => instDecodeBool
  | h256 => instDecodeH256
  | u256 => instDecodeU256
  | signature => instDecodeSignature
  | abacusIdentifier => instDecodeAbacusIdentifier
  | abacusMessage => instDecodeAbacusMessage
  | rawCommittedMessage => instDecodeRawCommittedMessage
  | checkpoint => instDecodeCheckpoint
  | checkpointMeta => instDecodeCheckpointMeta
  | signedCheckpoint => instDecodeSignedCheckpoint
  | interchainGasPaymentMeta => instDecodeInterchainGasPaymentMeta
  | proof => instDecodeProof

/-- From a slice, all bytes of a signature are delivered at once if they are
there. -/
theorem readFrom_signature_slice :
    (readFrom : Reader Signature) = Decode.readFrom := by
  funext bytes
  change _ = readSignature bytes
  unfold readFrom instDecodeFromSignature readSignature
  change (if (bytes.take 65).length ≠ 65 then throw _ else _ :
    Reader Signature) (bytes.drop 65) = _
  by_cases short : (bytes.take 65).length ≠ 65
  · rw [if_pos short, if_pos short]
    rfl
  · rw [if_neg short, if_neg short]
    cases SignatureBytes.tryFrom (bytes.take 65) <;> rfl

/-- From a slice, the decoders for any source are the decoders for slices. -/
theorem CodedType.readFrom_slice (type : CodedType) :
    (readFrom : Reader type.Value) = Decode.readFrom := by
  cases type with
  | signature => exact readFrom_signature_slice
  | signedCheckpoint =>
      change (do
        let checkpoint ← readFrom
        let signature ← readFrom
        return ⟨checkpoint, signature⟩ : Reader SignedCheckpoint) = _
      rw [readFrom_signature_slice]
      rfl
  | proof =>
      change (do
        let leaf ← readExact 32
        let indexBytes ← readExact 8
        let path ← readHashesFrom treeDepth
        return ⟨leaf, Bytes.toNat indexBytes.bytes, path.1, path.2⟩ :
          Reader (Proof H256)) = _
      rw [readHashesFrom_slice]
      rfl
  | _ => rfl

end Types

/-- What is decoded from a stream. -/
def readFromStream [DecodeFrom α] (input : Chunked UInt8) : Except Report α :=
  (readFrom input).map Prod.fst

/-! ## Chunks do not matter -/

/-- A decoder agrees with itself on the whole input. -/
def ChunkIndependent (α : Type) [DecodeFrom α] : Prop :=
  Agrees (readFrom : StateT (Chunked UInt8) (Except Report) α)
    (readFrom : Reader α)

/-- Reading exactly from a stream. -/
theorem run_readExact (n : Nat) (input : Chunked UInt8) :
    (Read.readExact n : StateT (Chunked UInt8) (Except Report) _) input =
      if enough : n ≤ input.contents.length then
        .ok (⟨input.contents.take n, List.length_take_of_le enough⟩,
          input.advance n)
      else .error (.abacus .ioError) := by
  have found := input.readExactly_eq n
  change (match read : input.readExactly n with
    | some (bytes, rest) => .ok (⟨bytes, length_of_readExactly read⟩, rest)
    | none => .error (.abacus .ioError) :
      Except Report (FixedBytes n × Chunked UInt8)) = _
  by_cases enough : n ≤ input.contents.length
  · rw [if_pos enough] at found
    rw [dif_pos enough]
    split
    · rename_i bytes rest read
      cases found.symm.trans read
      rfl
    · rename_i read
      cases found.symm.trans read
  · rw [if_neg enough] at found
    rw [dif_neg enough]
    split
    · rename_i bytes rest read
      cases found.symm.trans read
    · rfl

/-- A decoder that agrees with itself returns the same for all divisions of
one input into chunks. -/
theorem ChunkIndependent.same [DecodeFrom α]
    (independent : ChunkIndependent α)
    {first second : Chunked UInt8}
    (same : first.contents = second.contents) :
    (readFromStream first : Except Report α) = readFromStream second := by
  rw [readFromStream, readFromStream, independent.map_fst,
    independent.map_fst, same]

theorem agrees_readExact (n : Nat) :
    Agrees (Read.readExact n :
      StateT (Chunked UInt8) (Except Report) (FixedBytes n))
      (Read.readExact n) := by
  intro input
  by_cases enough : n ≤ input.contents.length
  · exact .inl ⟨⟨input.contents.take n, List.length_take_of_le enough⟩, n,
      enough, (run_readExact n input).trans (dif_pos enough),
      dif_pos enough⟩
  · exact .inr ⟨.abacus .ioError,
      (run_readExact n input).trans (dif_neg enough), dif_neg enough⟩

theorem agrees_readToEnd :
    Agrees (Read.readToEnd :
      StateT (Chunked UInt8) (Except Report) (List UInt8))
      Read.readToEnd := by
  intro input
  refine .inl ⟨input.contents, input.contents.length, Nat.le_refl _, ?_, ?_⟩
  · exact congrArg Except.ok (Chunked.readToEnd_eq spareCapacity 0 input)
  · rw [List.drop_length]
    rfl

/-- A decoder that reads a number of bytes and converts them. -/
theorem chunkIndependent_u32 : ChunkIndependent UInt32 :=
  (agrees_readExact 4).bind fun _ => .pure _

theorem chunkIndependent_u64 : ChunkIndependent UInt64 :=
  (agrees_readExact 8).bind fun _ => .pure _

theorem chunkIndependent_bool : ChunkIndependent Bool := by
  refine (agrees_readExact 1).bind fun buf => ?_
  split
  · exact .pure false
  · exact .pure true
  · exact .throw _

theorem chunkIndependent_h256 : ChunkIndependent H256 := agrees_readExact 32

theorem chunkIndependent_u256 : ChunkIndependent U256 :=
  (agrees_readExact 32).bind fun _ => .pure _

theorem chunkIndependent_abacusIdentifier :
    ChunkIndependent AbacusIdentifier :=
  chunkIndependent_h256.bind fun _ => .pure _

theorem chunkIndependent_abacusMessage : ChunkIndependent AbacusMessage :=
  (agrees_readExact 4).bind fun _ => (agrees_readExact 32).bind fun _ =>
    (agrees_readExact 4).bind fun _ => (agrees_readExact 32).bind fun _ =>
      agrees_readToEnd.bind fun _ => .pure _

theorem chunkIndependent_rawCommittedMessage :
    ChunkIndependent RawCommittedMessage :=
  (agrees_readExact 4).bind fun _ => agrees_readToEnd.bind fun _ => .pure _

theorem chunkIndependent_checkpoint : ChunkIndependent Checkpoint :=
  (agrees_readExact 4).bind fun _ => (agrees_readExact 32).bind fun _ =>
    (agrees_readExact 4).bind fun _ => .pure _

theorem chunkIndependent_checkpointMeta : ChunkIndependent CheckpointMeta :=
  (agrees_readExact 8).bind fun _ => .pure _

theorem chunkIndependent_interchainGasPaymentMeta :
    ChunkIndependent InterchainGasPaymentMeta :=
  chunkIndependent_h256.bind fun _ => chunkIndependent_u256.bind fun _ =>
    .pure _

theorem agrees_readHashesFrom (count : Nat) :
    Agrees (readHashesFrom count :
      StateT (Chunked UInt8) (Except Report) _) (readHashesFrom count) := by
  induction count with
  | zero => exact .pure _
  | succ count inductionHypothesis =>
      exact (agrees_readExact 32).bind fun _ =>
        inductionHypothesis.bind fun _ => .pure _

theorem chunkIndependent_proof : ChunkIndependent (Proof H256) :=
  (agrees_readExact 32).bind fun _ => (agrees_readExact 8).bind fun _ =>
    (agrees_readHashesFrom treeDepth).bind fun _ => .pure _

/-! ## Signatures -/

section Signatures

variable [SignatureBytes]

/-- The signature of the bytes that one read has delivered. -/
def signatureOf (buf : List UInt8) : Except Report Signature :=
  if buf.length ≠ 65 then
    .error (.abacus (.signatureError (.invalidLength buf.length)))
  else
    (SignatureBytes.tryFrom buf).mapError fun error =>
      .abacus (.signatureError error)

/-- A signature is read from what one read delivers. -/
theorem readFromStream_signature (input : Chunked UInt8) :
    readFromStream input =
      signatureOf (input.contents.take (input.delivered 65)) := by
  unfold readFromStream readFrom instDecodeFromSignature signatureOf
  have read : (Read.read 65 : StateT (Chunked UInt8) (Except Report) _)
      input = .ok (input.read 65) := rfl
  simp only [Bind.bind, StateT.bind, Except.bind, read, Chunked.read_eq]
  by_cases short : (input.contents.take (input.delivered 65)).length ≠ 65
  · rw [if_pos short, if_pos short]
    rfl
  · rw [if_neg short, if_neg short]
    cases SignatureBytes.tryFrom
      (input.contents.take (input.delivered 65)) <;> rfl

/-- The parser of 65 bytes does not complain about another length. -/
def SignatureBytes.ChecksLength : Prop :=
  ∀ bytes length, bytes.length = 65 →
    tryFrom bytes = .error (.invalidLength length) → length = 65

/-- A signature of 65 bytes is no complaint about another length. -/
theorem signatureOf_ne_invalidLength
    (checks : SignatureBytes.ChecksLength)
    {buf : List UInt8}
    (length : buf.length = 65)
    {other : Nat}
    (different : other ≠ 65) :
    signatureOf buf ≠
      .error (.abacus (.signatureError (.invalidLength other))) := by
  unfold signatureOf
  rw [if_neg (not_not.mpr length)]
  intro same
  cases parsed : SignatureBytes.tryFrom buf with
  | ok signature =>
      rw [parsed] at same
      cases same
  | error error =>
      rw [parsed] at same
      cases same
      exact different (checks buf other length parsed)

/-- Fewer bytes than a signature has are a complaint about their number. -/
theorem signatureOf_eq_invalidLength
    {buf : List UInt8}
    (length : buf.length ≠ 65) :
    signatureOf buf =
      .error (.abacus (.signatureError (.invalidLength buf.length))) :=
  if_pos length

/-- Two fronts of one input give the same signature only if they are the
same. -/
theorem signatureOf_take_eq_iff
    (checks : SignatureBytes.ChecksLength)
    {bytes : List UInt8}
    {first second : Nat}
    (firstInside : first ≤ bytes.length)
    (secondInside : second ≤ bytes.length) :
    signatureOf (bytes.take first) = signatureOf (bytes.take second) ↔
      first = second := by
  refine ⟨fun same => ?_, fun same => by rw [same]⟩
  have firstLength := List.length_take_of_le firstInside
  have secondLength := List.length_take_of_le secondInside
  -- A short front complains about its length.
  have complaint {count : Nat} (inside : count ≤ bytes.length)
      (short : count ≠ 65) :
      signatureOf (bytes.take count) =
        .error (.abacus (.signatureError (.invalidLength count))) := by
    have length := List.length_take_of_le inside
    rw [signatureOf_eq_invalidLength (by rwa [length]), length]
  by_cases one : first = 65 <;> by_cases two : second = 65
  · rw [one, two]
  · rw [complaint secondInside two] at same
    exact absurd same
      (signatureOf_ne_invalidLength checks (by rwa [firstLength]) two)
  · rw [complaint firstInside one] at same
    exact absurd same.symm
      (signatureOf_ne_invalidLength checks (by rwa [secondLength]) one)
  · rw [complaint firstInside one, complaint secondInside two] at same
    simpa using same

/-- Two divisions of one input into chunks give the same signature exactly if
the first read delivers equally many bytes. -/
theorem readFromStream_signature_eq_iff
    (checks : SignatureBytes.ChecksLength)
    {first second : Chunked UInt8}
    (same : first.contents = second.contents) :
    (readFromStream first : Except Report Signature) =
        readFromStream second ↔
      first.delivered 65 = second.delivered 65 := by
  rw [readFromStream_signature, readFromStream_signature, ← same]
  refine signatureOf_take_eq_iff checks (first.delivered_le 65).2 ?_
  rw [same]
  exact (second.delivered_le 65).2

end Signatures

/-! ## Signed checkpoints -/

/-- A checkpoint takes forty bytes off a slice. -/
theorem length_of_readFrom_checkpoint
    {bytes rest : List UInt8}
    {checkpoint : Checkpoint}
    (read : (readFrom : Reader Checkpoint) bytes = .ok (checkpoint, rest)) :
    bytes.length = 40 + rest.length := by
  obtain ⟨outboxDomain, _, rfl, readRoot⟩ := readExact_bind_eq_ok_iff.mp read
  obtain ⟨root, _, rfl, readIndex⟩ := readExact_bind_eq_ok_iff.mp readRoot
  obtain ⟨index, _, rfl, readAll⟩ := readExact_bind_eq_ok_iff.mp readIndex
  cases readAll
  simp only [List.length_append, FixedBytes.length_bytes]
  omega

/-- A checkpoint is read from a slice that holds forty bytes. -/
theorem exists_readFrom_checkpoint
    {bytes : List UInt8}
    (enough : 40 ≤ bytes.length) :
    ∃ outcome, (readFrom : Reader Checkpoint) bytes = .ok outcome := by
  obtain ⟨outboxDomain, _, rfl, behindDomain⟩ :=
    exists_eq_fixedBytes_append 4 36 enough
  obtain ⟨root, _, rfl, behindRoot⟩ :=
    exists_eq_fixedBytes_append 32 4 behindDomain
  obtain ⟨index, rest, rfl, -⟩ :=
    exists_eq_fixedBytes_append 4 0 behindRoot
  refine ⟨(⟨u32FromBeBytes outboxDomain, root, u32FromBeBytes index⟩, rest),
    ?_⟩
  refine readExact_bind_eq_ok_iff.mpr ⟨outboxDomain, _, rfl, ?_⟩
  refine readExact_bind_eq_ok_iff.mpr ⟨root, _, rfl, ?_⟩
  exact readExact_bind_eq_ok_iff.mpr ⟨index, rest, rfl, rfl⟩

/-- A checkpoint takes forty bytes off a stream, if they are there. -/
theorem readFrom_checkpoint_cases (input : Chunked UInt8) :
    (∃ checkpoint : Checkpoint, 40 ≤ input.contents.length ∧
        readFrom input = .ok (checkpoint, input.advance 40) ∧
        (readFrom : Reader Checkpoint) input.contents =
          .ok (checkpoint, input.contents.drop 40)) ∨
      ∃ error, input.contents.length < 40 ∧
        readFrom input = (.error error : Except Report (Checkpoint × _)) ∧
        (readFrom : Reader Checkpoint) input.contents = .error error := by
  rcases chunkIndependent_checkpoint input with
    ⟨checkpoint, count, there, read, whole⟩ | ⟨error, failed, whole⟩
  · have length := length_of_readFrom_checkpoint whole
    rw [List.length_drop] at length
    obtain rfl : count = 40 := by omega
    exact .inl ⟨checkpoint, there, read, whole⟩
  · refine .inr ⟨error, ?_, failed, whole⟩
    by_contra enough
    obtain ⟨outcome, read⟩ :=
      exists_readFrom_checkpoint (Nat.not_lt.mp enough)
    cases whole.symm.trans read

/-- The signatures of signed checkpoints are told apart. -/
theorem map_signedCheckpoint_eq_iff
    (checkpoint : Checkpoint)
    (first second : Except Report Signature) :
    (first.map fun signature => SignedCheckpoint.mk checkpoint signature) =
        second.map (fun signature => ⟨checkpoint, signature⟩) ↔
      first = second := by
  cases first <;> cases second <;> simp [Except.map]

section SignedCheckpoints

variable [SignatureBytes]

/-- A signed checkpoint is read from a stream in two parts. -/
theorem readFromStream_signedCheckpoint (input : Chunked UInt8) :
    (readFromStream input : Except Report SignedCheckpoint) =
      match (readFrom input : Except Report (Checkpoint × Chunked UInt8)) with
      | .ok (checkpoint, rest) =>
          (readFromStream rest).map fun signature => ⟨checkpoint, signature⟩
      | .error error => .error error := by
  change ((readFrom >>= fun checkpoint => readFrom >>= fun signature =>
    pure ⟨checkpoint, signature⟩ :
      StateT (Chunked UInt8) (Except Report) SignedCheckpoint) input).map
        Prod.fst = _
  simp only [Bind.bind, StateT.bind, Except.bind]
  cases (readFrom input : Except Report (Checkpoint × Chunked UInt8)) with
  | error error => rfl
  | ok outcome =>
      obtain ⟨checkpoint, rest⟩ := outcome
      simp only [readFromStream]
      cases (readFrom rest :
        Except Report (Signature × Chunked UInt8)) <;> rfl

/-- Two divisions of one input into chunks give the same signed checkpoint
exactly if they are too short for the checkpoint or the read behind it delivers
equally many bytes. -/
theorem readFromStream_signedCheckpoint_eq_iff
    (checks : SignatureBytes.ChecksLength)
    {first second : Chunked UInt8}
    (same : first.contents = second.contents) :
    (readFromStream first : Except Report SignedCheckpoint) =
        readFromStream second ↔
      first.contents.length < 40 ∨
        (first.advance 40).delivered 65 =
          (second.advance 40).delivered 65 := by
  have behind : (first.advance 40).contents =
      (second.advance 40).contents := by
    rw [Chunked.contents_advance, Chunked.contents_advance, same]
  rw [readFromStream_signedCheckpoint, readFromStream_signedCheckpoint]
  rcases readFrom_checkpoint_cases first with
    ⟨checkpoint, enough, read, whole⟩ | ⟨error, short, failed, whole⟩ <;>
  rcases readFrom_checkpoint_cases second with
    ⟨other, otherEnough, readOther, wholeOther⟩ |
      ⟨otherError, otherShort, failedOther, wholeOther⟩ <;>
  rw [← same] at wholeOther
  · cases whole.symm.trans wholeOther
    rw [read, readOther, or_iff_right (Nat.not_lt.mpr enough),
      ← readFromStream_signature_eq_iff checks behind]
    exact map_signedCheckpoint_eq_iff checkpoint _ _
  · cases whole.symm.trans wholeOther
  · cases whole.symm.trans wholeOther
  · cases whole.symm.trans wholeOther
    rw [failed, failedOther]
    exact iff_of_true rfl (.inl short)

end SignedCheckpoints

/-! ## All types -/

section Types

variable [SignatureBytes]

/-- Where a signature stands in the encoding of a type. -/
def CodedType.signatureOffset : CodedType → Option Nat
  | .signature => some 0
  | .signedCheckpoint => some 40
  | _ => none

/-- Two streams are decoded to the same result. -/
def SameResult (type : CodedType) (first second : Chunked UInt8) : Prop :=
  (readFromStream first : Except Report type.Value) = readFromStream second

/-- If a type has a signature and the streams reach it, the read for it
delivers equally many bytes on both. -/
def DeliversSignatureAlike (type : CodedType)
    (first second : Chunked UInt8) : Prop :=
  ∀ offset, type.signatureOffset = some offset →
    first.contents.length < offset ∨
      (first.advance offset).delivered 65 =
        (second.advance offset).delivered 65

/-- Streams with the same contents are decoded to the same result exactly if
the read for a signature delivers equally many bytes on both. -/
theorem sameResult_iff
    (checks : SignatureBytes.ChecksLength)
    (type : CodedType)
    {first second : Chunked UInt8}
    (same : first.contents = second.contents) :
    SameResult type first second ↔
      DeliversSignatureAlike type first second := by
  have independent {type : CodedType}
      (independent : ChunkIndependent type.Value)
      (none : type.signatureOffset = none) :
      SameResult type first second ↔
        DeliversSignatureAlike type first second :=
    iff_of_true (independent.same same) (by simp [DeliversSignatureAlike, none])
  cases type with
  | signature =>
      refine (readFromStream_signature_eq_iff checks same).trans ?_
      simp [DeliversSignatureAlike, CodedType.signatureOffset]
  | signedCheckpoint =>
      refine (readFromStream_signedCheckpoint_eq_iff checks same).trans ?_
      simp [DeliversSignatureAlike, CodedType.signatureOffset]
  | u32 => exact independent chunkIndependent_u32 rfl
  | u64 => exact independent chunkIndependent_u64 rfl
  | bool => exact independent chunkIndependent_bool rfl
  | h256 => exact independent chunkIndependent_h256 rfl
  | u256 => exact independent chunkIndependent_u256 rfl
  | abacusIdentifier => exact independent chunkIndependent_abacusIdentifier rfl
  | abacusMessage => exact independent chunkIndependent_abacusMessage rfl
  | rawCommittedMessage =>
      exact independent chunkIndependent_rawCommittedMessage rfl
  | checkpoint => exact independent chunkIndependent_checkpoint rfl
  | checkpointMeta => exact independent chunkIndependent_checkpointMeta rfl
  | interchainGasPaymentMeta =>
      exact independent chunkIndependent_interchainGasPaymentMeta rfl
  | proof => exact independent chunkIndependent_proof rfl

end Types

/-- The format of three parts in sequence checks the length. -/
theorem SignatureBytes.concatenated_checksLength :
    @SignatureBytes.ChecksLength .concatenated := by
  intro bytes length whole complaint
  cases (if_neg (not_not.mpr whole)).symm.trans complaint

/-- Bytes that are delivered at once. -/
def atOnce (bytes : List UInt8) (some : bytes ≠ []) : Chunked UInt8 where
  chunks := [bytes]
  nonempty_chunks := by simpa using some

/-- Bytes that are delivered in two chunks. -/
def inTwo (first second : List UInt8) (some : first ≠ [] ∧ second ≠ []) :
    Chunked UInt8 where
  chunks := [first, second]
  nonempty_chunks := by simpa using some

/-- A signed checkpoint may be cut in front of its signature, but not inside
of it. -/
theorem sameResult_iff_signedCheckpoint :
    let _ := SignatureBytes.concatenated
    let whole := atOnce (List.replicate 105 0) (by decide)
    let before := inTwo (List.replicate 40 0) (List.replicate 65 0) (by decide)
    let inside := inTwo (List.replicate 104 0) [0] (by decide)
    SameResult .signedCheckpoint whole before ∧
      ¬ SameResult .signedCheckpoint whole inside := by
  intro format whole before inside
  constructor
  · refine (sameResult_iff SignatureBytes.concatenated_checksLength
      .signedCheckpoint (by decide)).mpr ?_
    rintro offset ⟨⟩
    decide
  · intro same
    have alike := (sameResult_iff SignatureBytes.concatenated_checksLength
      .signedCheckpoint (by decide)).mp same 40 rfl
    exact absurd alike (by decide)

/-- A signature whose last byte arrives later is refused. -/
theorem readFromStream_late_byte :
    let _ := SignatureBytes.concatenated
    let whole := atOnce (List.replicate 65 0) (by decide)
    let late := inTwo (List.replicate 64 0) [0] (by decide)
    whole.contents = late.contents ∧
      (readFromStream whole : Except Report Signature) = .ok ⟨0, 0, 0⟩ ∧
      (readFromStream late : Except Report Signature) =
        .error (.abacus (.signatureError (.invalidLength 64))) ∧
      ¬ SameResult .signature whole late := by
  intro format whole late
  have same : whole.contents = late.contents := by decide
  refine ⟨same, ?_, ?_, ?_⟩
  · rw [readFromStream_signature]
    decide
  · rw [readFromStream_signature]
    decide
  · rw [SameResult, readFromStream_signature_eq_iff
      SignatureBytes.concatenated_checksLength same]
    decide

end Abacus
