import Abacus.Core.Message
import Abacus.Core.Checkpoint
import Abacus.Accumulator.Merkle
import Mathlib.Data.Set.Function
import Mathlib.Data.List.Nodup

/-!
# What the digests bind

Leaves, inner nodes and signing hashes are digests of plain concatenations.
The parts have fixed lengths but for the message, which stands in front, so a
preimage determines its parts; and the parser asks for enough bytes of a
message that the preimages of the three kinds differ in length.

No digest of 32 bytes is injective on all byte strings. It is assumed to be
on the byte strings that are hashed, whichever these are.
-/

namespace Abacus

/-! ## Preimages -/

/-- A `u32` in 32 bytes, most significant first. -/
def paddedIndex (index : UInt32) : FixedBytes 32 :=
  ⟨List.replicate 28 0 ++ (u32ToBeBytes index).bytes, by
    rw [List.length_append, List.length_replicate, FixedBytes.length_bytes]⟩

/-- What is hashed for the leaf of a raw message. -/
def RawCommittedMessage.preimage (raw : RawCommittedMessage) : List UInt8 :=
  raw.message ++ (paddedIndex raw.leafIndex).bytes

/-- What is hashed for an inner node. -/
def nodePreimage (left right : H256) : List UInt8 := left.bytes ++ right.bytes

/-- What is hashed for a domain. -/
def domainPreimage (domain : UInt32) : List UInt8 :=
  (u32ToBeBytes domain).bytes ++ "ABACUS".toUTF8.toList

/-- What is hashed for a checkpoint. -/
def Checkpoint.preimage [Crypto] (checkpoint : Checkpoint) : List UInt8 :=
  (domainHash checkpoint.outboxDomain).bytes ++ checkpoint.root.bytes ++
    (paddedIndex checkpoint.index).bytes

theorem u32ToBeBytes_injective : Function.Injective u32ToBeBytes :=
  Function.LeftInverse.injective u32FromBeBytes_toBeBytes

theorem paddedIndex_injective : Function.Injective paddedIndex := by
  intro first second same
  apply u32ToBeBytes_injective
  apply FixedBytes.ext
  exact List.append_cancel_left (congrArg FixedBytes.bytes same)

/-- Bytes of a fixed length at the end of a byte string are determined by it,
and so is what stands in front of them. -/
theorem FixedBytes.append_inj
    {front other : List UInt8}
    {last otherLast : FixedBytes n}
    (same : front ++ last.bytes = other ++ otherLast.bytes) :
    front = other ∧ last = otherLast := by
  have lengths : last.bytes.length = otherLast.bytes.length :=
    last.length_bytes.trans otherLast.length_bytes.symm
  obtain ⟨fronts, lasts⟩ := List.append_inj' same lengths
  exact ⟨fronts, FixedBytes.ext lasts⟩

theorem RawCommittedMessage.preimage_injective :
    Function.Injective RawCommittedMessage.preimage := by
  intro first second same
  obtain ⟨messages, indices⟩ := FixedBytes.append_inj same
  cases first
  cases second
  obtain rfl := paddedIndex_injective indices
  obtain rfl := messages
  rfl

theorem domainPreimage_injective : Function.Injective domainPreimage := by
  intro first second same
  apply u32ToBeBytes_injective
  apply FixedBytes.ext
  exact List.append_cancel_right same

@[simp] theorem length_nodePreimage (left right : H256) :
    (nodePreimage left right).length = 64 := by
  rw [nodePreimage, List.length_append, left.length_bytes,
    right.length_bytes]

/-- The preimage of a message that is read is longer than those of the other
kinds. -/
theorem RawCommittedMessage.length_preimage
    {raw : RawCommittedMessage}
    {message : AbacusMessage}
    {rest : List UInt8}
    (read : AbacusMessage.readFrom raw.message = .ok (message, rest)) :
    104 ≤ raw.preimage.length := by
  obtain ⟨bytes, -⟩ := AbacusMessage.readFrom_eq_ok_iff.mp read
  have long := message.length_toVec
  rw [preimage, bytes, List.length_append, FixedBytes.length_bytes]
  omega

/-- A raw message that is read is converted. -/
theorem CommittedMessage.tryFrom_of_readFrom
    {raw : RawCommittedMessage}
    {message : AbacusMessage}
    {rest : List UInt8}
    (read : AbacusMessage.readFrom raw.message = .ok (message, rest)) :
    CommittedMessage.tryFrom raw = .ok ⟨raw.leafIndex, message⟩ := by
  rw [tryFrom, AbacusMessage.parse, read]
  rfl

section

variable [Crypto]

@[simp] theorem Checkpoint.length_preimage (checkpoint : Checkpoint) :
    checkpoint.preimage.length = 96 := by
  simp only [preimage, List.length_append, FixedBytes.length_bytes]

theorem RawCommittedMessage.leaf_eq (raw : RawCommittedMessage) :
    raw.leaf = Crypto.keccak256 raw.preimage :=
  congrArg Crypto.keccak256 (List.append_assoc _ _ _)

theorem Checkpoint.signingHash_eq (checkpoint : Checkpoint) :
    checkpoint.signingHash = Crypto.keccak256 checkpoint.preimage :=
  congrArg Crypto.keccak256 (List.append_assoc _ _ _)

/-! ## Binding and separation -/

variable {hashed : Set (List UInt8)}

/-- Preimages of different lengths have different digests. -/
theorem keccak256_ne_of_length_ne
    (injective : Set.InjOn Crypto.keccak256 hashed)
    {first second : List UInt8}
    (firstHashed : first ∈ hashed)
    (secondHashed : second ∈ hashed)
    (lengths : first.length ≠ second.length) :
    Crypto.keccak256 first ≠ Crypto.keccak256 second := by
  intro same
  exact lengths (congrArg List.length
    (injective firstHashed secondHashed same))

/-- The leaf binds the index and the bytes of a raw message. -/
theorem RawCommittedMessage.eq_of_leaf_eq
    (injective : Set.InjOn Crypto.keccak256 hashed)
    {first second : RawCommittedMessage}
    (firstHashed : first.preimage ∈ hashed)
    (secondHashed : second.preimage ∈ hashed)
    (same : first.leaf = second.leaf) :
    first = second := by
  rw [leaf_eq, leaf_eq] at same
  exact preimage_injective (injective firstHashed secondHashed same)

/-- What is hashed for a checkpoint and for its domain is among the byte strings
that are hashed. -/
def Checkpoint.Hashed (hashed : Set (List UInt8)) (checkpoint : Checkpoint) :
    Prop :=
  domainPreimage checkpoint.outboxDomain ∈ hashed ∧
    checkpoint.preimage ∈ hashed

/-- The signing hash binds the domain, the root and the index. -/
theorem Checkpoint.eq_of_signingHash_eq
    (injective : Set.InjOn Crypto.keccak256 hashed)
    {first second : Checkpoint}
    (firstHashed : first.Hashed hashed)
    (secondHashed : second.Hashed hashed)
    (same : first.signingHash = second.signingHash) :
    first = second := by
  rw [signingHash_eq, signingHash_eq] at same
  have preimages := injective firstHashed.2 secondHashed.2 same
  obtain ⟨fronts, indices⟩ := FixedBytes.append_inj preimages
  obtain ⟨domainHashes, roots⟩ := FixedBytes.append_inj fronts
  have domains : domainPreimage first.outboxDomain =
      domainPreimage second.outboxDomain :=
    injective firstHashed.1 secondHashed.1 (FixedBytes.ext domainHashes)
  cases first
  cases second
  obtain rfl := domainPreimage_injective domains
  obtain rfl := paddedIndex_injective indices
  obtain rfl := roots
  rfl

/-- The leaf of a message that is read is not the digest of anything as short
as the preimages of the other kinds. -/
theorem RawCommittedMessage.leaf_ne_keccak256
    (injective : Set.InjOn Crypto.keccak256 hashed)
    {raw : RawCommittedMessage}
    {message : AbacusMessage}
    {rest other : List UInt8}
    (read : AbacusMessage.readFrom raw.message = .ok (message, rest))
    (leafHashed : raw.preimage ∈ hashed)
    (otherHashed : other ∈ hashed)
    (short : other.length ≤ 96) :
    raw.leaf ≠ Crypto.keccak256 other := by
  have long := length_preimage read
  rw [leaf_eq]
  apply keccak256_ne_of_length_ne injective leafHashed otherHashed
  omega

/-- The leaf of a message that is read is no inner node. -/
theorem RawCommittedMessage.leaf_ne_hashConcat
    (injective : Set.InjOn Crypto.keccak256 hashed)
    {raw : RawCommittedMessage}
    {message : AbacusMessage}
    {rest : List UInt8}
    {left right : H256}
    (read : AbacusMessage.readFrom raw.message = .ok (message, rest))
    (leafHashed : raw.preimage ∈ hashed)
    (nodeHashed : nodePreimage left right ∈ hashed) :
    raw.leaf ≠ NodeHash.hashConcat left right := by
  apply leaf_ne_keccak256 injective read leafHashed nodeHashed
  rw [length_nodePreimage]
  decide

/-- The leaf of a message that is read is no signing hash. -/
theorem RawCommittedMessage.leaf_ne_signingHash
    (injective : Set.InjOn Crypto.keccak256 hashed)
    {raw : RawCommittedMessage}
    {message : AbacusMessage}
    {rest : List UInt8}
    {checkpoint : Checkpoint}
    (read : AbacusMessage.readFrom raw.message = .ok (message, rest))
    (leafHashed : raw.preimage ∈ hashed)
    (checkpointHashed : checkpoint.Hashed hashed) :
    raw.leaf ≠ checkpoint.signingHash := by
  rw [Checkpoint.signingHash_eq]
  apply leaf_ne_keccak256 injective read leafHashed checkpointHashed.2
  rw [Checkpoint.length_preimage]

/-- A signing hash is no inner node. -/
theorem Checkpoint.signingHash_ne_hashConcat
    (injective : Set.InjOn Crypto.keccak256 hashed)
    {checkpoint : Checkpoint}
    {left right : H256}
    (checkpointHashed : checkpoint.Hashed hashed)
    (nodeHashed : nodePreimage left right ∈ hashed) :
    checkpoint.signingHash ≠ NodeHash.hashConcat left right := by
  rw [signingHash_eq]
  apply keccak256_ne_of_length_ne injective checkpointHashed.2 nodeHashed
  rw [length_preimage, length_nodePreimage]
  decide

/-- Raw messages and checkpoints are bound by their digests, leaves of messages
that are read, inner nodes and signing hashes are separate, and a raw message
that parses has the leaf of its parsed form. -/
theorem digests_bind
    (injective : Set.InjOn Crypto.keccak256 hashed) :
    (∀ first second : RawCommittedMessage,
      first.preimage ∈ hashed → second.preimage ∈ hashed →
        first.leaf = second.leaf →
          first.leafIndex = second.leafIndex ∧
            first.message = second.message) ∧
    (∀ first second : Checkpoint,
      first.Hashed hashed → second.Hashed hashed →
        first.signingHash = second.signingHash →
          first.outboxDomain = second.outboxDomain ∧
            first.root = second.root ∧ first.index = second.index) ∧
    (∀ (raw : RawCommittedMessage) message rest,
      AbacusMessage.readFrom raw.message = .ok (message, rest) →
        raw.preimage ∈ hashed →
          message.toLeaf raw.leafIndex = raw.leaf ∧
          (∀ left right : H256, nodePreimage left right ∈ hashed →
            raw.leaf ≠ NodeHash.hashConcat left right) ∧
          ∀ checkpoint : Checkpoint, checkpoint.Hashed hashed →
            raw.leaf ≠ checkpoint.signingHash) ∧
    (∀ (checkpoint : Checkpoint) (left right : H256),
      checkpoint.Hashed hashed → nodePreimage left right ∈ hashed →
        checkpoint.signingHash ≠ NodeHash.hashConcat left right) ∧
    (∀ (raw : RawCommittedMessage) message rest,
      AbacusMessage.readFrom raw.message = .ok (message, rest) →
        ∃ committed, CommittedMessage.tryFrom raw = .ok committed ∧
          committed.toLeaf = raw.leaf) := by
  refine ⟨?_, ?_, ?_, ?_, ?_⟩
  · intro first second firstHashed secondHashed same
    obtain rfl := RawCommittedMessage.eq_of_leaf_eq injective firstHashed
      secondHashed same
    exact ⟨rfl, rfl⟩
  · intro first second firstHashed secondHashed same
    obtain rfl := Checkpoint.eq_of_signingHash_eq injective firstHashed
      secondHashed same
    exact ⟨rfl, rfl, rfl⟩
  · intro raw message rest read leafHashed
    have leaves := CommittedMessage.toLeaf_of_tryFrom
      (CommittedMessage.tryFrom_of_readFrom read)
    exact ⟨leaves,
      fun _ _ => RawCommittedMessage.leaf_ne_hashConcat injective read
        leafHashed,
      fun _ => RawCommittedMessage.leaf_ne_signingHash injective read
        leafHashed⟩
  · intro checkpoint _ _
    exact checkpoint.signingHash_ne_hashConcat injective
  · intro raw message rest read
    have parsed := CommittedMessage.tryFrom_of_readFrom read
    exact ⟨_, parsed, CommittedMessage.toLeaf_of_tryFrom parsed⟩

end

theorem digests_bind_pairs :
    let _ := Crypto.transparent
    let message : AbacusMessage := ⟨1, H256.zero, 2, H256.zero, [9]⟩
    let raw : RawCommittedMessage := ⟨1, message.toVec⟩
    let other : RawCommittedMessage := ⟨2, message.toVec⟩
    let checkpoint : Checkpoint := ⟨1, H256.zero, 3⟩
    let next : Checkpoint := ⟨2, H256.zero, 4⟩
    raw.leaf ≠ other.leaf ∧
    checkpoint.signingHash ≠ next.signingHash ∧
    raw.leaf ≠ NodeHash.hashConcat H256.zero H256.zero ∧
    raw.leaf ≠ checkpoint.signingHash ∧
    checkpoint.signingHash ≠ NodeHash.hashConcat H256.zero H256.zero ∧
    ∃ committed, CommittedMessage.tryFrom raw = .ok committed ∧
      committed.toLeaf = raw.leaf := by
  intro _ message raw other checkpoint next
  have injective : Set.InjOn Crypto.keccak256 {bytes | bytes ∈
      [raw.preimage, other.preimage, domainPreimage 1, domainPreimage 2,
        checkpoint.preimage, next.preimage,
        nodePreimage H256.zero H256.zero]} :=
    List.inj_on_of_nodup_map (by decide +kernel)
  have read : AbacusMessage.readFrom raw.message = .ok (message, []) :=
    AbacusMessage.readFrom_eq_ok_iff.mpr ⟨rfl, rfl⟩
  obtain ⟨leaves, signingHashes, separate, nodes, conversions⟩ :=
    digests_bind injective
  obtain ⟨-, leafNodes, leafSigningHashes⟩ :=
    separate raw message [] read (by simp)
  refine ⟨?_, ?_, leafNodes _ _ (by simp),
    leafSigningHashes checkpoint ⟨by simp [checkpoint], by simp⟩,
    nodes checkpoint _ _ ⟨by simp [checkpoint], by simp⟩ (by simp),
    conversions raw message [] read⟩
  · intro same
    have indices := (leaves raw other (by simp) (by simp) same).1
    exact absurd indices (by decide)
  · intro same
    have domains := (signingHashes checkpoint next
      ⟨by simp [checkpoint], by simp⟩ ⟨by simp [next], by simp⟩ same).1
    exact absurd domains (by decide)

end Abacus
