import Abacus.Core.Primitives

/-!
# Messages and their canonical encoding

Decoding reads from a byte string and leaves the unread rest; encoding appends
the fields in order. A message that decodes encodes back to the bytes it was
decoded from, so the leaf of a raw message is the leaf of its parsed form.
-/

namespace Abacus

/-- A decoder over an in-memory byte string. -/
abbrev Reader (α : Type) := StateT (List UInt8) (Except Report) α

/-- `read_exact`: the next `n` bytes, or an end-of-file error. -/
def readExact (n : Nat) : Reader (FixedBytes n) := fun bytes =>
  if long : n ≤ bytes.length then
    .ok (⟨bytes.take n, by simp [long]⟩, bytes.drop n)
  else .error (.abacus .ioError)

/-- `read_to_end`: every remaining byte. -/
def readToEnd : Reader (List UInt8) := fun bytes => .ok (bytes, [])

/-- A full message between chains. -/
structure AbacusMessage where
  origin : UInt32
  sender : H256
  destination : UInt32
  recipient : H256
  body : List UInt8
  deriving DecidableEq

namespace AbacusMessage

/-- Canonical encoding of a message. -/
def toVec (message : AbacusMessage) : List UInt8 :=
  (u32ToBeBytes message.origin).bytes ++ message.sender.bytes ++
    (u32ToBeBytes message.destination).bytes ++ message.recipient.bytes ++
    message.body

/-- Decode a message; everything after the fixed prefix is its body. -/
def readFrom : Reader AbacusMessage := do
  let origin ← readExact 4
  let sender ← readExact 32
  let destination ← readExact 4
  let recipient ← readExact 32
  let body ← readToEnd
  return {
    origin := u32FromBeBytes origin
    sender := sender
    destination := u32FromBeBytes destination
    recipient := recipient
    body := body }

/-- Decode a whole byte string. -/
def parse (bytes : List UInt8) : Except Report AbacusMessage :=
  (readFrom bytes).map Prod.fst

/-- The leaf that commits a message at an index. -/
def toLeaf [Crypto] (message : AbacusMessage) (leafIndex : UInt32) : H256 :=
  Crypto.keccak256
    (message.toVec ++ List.replicate 28 0 ++ (u32ToBeBytes leafIndex).bytes)

end AbacusMessage

/-- A stamped message with its undecoded bytes. -/
structure RawCommittedMessage where
  leafIndex : UInt32
  message : List UInt8
  deriving DecidableEq

/-- The leaf of a raw message. -/
def RawCommittedMessage.leaf [Crypto] (raw : RawCommittedMessage) : H256 :=
  Crypto.keccak256
    (raw.message ++ List.replicate 28 0 ++ (u32ToBeBytes raw.leafIndex).bytes)

/-- A stamped message that has been decoded. -/
structure CommittedMessage where
  leafIndex : UInt32
  message : AbacusMessage
  deriving DecidableEq

namespace CommittedMessage

/-- The leaf of a decoded message. -/
def toLeaf [Crypto] (committed : CommittedMessage) : H256 :=
  committed.message.toLeaf committed.leafIndex

/-- Decode a raw message. -/
def tryFrom (raw : RawCommittedMessage) : Except Report CommittedMessage :=
  (AbacusMessage.parse raw.message).map fun message =>
    { leafIndex := raw.leafIndex, message := message }

end CommittedMessage

/-! ## Decoding restores the bytes -/

/-- What `readExact` does on success. -/
theorem readExact_eq_ok_iff
    {n : Nat}
    {bytes rest : List UInt8}
    {front : FixedBytes n} :
    readExact n bytes = .ok (front, rest) ↔ bytes = front.bytes ++ rest := by
  constructor
  · intro read
    unfold readExact at read
    split at read
    · cases read
      exact (List.take_append_drop n bytes).symm
    · cases read
  · rintro rfl
    have take : (front.bytes ++ rest).take n = front.bytes :=
      List.take_left' front.length_bytes
    have drop : (front.bytes ++ rest).drop n = rest :=
      List.drop_left' front.length_bytes
    rw [readExact, dif_pos (by simp [front.length_bytes])]
    simp only [drop]
    congr 2
    exact FixedBytes.ext take

/-- Sequencing two readers. -/
theorem Reader.bind_eq_ok
    {first : Reader α}
    {next : α → Reader β}
    {bytes : List UInt8}
    {outcome : β × List UInt8}
    (read : (first >>= next) bytes = .ok outcome) :
    ∃ value rest, first bytes = .ok (value, rest) ∧
      next value rest = .ok outcome := by
  simp only [bind, StateT.bind, Except.bind] at read
  split at read
  · cases read
  · rename_i pair returned
    exact ⟨pair.1, pair.2, returned, read⟩

/-- What reading a fixed front and then the rest takes to succeed. -/
theorem readExact_bind_eq_ok_iff
    {next : FixedBytes n → Reader α}
    {bytes : List UInt8}
    {outcome : α × List UInt8} :
    (readExact n >>= next) bytes = .ok outcome ↔
      ∃ front rest, bytes = front.bytes ++ rest ∧
        next front rest = .ok outcome := by
  constructor
  · intro read
    obtain ⟨front, rest, readFront, readRest⟩ := Reader.bind_eq_ok read
    exact ⟨front, rest, readExact_eq_ok_iff.mp readFront, readRest⟩
  · rintro ⟨front, rest, rfl, readRest⟩
    have readFront : readExact n (front.bytes ++ rest) = .ok (front, rest) :=
      readExact_eq_ok_iff.mpr rfl
    simpa only [bind, StateT.bind, Except.bind, readFront] using readRest

/-- A long enough byte string has a front of a fixed length, and what is left
is as long as it has to be. -/
theorem exists_eq_fixedBytes_append
    {bytes : List UInt8}
    (n least : Nat)
    (enough : n + least ≤ bytes.length) :
    ∃ front : FixedBytes n, ∃ rest,
      bytes = front.bytes ++ rest ∧ least ≤ rest.length := by
  refine ⟨⟨bytes.take n, List.length_take_of_le (by omega)⟩, bytes.drop n,
    (List.take_append_drop n bytes).symm, ?_⟩
  rw [List.length_drop]
  omega

/-- The message that is read is the one whose encoding the input is. -/
theorem AbacusMessage.readFrom_eq_ok_iff
    {bytes rest : List UInt8}
    {message : AbacusMessage} :
    readFrom bytes = .ok (message, rest) ↔
      bytes = message.toVec ∧ rest = [] := by
  unfold readFrom
  constructor
  · intro read
    obtain ⟨origin, afterOrigin, atOrigin, read⟩ :=
      readExact_bind_eq_ok_iff.mp read
    obtain ⟨sender, afterSender, atSender, read⟩ :=
      readExact_bind_eq_ok_iff.mp read
    obtain ⟨destination, afterDestination, atDestination, read⟩ :=
      readExact_bind_eq_ok_iff.mp read
    obtain ⟨recipient, body, atRecipient, read⟩ :=
      readExact_bind_eq_ok_iff.mp read
    cases read
    rw [atOrigin, atSender, atDestination, atRecipient]
    exact ⟨by simp [toVec], rfl⟩
  · rintro ⟨rfl, rfl⟩
    simp only [toVec, List.append_assoc]
    refine readExact_bind_eq_ok_iff.mpr
      ⟨u32ToBeBytes message.origin, _, rfl, ?_⟩
    refine readExact_bind_eq_ok_iff.mpr ⟨message.sender, _, rfl, ?_⟩
    refine readExact_bind_eq_ok_iff.mpr
      ⟨u32ToBeBytes message.destination, _, rfl, ?_⟩
    refine readExact_bind_eq_ok_iff.mpr ⟨message.recipient, _, rfl, ?_⟩
    simp only [u32FromBeBytes_toBeBytes]
    rfl

/-- The fixed prefix of a message has 72 bytes. -/
theorem AbacusMessage.length_toVec (message : AbacusMessage) :
    72 ≤ message.toVec.length := by
  simp only [toVec, List.length_append, FixedBytes.length_bytes]
  omega

/-- A decoded message encodes to the bytes it was decoded from. -/
theorem AbacusMessage.toVec_of_parse
    {bytes : List UInt8}
    {message : AbacusMessage}
    (parsed : AbacusMessage.parse bytes = .ok message) :
    message.toVec = bytes := by
  unfold parse at parsed
  cases read : readFrom bytes with
  | error error => simp [read, Except.map] at parsed
  | ok outcome =>
      simp only [read, Except.map, Except.ok.injEq] at parsed
      subst parsed
      exact (readFrom_eq_ok_iff.mp read).1.symm

/-- The leaf of a raw message is the leaf of its decoded form. -/
theorem CommittedMessage.toLeaf_of_tryFrom [Crypto]
    {raw : RawCommittedMessage}
    {committed : CommittedMessage}
    (parsed : CommittedMessage.tryFrom raw = .ok committed) :
    committed.toLeaf = raw.leaf := by
  unfold tryFrom at parsed
  cases read : AbacusMessage.parse raw.message with
  | error error => simp [read, Except.map] at parsed
  | ok message =>
      simp only [read, Except.map, Except.ok.injEq] at parsed
      subst parsed
      simp only [CommittedMessage.toLeaf, AbacusMessage.toLeaf,
        RawCommittedMessage.leaf, AbacusMessage.toVec_of_parse read]

end Abacus
