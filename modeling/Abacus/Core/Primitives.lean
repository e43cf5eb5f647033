import Abacus.Library.Bytes

/-!
# Primitive values, errors and panics

Byte strings of fixed length, checked `u32` arithmetic, the error types of the
core crate, and the panics that the modelled code can raise. The two
cryptographic functions of third-party crates stay abstract.
-/

namespace Abacus

/-- A byte array `[u8; n]`. -/
structure FixedBytes (n : Nat) where
  bytes : List UInt8
  length_bytes : bytes.length = n
  deriving DecidableEq

@[ext] theorem FixedBytes.ext
    {left right : FixedBytes n}
    (equal : left.bytes = right.bytes) : left = right := by
  cases left
  cases right
  cases equal
  rfl

/-- A 32-byte hash. -/
abbrev H256 := FixedBytes 32

/-- The hash of 32 zero bytes, `H256::zero()`. -/
def H256.zero : H256 := ⟨List.replicate 32 0, by simp⟩

/-- A 20-byte address, read as a big-endian number; the order of the numbers
is the order of the byte arrays. -/
abbrev Address := Fin (2 ^ 160)

instance neZeroAddresses : NeZero (2 ^ 160) := ⟨by decide⟩

/-- A 256-bit unsigned integer. -/
abbrev U256 := BitVec 256

/-- An ECDSA signature. -/
structure Signature where
  r : U256
  s : U256
  v : UInt64
  deriving DecidableEq

/-! ## Errors and panics -/

/-- Failures of signature parsing and recovery. -/
inductive SignatureError
  | invalidLength (length : Nat)
  | recoveryError
  deriving DecidableEq

/-- Errors of the core crate; reading past the end of a byte string is the
only input/output error of an in-memory reader. -/
inductive AbacusError
  | signatureError (error : SignatureError)
  | ioError
  deriving DecidableEq

/-- Errors of assembling a multisig checkpoint. -/
inductive MultisigSignedCheckpointError
  | inconsistentCheckpoints
  | emptySignatures
  deriving DecidableEq

/-- Errors of calls to a chain. The payloads of third-party errors are left
out. -/
inductive ChainCommunicationError
  | abacusError (error : AbacusError)
  | contractError
  | providerError
  | droppedError (txHash : H256)
  | dbError
  | customError
  | transactionTimeout
  deriving DecidableEq

/-- An `eyre::Report`: an error of the core crate, one of a call to a chain, a
message, or one passed on from the RPC provider or a storage backend. -/
inductive Report
  | abacus (error : AbacusError)
  | multisig (error : MultisigSignedCheckpointError)
  | chain (error : ChainCommunicationError)
  | message (text : String)
  | backend
  deriving DecidableEq

/-- The panics of the modelled code, one for each assertion, `unwrap`,
`expect` or checked operation it contains. -/
inductive Panic
  | overflow
  | leavesExceedCapacity
  | leafAboveDepthZero
  | proofLengthMismatch
  | proofOfNonLeaf
  | branchLengthMismatch
  | pathTooShort
  | incrementalFull
  | proverFull
  | rootsDiffer
  | missingCheckpoint
  | checkpointBelowMessage
  | countMismatch
  | missingReceiptStatus
  | emptyContinuation
  | dbFailure
  deriving DecidableEq

/-- How a call can fail to return a value: with an error, or by a panic. -/
inductive Fault (ε : Type)
  | error (error : ε)
  | panic (reason : Panic)
  deriving DecidableEq

/-- What a successful sequence of two computations consists of. -/
theorem exists_of_bind_eq_ok
    {first : Except ε α}
    {next : α → Except ε β}
    {result : β}
    (succeeded : (first >>= next) = .ok result) :
    ∃ value, first = .ok value ∧ next value = .ok result := by
  cases first with
  | error error => cases succeeded
  | ok value => exact ⟨value, rfl, succeeded⟩

/-- A conversion that succeeds for all elements of a list. -/
theorem mapM_eq_ok
    {convert : α → Except ε β}
    {converted : α → β}
    {list : List α}
    (each : ∀ value ∈ list, convert value = .ok (converted value)) :
    list.mapM convert = .ok (list.map converted) := by
  induction list with
  | nil => rfl
  | cons value rest inductionHypothesis =>
      have later := inductionHypothesis fun other member =>
        each other (List.mem_cons_of_mem _ member)
      rw [List.mapM_cons, each value List.mem_cons_self, later]
      rfl

/-- A conversion of a list succeeds for each of its elements only. -/
theorem exists_of_mapM_eq_ok
    {convert : α → Except ε β}
    {list : List α}
    {results : List β}
    (succeeded : list.mapM convert = .ok results) :
    ∀ value ∈ list, ∃ result, convert value = .ok result := by
  induction list generalizing results with
  | nil => exact fun value member => nomatch member
  | cons first rest inductionHypothesis =>
      rw [List.mapM_cons] at succeeded
      obtain ⟨result, converted, succeeded⟩ := exists_of_bind_eq_ok succeeded
      obtain ⟨later, restConverted, -⟩ := exists_of_bind_eq_ok succeeded
      intro value member
      rcases List.mem_cons.mp member with rfl | inRest
      · exact ⟨result, converted⟩
      · exact inductionHypothesis restConverted value inRest

/-! ## Checked arithmetic -/

/-- `u32` addition, which panics on overflow. -/
def checkedAdd (left right : UInt32) : Except (Fault ε) UInt32 :=
  if left.toNat + right.toNat < 2 ^ 32 then .ok (left + right)
  else .error (.panic .overflow)

/-- `u32` subtraction, which panics on underflow. -/
def checkedSub (left right : UInt32) : Except (Fault ε) UInt32 :=
  if right ≤ left then .ok (left - right) else .error (.panic .overflow)

/-- A sum that fits is that of the numbers; any other addition panics. -/
theorem checkedAdd_cases (left right : UInt32) :
    (∃ sum, (checkedAdd left right : Except (Fault ε) UInt32) = .ok sum ∧
        sum.toNat = left.toNat + right.toNat) ∨
      (checkedAdd left right : Except (Fault ε) UInt32) =
        .error (.panic .overflow) := by
  unfold checkedAdd
  split
  · rename_i fits
    exact .inl ⟨left + right, rfl, by
      rw [UInt32.toNat_add, Nat.mod_eq_of_lt fits]⟩
  · exact .inr rfl

/-- A successful addition is that of the numbers. -/
theorem toNat_of_checkedAdd
    {left right sum : UInt32}
    (added : (checkedAdd left right : Except (Fault ε) UInt32) = .ok sum) :
    sum.toNat = left.toNat + right.toNat := by
  rcases checkedAdd_cases (ε := ε) left right with
    ⟨other, same, counted⟩ | overflow
  · cases added.symm.trans same
    exact counted
  · cases added.symm.trans overflow

/-- A successful subtraction is that of the numbers. -/
theorem toNat_of_checkedSub
    {left right difference : UInt32}
    (subtracted : (checkedSub left right : Except (Fault ε) UInt32) =
      .ok difference) :
    left.toNat = difference.toNat + right.toNat := by
  unfold checkedSub at subtracted
  split at subtracted
  · rename_i below
    cases subtracted
    rw [UInt32.toNat_sub_of_le _ _ below]
    rw [UInt32.le_iff_toNat_le] at below
    omega
  · cases subtracted

/-! ## Byte order -/

/-- The four bytes of a `u32`, most significant first. -/
def u32ToBeBytes (value : UInt32) : FixedBytes 4 :=
  ⟨Bytes.bigEndian 4 value.toNat, Bytes.length_bigEndian 4 _⟩

/-- The `u32` of four bytes, most significant first. -/
def u32FromBeBytes (bytes : FixedBytes 4) : UInt32 :=
  UInt32.ofNat (Bytes.toNat bytes.bytes)

@[simp] theorem u32FromBeBytes_toBeBytes (value : UInt32) :
    u32FromBeBytes (u32ToBeBytes value) = value := by
  have fits : value.toNat < 256 ^ 4 := value.toNat_lt
  rw [u32FromBeBytes, u32ToBeBytes, Bytes.toNat_bigEndian_of_lt fits,
    UInt32.ofNat_toNat]

@[simp] theorem u32ToBeBytes_fromBeBytes (bytes : FixedBytes 4) :
    u32ToBeBytes (u32FromBeBytes bytes) = bytes := by
  have bound := Bytes.toNat_lt bytes.bytes
  have restored := Bytes.bigEndian_toNat bytes.bytes
  rw [bytes.length_bytes] at bound restored
  have small : (UInt32.ofNat (Bytes.toNat bytes.bytes)).toNat =
      Bytes.toNat bytes.bytes := by
    rw [UInt32.toNat_ofNat']
    omega
  apply FixedBytes.ext
  simpa only [u32ToBeBytes, u32FromBeBytes, small] using restored

/-! ## Third-party cryptography -/

/-- The cryptographic functions of third-party crates: the Keccak digest, and
the recovery of the signing address from a message hash. -/
class Crypto where
  keccak256 : List UInt8 → H256
  recover : H256 → Signature → Except SignatureError Address

/-- Transparent cryptography for evaluation: a digest keeps the last 32 bytes,
and a signature names its signer unless its recovery byte is zero. -/
@[reducible] def Crypto.transparent : Crypto where
  keccak256 bytes :=
    ⟨(List.replicate 32 0 ++ bytes).drop bytes.length, by
      rw [List.length_drop, List.length_append, List.length_replicate]
      omega⟩
  recover _ signature :=
    if signature.v = 0 then .error .recoveryError
    else .ok (Fin.ofNat (2 ^ 160) signature.r.toNat)

end Abacus
