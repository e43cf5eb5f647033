import Abacus.Base.Multisig
import Abacus.Library.Journal
import Abacus.Library.Machine
import Mathlib.Data.Nat.Digits.Defs

/-!
# Storage backends for checkpoints

A validator writes its checkpoints to a directory or to a bucket, both of which
map names to contents. Under either backend the checkpoint of an index is the
last one written there. The record of the latest index follows two rules: the
directory keeps the highest index, the bucket the last one.
-/

namespace Abacus

open Journal (Program)

/-- Contents of the files of a directory or of the objects of a bucket, by
name. -/
abbrev Storage := Journal.Store String fun _ => ByteArray

/-- A program over a storage. -/
abbrev StorageM := Program String (fun _ => ByteArray) Report

/-! ## Decimal numerals -/

/-- `u32::to_string`. -/
def u32ToString (value : UInt32) : String := value.toNat.repr

/-- `str::parse::<u32>`: decimal digits, at least one, with an optional plus
sign. -/
def parseU32 (text : String) : Option UInt32 :=
  let digits :=
    match text.toList with
    | '+' :: digits => digits
    | digits => digits
  if digits.isEmpty || digits.any fun digit => !digit.isDigit then none
  else
    let value := Nat.ofDigitChars 10 digits 0
    if value < 2 ^ 32 then some (UInt32.ofNat value) else none

/-- Every character of a numeral is a digit. -/
theorem isDigit_of_mem_u32ToString
    {value : UInt32}
    {digit : Char}
    (member : digit ∈ (u32ToString value).toList) : digit.isDigit := by
  rw [u32ToString, Nat.toList_repr] at member
  exact Nat.isDigit_of_mem_toDigits (by decide) (by decide) member

/-- A numeral is parsed back. -/
theorem parseU32_u32ToString (value : UInt32) :
    parseU32 (u32ToString value) = some value := by
  have digits : (match (u32ToString value).toList with
      | '+' :: digits => digits
      | digits => digits) = (u32ToString value).toList := by
    split
    · rename_i rest starts
      have member : '+' ∈ (u32ToString value).toList := by
        rw [starts]
        exact List.mem_cons_self
      exact absurd (isDigit_of_mem_u32ToString member) (by decide)
    · rfl
  have nonempty : (u32ToString value).toList ≠ [] := by
    rw [u32ToString, Nat.toList_repr]
    exact Nat.toDigits_ne_nil
  have clean : ((u32ToString value).toList.isEmpty ||
      (u32ToString value).toList.any fun digit => !digit.isDigit) =
        false := by
    rw [Bool.or_eq_false_iff, List.isEmpty_eq_false_iff, List.any_eq_false]
    refine ⟨nonempty, fun digit member => ?_⟩
    simp [isDigit_of_mem_u32ToString member]
  have read : Nat.ofDigitChars 10 (u32ToString value).toList 0 =
      value.toNat := by
    rw [u32ToString, Nat.toList_repr, Nat.ofDigitChars_ten_toDigits]
  unfold parseU32
  simp only [digits, clean, read, Bool.false_eq_true, if_false,
    if_pos value.toNat_lt, UInt32.ofNat_toNat]

/-- Different indices have different numerals. -/
theorem u32ToString_injective : Function.Injective u32ToString := by
  intro first second same
  have parsed := parseU32_u32ToString first
  rw [same, parseU32_u32ToString] at parsed
  exact (Option.some.inj parsed).symm

/-- The text of a file is read back. -/
theorem fromUTF8?_toUTF8 (text : String) :
    String.fromUTF8? text.toUTF8 = some text := by
  have valid : text.toUTF8.IsValidUTF8 := text.isValidUTF8
  unfold String.fromUTF8?
  rw [dif_pos valid]
  rfl

/-! ## Serialization -/

/-- The functions of the JSON serializer. -/
structure SerdeJson where
  toStringPretty : SignedCheckpoint → Except Report String
  checkpointFromSlice : ByteArray → Except Report SignedCheckpoint
  indexFromSlice : ByteArray → Except Report UInt32

/-- A checkpoint and the numeral of its index are read back from what is
written for them. -/
structure SerdeJson.RoundTrips (json : SerdeJson)
    (signed : SignedCheckpoint) : Prop where
  checkpoint : ∃ text, json.toStringPretty signed = .ok text ∧
    json.checkpointFromSlice text.toUTF8 = .ok signed
  index : json.indexFromSlice (u32ToString signed.checkpoint.index).toUTF8 =
    .ok signed.checkpoint.index

/-- Read and deserialize a file or an object, if there is one. -/
def readJson (fromSlice : ByteArray → Except Report α) (name : String) :
    StorageM (Option α) := do
  match (← Program.get name : Option ByteArray) with
  | some data => some <$> Program.lift (fromSlice data)
  | none => return none

/-- What reading a file or an object returns. -/
theorem result_readJson
    (fromSlice : ByteArray → Except Report α)
    (name : String)
    (contents : Storage) :
    (readJson fromSlice name).result contents =
      match contents name with
      | some data => (fromSlice data).map some
      | none => .ok none := by
  rw [Program.result, readJson, Program.run_bind_ok (Program.run_get _ _)]
  rw [Journal.replay_nil]
  cases contents name with
  | none => rfl
  | some data =>
      simp only
      cases fromSlice data <;> rfl

/-! ## The directory -/

/-- A directory on the local disk. -/
structure LocalStorage where
  path : String

namespace LocalStorage

variable (storage : LocalStorage)

/-- The file of a checkpoint. -/
def checkpointFilePath (index : UInt32) : String :=
  storage.path ++ "/" ++ u32ToString index ++ ".json"

/-- The file of the latest index. -/
def latestIndexFilePath : String :=
  storage.path ++ "/index.json"

/-- Record the latest index. -/
def writeIndex (index : UInt32) : StorageM Unit :=
  Program.put storage.latestIndexFilePath (u32ToString index).toUTF8

/-- Read the latest index. A file that is missing or no text counts as no
index. -/
def latestIndex : StorageM (Option UInt32) := do
  match (← Program.get storage.latestIndexFilePath :
      Option ByteArray).bind String.fromUTF8? with
  | some data =>
      match parseU32 data with
      | some index => return some index
      | none => Program.fail .backend
  | none => return none

/-- Read the checkpoint of an index. -/
def fetchCheckpoint (json : SerdeJson) (index : UInt32) :
    StorageM (Option SignedCheckpoint) :=
  readJson json.checkpointFromSlice (storage.checkpointFilePath index)

/-- Write a checkpoint, and record its index if it is above the recorded
one. -/
def writeCheckpoint (json : SerdeJson) (signed : SignedCheckpoint) :
    StorageM Unit := do
  let serialized ← (Program.lift (json.toStringPretty signed) :
    StorageM String)
  Program.put (storage.checkpointFilePath signed.checkpoint.index)
    serialized.toUTF8
  match ← storage.latestIndex with
  | some current =>
      if current < signed.checkpoint.index then
        storage.writeIndex signed.checkpoint.index
      else return ()
  | none => storage.writeIndex signed.checkpoint.index

end LocalStorage

/-! ## The bucket -/

namespace S3Storage

/-- The object of a checkpoint. -/
def checkpointKey (index : UInt32) : String :=
  "checkpoint_" ++ u32ToString index ++ ".json"

/-- The object of the latest index. -/
def indexKey : String := "checkpoint_latest_index.json"

/-- Read the latest index. -/
def latestIndex (json : SerdeJson) : StorageM (Option UInt32) :=
  readJson json.indexFromSlice indexKey

/-- Read the checkpoint of an index. -/
def fetchCheckpoint (json : SerdeJson) (index : UInt32) :
    StorageM (Option SignedCheckpoint) :=
  readJson json.checkpointFromSlice (checkpointKey index)

/-- Write a checkpoint and record its index. -/
def writeCheckpoint (json : SerdeJson) (signed : SignedCheckpoint) :
    StorageM Unit := do
  let serialized ← (Program.lift (json.toStringPretty signed) :
    StorageM String)
  Program.put (checkpointKey signed.checkpoint.index) serialized.toUTF8
  Program.put indexKey (u32ToString signed.checkpoint.index).toUTF8

end S3Storage

end Abacus
