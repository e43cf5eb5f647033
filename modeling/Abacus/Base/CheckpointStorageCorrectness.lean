import Abacus.Base.CheckpointStorage

/-!
# What the checkpoint backends return

Both backends return the last checkpoint written with an index. The directory
returns the highest index written, the bucket the last one, so that the two
agree exactly if no index written is above the last.
-/

namespace Abacus

open Journal (Program)

/-! ## The contract -/

/-- The checkpoint written last with an index. -/
def lastWritten (writes : List SignedCheckpoint) (index : UInt32) :
    Option SignedCheckpoint :=
  (writes.filter fun signed => signed.checkpoint.index == index).getLast?

/-- The highest index written, if anything was written. -/
def IsHighest (writes : List SignedCheckpoint) : Option UInt32 → Prop
  | none => writes = []
  | some highest =>
      (∃ signed ∈ writes, signed.checkpoint.index = highest) ∧
        ∀ signed ∈ writes, signed.checkpoint.index ≤ highest

/-- A syncer answers with the highest index and with the last checkpoint of
each index. -/
structure CheckpointSyncer.Serves (syncer : CheckpointSyncer)
    (writes : List SignedCheckpoint) : Prop where
  latestIndex : ∃ highest, syncer.latestIndex = .ok highest ∧
    IsHighest writes highest
  fetchCheckpoint : ∀ index,
    syncer.fetchCheckpoint index = .ok (lastWritten writes index)

/-- A write replaces the checkpoint of its index. -/
theorem lastWritten_concat
    (writes : List SignedCheckpoint)
    (signed : SignedCheckpoint)
    (index : UInt32) :
    lastWritten (writes ++ [signed]) index =
      if signed.checkpoint.index = index then some signed
      else lastWritten writes index := by
  unfold lastWritten
  rw [List.filter_append]
  split
  · rename_i same
    rw [List.filter_cons_of_pos (by simpa using same), List.filter_nil,
      List.getLast?_concat]
  · rename_i different
    rw [List.filter_cons_of_neg (by simpa using different), List.filter_nil,
      List.append_nil]

/-- What was written last with an index is one of the writes. -/
theorem mem_of_lastWritten
    {writes : List SignedCheckpoint}
    {index : UInt32}
    {signed : SignedCheckpoint}
    (last : lastWritten writes index = some signed) :
    signed ∈ writes :=
  List.mem_of_mem_filter (List.mem_of_getLast? last)

/-- An index above the highest one is the new highest. -/
theorem IsHighest.raise
    {writes : List SignedCheckpoint}
    {signed : SignedCheckpoint}
    {highest : Option UInt32}
    (known : IsHighest writes highest)
    (above : ∀ index, highest = some index →
      index ≤ signed.checkpoint.index) :
    IsHighest (writes ++ [signed]) (some signed.checkpoint.index) := by
  refine ⟨⟨signed, by simp, rfl⟩, ?_⟩
  intro other member
  rcases List.mem_append.mp member with earlier | added
  · cases highest with
    | none =>
        rw [show writes = [] from known] at earlier
        cases earlier
    | some index =>
        exact UInt32.le_trans (known.2 other earlier) (above index rfl)
  · rw [List.mem_singleton.mp added]
    exact UInt32.le_refl _

/-- An index that is not above the highest one leaves it. -/
theorem IsHighest.keep
    {writes : List SignedCheckpoint}
    {signed : SignedCheckpoint}
    {index : UInt32}
    (known : IsHighest writes (some index))
    (below : signed.checkpoint.index ≤ index) :
    IsHighest (writes ++ [signed]) (some index) := by
  obtain ⟨⟨first, member, same⟩, highest⟩ := known
  refine ⟨⟨first, List.mem_append_left _ member, same⟩, ?_⟩
  intro other member
  rcases List.mem_append.mp member with earlier | added
  · exact highest other earlier
  · rwa [List.mem_singleton.mp added]

/-- There is at most one highest index. -/
theorem IsHighest.unique
    {writes : List SignedCheckpoint}
    {first second : Option UInt32}
    (one : IsHighest writes first)
    (two : IsHighest writes second) :
    first = second := by
  cases first with
  | none =>
      cases second with
      | none => rfl
      | some index =>
          obtain ⟨⟨signed, member, -⟩, -⟩ := two
          rw [show writes = [] from one] at member
          cases member
  | some highest =>
      obtain ⟨⟨signed, member, rfl⟩, above⟩ := one
      cases second with
      | none =>
          rw [show writes = [] from two] at member
          cases member
      | some index =>
          obtain ⟨⟨other, present, rfl⟩, bound⟩ := two
          rw [UInt32.le_antisymm (bound signed member) (above other present)]

/-! ## Names -/

/-- The names of a backend: a name for the checkpoint of each index, and one
for the record of the latest index. -/
structure CheckpointNames where
  checkpoint : UInt32 → String
  latest : String
  injective : Function.Injective checkpoint
  apart : ∀ index, checkpoint index ≠ latest

/-- Numerals between two fixed texts. -/
theorem framed_u32ToString_injective (before after : String) :
    Function.Injective fun index => before ++ u32ToString index ++ after := by
  intro first second same
  have lists := congrArg String.toList same
  simp only [String.toList_append, List.append_cancel_right_eq,
    List.append_cancel_left_eq] at lists
  exact u32ToString_injective (String.toList_injective lists)

/-- A numeral between two texts is no text that goes on with another
character than a digit. -/
theorem framed_u32ToString_ne
    (before after : String)
    (index : UInt32)
    {letter : Char}
    {rest : List Char}
    {text : String}
    (other : letter.isDigit = false)
    (split : text.toList = before.toList ++ letter :: rest) :
    before ++ u32ToString index ++ after ≠ text := by
  intro same
  have lists := congrArg String.toList same
  rw [split, String.toList_append, String.toList_append, List.append_assoc,
    List.append_cancel_left_eq] at lists
  cases digits : (u32ToString index).toList with
  | nil =>
      rw [u32ToString, Nat.toList_repr] at digits
      exact Nat.toDigits_ne_nil digits
  | cons digit digitsRest =>
      have member : digit ∈ (u32ToString index).toList := by
        rw [digits]
        exact List.mem_cons_self
      have isDigit := isDigit_of_mem_u32ToString member
      rw [digits, List.cons_append] at lists
      obtain ⟨rfl, -⟩ := List.cons.inj lists
      rw [other] at isDigit
      cases isDigit

/-- The files of a directory. -/
def LocalStorage.names (storage : LocalStorage) : CheckpointNames where
  checkpoint := storage.checkpointFilePath
  latest := storage.latestIndexFilePath
  injective := framed_u32ToString_injective (storage.path ++ "/") ".json"
  apart index := framed_u32ToString_ne (storage.path ++ "/") ".json" index
    (show 'i'.isDigit = false from rfl) (by
      rw [latestIndexFilePath, String.toList_append, String.toList_append,
        List.append_assoc]
      rfl)

/-- The objects of the bucket. -/
def S3Storage.names : CheckpointNames where
  checkpoint := checkpointKey
  latest := indexKey
  injective := framed_u32ToString_injective "checkpoint_" ".json"
  apart index := framed_u32ToString_ne "checkpoint_" ".json" index
    (show 'l'.isDigit = false from rfl) (by
      rw [indexKey]
      rfl)

/-! ## What is stored -/

/-- What is stored under a name: nothing, or a checkpoint. -/
def Contains (json : SerdeJson) (contents : Storage) (name : String) :
    Option SignedCheckpoint → Prop
  | none => contents name = none
  | some signed => ∃ text, json.toStringPretty signed = .ok text ∧
      contents name = some text.toUTF8

section Names

variable {names : CheckpointNames}
variable {json : SerdeJson}

/-- The storage holds the last checkpoint of each index, and its record of the
latest index is `latest`. -/
structure Holds (names : CheckpointNames) (json : SerdeJson)
    (writes : List SignedCheckpoint) (latest : Option UInt32)
    (contents : Storage) : Prop where
  checkpoint : ∀ index, Contains json contents (names.checkpoint index)
    (lastWritten writes index)
  latest : contents names.latest =
    latest.map fun index => (u32ToString index).toUTF8

/-- Only the content under the name matters. -/
theorem Contains.congr
    {first second : Storage}
    {name : String}
    {stored : Option SignedCheckpoint}
    (contains : Contains json first name stored)
    (same : second name = first name) :
    Contains json second name stored := by
  cases stored with
  | none => exact same.trans contains
  | some signed =>
      obtain ⟨text, pretty, content⟩ := contains
      exact ⟨text, pretty, same.trans content⟩

/-- Nothing is stored at first. -/
theorem holds_empty (names : CheckpointNames) (json : SerdeJson) :
    Holds names json [] none Journal.empty :=
  ⟨fun _ => rfl, rfl⟩

/-- Writing a checkpoint under its name. -/
theorem Holds.write
    {writes : List SignedCheckpoint}
    {latest : Option UInt32}
    {contents : Storage}
    (holds : Holds names json writes latest contents)
    {signed : SignedCheckpoint}
    {text : String}
    (pretty : json.toStringPretty signed = .ok text) :
    Holds names json (writes ++ [signed]) latest
      (Journal.Put.apply
        ⟨names.checkpoint signed.checkpoint.index, text.toUTF8⟩
          contents) := by
  refine ⟨fun index => ?_, ?_⟩
  · rw [lastWritten_concat]
    split
    · rename_i same
      subst same
      exact ⟨text, pretty, Journal.Put.apply_mk_self _ _ contents⟩
    · rename_i different
      exact (holds.checkpoint index).congr (Journal.Put.apply_of_ne
        (fun same => different (names.injective same).symm) contents)
  · rw [Journal.Put.apply_of_ne (names.apart _).symm, holds.latest]

/-- Recording another latest index. -/
theorem Holds.record
    {writes : List SignedCheckpoint}
    {latest : Option UInt32}
    {contents : Storage}
    (holds : Holds names json writes latest contents)
    (index : UInt32) :
    Holds names json writes (some index)
      (Journal.Put.apply ⟨names.latest, (u32ToString index).toUTF8⟩
        contents) :=
  ⟨fun other => (holds.checkpoint other).congr
      (Journal.Put.apply_of_ne (names.apart other) contents),
    Journal.Put.apply_mk_self _ _ contents⟩

/-- Reading the checkpoint of an index. -/
theorem Holds.result_fetch
    {writes : List SignedCheckpoint}
    {latest : Option UInt32}
    {contents : Storage}
    (holds : Holds names json writes latest contents)
    (roundTrips : ∀ signed ∈ writes, json.RoundTrips signed)
    (index : UInt32) :
    (readJson json.checkpointFromSlice (names.checkpoint index)).result
        contents =
      .ok (lastWritten writes index) := by
  have contains := holds.checkpoint index
  rw [result_readJson]
  cases last : lastWritten writes index with
  | none =>
      rw [last] at contains
      rw [show contents (names.checkpoint index) = none from contains]
  | some signed =>
      rw [last] at contains
      obtain ⟨text, pretty, content⟩ := contains
      obtain ⟨written, same, decoded⟩ :=
        (roundTrips signed (mem_of_lastWritten last)).checkpoint
      obtain rfl := Except.ok.inj (pretty.symm.trans same)
      simp only [content, decoded]
      rfl

end Names

/-! ## The directory -/

namespace LocalStorage

variable {storage : LocalStorage}
variable {json : SerdeJson}

/-- What the directory holds after a list of writes. -/
def Kept (storage : LocalStorage) (json : SerdeJson)
    (writes : List SignedCheckpoint) (contents : Storage) : Prop :=
  ∃ latest, IsHighest writes latest ∧
    Holds storage.names json writes latest contents

/-- Reading the recorded index. -/
theorem run_latestIndex
    {contents : Storage}
    {latest : Option UInt32}
    (record : contents storage.latestIndexFilePath =
      latest.map fun index => (u32ToString index).toUTF8) :
    storage.latestIndex contents = (.ok latest, []) := by
  rw [latestIndex, Program.run_bind_ok (Program.run_get _ _), record]
  cases latest with
  | none => rfl
  | some index =>
      simp only [Option.map_some, Option.bind_some, fromUTF8?_toUTF8,
        parseU32_u32ToString]
      rfl

/-- Writing a checkpoint records its index if it is the highest one. -/
theorem triple_writeCheckpoint
    {signed : SignedCheckpoint}
    (roundTrips : json.RoundTrips signed)
    (writes : List SignedCheckpoint) :
    Program.Triple (Kept storage json writes)
      (storage.writeCheckpoint json signed)
      (fun _ => Kept storage json (writes ++ [signed]))
      (Kept storage json (writes ++ [signed])) := by
  obtain ⟨text, pretty, -⟩ := roundTrips.checkpoint
  have serialize : Program.Triple (Kept storage json writes)
      (Program.lift (json.toStringPretty signed))
      (fun serialized contents =>
        text = serialized ∧ Kept storage json writes contents)
      (Kept storage json (writes ++ [signed])) :=
    Program.Triple.lift_ok pretty fun _ kept => ⟨rfl, kept⟩
  refine serialize.bind fun serialized => ?_
  have write : Program.Triple (ε := Report)
      (fun contents => text = serialized ∧ Kept storage json writes contents)
      (Program.put (storage.checkpointFilePath signed.checkpoint.index)
        serialized.toUTF8)
      (fun _ contents => ∃ latest, IsHighest writes latest ∧
        Holds storage.names json (writes ++ [signed]) latest contents)
      (Kept storage json (writes ++ [signed])) := by
    apply Program.Triple.put
    rintro contents ⟨rfl, latest, highest, holds⟩
    exact ⟨latest, highest, holds.write pretty⟩
  refine write.bind fun _ => ?_
  rintro contents ⟨latest, highest, holds⟩
  have read := run_latestIndex holds.latest
  rw [Program.result, Program.final, Program.journal,
    Program.run_bind_ok read]
  cases latest with
  | none =>
      exact ⟨_, highest.raise (by simp), holds.record _⟩
  | some current =>
      by_cases above : current < signed.checkpoint.index
      · simp only [above, if_true]
        refine ⟨_, highest.raise ?_, holds.record _⟩
        rintro index ⟨⟩
        exact UInt32.le_of_lt above
      · simp only [above, if_false]
        exact ⟨_, highest.keep (UInt32.not_lt.mp above), holds⟩

/-- The directory after a list of writes. -/
def written (storage : LocalStorage) (json : SerdeJson)
    (writes : List SignedCheckpoint) : Storage :=
  Machine.run
    (fun contents signed => (storage.writeCheckpoint json signed).final contents)
    Journal.empty writes

/-- The directory as a syncer. -/
def syncer (storage : LocalStorage) (json : SerdeJson) (contents : Storage) :
    CheckpointSyncer where
  latestIndex := storage.latestIndex.result contents
  fetchCheckpoint index :=
    (storage.fetchCheckpoint json index).result contents

/-- What the directory holds after any list of writes. -/
theorem kept_written
    {writes : List SignedCheckpoint}
    (roundTrips : ∀ signed ∈ writes, json.RoundTrips signed) :
    Kept storage json writes (storage.written json writes) :=
  Machine.invariant_run_past _ (Kept storage json)
    (fun past _ _ roundTrip kept =>
      (triple_writeCheckpoint roundTrip past).final kept)
    ⟨none, rfl, holds_empty storage.names json⟩ roundTrips

/-- The directory keeps the contract. -/
theorem serves_written
    {writes : List SignedCheckpoint}
    (roundTrips : ∀ signed ∈ writes, json.RoundTrips signed) :
    (storage.syncer json (storage.written json writes)).Serves writes := by
  obtain ⟨latest, highest, holds⟩ :
      Kept storage json writes (storage.written json writes) :=
    kept_written roundTrips
  refine ⟨⟨latest, ?_, highest⟩, holds.result_fetch roundTrips⟩
  exact congrArg Prod.fst (run_latestIndex holds.latest)

end LocalStorage

/-! ## The bucket -/

namespace S3Storage

variable {json : SerdeJson}

/-- What the bucket holds after a list of writes. -/
def Kept (json : SerdeJson) (writes : List SignedCheckpoint)
    (contents : Storage) : Prop :=
  Holds names json writes
    (writes.getLast?.map fun signed => signed.checkpoint.index) contents

/-- Writing a checkpoint records its index. -/
theorem triple_writeCheckpoint
    {signed : SignedCheckpoint}
    (roundTrips : json.RoundTrips signed)
    (writes : List SignedCheckpoint) :
    Program.Triple (Kept json writes) (writeCheckpoint json signed)
      (fun _ => Kept json (writes ++ [signed]))
      (Kept json (writes ++ [signed])) := by
  obtain ⟨text, pretty, -⟩ := roundTrips.checkpoint
  have serialize : Program.Triple (Kept json writes)
      (Program.lift (json.toStringPretty signed))
      (fun serialized contents => text = serialized ∧ Kept json writes contents)
      (Kept json (writes ++ [signed])) :=
    Program.Triple.lift_ok pretty fun _ kept => ⟨rfl, kept⟩
  refine serialize.bind fun serialized => ?_
  have write : Program.Triple (ε := Report)
      (fun contents => text = serialized ∧ Kept json writes contents)
      (Program.put (checkpointKey signed.checkpoint.index) serialized.toUTF8)
      (fun _ => Holds names json (writes ++ [signed])
        (writes.getLast?.map fun signed => signed.checkpoint.index))
      (Kept json (writes ++ [signed])) := by
    apply Program.Triple.put
    rintro contents ⟨rfl, holds⟩
    exact holds.write pretty
  refine write.bind fun _ => Program.Triple.put fun contents holds => ?_
  rw [Kept, List.getLast?_concat]
  exact holds.record signed.checkpoint.index

/-- The bucket after a list of writes. -/
def written (json : SerdeJson) (writes : List SignedCheckpoint) : Storage :=
  Machine.run
    (fun contents signed => (writeCheckpoint json signed).final contents)
    Journal.empty writes

/-- The bucket as a syncer. -/
def syncer (json : SerdeJson) (contents : Storage) : CheckpointSyncer where
  latestIndex := (latestIndex json).result contents
  fetchCheckpoint index := (fetchCheckpoint json index).result contents

/-- What the bucket holds after any list of writes. -/
theorem kept_written
    {writes : List SignedCheckpoint}
    (roundTrips : ∀ signed ∈ writes, json.RoundTrips signed) :
    Kept json writes (written json writes) :=
  Machine.invariant_run_past _ (Kept json)
    (fun past _ _ roundTrip kept =>
      (triple_writeCheckpoint roundTrip past).final kept)
    (holds_empty names json) roundTrips

/-- The bucket returns the index written last. -/
theorem latestIndex_written
    {writes : List SignedCheckpoint}
    (roundTrips : ∀ signed ∈ writes, json.RoundTrips signed) :
    (syncer json (written json writes)).latestIndex =
      .ok (writes.getLast?.map fun signed => signed.checkpoint.index) := by
  have record : written json writes indexKey = _ :=
    (kept_written roundTrips).latest
  change (readJson json.indexFromSlice indexKey).result _ = _
  rw [result_readJson, record]
  cases last : writes.getLast? with
  | none => rfl
  | some signed =>
      simp only [Option.map_some,
        (roundTrips signed (List.mem_of_getLast? last)).index]
      rfl

/-- The bucket keeps the contract exactly if no index written is above the
last one. -/
theorem serves_written_iff
    {writes : List SignedCheckpoint}
    (roundTrips : ∀ signed ∈ writes, json.RoundTrips signed) :
    (syncer json (written json writes)).Serves writes ↔
      IsHighest writes
        (writes.getLast?.map fun signed => signed.checkpoint.index) := by
  have latest := latestIndex_written roundTrips
  constructor
  · rintro ⟨⟨highest, answer, isHighest⟩, -⟩
    rw [latest] at answer
    obtain rfl := Except.ok.inj answer
    exact isHighest
  · intro isHighest
    exact ⟨⟨_, latest, isHighest⟩,
      (kept_written roundTrips).result_fetch roundTrips⟩

end S3Storage

/-! ## The two backends -/

/-- The last index is the highest one if no other is above it. -/
theorem isHighest_getLast?_iff (writes : List SignedCheckpoint) :
    IsHighest writes
        (writes.getLast?.map fun signed => signed.checkpoint.index) ↔
      ∀ last ∈ writes.getLast?, ∀ signed ∈ writes,
        signed.checkpoint.index ≤ last.checkpoint.index := by
  cases last : writes.getLast? with
  | none =>
      refine iff_of_true (List.getLast?_eq_none_iff.mp last) ?_
      intro other member
      cases member
  | some signed =>
      constructor
      · rintro ⟨-, highest⟩ other ⟨⟩
        exact highest
      · intro highest
        exact ⟨⟨signed, List.mem_of_getLast? last, rfl⟩, highest signed rfl⟩

/-- After any writes, both backends answer with the highest index and with the
last checkpoint of each index if and only if no index written is above the
last one. -/
theorem backends_serve_iff
    (storage : LocalStorage)
    (json : SerdeJson)
    (writes : List SignedCheckpoint)
    (roundTrips : ∀ signed ∈ writes, json.RoundTrips signed) :
    ((storage.syncer json (storage.written json writes)).Serves writes ∧
        (S3Storage.syncer json (S3Storage.written json writes)).Serves
          writes) ↔
      ∀ last ∈ writes.getLast?, ∀ signed ∈ writes,
        signed.checkpoint.index ≤ last.checkpoint.index := by
  rw [← isHighest_getLast?_iff, ← S3Storage.serves_written_iff roundTrips]
  exact and_iff_right (LocalStorage.serves_written roundTrips)

/-! ## Two checkpoints -/

/-- A number in hexadecimal digits. -/
def hexQuantity (value : Nat) : String :=
  "0x" ++ String.ofList (Nat.toDigits 16 value)

/-- Bytes in hexadecimal digits. -/
def hexBytes (bytes : List UInt8) : String :=
  "0x" ++ String.ofList (bytes.flatMap fun byte =>
    [Nat.digitChar (byte.toNat / 16), Nat.digitChar (byte.toNat % 16)])

/-- The text of a signed checkpoint. -/
def prettySignedCheckpoint (signed : SignedCheckpoint) : String :=
  ("\x7b\n  \"checkpoint\": \x7b\n    \"outbox_domain\": " ++
      u32ToString signed.checkpoint.outboxDomain ++
      ",\n    \"root\": \"" ++ hexBytes signed.checkpoint.root.bytes ++
      "\",\n    \"index\": ") ++
    u32ToString signed.checkpoint.index ++
    ("\n  \x7d,\n  \"signature\": \x7b\n    \"r\": \"" ++
      hexQuantity signed.signature.r.toNat ++
      "\",\n    \"s\": \"" ++ hexQuantity signed.signature.s.toNat ++
      "\",\n    \"v\": " ++ signed.signature.v.toNat.repr ++
      "\n  \x7d\n\x7d")

/-- A serializer that reads the texts of known checkpoints. -/
def SerdeJson.reading (known : List SignedCheckpoint) : SerdeJson where
  toStringPretty signed := .ok (prettySignedCheckpoint signed)
  checkpointFromSlice data :=
    match known.find? fun signed =>
        (prettySignedCheckpoint signed).toUTF8.data.toList ==
          data.data.toList with
    | some signed => .ok signed
    | none => .error .backend
  indexFromSlice data :=
    match (String.fromUTF8? data).bind parseU32 with
    | some index => .ok index
    | none => .error .backend

/-- A checkpoint of an empty tree at an index. -/
def signedAt (index : UInt32) : SignedCheckpoint where
  checkpoint := { outboxDomain := 1000, root := H256.zero, index := index }
  signature := { r := 1, s := 1, v := 27 }

/-- The texts of two checkpoints that differ in their index are both read
back. -/
theorem SerdeJson.roundTrips_reading
    {first second : UInt32}
    (different : first ≠ second) :
    ∀ signed ∈ [signedAt first, signedAt second],
      (SerdeJson.reading [signedAt first, signedAt second]).RoundTrips
        signed := by
  have index : ∀ signed,
      (SerdeJson.reading [signedAt first, signedAt second]).indexFromSlice
          (u32ToString signed).toUTF8 = .ok signed := by
    intro signed
    simp only [reading, fromUTF8?_toUTF8, Option.bind_some,
      parseU32_u32ToString]
  have texts : (prettySignedCheckpoint (signedAt first)).toUTF8.data.toList ≠
      (prettySignedCheckpoint (signedAt second)).toUTF8.data.toList := by
    intro same
    have decoded := fromUTF8?_toUTF8 (prettySignedCheckpoint (signedAt first))
    rw [ByteArray.ext (Array.toList_inj.mp same), fromUTF8?_toUTF8] at decoded
    exact different (framed_u32ToString_injective _ _
      (Option.some.inj decoded).symm)
  intro signed member
  refine ⟨⟨_, rfl, ?_⟩, index _⟩
  rcases List.mem_cons.mp member with rfl | later
  · simp only [reading, List.find?_cons, beq_self_eq_true]
  · obtain rfl := List.mem_singleton.mp later
    simp only [reading, List.find?_cons, beq_self_eq_true,
      beq_eq_false_iff_ne.mpr texts]

/-- Both backends serve two checkpoints that are written in order. -/
theorem backends_serve_iff_ascending :
    (LocalStorage.syncer ⟨"/data"⟩ (.reading [signedAt 1, signedAt 2])
        (LocalStorage.written ⟨"/data"⟩ (.reading [signedAt 1, signedAt 2])
          [signedAt 1, signedAt 2])).Serves [signedAt 1, signedAt 2] ∧
      (S3Storage.syncer (.reading [signedAt 1, signedAt 2])
        (S3Storage.written (.reading [signedAt 1, signedAt 2])
          [signedAt 1, signedAt 2])).Serves [signedAt 1, signedAt 2] :=
  (backends_serve_iff ⟨"/data"⟩ (.reading [signedAt 1, signedAt 2])
    [signedAt 1, signedAt 2]
    (SerdeJson.roundTrips_reading (by decide))).mpr (by
      rintro last ⟨⟩
      simp [signedAt])

/-- After an older checkpoint has been written last, the bucket returns its
index as the latest one. -/
theorem older_last_unserved :
    (S3Storage.syncer (.reading [signedAt 2, signedAt 1])
        (S3Storage.written (.reading [signedAt 2, signedAt 1])
          [signedAt 2, signedAt 1])).latestIndex = .ok (some 1) ∧
      ¬ (S3Storage.syncer (.reading [signedAt 2, signedAt 1])
        (S3Storage.written (.reading [signedAt 2, signedAt 1])
          [signedAt 2, signedAt 1])).Serves [signedAt 2, signedAt 1] := by
  have roundTrips := SerdeJson.roundTrips_reading
    (show (2 : UInt32) ≠ 1 by decide)
  refine ⟨S3Storage.latestIndex_written roundTrips, ?_⟩
  rw [S3Storage.serves_written_iff roundTrips]
  rintro ⟨-, highest⟩
  exact absurd (highest (signedAt 2) (by simp)) (by decide)

end Abacus
