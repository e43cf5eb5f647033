import Abacus.Db.Crash
import Abacus.Db.LeafIterator

/-!
# Which leaves the iterator yields

After every run of handles, the iterator over the leaves yields the leaves of
an entity exactly if there are none to yield: no leaf is stored for the entity,
and nothing is stored for an entity whose name begins with the prefix of the
iterator.
-/

namespace Abacus

open AbacusDB (shortestMessage)
open Journal (Entries KeysAmong Program Put WalksFrom)

/-! ## Stores of a run -/

section Runs

variable [Crypto]

/-- What all puts of a run satisfy holds of all entries. -/
theorem entries_afterHandles
    {holds : RocksPut → Prop}
    {events : List (DbEvent DbHandle)}
    (writes : ∀ event ∈ events,
      (event.operation.onHandle event.handle).Writes holds) :
    Entries holds (Rocks.afterHandles events) := by
  refine Machine.invariant_run Rocks.handleStep (Entries holds) ?_
    (Journal.entries_empty holds) (Machine.admissibleRun_of_forall _ _ writes)
  intro rocks event eventWrites entries
  exact eventWrites.entries entries

/-- An invariant that every operation of every handle preserves. -/
theorem invariant_run_handleStep
    (Invariant : Rocks → Prop)
    (preserved : ∀ rocks event, Invariant rocks →
      Invariant (Rocks.handleStep rocks event))
    {rocks : Rocks}
    (initial : Invariant rocks)
    (events : List (DbEvent DbHandle)) :
    Invariant (Machine.run Rocks.handleStep rocks events) :=
  Machine.invariant_run Rocks.handleStep Invariant
    (fun rocks event _ => preserved rocks event) initial
    (Machine.admissibleRun_of_forall _ _ fun _ _ => trivial)

/-- The store of a run can be walked from every prefix. -/
theorem exists_prefixIterator (events : List (DbEvent DbHandle)) :
    ∃ prefixIterator : List UInt8 → List (List UInt8 × List UInt8),
      ∀ start, WalksFrom start (Rocks.afterHandles events)
        (prefixIterator start) := by
  have finite : ∃ keys, KeysAmong keys (Rocks.afterHandles events) := by
    refine invariant_run_handleStep (fun rocks => ∃ keys, KeysAmong keys rocks)
      ?_ ⟨[], Journal.keysAmong_empty⟩ events
    rintro rocks event ⟨keys, among⟩
    exact ⟨_, among.replay _⟩
  obtain ⟨keys, among⟩ := finite
  choose entries walks using fun start =>
    Journal.exists_walksFrom among start
  exact ⟨entries, walks⟩

/-- A key that is stored once stays stored. -/
theorem isSome_run_handleStep
    {rocks : Rocks}
    {key : List UInt8}
    (present : (rocks key).isSome)
    (events : List (DbEvent DbHandle)) :
    (Machine.run Rocks.handleStep rocks events key).isSome :=
  invariant_run_handleStep (fun rocks => (rocks key).isSome)
    (fun _ _ present => Journal.isSome_replay _ present) present events

end Runs

/-! ## Reading without the layout -/

/-- What reading a key returns, whatever is stored. -/
theorem DB.run_retrieveDecodable_eq [Decode V]
    (keyPrefix key : List UInt8)
    (rocks : Rocks) :
    DB.retrieveDecodable V keyPrefix key rocks =
      (match rocks (keyPrefix ++ key) with
        | none => .ok none
        | some bytes => ((readFromSlice bytes).map some).mapError Fault.error,
        []) := by
  have content : DB.prefixRetrieve keyPrefix key rocks =
      (.ok (rocks (keyPrefix ++ key)), []) := rfl
  rw [DB.retrieveDecodable, Program.run_bind_ok content]
  cases found : rocks (keyPrefix ++ key) with
  | none => rfl
  | some bytes =>
      cases decoded : readFromSlice (α := V) bytes with
      | ok value =>
          simp only [decoded]
          rfl
      | error error =>
          simp only [decoded]
          rfl

/-- A value that is found although errors are ignored is stored. -/
theorem exists_run_valueOrNone_retrieveDecodable [Decode V]
    (keyPrefix key : List UInt8)
    (rocks : Rocks) :
    ∃ found, valueOrNone (DB.retrieveDecodable V keyPrefix key) rocks =
        (.ok found, []) ∧
      (found.isSome → (rocks (keyPrefix ++ key)).isSome) := by
  rw [valueOrNone, DB.run_retrieveDecodable_eq]
  cases stored : rocks (keyPrefix ++ key) with
  | none => exact ⟨none, rfl, by simp⟩
  | some bytes =>
      cases decoded : readFromSlice (α := V) bytes with
      | ok value =>
          refine ⟨some value, ?_, by simp⟩
          simp only [decoded]
          rfl
      | error error =>
          refine ⟨none, ?_, by simp⟩
          simp only [decoded]
          rfl

/-- Thirty-two bytes or more are read as a hash. -/
theorem exists_readFromSlice_h256_iff {bytes : List UInt8} :
    (∃ leaf : H256, readFromSlice bytes = .ok leaf) ↔ 32 ≤ bytes.length := by
  constructor
  · rintro ⟨leaf, read⟩
    by_contra short
    change (readExact 32 bytes).map Prod.fst = _ at read
    rw [readExact, dif_neg short] at read
    cases read
  · intro long
    refine ⟨⟨bytes.take 32, by simp [long]⟩, ?_⟩
    change (readExact 32 bytes).map Prod.fst = _
    rw [readExact, dif_pos long]
    rfl

namespace DbHandle

variable (db : DbHandle)

/-- The key of the leaf at an index. -/
def leafKey (index : UInt32) : List UInt8 :=
  db.fullPrefix leafPrefix ++ Encode.toVec index

/-- A leaf is returned if its bytes are stored under the key of its index. -/
theorem result_leafByLeafIndex_eq_some_iff
    {index : UInt32}
    {rocks : Rocks}
    {leaf : H256} :
    (db.leafByLeafIndex index).result rocks = .ok (some leaf) ↔
      ∃ bytes, rocks (db.leafKey index) = some bytes ∧
        readFromSlice bytes = .ok leaf := by
  have run : (db.leafByLeafIndex index).result rocks = _ :=
    congrArg Prod.fst (DB.run_retrieveDecodable_eq (V := H256)
      (db.fullPrefix leafPrefix) (Encode.toVec index) rocks)
  rw [run, ← leafKey]
  cases stored : rocks (db.leafKey index) with
  | none => simp
  | some bytes =>
      cases decoded : readFromSlice (α := H256) bytes with
      | ok value => simp [decoded, Except.map, Except.mapError]
      | error error => simp [decoded, Except.map, Except.mapError]

/-! ## The latest index beside a message -/

/-- The key of the latest index for a destination. -/
def destinationKey (destination : UInt32) : List UInt8 :=
  db.fullPrefix latestLeafIndexForDestinationPrefix ++
    Encode.toVec destination

/-- A read whose errors are ignored returns, and finds only what is stored. -/
theorem triple_valueOrNone_retrieveDecodable [Decode V]
    (keyPrefix key : List UInt8) :
    Program.Triple (fun _ => True)
      (valueOrNone (DB.retrieveDecodable V keyPrefix key))
      (fun found rocks => found.isSome → (rocks (keyPrefix ++ key)).isSome)
      (fun _ => False) := by
  rintro rocks -
  obtain ⟨found, run, stored⟩ :=
    exists_run_valueOrNone_retrieveDecodable (V := V) keyPrefix key rocks
  simp only [Program.result, Program.final, Program.journal, run]
  exact stored

theorem triple_updateLatestLeafIndex (leafIndex : UInt32) :
    Program.Triple (fun _ => True) (db.updateLatestLeafIndex leafIndex)
      (fun _ _ => True) (fun _ => False) := by
  refine Program.Triple.bind (triple_valueOrNone_retrieveDecodable _ _) ?_
  rintro (_ | idx)
  · exact Program.Triple.put fun _ _ => trivial
  · dsimp only
    split
    · exact Program.Triple.pure fun _ _ => trivial
    · exact Program.Triple.put fun _ _ => trivial

/-- Afterwards a latest index for the destination is stored, be it this one or
a higher one. -/
theorem triple_updateLatestLeafIndexForDestination
    (destination leafIndex : UInt32) :
    Program.Triple (fun _ => True)
      (db.updateLatestLeafIndexForDestination destination leafIndex)
      (fun _ rocks => (rocks (db.destinationKey destination)).isSome)
      (fun _ => False) := by
  have raises : ∀ pre, Program.Triple pre
      (db.storeKeyedEncodable latestLeafIndexForDestinationPrefix destination
        leafIndex)
      (fun _ rocks => (rocks (db.destinationKey destination)).isSome)
      (fun _ => False) := by
    intro pre
    refine Program.Triple.put fun rocks _ => ?_
    rw [destinationKey, Put.apply_mk_self]
    rfl
  refine Program.Triple.bind (triple_valueOrNone_retrieveDecodable _ _) ?_
  rintro (_ | idx)
  · exact raises _
  · dsimp only
    split
    · exact Program.Triple.pure fun rocks stored => stored rfl
    · exact raises _

/-- No program removes a key. -/
theorem triple_isSome (key : List UInt8) (program : RocksM α) :
    Program.Triple (fun rocks => (rocks key).isSome) program
      (fun _ rocks => (rocks key).isSome) (fun rocks => (rocks key).isSome) :=
  Program.Triple.of_final fun _ present => Journal.isSome_replay _ present

/-- A key that is stored with the leaf of a message that parses is stored
beside the message. -/
theorem isSome_storeRawCommittedMessage [Crypto]
    {message : RawCommittedMessage}
    {parsed : AbacusMessage}
    (parses : AbacusMessage.parse message.message = .ok parsed)
    {key : List UInt8}
    (leafStored : Program.Triple (fun _ => True)
      (db.storeLeaf message.leafIndex parsed.destination message.leaf)
      (fun _ rocks => (rocks key).isSome) (fun rocks => (rocks key).isSome))
    (rocks : Rocks) :
    ((db.storeRawCommittedMessage message).final rocks key).isSome := by
  have parsing : Program.Triple (fun _ => True)
      (Program.lift ((AbacusMessage.parse message.message).mapError
        Fault.error) : RocksM AbacusMessage)
      (fun value _ => value = parsed) (fun rocks => (rocks key).isSome) :=
    Program.Triple.lift_ok (congrArg (Except.mapError Fault.error) parses)
      fun _ _ => rfl
  have stores : Program.Triple (fun _ => True)
      (db.storeRawCommittedMessage message)
      (fun _ rocks => (rocks key).isSome) (fun rocks => (rocks key).isSome) := by
    refine Program.Triple.bind parsing fun value => ?_
    rintro rocks rfl
    exact Program.Triple.bind leafStored (fun _ => triple_isSome key _) rocks
      trivial
  exact stores.final trivial

/-- Beside a message that parses, a latest index for its destination is
stored. -/
theorem isSome_destinationKey [Crypto]
    {message : RawCommittedMessage}
    {parsed : AbacusMessage}
    (parses : AbacusMessage.parse message.message = .ok parsed)
    (rocks : Rocks) :
    ((db.storeRawCommittedMessage message).final rocks
      (db.destinationKey parsed.destination)).isSome := by
  have leafStored : Program.Triple (fun _ => True)
      (db.storeLeaf message.leafIndex parsed.destination message.leaf)
      (fun _ rocks => (rocks (db.destinationKey parsed.destination)).isSome)
      (fun _ => False) :=
    Program.Triple.bind (Program.Triple.put fun _ _ => trivial) fun _ =>
      Program.Triple.bind (db.triple_updateLatestLeafIndex _) fun _ =>
        db.triple_updateLatestLeafIndexForDestination _ _
  exact db.isSome_storeRawCommittedMessage parses
    (leafStored.conseq (fun _ _ present => present)
      fun _ impossible => impossible.elim) rocks

/-- Beside a message that parses, its leaf is stored. -/
theorem isSome_leafKey [Crypto]
    {message : RawCommittedMessage}
    {parsed : AbacusMessage}
    (parses : AbacusMessage.parse message.message = .ok parsed)
    (rocks : Rocks) :
    ((db.storeRawCommittedMessage message).final rocks
      (db.leafKey message.leafIndex)).isSome := by
  have leafPut : Program.Triple (fun _ => True)
      (db.storeKeyedEncodable leafPrefix message.leafIndex message.leaf)
      (fun _ rocks => (rocks (db.leafKey message.leafIndex)).isSome)
      (fun rocks => (rocks (db.leafKey message.leafIndex)).isSome) := by
    refine Program.Triple.put fun rocks _ => ?_
    rw [leafKey, Put.apply_mk_self]
    rfl
  exact db.isSome_storeRawCommittedMessage parses
    (Program.Triple.bind leafPut fun _ => triple_isSome _ _) rocks

/-- Only entities whose names begin with the prefix put keys that do. -/
theorem PutsRecord.isLeafIndex
    {db : DbHandle}
    {kinds : Record.Kind → Prop}
    {put : RocksPut}
    (puts : db.PutsRecord kinds put)
    (begins : leafIdxPrefix <+: put.key) :
    db.IsLeafIndex := by
  obtain ⟨key, value, -, rfl⟩ := puts
  exact (db.isPrefix_key_iff key).mp begins

/-- Under the leaf keys of an entity without underscores, such entities put
only leaves of this entity. -/
theorem PutsRecord.of_leafKey
    {db writer : DbHandle}
    (plain : 95 ∉ utf8 db.entity)
    (writerPlain : 95 ∉ utf8 writer.entity)
    {kinds : Record.Kind → Prop}
    {put : RocksPut}
    (puts : writer.PutsRecord kinds put)
    {index : UInt32}
    (same : put.key = db.leafKey index) :
    writer = db ∧ kinds .leaf ∧ put.value.length = 32 := by
  obtain ⟨key, value, kind, rfl⟩ := puts
  obtain ⟨names, rfl⟩ := @Entity.address_injective
    ⟨writer.entity, writerPlain⟩ ⟨db.entity, plain⟩ key (.leaf index) same
  refine ⟨?_, kind, FixedBytes.length_bytes value⟩
  exact congrArg Entity.handle names

/-- A key that ends as the key of a latest index for a destination. -/
def EndsAsDestination (key : List UInt8) : Prop :=
  ∃ front rest : List UInt8, rest.length = 4 ∧
    key = front ++ latestLeafIndexForDestinationPrefix ++ rest

theorem endsAsDestination_destinationKey (destination : UInt32) :
    EndsAsDestination (db.destinationKey destination) := by
  refine ⟨utf8 db.entity ++ [95], Encode.toVec destination,
    (u32ToBeBytes destination).length_bytes, ?_⟩
  simp [destinationKey, TypedDB.fullPrefix]

/-- Two texts in front of rests of one length end alike. -/
theorem isSuffix_of_append_eq
    {first second text other firstRest secondRest : List UInt8}
    (same : first ++ text ++ firstRest = second ++ other ++ secondRest)
    (lengths : firstRest.length = secondRest.length)
    (shorter : text.length ≤ other.length) :
    text <:+ other := by
  have fronts := (List.append_inj' same lengths).1
  exact List.suffix_of_suffix_length_le ⟨first, rfl⟩ ⟨second, fronts.symm⟩
    shorter

/-- Of what is stored with a message, only a latest index of four bytes can lie
under a key that ends as one for a destination. -/
theorem PutsRecord.length_value
    {db : DbHandle}
    {put : RocksPut}
    (puts : db.PutsRecord Record.Kind.OfMessage put)
    (ends : EndsAsDestination put.key) :
    put.value.length = 4 := by
  obtain ⟨key, value, kind, rfl⟩ := puts
  obtain ⟨front, rest, four, same⟩ := ends
  have own : db.fullPrefix key.keyPrefix ++ key.keyBytes =
      (utf8 db.entity ++ [95]) ++ key.keyPrefix ++ key.keyBytes := by
    simp [TypedDB.fullPrefix]
  rw [own] at same
  cases key with
  | leaf leafIndex =>
      have ending : leafPrefix <:+ latestLeafIndexForDestinationPrefix :=
        isSuffix_of_append_eq same
          ((u32ToBeBytes leafIndex).length_bytes.trans four.symm) (by decide)
      exact absurd ending (by decide)
  | message hash =>
      -- The hash covers the last four bytes and the 28 in front of them.
      have cut : latestLeafIndexForDestinationPrefix =
          utf8 "latest_known" ++ utf8 "_leaf_index_for_destination_" := by
        decide
      rw [cut, ← List.append_assoc front, List.append_assoc _ _ rest] at same
      have ending : messagePrefix <:+ utf8 "latest_known" :=
        isSuffix_of_append_eq same
          (by
            rw [List.length_append, four]
            exact hash.length_bytes)
          (by decide)
      exact absurd ending (by decide)
  | latestLeafIndex => exact (u32ToBeBytes value).length_bytes
  | latestLeafIndexForDestination destination =>
      exact (u32ToBeBytes value).length_bytes
  | _ => exact kind.elim

/-! ## What the iterator yields -/

/-- The iterator yields every leaf that can be read at an index, each once, and
nothing else, whatever iterator walks the shared store in order. -/
def YieldsLeaves (rocks : Rocks) : Prop :=
  ∀ prefixIterator,
    (∀ start, WalksFrom start rocks (prefixIterator start)) →
      ∃ leaves, (leafIterator prefixIterator).Yields leaves ∧ leaves.Nodup ∧
        ∀ leaf, leaf ∈ leaves ↔
          ∃ index, (db.leafByLeafIndex index).result rocks = .ok (some leaf)

variable {db} {rocks : Rocks}
variable {prefixIterator : List UInt8 → List (List UInt8 × List UInt8)}

/-- The iterator yields nothing if no key begins with its prefix. -/
theorem yields_leafIterator_iff_of_outside
    (walks : ∀ start, WalksFrom start rocks (prefixIterator start))
    (outside : Entries (fun put => ¬ leafIdxPrefix <+: put.key) rocks)
    {leaves : List H256} :
    (leafIterator prefixIterator).Yields leaves ↔ leaves = [] := by
  have none : (prefixIterator leafIdxPrefix).filter
      (fun entry => leafIdxPrefix.isPrefixOf entry.1) = [] := by
    rw [List.filter_eq_nil_iff]
    rintro ⟨key, bytes⟩ member found
    have stored := ((walks leafIdxPrefix).mem_iff key bytes).mp member
    exact outside key bytes stored.2 (List.isPrefixOf_iff_prefix.mp found)
  rw [leafIterator, PrefixIterator.yields_iff, none,
    List.forall₂_nil_left_iff]

/-- The iterator panics if a value that is no leaf lies under a key with its
prefix. -/
theorem not_yields_leafIterator
    (walks : ∀ start, WalksFrom start rocks (prefixIterator start))
    {key bytes : List UInt8}
    (begins : leafIdxPrefix <+: key)
    (stored : rocks key = some bytes)
    (short : bytes.length < 32)
    (leaves : List H256) :
    ¬ (leafIterator prefixIterator).Yields leaves := by
  intro yields
  have member : (key, bytes) ∈ prefixIterator leafIdxPrefix :=
    ((walks leafIdxPrefix).mem_iff key bytes).mpr ⟨begins.le, stored⟩
  obtain ⟨leaf, -, decoded⟩ := yields.exists_decoded begins member
  exact Nat.not_le.mpr short (exists_readFromSlice_h256_iff.mp ⟨leaf, decoded⟩)

/-- If no key begins with the prefix, the iterator yields the leaves exactly if
there are none. -/
theorem yieldsLeaves_iff_of_outside
    (walkable : ∃ prefixIterator : List UInt8 →
        List (List UInt8 × List UInt8),
      ∀ start, WalksFrom start rocks (prefixIterator start))
    (outside : Entries (fun put => ¬ leafIdxPrefix <+: put.key) rocks) :
    db.YieldsLeaves rocks ↔
      ∀ index bytes, rocks (db.leafKey index) = some bytes →
        bytes.length < 32 := by
  constructor
  · intro yieldsLeaves index bytes stored
    by_contra long
    obtain ⟨prefixIterator, walks⟩ := walkable
    obtain ⟨leaves, yields, -, exact⟩ := yieldsLeaves prefixIterator walks
    obtain ⟨leaf, read⟩ :=
      exists_readFromSlice_h256_iff.mpr (Nat.not_lt.mp long)
    have member : leaf ∈ leaves := (exact leaf).mpr
      ⟨index, db.result_leafByLeafIndex_eq_some_iff.mpr ⟨bytes, stored, read⟩⟩
    rw [(yields_leafIterator_iff_of_outside walks outside).mp yields] at member
    cases member
  · intro unread prefixIterator walks
    refine ⟨[], (yields_leafIterator_iff_of_outside walks outside).mpr rfl,
      List.nodup_nil, fun leaf => iff_of_false List.not_mem_nil ?_⟩
    rintro ⟨index, found⟩
    obtain ⟨bytes, stored, read⟩ :=
      db.result_leafByLeafIndex_eq_some_iff.mp found
    exact absurd (exists_readFromSlice_h256_iff.mp ⟨leaf, read⟩)
      (Nat.not_le.mpr (unread index bytes stored))

end DbHandle

/-! ## Runs -/

namespace DbHandle

section Leaves

variable [Crypto]

/-- There is nothing to iterate over: after the run no leaf lies under a key of
the entity, and in the run nothing is stored for an entity whose name begins
with the prefix of the iterator. -/
structure LeafFree (db : DbHandle) (events : List (DbEvent DbHandle)) :
    Prop where
  unread : ∀ index bytes,
    Rocks.afterHandles events (db.leafKey index) = some bytes →
      bytes.length < 32
  unstored : ∀ event ∈ events, event.handle.IsLeafIndex →
    event.operation.outcome ≠ .ok ()

variable {events : List (DbEvent DbHandle)}

/-- If nothing is stored for entities whose names begin with the prefix, no key
does. -/
theorem outside_afterHandles
    (unstored : ∀ event ∈ events, event.handle.IsLeafIndex →
      event.operation.outcome ≠ .ok ()) :
    Entries (fun put => ¬ leafIdxPrefix <+: put.key)
      (Rocks.afterHandles events) := by
  apply entries_afterHandles
  intro event member
  by_cases named : event.handle.IsLeafIndex
  · exact (DbOperation.writes_nothing event.handle
      (unstored event member named)).mono fun _ impossible =>
        impossible.elim
  · refine (event.operation.writes_onHandle event.handle).mono ?_
    intro put puts begins
    exact named (puts.isLeafIndex begins)

/-- A key that an event of the run leaves stored is stored at the end. -/
theorem isSome_afterHandles
    {event : DbEvent DbHandle}
    (member : event ∈ events)
    {key : List UInt8}
    (stores : ∀ rocks, (Rocks.handleStep rocks event key).isSome) :
    (Rocks.afterHandles events key).isSome := by
  obtain ⟨before, after, rfl⟩ := List.append_of_mem member
  rw [Rocks.afterHandles, Machine.run_append, Machine.run_cons]
  exact isSome_run_handleStep (stores _) after

/-- A message that is stored for an entity whose name begins with the prefix
makes the iterator panic, if such entities only store messages. -/
theorem not_yieldsLeaves_of_stored
    (messages : ∀ event ∈ events, event.handle.IsLeafIndex →
      ∃ message, event.operation = .storeRawCommittedMessage message)
    {event : DbEvent DbHandle}
    (member : event ∈ events)
    (named : event.handle.IsLeafIndex)
    (succeeds : event.operation.outcome = .ok ())
    (db : DbHandle) :
    ¬ db.YieldsLeaves (Rocks.afterHandles events) := by
  have short : Entries (fun put => leafIdxPrefix <+: put.key →
      EndsAsDestination put.key → put.value.length = 4)
        (Rocks.afterHandles events) := by
    apply entries_afterHandles
    intro event member
    by_cases named : event.handle.IsLeafIndex
    · obtain ⟨message, stores⟩ := messages event member named
      rw [stores]
      exact (event.handle.writes_storeRawCommittedMessage message).mono
        fun put puts _ ends => puts.length_value ends
    · exact (event.operation.writes_onHandle event.handle).mono
        fun put puts begins => absurd (puts.isLeafIndex begins) named
  obtain ⟨message, stores⟩ := messages event member named
  obtain ⟨parsed, parses⟩ :=
    DbOperation.exists_parse_of_outcome stores succeeds
  have present : (Rocks.afterHandles events
      (event.handle.destinationKey parsed.destination)).isSome :=
    isSome_afterHandles member fun rocks => by
      rw [Rocks.handleStep, stores]
      exact event.handle.isSome_destinationKey parses rocks
  obtain ⟨bytes, stored⟩ := Option.isSome_iff_exists.mp present
  have begins : leafIdxPrefix <+:
      event.handle.destinationKey parsed.destination :=
    (event.handle.isPrefix_key_iff
      (.latestLeafIndexForDestination parsed.destination)).mpr named
  have four : bytes.length = 4 := short _ _ stored begins
    (event.handle.endsAsDestination_destinationKey parsed.destination)
  intro yieldsLeaves
  obtain ⟨prefixIterator, walks⟩ := exists_prefixIterator events
  obtain ⟨leaves, yields, -⟩ := yieldsLeaves prefixIterator walks
  exact not_yields_leafIterator walks begins stored (by omega) leaves yields

/-- If no name contains an underscore, the iterator yields the leaves of an
entity exactly if no message has been stored for it. -/
theorem yieldsLeaves_iff_of_plain
    {db : DbHandle}
    (plain : 95 ∉ utf8 db.entity)
    (plainEvents : ∀ event ∈ events, 95 ∉ utf8 event.handle.entity) :
    db.YieldsLeaves (Rocks.afterHandles events) ↔
      ∀ event ∈ events, event.handle = db →
        (∃ message, event.operation = .storeRawCommittedMessage message) →
          event.operation.outcome ≠ .ok () := by
  have outside := outside_afterHandles fun event member named =>
    (not_isLeafIndex_of_plain (plainEvents event member) named).elim
  rw [yieldsLeaves_iff_of_outside (exists_prefixIterator events) outside]
  constructor
  · rintro unread event member rfl ⟨message, stores⟩ succeeds
    have lengths : Entries (fun put => ∀ index,
        put.key = event.handle.leafKey index → put.value.length = 32)
          (Rocks.afterHandles events) := by
      apply entries_afterHandles
      intro other member
      refine (other.operation.writes_onHandle other.handle).mono ?_
      intro put puts index same
      exact (puts.of_leafKey plain (plainEvents other member) same).2.2
    obtain ⟨parsed, parses⟩ :=
      DbOperation.exists_parse_of_outcome stores succeeds
    have present : (Rocks.afterHandles events
        (event.handle.leafKey message.leafIndex)).isSome :=
      isSome_afterHandles member fun rocks => by
        rw [Rocks.handleStep, stores]
        exact event.handle.isSome_leafKey parses rocks
    obtain ⟨bytes, found⟩ := Option.isSome_iff_exists.mp present
    have long : bytes.length = 32 := lengths _ _ found _ rfl
    have short := unread _ _ found
    omega
  · intro unstored index bytes found
    have absent : Entries (fun put => put.key ≠ db.leafKey index)
        (Rocks.afterHandles events) := by
      apply entries_afterHandles
      intro event member
      by_cases succeeds : event.operation.outcome = .ok ()
      · refine (event.operation.writes_onHandle event.handle).mono ?_
        intro put puts same
        obtain ⟨own, kind, -⟩ :=
          puts.of_leafKey plain (plainEvents event member) same
        exact unstored event member own
          (DbOperation.exists_message_of_kinds_leaf kind) succeeds
      · exact (DbOperation.writes_nothing event.handle succeeds).mono
          fun _ impossible => impossible.elim
    exact (absent _ _ found rfl).elim

/-- The iterator yields the leaves of an entity after every run that leaves
nothing to iterate over, and, if the entities whose names begin with the prefix
only store messages, after no other run. -/
theorem leafIterator_yields_leaves
    (events : List (DbEvent DbHandle))
    (db : DbHandle) :
    (db.LeafFree events → db.YieldsLeaves (Rocks.afterHandles events)) ∧
      ((∀ event ∈ events, event.handle.IsLeafIndex →
          ∃ message, event.operation = .storeRawCommittedMessage message) →
        db.YieldsLeaves (Rocks.afterHandles events) →
          db.LeafFree events) := by
  have walkable := exists_prefixIterator events
  constructor
  · intro free
    exact (yieldsLeaves_iff_of_outside walkable
      (outside_afterHandles free.unstored)).mpr free.unread
  · intro messages yieldsLeaves
    have unstored : ∀ event ∈ events, event.handle.IsLeafIndex →
        event.operation.outcome ≠ .ok () :=
      fun event member named succeeds => not_yieldsLeaves_of_stored messages
        member named succeeds db yieldsLeaves
    exact ⟨(yieldsLeaves_iff_of_outside walkable
      (outside_afterHandles unstored)).mp yieldsLeaves, unstored⟩

end Leaves

/-- The leaf of the only message that is stored can be read at its index, and
the iterator does not yield it. -/
theorem leafIterator_misses_leaf :
    let celo : DbHandle := ⟨"celo"⟩
    let events : List (DbEvent DbHandle) :=
      [⟨celo, .storeRawCommittedMessage (shortestMessage 0)⟩]
    let rocks := @Rocks.afterHandles .transparent events
    (∃ leaf, (celo.leafByLeafIndex 0).result rocks = .ok (some leaf)) ∧
      ¬ celo.YieldsLeaves rocks := by
  intro celo events rocks
  have stored : (rocks (celo.leafKey 0)).map List.length = some 32 := by
    decide
  obtain ⟨bytes, found, long⟩ := Option.map_eq_some_iff.mp stored
  have outside : Entries (fun put => ¬ leafIdxPrefix <+: put.key) rocks := by
    apply @outside_afterHandles .transparent events
    intro event member named
    obtain rfl := List.mem_singleton.mp member
    exact absurd named (by decide)
  constructor
  · obtain ⟨leaf, read⟩ := exists_readFromSlice_h256_iff.mpr long.ge
    exact ⟨leaf, (celo.result_leafByLeafIndex_eq_some_iff).mpr
      ⟨bytes, found, read⟩⟩
  · intro yieldsLeaves
    have short := (yieldsLeaves_iff_of_outside
      (@exists_prefixIterator .transparent events) outside).mp yieldsLeaves
        0 bytes found
    omega

end DbHandle

end Abacus
