import Abacus.Db.AbacusDB

/-!
# Crash consistency of the message store

A message is four puts: its leaf, the latest index, the latest index of its
destination, and its body. The latest-index record covers only stored messages
after every crash except one between the second put and the last.
-/

namespace Abacus

namespace AbacusDB

open Journal (Program)

/-- A message is found at an index. -/
def Retrievable (db : AbacusDB) (index : UInt32) : Prop :=
  ∃ message, (messageByLeafIndex index).result db = .ok (some message)

/-- Every message up to the latest-index record is found. -/
def CoversLatest (db : AbacusDB) : Prop :=
  ∀ latest, retrieveLatestLeafIndex.result db = .ok (some latest) →
    ∀ index, index ≤ latest → Retrievable db index

/-- The messages below `next` are stored, and the latest index is the last of
them. -/
structure StoredThrough (db : AbacusDB) (next : Nat) : Prop where
  latest_none : next = 0 → db .latestLeafIndex = none
  latest_some : 0 < next →
    ∃ latest, db .latestLeafIndex = some latest ∧ latest.toNat + 1 = next
  retrievable : ∀ index : UInt32, index.toNat < next → Retrievable db index

/-- The messages have consecutive indices from `next` on. -/
def Consecutive : Nat → List RawCommittedMessage → Prop
  | _, [] => True
  | next, message :: rest =>
      message.leafIndex.toNat = next ∧ Consecutive (next + 1) rest

/-- The crash falls inside the storing of a message, after the puts of its
leaf and of the latest index and before that of its body, and no body is
stored under its leaf yet. -/
def Exposed [Crypto] (db : AbacusDB) (messages : List RawCommittedMessage)
    (count : Nat) : Prop :=
  ∃ before message after,
    messages = before ++ message :: after ∧
      ((storeMessages before).journal db).length + 2 ≤ count ∧
      count < ((storeMessages (before ++ [message])).journal db).length ∧
      (storeMessages before).final db (.message message.leaf) = none

/-- Consecutive indices do not go below the first one. -/
theorem le_of_mem_of_consecutive
    {next : Nat}
    {messages : List RawCommittedMessage}
    {message : RawCommittedMessage}
    (consecutive : Consecutive next messages)
    (member : message ∈ messages) :
    next ≤ message.leafIndex.toNat := by
  induction messages generalizing next with
  | nil => cases member
  | cons first rest inductionHypothesis =>
      rcases List.mem_cons.mp member with rfl | later
      · exact Nat.le_of_eq consecutive.1.symm
      · have above := inductionHypothesis consecutive.2 later
        omega

/-! ## Retrieval -/

theorem retrievable_iff
    {db : AbacusDB}
    {index : UInt32} :
    Retrievable db index ↔ ∃ leaf message,
      db (.leaf index) = some leaf ∧ db (.message leaf) = some message := by
  unfold Retrievable
  simp only [Program.result, run_messageByLeafIndex, Except.ok.injEq,
    Option.bind_eq_some_iff]
  constructor
  · rintro ⟨message, leaf, stored, body⟩
    exact ⟨leaf, message, stored, body⟩
  · rintro ⟨leaf, message, stored, body⟩
    exact ⟨message, leaf, stored, body⟩

/-- Retrieval survives when the leaf is kept and every body stays present. -/
theorem Retrievable.mono
    {first second : AbacusDB}
    {index : UInt32}
    (found : Retrievable first index)
    (leaf : second (.leaf index) = first (.leaf index))
    (bodies : ∀ hash, (first (.message hash)).isSome →
      (second (.message hash)).isSome) :
    Retrievable second index := by
  obtain ⟨hash, message, stored, body⟩ := retrievable_iff.mp found
  have present := bodies hash (by rw [body]; rfl)
  obtain ⟨other, otherBody⟩ := Option.isSome_iff_exists.mp present
  exact retrievable_iff.mpr ⟨hash, other, leaf.trans stored, otherBody⟩

/-- The indices up to the latest one are those of the stored messages. -/
theorem StoredThrough.lt_of_le_latest
    {db : AbacusDB}
    {next : Nat}
    {latest index : UInt32}
    (stored : StoredThrough db next)
    (known : retrieveLatestLeafIndex.result db = .ok (some latest))
    (below : index ≤ latest) :
    index.toNat < next := by
  simp only [Program.result, retrieveLatestLeafIndex, run_retrieve,
    Except.ok.injEq] at known
  rcases Nat.eq_zero_or_pos next with none | some
  · rw [stored.latest_none none] at known
    cases known
  · obtain ⟨recorded, record, last⟩ := stored.latest_some some
    rw [known, Option.some.injEq] at record
    rw [UInt32.le_iff_toNat_le, record] at below
    omega

/-- A database whose latest index is the last stored message covers it. -/
theorem StoredThrough.coversLatest
    {db : AbacusDB}
    {next : Nat}
    (stored : StoredThrough db next) :
    CoversLatest db :=
  fun _ known index below =>
    stored.retrievable index (stored.lt_of_le_latest known below)

/-- Only the leaves, the bodies and the latest index matter. -/
theorem StoredThrough.congr
    {first second : AbacusDB}
    {next : Nat}
    (stored : StoredThrough first next)
    (latest : second .latestLeafIndex = first .latestLeafIndex)
    (leaves : ∀ index, second (.leaf index) = first (.leaf index))
    (bodies : ∀ hash, second (.message hash) = first (.message hash)) :
    StoredThrough second next where
  latest_none none := latest.trans (stored.latest_none none)
  latest_some some := by
    rw [latest]
    exact stored.latest_some some
  retrievable index below :=
    (stored.retrievable index below).mono (leaves index)
      fun hash present => by rwa [bodies hash]

/-- The latest index is below the next message. -/
theorem StoredThrough.above
    {db : AbacusDB}
    {message : RawCommittedMessage}
    (stored : StoredThrough db message.leafIndex.toNat) :
    ∀ idx, db .latestLeafIndex = some idx → idx < message.leafIndex := by
  intro idx known
  rcases Nat.eq_zero_or_pos message.leafIndex.toNat with none | some
  · rw [stored.latest_none none] at known
    cases known
  · obtain ⟨recorded, record, last⟩ := stored.latest_some some
    rw [known, Option.some.injEq] at record
    rw [UInt32.lt_iff_toNat_lt, record]
    omega

/-- The subtraction for the log entry does not panic on the next message. -/
theorem StoredThrough.positive
    {db : AbacusDB}
    {message : RawCommittedMessage}
    (stored : StoredThrough db message.leafIndex.toNat) :
    db .latestLeafIndex = none ∨ 1 ≤ message.leafIndex := by
  rcases Nat.eq_zero_or_pos message.leafIndex.toNat with none | some
  · exact .inl (stored.latest_none none)
  · right
    rw [UInt32.le_iff_toNat_le]
    exact some

section Storing

variable [Crypto]

/-- Storing the next message extends the stored ones. -/
theorem StoredThrough.next
    {db : AbacusDB}
    {message : RawCommittedMessage}
    (stored : StoredThrough db message.leafIndex.toNat)
    (destination : UInt32) :
    StoredThrough
      (Journal.replay db (messagePuts db message destination))
      (message.leafIndex.toNat + 1) where
  latest_none contrary := by omega
  latest_some _ :=
    ⟨message.leafIndex,
      replay_messagePuts_latestLeafIndex db message destination stored.above,
      rfl⟩
  retrievable index below := by
    by_cases same : index = message.leafIndex
    · refine retrievable_iff.mpr ⟨message.leaf, message, ?_, ?_⟩
      · rw [replay_messagePuts_leaf, if_pos same]
      · rw [replay_messagePuts_message, if_pos rfl]
    · have earlier : index.toNat < message.leafIndex.toNat := by
        have different : index.toNat ≠ message.leafIndex.toNat :=
          fun equal => same (UInt32.toNat_inj.mp equal)
        omega
      refine (stored.retrievable index earlier).mono ?_ ?_
      · rw [replay_messagePuts_leaf, if_neg same]
      · intro hash present
        exact Journal.isSome_replay _ present

/-! ## A crash inside one message -/

/-- The records behind the first two puts of a message, and puts of the latest
index for its destination: the leaf and the latest index are new, and the
messages are the old ones. -/
theorem replay_exposed
    (db : AbacusDB)
    (message : RawCommittedMessage)
    {more : List DbPut}
    {destination : UInt32}
    (only : ∀ put ∈ more,
      put.key = .latestLeafIndexForDestination destination) :
    let after := Journal.replay db
      (⟨.leaf message.leafIndex, message.leaf⟩ ::
        ⟨.latestLeafIndex, message.leafIndex⟩ :: more)
    after .latestLeafIndex = some message.leafIndex ∧
      (∀ hash, after (.message hash) = db (.message hash)) ∧
      ∀ index, after (.leaf index) =
        if index = message.leafIndex then some message.leaf
        else db (.leaf index) := by
  intro after
  have exposed : after = Journal.replay
      ((⟨.latestLeafIndex, message.leafIndex⟩ : DbPut).apply
        ((⟨.leaf message.leafIndex, message.leaf⟩ : DbPut).apply db)) more := by
    simp only [after, Journal.replay_cons]
  refine ⟨?_, ?_, ?_⟩
  · rw [exposed, Journal.replay_of_forall_ne _ _ fun put member => by
      rw [only put member]; simp]
    simp
  · intro hash
    rw [exposed, Journal.replay_of_forall_ne _ _ fun put member => by
      rw [only put member]; simp,
      Journal.Put.apply_of_ne (by simp), Journal.Put.apply_of_ne (by simp)]
  · intro index
    rw [exposed, Journal.replay_of_forall_ne _ _ fun put member => by
      rw [only put member]; simp,
      Journal.Put.apply_of_ne (by simp)]
    exact apply_leaf message.leafIndex message.leaf db index

/-- Once the leaf and the latest index have been put, and no body yet, the
latest index covers the message only if a body is already stored under its
leaf. -/
theorem coversLatest_exposed_iff
    {db : AbacusDB}
    {message : RawCommittedMessage}
    (stored : StoredThrough db message.leafIndex.toNat)
    {more : List DbPut}
    {destination : UInt32}
    (only : ∀ put ∈ more,
      put.key = .latestLeafIndexForDestination destination) :
    CoversLatest (Journal.replay db
        (⟨.leaf message.leafIndex, message.leaf⟩ ::
          ⟨.latestLeafIndex, message.leafIndex⟩ :: more)) ↔
      (db (.message message.leaf)).isSome := by
  obtain ⟨latest, bodies, leaves⟩ := replay_exposed db message only
  generalize Journal.replay db
    (⟨.leaf message.leafIndex, message.leaf⟩ ::
      ⟨.latestLeafIndex, message.leafIndex⟩ :: more) = after
    at latest bodies leaves ⊢
  constructor
  · intro covers
    have found := covers message.leafIndex (by
      simp [Program.result, retrieveLatestLeafIndex, latest])
      message.leafIndex (UInt32.le_refl _)
    obtain ⟨leaf, body, leafEq, bodyEq⟩ := retrievable_iff.mp found
    rw [leaves, if_pos rfl, Option.some.injEq] at leafEq
    rw [bodies, ← leafEq] at bodyEq
    rw [bodyEq]
    rfl
  · intro present known knownEq index below
    simp only [Program.result, retrieveLatestLeafIndex, run_retrieve, latest,
      Except.ok.injEq, Option.some.injEq] at knownEq
    subst knownEq
    by_cases same : index = message.leafIndex
    · obtain ⟨body, bodyEq⟩ := Option.isSome_iff_exists.mp present
      refine retrievable_iff.mpr ⟨message.leaf, body, ?_, ?_⟩
      · rw [leaves, if_pos same]
      · rw [bodies, bodyEq]
    · have earlier : index.toNat < message.leafIndex.toNat := by
        have different : index.toNat ≠ message.leafIndex.toNat :=
          fun equal => same (UInt32.toNat_inj.mp equal)
        rw [UInt32.le_iff_toNat_le] at below
        omega
      refine (stored.retrievable index earlier).mono ?_ ?_
      · rw [leaves, if_neg same]
      · intro hash bodyPresent
        rwa [bodies]

/-- A crash inside one message leaves its latest index uncovered exactly when
the latest index has been put, the body has not, and none is stored yet. -/
theorem coversLatest_take_iff
    {db : AbacusDB}
    {message : RawCommittedMessage}
    (stored : StoredThrough db message.leafIndex.toNat)
    (destination : UInt32)
    {count : Nat}
    (inside : count < (messagePuts db message destination).length) :
    CoversLatest (Journal.replay db
        ((messagePuts db message destination).take count)) ↔
      ¬ (2 ≤ count ∧ db (.message message.leaf) = none) := by
  have puts : messagePuts db message destination =
      ⟨.leaf message.leafIndex, message.leaf⟩ ::
        ⟨.latestLeafIndex, message.leafIndex⟩ ::
          (raisingPuts
              ⟨.latestLeafIndexForDestination destination,
                message.leafIndex⟩
              (db (.latestLeafIndexForDestination destination))
              message.leafIndex ++
            [⟨.message message.leaf, message⟩]) := by
    rw [messagePuts, raisingPuts_eq_singleton stored.above]
    rfl
  rw [puts] at inside ⊢
  rcases count with _ | _ | count
  · rw [List.take_zero, Journal.replay_nil]
    exact iff_of_true stored.coversLatest (by omega)
  · refine iff_of_true ?_ (by omega)
    rw [List.take_succ_cons, List.take_zero, Journal.replay_cons,
      Journal.replay_nil]
    intro latest known index below
    simp only [Program.result, retrieveLatestLeafIndex, run_retrieve,
      Except.ok.injEq] at known
    rw [Journal.Put.apply_of_ne (by simp)] at known
    have lower := stored.above latest known
    have found := stored.coversLatest latest (by
      simp [Program.result, retrieveLatestLeafIndex, known]) index below
    refine found.mono ?_ ?_
    · apply Journal.Put.apply_of_ne
      simp only [ne_eq, Record.leaf.injEq]
      rintro rfl
      exact UInt32.not_le.mpr lower below
    · intro hash present
      rwa [Journal.Put.apply_of_ne (by simp)]
  · rw [List.take_succ_cons, List.take_succ_cons]
    rw [List.length_cons, List.length_cons, List.length_append,
      List.length_singleton] at inside
    rw [List.take_append_of_le_length (by omega)]
    rw [coversLatest_exposed_iff stored]
    · cases db (.message message.leaf) <;> simp
    · intro put member
      have raised := List.mem_of_mem_take member
      unfold raisingPuts at raised
      split at raised
      · split at raised
        · cases raised
        · rw [List.mem_singleton.mp raised]
      · rw [List.mem_singleton.mp raised]

/-! ## A crash anywhere in a batch -/

/-- Where a crash falls in a batch: inside its first message or in the rest. -/
theorem exposed_cons_iff
    {db : AbacusDB}
    {message : RawCommittedMessage}
    {parsed : AbacusMessage}
    (stored : StoredThrough db message.leafIndex.toNat)
    (parses : AbacusMessage.parse message.message = .ok parsed)
    (rest : List RawCommittedMessage)
    (count : Nat) :
    Exposed db (message :: rest) count ↔
      (count < (messagePuts db message parsed.destination).length ∧
        2 ≤ count ∧ db (.message message.leaf) = none) ∨
      Exposed
        (Journal.replay db (messagePuts db message parsed.destination)) rest
        (count - (messagePuts db message parsed.destination).length) := by
  have journal := journal_storeMessages_cons parses stored.positive
  constructor
  · rintro ⟨before, exposed, after, split, low, high, absent⟩
    cases before with
    | nil =>
        obtain ⟨rfl, rfl⟩ := List.cons.inj split
        rw [List.nil_append, journal, List.length_append] at high
        exact .inl ⟨high, low, absent⟩
    | cons first before =>
        obtain ⟨rfl, rfl⟩ := List.cons.inj split
        rw [journal, List.length_append] at low
        rw [List.cons_append, journal, List.length_append] at high
        rw [Program.final, journal, Journal.replay_append] at absent
        exact .inr ⟨before, exposed, after, rfl, by omega, by omega, absent⟩
  · rintro (⟨high, low, absent⟩ |
      ⟨before, exposed, after, split, low, high, absent⟩)
    · refine ⟨[], message, rest, rfl, low, ?_, absent⟩
      rw [List.nil_append, journal, List.length_append]
      omega
    · refine ⟨message :: before, exposed, after, by rw [split]; rfl, ?_, ?_,
        ?_⟩
      · rw [journal, List.length_append]
        omega
      · rw [List.cons_append, journal, List.length_append]
        omega
      · rw [Program.final, journal, Journal.replay_append]
        exact absent

/-- The database that survives a crash while a batch that continues the stored
messages is being stored covers its latest index exactly when the crash is not
an exposed one. -/
theorem coversLatest_crashed_iff
    {db : AbacusDB}
    {next : Nat}
    {messages : List RawCommittedMessage}
    (stored : StoredThrough db next)
    (consecutive : Consecutive next messages)
    (parseable : ∀ message ∈ messages, ∃ parsed,
      AbacusMessage.parse message.message = .ok parsed)
    (count : Nat) :
    CoversLatest ((storeMessages messages).crashed db count) ↔
      ¬ Exposed db messages count := by
  induction messages generalizing db next count with
  | nil =>
      refine iff_of_true ?_ ?_
      · have unchanged : (storeMessages []).crashed db count = db := by
          simp [Program.crashed, Program.journal, storeMessages]
        rw [unchanged]
        exact stored.coversLatest
      · rintro ⟨before, message, after, split, -⟩
        simp at split
  | cons message rest inductionHypothesis =>
      obtain ⟨rfl, later⟩ := consecutive
      obtain ⟨parsed, parses⟩ := parseable message (by simp)
      rw [exposed_cons_iff stored parses, Program.crashed,
        journal_storeMessages_cons parses stored.positive, List.take_append,
        Journal.replay_append]
      rcases Nat.lt_or_ge count
        (messagePuts db message parsed.destination).length with inside | past
      · have unexposed : ¬ Exposed
            (Journal.replay db
              (messagePuts db message parsed.destination)) rest
            (count - (messagePuts db message parsed.destination).length) := by
          rintro ⟨before, exposed, after, split, low, -⟩
          omega
        rw [Nat.sub_eq_zero_of_le (Nat.le_of_lt inside), List.take_zero,
          Journal.replay_nil, coversLatest_take_iff stored _ inside]
        rw [Nat.sub_eq_zero_of_le (Nat.le_of_lt inside)] at unexposed
        tauto
      · rw [List.take_of_length_le past]
        have restCovers := inductionHypothesis
          (stored.next parsed.destination) later
          (fun other member => parseable other (List.mem_cons_of_mem _ member))
          (count - (messagePuts db message parsed.destination).length)
        rw [Program.crashed] at restCovers
        rw [restCovers]
        have outside :
            ¬ count < (messagePuts db message parsed.destination).length :=
          Nat.not_lt.mpr past
        tauto

end Storing

/-- A message of 72 zero bytes, the shortest that parses. -/
def shortestMessage (leafIndex : UInt32) : RawCommittedMessage :=
  { leafIndex := leafIndex, message := List.replicate 72 0 }

theorem parse_shortestMessage (leafIndex : UInt32) :
    AbacusMessage.parse (shortestMessage leafIndex).message =
      .ok {
        origin := 0
        sender := H256.zero
        destination := 0
        recipient := H256.zero
        body := [] } := by
  rfl

/-- The empty database stores the messages below zero. -/
theorem storedThrough_empty : StoredThrough Journal.empty 0 where
  latest_none _ := rfl
  latest_some contrary := absurd contrary (by omega)
  retrievable index contrary := absurd contrary (by omega)

/-- Two messages stored into the empty database, with a crash after six
puts. -/
theorem coversLatest_crashed_iff_pair :
    CoversLatest
        ((@storeMessages .transparent
          [shortestMessage 0, shortestMessage 1]).crashed Journal.empty
            6) ↔
      ¬ @Exposed .transparent Journal.empty
        [shortestMessage 0, shortestMessage 1] 6 :=
  @coversLatest_crashed_iff .transparent Journal.empty 0
    [shortestMessage 0, shortestMessage 1] storedThrough_empty
    (by simp [Consecutive, shortestMessage])
    (by simp [parse_shortestMessage]) 6

/-- After the second put of the first message, the latest index is `0` and no
message is found there. -/
theorem storeMessages_crashed_second_put :
    StoredThrough Journal.empty 0 ∧
      Consecutive 0 [shortestMessage 0] ∧
      ¬ CoversLatest
        ((@storeMessages .transparent [shortestMessage 0]).crashed
          Journal.empty 2) := by
  refine ⟨storedThrough_empty, by simp [Consecutive, shortestMessage], ?_⟩
  intro covers
  have found := covers 0 (by decide) 0 (by decide)
  obtain ⟨message, found⟩ := found
  have lost : (messageByLeafIndex 0).result
      ((@storeMessages .transparent [shortestMessage 0]).crashed
        Journal.empty 2) = .ok none := by
    decide
  rw [lost] at found
  cases found

end AbacusDB

end Abacus
