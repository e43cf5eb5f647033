import Abacus.Base.OutboxSyncCorrectness
import Abacus.Library.CrashTriple

/-!
# How far back the indexer rewinds

When a response does not continue the stored messages, the indexer starts over
from the start of the latest valid range; after a crash it starts from the
persisted one. Neither is above the block of the first message that is
missing, whatever the provider omits and wherever the process dies.
-/

namespace Abacus

open Journal (Program)

namespace OutboxChain

/-- The block in which the message at a leaf index was dispatched. -/
def blockAt (chain : OutboxChain) (index : UInt32) : Option UInt32 :=
  chain.dispatched[index.toNat]?.map Prod.fst

/-- Blocks do not decrease with the leaf index. -/
def Sorted (chain : OutboxChain) : Prop :=
  chain.dispatched.Pairwise fun earlier later => earlier.1 ≤ later.1

theorem Sorted.blockAt_le
    {chain : OutboxChain}
    (sorted : chain.Sorted)
    {earlier later earlierBlock laterBlock : UInt32}
    (order : earlier ≤ later)
    (first : chain.blockAt earlier = some earlierBlock)
    (second : chain.blockAt later = some laterBlock) :
    earlierBlock ≤ laterBlock := by
  obtain ⟨one, oneAt, rfl⟩ := Option.map_eq_some_iff.mp first
  obtain ⟨two, twoAt, rfl⟩ := Option.map_eq_some_iff.mp second
  obtain ⟨oneInside, rfl⟩ := List.getElem?_eq_some_iff.mp oneAt
  obtain ⟨twoInside, rfl⟩ := List.getElem?_eq_some_iff.mp twoAt
  rw [UInt32.le_iff_toNat_le] at order
  rcases Nat.lt_or_eq_of_le order with below | same
  · exact List.pairwise_iff_getElem.mp sorted _ _ oneInside twoInside below
  · simp only [same]
    exact UInt32.le_refl _

/-- A block that is not above that of the first message is not above any. -/
theorem Sorted.le_blockAt
    {chain : OutboxChain}
    (sorted : chain.Sorted)
    {start index block : UInt32}
    (below : ∀ block, chain.blockAt 0 = some block → start ≤ block)
    (dispatched : chain.blockAt index = some block) :
    start ≤ block := by
  obtain ⟨sent, at?, rfl⟩ := Option.map_eq_some_iff.mp dispatched
  obtain ⟨inside, -⟩ := List.getElem?_eq_some_iff.mp at?
  have nonempty : 0 < chain.dispatched.length :=
    Nat.lt_of_le_of_lt (Nat.zero_le _) inside
  have first : chain.blockAt 0 = some (chain.dispatched[0]).1 := by
    simp [blockAt, List.getElem?_eq_getElem nonempty]
  exact UInt32.le_trans (below _ first)
    (sorted.blockAt_le UInt32.zero_le first dispatched)

/-- A message of a window was dispatched in a block of it. -/
theorem blockAt_of_mem_window
    {chain : OutboxChain}
    {fromBlock toBlock : UInt32}
    {message : RawCommittedMessage}
    (member : message ∈ chain.window fromBlock toBlock) :
    ∃ block, chain.blockAt message.leafIndex = some block ∧
      fromBlock ≤ block ∧ block ≤ toBlock := by
  obtain ⟨sent, inside, rfl⟩ := List.mem_map.mp member
  obtain ⟨dispatched, bounds⟩ := List.mem_filter.mp inside
  obtain ⟨position, below, rfl⟩ := List.mem_iff_getElem.mp dispatched
  rw [Bool.and_eq_true, decide_eq_true_iff, decide_eq_true_iff] at bounds
  refine ⟨_, ?_, bounds⟩
  rw [blockAt, chain.leafIndex_eq position below,
    List.getElem?_eq_getElem below]
  rfl

end OutboxChain

namespace AbacusDB

/-- A latest index is kept or raised. -/
def Raises (old new : Option UInt32) : Prop :=
  new = old ∨ ∃ latest, new = some latest ∧ ∀ idx, old = some idx → idx < latest

/-- A condition on the database that depends on the progress of the indexer
alone and survives a higher latest index. -/
def RaiseClosed (holds : AbacusDB → Prop) : Prop :=
  ∀ first second : AbacusDB,
    second .latestValidMessageRangeStartBlock =
      first .latestValidMessageRangeStartBlock →
    Raises (first .latestLeafIndex) (second .latestLeafIndex) →
    holds first → holds second

/-- The latest index is at least some index. -/
def AtLeast (index : UInt32) (db : AbacusDB) : Prop :=
  ∃ latest, db .latestLeafIndex = some latest ∧ index ≤ latest

theorem raiseClosed_and_atLeast
    {holds : AbacusDB → Prop}
    (closed : RaiseClosed holds)
    (index : UInt32) :
    RaiseClosed fun db => holds db ∧ AtLeast index db := by
  rintro first second range raises ⟨held, latest, known, above⟩
  refine ⟨closed first second range raises held, ?_⟩
  rcases raises with same | ⟨raised, new, higher⟩
  · exact ⟨latest, same.trans known, above⟩
  · exact ⟨raised, new, UInt32.le_of_lt
      (UInt32.lt_of_le_of_lt above (higher latest known))⟩

section Puts

variable {holds : AbacusDB → Prop}

/-- Other records do not matter. -/
theorem crashTriple_store
    (closed : RaiseClosed holds)
    {key : Record}
    (notLatest : .latestLeafIndex ≠ key)
    (notRange : .latestValidMessageRangeStartBlock ≠ key)
    (value : key.Value) :
    Program.CrashTriple holds (store key value) (fun _ => holds) holds := by
  have kept : ∀ db, holds db →
      holds (Journal.Put.apply ⟨key, value⟩ db) := fun db held =>
    closed db _ (Journal.Put.apply_of_ne notRange db)
      (.inl (Journal.Put.apply_of_ne notLatest db)) held
  exact Program.CrashTriple.put (fun _ held => held) kept kept

/-- Raising the latest index reaches it. -/
theorem crashTriple_updateLatestLeafIndex
    (closed : RaiseClosed holds)
    (leafIndex : UInt32) :
    Program.CrashTriple holds (updateLatestLeafIndex leafIndex)
      (fun _ db => holds db ∧ AtLeast leafIndex db) holds := by
  have read : Program.CrashTriple holds retrieveLatestLeafIndex
      (fun latest db => latest = db .latestLeafIndex ∧ holds db) holds :=
    Program.CrashTriple.get (fun _ held => held) fun _ held => ⟨rfl, held⟩
  refine read.bind fun latest => ?_
  have raise : (∀ idx, latest = some idx → idx < leafIndex) →
      Program.CrashTriple
        (fun db => latest = db .latestLeafIndex ∧ holds db)
        (store .latestLeafIndex leafIndex)
        (fun _ db => holds db ∧ AtLeast leafIndex db) holds := by
    intro above
    have raised : ∀ db : AbacusDB, latest = db .latestLeafIndex ∧ holds db →
        holds (Journal.Put.apply ⟨.latestLeafIndex, leafIndex⟩ db) := by
      rintro db ⟨rfl, held⟩
      exact closed db _ (Journal.Put.apply_of_ne (by simp) db)
        (.inr ⟨leafIndex, Journal.Put.apply_mk_self _ _ db, above⟩) held
    exact Program.CrashTriple.put (fun _ held => held.2) raised
      fun db held => ⟨raised db held, leafIndex,
        Journal.Put.apply_mk_self _ _ db, UInt32.le_refl _⟩
  cases latest with
  | none => exact raise (by simp)
  | some idx =>
      simp only
      split
      · rename_i low
        exact Program.CrashTriple.pure (fun _ held => held.2)
          fun db held => ⟨held.2, idx, held.1.symm, low⟩
      · rename_i high
        exact raise (by simpa using UInt32.not_le.mp high)

/-- The latest index of a destination does not matter. -/
theorem crashTriple_updateLatestLeafIndexForDestination
    (closed : RaiseClosed holds)
    (destination leafIndex : UInt32) :
    Program.CrashTriple holds
      (updateLatestLeafIndexForDestination destination leafIndex)
      (fun _ => holds) holds := by
  have read : Program.CrashTriple holds
      (retrieveLatestLeafIndexForDestination destination)
      (fun _ => holds) holds :=
    Program.CrashTriple.get (fun _ held => held) fun _ held => held
  refine read.bind fun latest => ?_
  have stored : Program.CrashTriple holds
      (store (.latestLeafIndexForDestination destination) leafIndex)
      (fun _ => holds) holds := by
    apply crashTriple_store closed
    · simp
    · simp
  cases latest with
  | none => exact stored
  | some idx =>
      simp only
      split
      · exact Program.CrashTriple.pure (fun _ held => held) fun _ held => held
      · exact stored

variable [Crypto]

/-- Storing a message reaches its index. -/
theorem crashTriple_storeRawCommittedMessage
    (closed : RaiseClosed holds)
    (message : RawCommittedMessage) :
    Program.CrashTriple holds (storeRawCommittedMessage message)
      (fun _ db => holds db ∧ AtLeast message.leafIndex db) holds := by
  have closedLatest := raiseClosed_and_atLeast closed message.leafIndex
  have leaf : ∀ destination, Program.CrashTriple holds
      (storeLeaf message.leafIndex destination message.leaf)
      (fun _ db => holds db ∧ AtLeast message.leafIndex db) holds := by
    intro destination
    refine (crashTriple_store closed (by simp) (by simp) _).bind fun _ => ?_
    refine (crashTriple_updateLatestLeafIndex closed _).bind fun _ => ?_
    exact (crashTriple_updateLatestLeafIndexForDestination closedLatest _
      _).conseq (fun _ _ held => held) fun _ held => held.1
  refine Program.CrashTriple.bind
    (Program.CrashTriple.lift (fun _ held => held) fun _ _ _ held => held)
    fun parsed => ?_
  refine (leaf parsed.destination).bind fun _ => ?_
  exact (crashTriple_store closedLatest (by simp) (by simp) _).conseq
    (fun _ _ held => held) fun _ held => held.1

/-- Storing one message of a batch reaches its index. -/
theorem crashTriple_storeBatchMessage
    (closed : RaiseClosed holds)
    (message : RawCommittedMessage) :
    Program.CrashTriple holds (storeBatchMessage message)
      (fun _ db => holds db ∧ AtLeast message.leafIndex db) holds := by
  have stored := crashTriple_storeRawCommittedMessage closed message
  have latest : Program.CrashTriple holds (storeLatestMessage message)
      (fun _ db => holds db ∧ AtLeast message.leafIndex db) holds := by
    have read : Program.CrashTriple holds retrieveLatestLeafIndex
        (fun _ => holds) holds :=
      Program.CrashTriple.get (fun _ held => held) fun _ held => held
    refine read.bind fun latest => ?_
    cases latest with
    | none => exact stored
    | some idx =>
        exact Program.CrashTriple.bind
          (Program.CrashTriple.lift (fun _ held => held)
            fun _ _ _ held => held) fun _ => stored
  refine latest.bind fun _ => ?_
  refine Program.CrashTriple.bind
    (Program.CrashTriple.lift (fun _ held => held.1) fun _ _ _ held => held)
    fun _ => Program.CrashTriple.pure (fun _ held => held.1)
      fun _ held => held

/-- Storing a batch reaches the index of its first message. -/
theorem crashTriple_storeMessages
    (closed : RaiseClosed holds)
    (first : RawCommittedMessage)
    (rest : List RawCommittedMessage) :
    Program.CrashTriple holds (storeMessages (first :: rest))
      (fun _ db => holds db ∧ AtLeast first.leafIndex db) holds := by
  have closedFirst := raiseClosed_and_atLeast closed first.leafIndex
  unfold storeMessages
  rw [List.foldlM_cons]
  refine (crashTriple_storeBatchMessage closed first).bind fun latest => ?_
  refine Program.CrashTriple.foldlM (fun _ held => held.1) ?_ latest
  intro message _ value
  exact (crashTriple_storeBatchMessage closedFirst message).conseq
    (fun _ _ held => held.1) fun _ held => held.1

end Puts

end AbacusDB

/-! ## The start of a rewind -/

variable {chain : OutboxChain}

/-- No message from the latest index on was dispatched before a block. -/
def Reaches (chain : OutboxChain) (start : UInt32) (db : AbacusDB) : Prop :=
  ∀ index block, chain.blockAt index = some block →
    (∀ latest, db .latestLeafIndex = some latest → latest ≤ index) →
      start ≤ block

/-- Raising the latest index leaves fewer messages to reach. -/
theorem Reaches.raise
    {start : UInt32}
    {first second : AbacusDB}
    (reaches : Reaches chain start first)
    (raises : AbacusDB.Raises (first .latestLeafIndex)
      (second .latestLeafIndex)) :
    Reaches chain start second := by
  intro index block dispatched above
  refine reaches index block dispatched fun latest known => ?_
  rcases raises with same | ⟨raised, new, higher⟩
  · exact above latest (same.trans known)
  · exact UInt32.le_trans (UInt32.le_of_lt (higher latest known))
      (above raised new)

/-- A message that is reached by the latest index reaches the start of any
window that contains it. -/
theorem reaches_of_atLeast
    (sorted : chain.Sorted)
    {index start block : UInt32}
    {db : AbacusDB}
    (dispatched : chain.blockAt index = some block)
    (inside : start ≤ block)
    (reached : AbacusDB.AtLeast index db) :
    Reaches chain start db := by
  obtain ⟨latest, known, above⟩ := reached
  intro later laterBlock laterDispatched covered
  exact UInt32.le_trans inside (sorted.blockAt_le
    (UInt32.le_trans above (covered latest known)) dispatched
    laterDispatched)

/-- The configured start and the persisted one reach far enough back. -/
structure RewindsFar (chain : OutboxChain) (configFrom : UInt32)
    (db : AbacusDB) : Prop where
  config : Reaches chain configFrom db
  persisted : ∀ start,
    db .latestValidMessageRangeStartBlock = some start →
      Reaches chain start db

/-- The persisted start, the configured one and that of the loop reach far
enough back. -/
def Rewinds (chain : OutboxChain) (configFrom start : UInt32)
    (db : AbacusDB) : Prop :=
  RewindsFar chain configFrom db ∧ Reaches chain start db

theorem raiseClosed_rewinds (chain : OutboxChain) (configFrom start : UInt32) :
    AbacusDB.RaiseClosed (Rewinds chain configFrom start) := by
  rintro first second range raises ⟨far, reaches⟩
  refine ⟨⟨far.config.raise raises, fun persisted known => ?_⟩,
    reaches.raise raises⟩
  rw [range] at known
  exact (far.persisted persisted known).raise raises

/-- The configured start reaches far enough back in the empty database if it
is not above the block of the first message. -/
theorem rewindsFar_empty
    (sorted : chain.Sorted)
    {configFrom : UInt32}
    (below : ∀ block, chain.blockAt 0 = some block → configFrom ≤ block) :
    RewindsFar chain configFrom Journal.empty := by
  refine ⟨fun _ _ dispatched _ => sorted.le_blockAt below dispatched, ?_⟩
  intro _ contrary
  cases contrary

/-- The next block is the one after. -/
theorem triple_nextBlock_succ (toBlock : UInt32) :
    Program.Triple (fun _ => True) (nextBlock toBlock)
      (fun next _ => next.toNat = toBlock.toNat + 1) fun _ => True :=
  Program.Triple.lift (fun _ added _ _ => toNat_of_checkedAdd added)
    fun _ _ => trivial

section Iteration

variable [Crypto]

/-- Storing a window makes its start the start of the latest valid range, once
a message of the window is stored. -/
theorem crashTriple_storeWindow
    (sorted : chain.Sorted)
    {configFrom start block : UInt32}
    {fetched : Fetched}
    {first : RawCommittedMessage}
    (dispatched : chain.blockAt first.leafIndex = some block)
    (inside : fetched.fullChunkFrom ≤ block)
    (rest : List RawCommittedMessage) :
    Program.CrashTriple (Rewinds chain configFrom start)
      (storeWindow fetched (first :: rest))
      (fun after => Rewinds chain configFrom after.lastValidRangeStartBlock)
      (Rewinds chain configFrom start) := by
  refine (AbacusDB.crashTriple_storeMessages
    (raiseClosed_rewinds chain configFrom start) first rest).bind
      fun _ => ?_
  have persist : ∀ db, Rewinds chain configFrom start db ∧
      AbacusDB.AtLeast first.leafIndex db →
        ∀ reached, Reaches chain reached db →
          Rewinds chain configFrom reached
            (Journal.Put.apply
              ⟨.latestValidMessageRangeStartBlock, fetched.fullChunkFrom⟩
              db) := by
    rintro db ⟨⟨far, -⟩, stored⟩ reached reaches
    have same : Journal.Put.apply
        ⟨.latestValidMessageRangeStartBlock, fetched.fullChunkFrom⟩ db
        .latestLeafIndex = db .latestLeafIndex :=
      Journal.Put.apply_of_ne (by simp) db
    refine ⟨⟨far.config.raise (.inl same), fun persisted known => ?_⟩,
      reaches.raise (.inl same)⟩
    have new : Journal.Put.apply
        ⟨.latestValidMessageRangeStartBlock, fetched.fullChunkFrom⟩ db
        .latestValidMessageRangeStartBlock = some fetched.fullChunkFrom :=
      Journal.Put.apply_mk_self _ _ db
    rw [known, Option.some.injEq] at new
    subst new
    exact (reaches_of_atLeast sorted dispatched inside stored).raise
      (.inl same)
  have stored : Program.CrashTriple
      (fun db => Rewinds chain configFrom start db ∧
        AbacusDB.AtLeast first.leafIndex db)
      (AbacusDB.storeLatestValidMessageRangeStartBlock fetched.fullChunkFrom)
      (fun _ db => Rewinds chain configFrom fetched.fullChunkFrom db ∧
        Rewinds chain configFrom start db)
      (Rewinds chain configFrom start) := by
    refine Program.CrashTriple.put (fun _ held => held.1)
      (fun db held => persist db held start held.1.2) fun db held => ?_
    exact ⟨persist db held _
      (reaches_of_atLeast sorted dispatched inside held.2),
      persist db held start held.1.2⟩
  refine stored.bind fun _ => ?_
  exact Program.CrashTriple.bind
    (Program.CrashTriple.lift (fun _ held => held.2) fun _ _ _ held => held)
    fun _ => Program.CrashTriple.pure (fun _ held => held.2)
      fun _ held => held.1

/-- Processing a window of the chain keeps the starts far enough back, also
when it is cut short by a crash. -/
theorem crashTriple_processWindow
    (sorted : chain.Sorted)
    {configFrom : UInt32}
    {fetched : Fetched}
    (dispatched : ∀ message ∈ fetched.sortedMessages,
      ∃ block, chain.blockAt message.leafIndex = some block ∧
        fetched.fullChunkFrom ≤ block)
    (state : SyncState) :
    Program.CrashTriple
      (Rewinds chain configFrom state.lastValidRangeStartBlock)
      (processWindow fetched state)
      (fun after => Rewinds chain configFrom after.lastValidRangeStartBlock)
      (Rewinds chain configFrom state.lastValidRangeStartBlock) := by
  have read : Program.CrashTriple
      (Rewinds chain configFrom state.lastValidRangeStartBlock)
      AbacusDB.retrieveLatestLeafIndex
      (fun _ => Rewinds chain configFrom state.lastValidRangeStartBlock)
      (Rewinds chain configFrom state.lastValidRangeStartBlock) :=
    Program.CrashTriple.get (fun _ held => held) fun _ held => held
  refine read.bind fun latest => ?_
  simp only
  split
  · exact Program.CrashTriple.bind
      (Program.CrashTriple.lift (fun _ held => held) fun _ _ _ held => held)
      fun _ => Program.CrashTriple.pure (fun _ held => held)
        fun _ held => held
  · rename_i some
    refine Program.CrashTriple.bind
      (Program.CrashTriple.lift (fun _ held => held) fun _ _ _ held => held)
      fun validity => ?_
    cases validity with
    | empty => exact Program.CrashTriple.fail fun _ held => held
    | invalidContinuation =>
        exact Program.CrashTriple.pure (fun _ held => held) fun _ held => held
    | containsGaps =>
        exact Program.CrashTriple.pure (fun _ held => held) fun _ held => held
    | valid =>
        cases filtered : filterStored latest fetched.sortedMessages with
        | nil => exact absurd (by rw [filtered]; rfl) some
        | cons first rest =>
            obtain ⟨block, sent, inside⟩ := dispatched first
              (mem_of_mem_filterStored (by rw [filtered]; simp))
            exact crashTriple_storeWindow sorted sent inside rest

/-- One iteration against a faithful provider keeps the starts far enough
back, also when it is cut short by a crash. -/
theorem crashTriple_syncIteration
    (sorted : chain.Sorted)
    {poll : Poll}
    (faithful : chain.Faithful poll)
    (chunkSize configFrom : UInt32)
    (state : SyncState) :
    Program.CrashTriple
      (Rewinds chain configFrom state.lastValidRangeStartBlock)
      (syncIteration chunkSize poll state)
      (fun after => Rewinds chain configFrom after.lastValidRangeStartBlock)
      (Rewinds chain configFrom state.lastValidRangeStartBlock) := by
  refine Program.CrashTriple.bind
    (Program.CrashTriple.lift (fun _ held => held)
      fun _ fetches _ held => And.intro fetches held) fun window => ?_
  cases window with
  | none =>
      exact Program.CrashTriple.pure (fun _ held => held.2)
        fun _ held => held.2
  | some fetched =>
      intro db
      rintro ⟨fetches, held⟩
      obtain ⟨-, -, answer⟩ := of_fetchWindow_eq_some fetches
      refine crashTriple_processWindow sorted (fun message member => ?_) state
        db held
      obtain ⟨block, sent, inside, -⟩ := OutboxChain.blockAt_of_mem_window
        ((faithful _ _ _ answer).subset member)
      exact ⟨block, sent, inside⟩

/-- Where the loop goes: it stays, it rewinds to the start of the latest valid
range, or it goes past a block. -/
def GoesTo (state : SyncState) (toBlock : UInt32) (after : SyncState) :
    Prop :=
  after.fromBlock = state.fromBlock ∨
    after.fromBlock = state.lastValidRangeStartBlock ∨
    after.fromBlock.toNat = toBlock.toNat + 1

/-- Where processing a window leads. -/
theorem triple_processWindow_goesTo
    (fetched : Fetched)
    (state : SyncState) :
    Program.Triple (fun _ => True) (processWindow fetched state)
      (fun after _ => GoesTo state fetched.toBlock after) fun _ => True := by
  have read : Program.Triple (fun _ => True) AbacusDB.retrieveLatestLeafIndex
      (fun _ _ => True) fun _ => True :=
    Program.Triple.get fun _ _ => trivial
  refine read.bind fun latest => ?_
  simp only
  split
  · exact (triple_nextBlock_succ fetched.toBlock).bind fun block =>
      Program.Triple.pure fun _ past => .inr (.inr past)
  · refine Program.Triple.bind
      (Program.Triple.lift (fun _ validated _ _ => validated)
        fun _ _ => trivial) fun validity => ?_
    cases validity with
    | empty => exact Program.Triple.fail fun _ _ => trivial
    | invalidContinuation =>
        exact Program.Triple.pure fun _ _ => .inr (.inl rfl)
    | containsGaps => exact Program.Triple.pure fun _ _ => .inl rfl
    | valid =>
        refine Program.Triple.bind
          (Program.Triple.of_final fun _ _ => trivial) fun _ => ?_
        have persist : Program.Triple (fun _ => True)
            (AbacusDB.storeLatestValidMessageRangeStartBlock
              fetched.fullChunkFrom)
            (fun _ _ => True) fun _ => True :=
          Program.Triple.put fun _ _ => trivial
        refine persist.bind fun _ => ?_
        exact (triple_nextBlock_succ fetched.toBlock).bind fun block =>
          Program.Triple.pure fun _ past => .inr (.inr past)

/-- Where an iteration leads: it stays, or it has fetched a window. -/
theorem of_syncIteration_eq_ok
    {chunkSize : UInt32}
    {poll : Poll}
    {state after : SyncState}
    {db : AbacusDB}
    (iterated : (syncIteration chunkSize poll state).result db = .ok after) :
    after = state ∨
      ∃ fetched, fetchWindow chunkSize poll state = .ok (some fetched) ∧
        GoesTo state fetched.toBlock after := by
  have whole : Program.Triple (fun _ => True)
      (syncIteration chunkSize poll state)
      (fun after _ => after = state ∨
        ∃ fetched, fetchWindow chunkSize poll state = .ok (some fetched) ∧
          GoesTo state fetched.toBlock after)
      fun _ => True := by
    refine Program.Triple.bind
      (Program.Triple.lift (fun _ fetches _ _ => fetches)
        fun _ _ => trivial) fun window => ?_
    cases window with
    | none => exact Program.Triple.pure fun _ _ => .inl rfl
    | some fetched =>
        intro store fetches
        have processed := triple_processWindow_goesTo fetched state store
          trivial
        split at processed
        · rename_i after returned
          simp only [returned]
          exact .inr ⟨fetched, fetches, processed⟩
        · rename_i fault stopped
          simp only [stopped]
  have outcome := whole db trivial
  rw [iterated] at outcome
  exact outcome

end Iteration

/-! ## Runs with crashes -/

/-- What happens to an indexer: an iteration of its loop, or a crash after a
number of puts of an iteration, from which it starts again. -/
inductive IndexerEvent
  | iterate (poll : Poll)
  | crash (poll : Poll) (count : Nat)

/-- The answers of the provider in an event. -/
def IndexerEvent.poll : IndexerEvent → Poll
  | .iterate poll => poll
  | .crash poll _ => poll

/-- The invariant of the indexer. -/
def Indexer.Rewinds (chain : OutboxChain) (configFrom : UInt32)
    (indexer : Indexer) : Prop :=
  RewindsFar chain configFrom indexer.db ∧
    ∀ state, indexer.loop = .ok state →
      Reaches chain state.lastValidRangeStartBlock indexer.db

/-- An indexer that starts resumes from a block far enough back. -/
theorem rewinds_start
    {configFrom : UInt32}
    {db : AbacusDB}
    (far : RewindsFar chain configFrom db) :
    (Indexer.start configFrom db).Rewinds chain configFrom := by
  refine ⟨far, ?_⟩
  rintro state ⟨⟩
  change Reaches chain
    ((db .latestValidMessageRangeStartBlock).getD configFrom) db
  cases known : db .latestValidMessageRangeStartBlock with
  | none => exact far.config
  | some start => exact far.persisted start known

section Runs

variable [Crypto]

/-- The database that a crash leaves. -/
def Indexer.crashedDb (chunkSize : UInt32) (indexer : Indexer) (poll : Poll)
    (count : Nat) : AbacusDB :=
  match indexer.loop with
  | .error _ => indexer.db
  | .ok state =>
      (syncIteration chunkSize poll state).crashed indexer.db count

/-- The indexer after an event. -/
def Indexer.stepOrCrash (configFrom chunkSize : UInt32) (indexer : Indexer) :
    IndexerEvent → Indexer
  | .iterate poll => indexer.step chunkSize poll
  | .crash poll count =>
      .start configFrom (indexer.crashedDb chunkSize poll count)

/-- Every event keeps the starts far enough back. -/
theorem rewinds_stepOrCrash
    (sorted : chain.Sorted)
    {configFrom chunkSize : UInt32}
    {indexer : Indexer}
    {event : IndexerEvent}
    (faithful : chain.Faithful event.poll)
    (rewinds : indexer.Rewinds chain configFrom) :
    (indexer.stepOrCrash configFrom chunkSize event).Rewinds chain
      configFrom := by
  obtain ⟨far, loop⟩ := rewinds
  cases running : indexer.loop with
  | error fault =>
      cases event with
      | iterate poll =>
          simp only [Indexer.stepOrCrash, Indexer.step, running]
          exact ⟨far, loop⟩
      | crash poll count =>
          simp only [Indexer.stepOrCrash, Indexer.crashedDb, running]
          exact rewinds_start far
  | ok state =>
      have held := And.intro far (loop state running)
      have triple := crashTriple_syncIteration sorted faithful chunkSize
        configFrom state
      cases event with
      | iterate poll =>
          simp only [Indexer.stepOrCrash, Indexer.step, running]
          exact ⟨(triple.final held).1, fun after returned =>
            ((triple indexer.db held).2 after returned).2⟩
      | crash poll count =>
          simp only [Indexer.stepOrCrash, Indexer.crashedDb, running]
          exact rewinds_start ((triple indexer.db held).1 count).1

/-- An iteration that goes past a block ahead of it, but not behind the latest
valid range, has fetched a window that contains the block. -/
theorem exists_window_of_syncIteration
    {chunkSize block : UInt32}
    {poll : Poll}
    {state after : SyncState}
    {db : AbacusDB}
    (iterated : (syncIteration chunkSize poll state).result db = .ok after)
    (low : state.lastValidRangeStartBlock ≤ block)
    (ahead : state.fromBlock ≤ block)
    (past : block < after.fromBlock) :
    ∃ fetched, fetchWindow chunkSize poll state = .ok (some fetched) ∧
      fetched.fullChunkFrom ≤ block ∧ block ≤ fetched.toBlock := by
  rcases of_syncIteration_eq_ok iterated with
    rfl | ⟨fetched, fetches, stays | rewound | beyond⟩
  · exact absurd past (UInt32.not_lt.mpr ahead)
  · rw [stays] at past
    exact absurd past (UInt32.not_lt.mpr ahead)
  · rw [rewound] at past
    exact absurd past (UInt32.not_lt.mpr low)
  · obtain ⟨-, full, -⟩ := of_fetchWindow_eq_some fetches
    rw [UInt32.lt_iff_toNat_lt] at past
    refine ⟨fetched, fetches, UInt32.le_trans full ahead, ?_⟩
    rw [UInt32.le_iff_toNat_le]
    omega

/-- At every loop head of every run with crashes, if the latest leaf index is
`latest` and the message after it was dispatched in some block, then neither
the start of the latest valid range nor the persisted start is above that
block, and no iteration goes past the block without having fetched a window
that contains it. -/
theorem run_indexer_rewinds
    (sorted : chain.Sorted)
    (configFrom chunkSize : UInt32)
    (below : ∀ block, chain.blockAt 0 = some block → configFrom ≤ block)
    (events : List IndexerEvent)
    (faithful : ∀ event ∈ events, chain.Faithful event.poll)
    (state : SyncState)
    (head : (Machine.run (Indexer.stepOrCrash configFrom chunkSize)
      (Indexer.start configFrom Journal.empty) events).loop = .ok state)
    (latest next block : UInt32)
    (known : AbacusDB.retrieveLatestLeafIndex.result
        (Machine.run (Indexer.stepOrCrash configFrom chunkSize)
          (Indexer.start configFrom Journal.empty) events).db =
      .ok (some latest))
    (following : next.toNat = latest.toNat + 1)
    (dispatched : chain.blockAt next = some block) :
    state.lastValidRangeStartBlock ≤ block ∧
      (∀ start, AbacusDB.retrieveLatestValidMessageRangeStartBlock.result
          (Machine.run (Indexer.stepOrCrash configFrom chunkSize)
            (Indexer.start configFrom Journal.empty) events).db =
        .ok (some start) → start ≤ block) ∧
      ∀ poll after,
        ((Machine.run (Indexer.stepOrCrash configFrom chunkSize)
          (Indexer.start configFrom Journal.empty) events).step chunkSize
            poll).loop = .ok after →
          state.fromBlock ≤ block → block < after.fromBlock →
            ∃ fetched,
              fetchWindow chunkSize poll state = .ok (some fetched) ∧
                fetched.fullChunkFrom ≤ block ∧ block ≤ fetched.toBlock := by
  have reached := Machine.invariant_run
    (Indexer.stepOrCrash configFrom chunkSize)
    (Indexer.Rewinds chain configFrom)
    (fun _ _ admissible rewinds =>
      rewinds_stepOrCrash sorted admissible rewinds)
    (rewinds_start (rewindsFar_empty sorted below))
    (Machine.admissibleRun_of_forall _ _ faithful)
  generalize Machine.run (Indexer.stepOrCrash configFrom chunkSize)
    (Indexer.start configFrom Journal.empty) events = indexer
      at head known reached ⊢
  have covered : ∀ other, indexer.db .latestLeafIndex = some other →
      other ≤ next := by
    intro other stored
    simp only [Program.result, AbacusDB.retrieveLatestLeafIndex,
      AbacusDB.run_retrieve, stored, Except.ok.injEq,
      Option.some.injEq] at known
    rw [known, UInt32.le_iff_toNat_le]
    omega
  have low := reached.2 state head next block dispatched covered
  refine ⟨low, fun start persisted => ?_, ?_⟩
  · simp only [Program.result,
      AbacusDB.retrieveLatestValidMessageRangeStartBlock,
      AbacusDB.run_retrieve, Except.ok.injEq] at persisted
    exact reached.1.persisted start persisted next block dispatched covered
  · intro poll after moved before past
    simp only [Indexer.step, head] at moved
    exact exists_window_of_syncIteration moved low before past

end Runs

/-- A provider at block `10` that returns the dispatched messages up to a leaf
index. -/
def OutboxChain.pollUpTo (chain : OutboxChain) (last : UInt32) : Poll where
  finalizedBlockNumber := .ok 10
  fetchSortedMessages fromBlock toBlock :=
    .ok ((chain.window fromBlock toBlock).filter fun message =>
      message.leafIndex ≤ last)

theorem OutboxChain.faithful_pollUpTo (chain : OutboxChain) (last : UInt32) :
    chain.Faithful (chain.pollUpTo last) := by
  intro fromBlock toBlock response answer
  cases answer
  exact List.filter_sublist

/-- After a crash in the storing of the first message of two, the indexer does
not go past block `5` without having searched it. -/
theorem run_indexer_rewinds_pair :
    ∃ fetched,
      fetchWindow 10 (OutboxChain.pair.pollUpTo 1) ⟨0, 0⟩ =
          .ok (some fetched) ∧
        fetched.fullChunkFrom ≤ 5 ∧ 5 ≤ fetched.toBlock :=
  (@run_indexer_rewinds OutboxChain.pair .transparent (by
      unfold OutboxChain.Sorted; decide) 0 10
    (fun _ _ => UInt32.zero_le)
    [.crash (OutboxChain.pair.pollUpTo 0) 3]
    (by simpa [IndexerEvent.poll] using OutboxChain.pair.faithful_pollUpTo 0)
    ⟨0, 0⟩ (by decide) 0 1 5 (by decide) rfl (by decide)).2.2
      (OutboxChain.pair.pollUpTo 1) ⟨11, 0⟩ (by decide) (by decide) (by decide)

end Abacus
