import Abacus.Base.OutboxSync
import Mathlib.Data.List.Nodup

/-!
# What the indexer stores

Against a provider whose responses are parts of the dispatched messages, the
indexer keeps every message up to its latest leaf index, provided that the
first batch it accepts starts with the first message. Later batches are
validated against the latest index; the first one has nothing to be validated
against.
-/

namespace Abacus

open Journal (Program)

/-- The dispatched messages with their blocks, in the order of their leaf
indices. -/
structure OutboxChain where
  dispatched : List (UInt32 × RawCommittedMessage)
  leafIndex_eq : ∀ position, ∀ inside : position < dispatched.length,
    (dispatched[position]).2.leafIndex.toNat = position

namespace OutboxChain

/-- The dispatched messages. -/
def messages (chain : OutboxChain) : List RawCommittedMessage :=
  chain.dispatched.map Prod.snd

/-- The message at a leaf index. -/
def messageAt (chain : OutboxChain) (index : UInt32) :
    Option RawCommittedMessage :=
  chain.messages[index.toNat]?

/-- The messages dispatched in a range of blocks, in order. -/
def window (chain : OutboxChain) (fromBlock toBlock : UInt32) :
    List RawCommittedMessage :=
  (chain.dispatched.filter fun sent =>
    decide (fromBlock ≤ sent.1) && decide (sent.1 ≤ toBlock)).map Prod.snd

/-- The responses of a provider are sorted parts, without duplicates, of the
messages dispatched in the requested windows; any of them may be missing. -/
def Faithful (chain : OutboxChain) (poll : Poll) : Prop :=
  ∀ fromBlock toBlock response,
    poll.fetchSortedMessages fromBlock toBlock = .ok response →
      response.Sublist (chain.window fromBlock toBlock)

/-- A message of a window stands at its own index. -/
theorem messageAt_of_mem_window
    {chain : OutboxChain}
    {fromBlock toBlock : UInt32}
    {message : RawCommittedMessage}
    (member : message ∈ chain.window fromBlock toBlock) :
    chain.messageAt message.leafIndex = some message := by
  obtain ⟨sent, inside, rfl⟩ := List.mem_map.mp member
  obtain ⟨position, below, rfl⟩ :=
    List.mem_iff_getElem.mp (List.mem_of_mem_filter inside)
  rw [messageAt, chain.leafIndex_eq position below, messages,
    List.getElem?_map, List.getElem?_eq_getElem below]
  rfl

/-- The fetched messages stand at their indices. -/
theorem messageAt_of_fetchWindow
    {chain : OutboxChain}
    {poll : Poll}
    (faithful : chain.Faithful poll)
    {chunkSize : UInt32}
    {state : SyncState}
    {fetched : Fetched}
    (fetches : fetchWindow chunkSize poll state = .ok (some fetched)) :
    ∀ message ∈ fetched.sortedMessages,
      chain.messageAt message.leafIndex = some message := by
  obtain ⟨-, -, answer⟩ := of_fetchWindow_eq_some fetches
  exact fun message member =>
    messageAt_of_mem_window ((faithful _ _ _ answer).subset member)

end OutboxChain

section Correctness

variable [Crypto]
variable {chain : OutboxChain}

/-- The database holds the messages of the chain below an index. -/
def HoldsBelow (chain : OutboxChain) (db : AbacusDB) (next : Nat) : Prop :=
  ∀ index : UInt32, index.toNat < next →
    ∃ message, chain.messageAt index = some message ∧
      db (.leaf index) = some message.leaf ∧
      db (.message message.leaf) = some message

/-- The invariant of the indexer: the messages of the chain up to the latest
leaf index are stored. -/
def Synced (chain : OutboxChain) (db : AbacusDB) : Prop :=
  ∃ next, AbacusDB.StoredThrough db next ∧ HoldsBelow chain db next

/-- Only the leaves, the bodies and the latest index matter. -/
theorem Synced.congr
    {first second : AbacusDB}
    (synced : Synced chain first)
    (latest : second .latestLeafIndex = first .latestLeafIndex)
    (leaves : ∀ index, second (.leaf index) = first (.leaf index))
    (bodies : ∀ hash, second (.message hash) = first (.message hash)) :
    Synced chain second := by
  obtain ⟨next, stored, holds⟩ := synced
  refine ⟨next, stored.congr latest leaves bodies, ?_⟩
  intro index below
  obtain ⟨message, sent, leaf, body⟩ := holds index below
  exact ⟨message, sent, (leaves index).trans leaf,
    (bodies message.leaf).trans body⟩

/-! ## Storing a batch -/

/-- Storing the next message of the chain keeps the earlier ones, since no two
leaves of the chain collide. -/
theorem HoldsBelow.next
    (distinct : (chain.messages.map RawCommittedMessage.leaf).Nodup)
    {db : AbacusDB}
    {message : RawCommittedMessage}
    (holds : HoldsBelow chain db message.leafIndex.toNat)
    (sent : chain.messageAt message.leafIndex = some message)
    (destination : UInt32) :
    HoldsBelow chain
      (Journal.replay db (AbacusDB.messagePuts db message destination))
      (message.leafIndex.toNat + 1) := by
  intro index below
  by_cases same : index = message.leafIndex
  · subst same
    refine ⟨message, sent, ?_, ?_⟩
    · rw [AbacusDB.replay_messagePuts_leaf, if_pos rfl]
    · rw [AbacusDB.replay_messagePuts_message, if_pos rfl]
  · have different : index.toNat ≠ message.leafIndex.toNat :=
      fun equal => same (UInt32.toNat_inj.mp equal)
    obtain ⟨other, otherSent, leaf, body⟩ := holds index (by omega)
    have otherLeaf : other.leaf ≠ message.leaf := by
      intro collision
      obtain ⟨inside, -⟩ := List.getElem?_eq_some_iff.mp otherSent
      apply different
      apply (List.getElem?_inj (by simpa using inside) distinct).mp
      unfold OutboxChain.messageAt at otherSent sent
      rw [List.getElem?_map, List.getElem?_map, otherSent, sent,
        Option.map_some, Option.map_some, collision]
    refine ⟨other, otherSent, ?_, ?_⟩
    · rw [AbacusDB.replay_messagePuts_leaf, if_neg same, leaf]
    · rw [AbacusDB.replay_messagePuts_message, if_neg otherLeaf, body]

/-- Storing messages of the chain that continue the stored ones keeps the
invariant, also when one of them does not parse. -/
theorem synced_storeMessages
    (distinct : (chain.messages.map RawCommittedMessage.leaf).Nodup)
    {db : AbacusDB}
    {next : Nat}
    {messages : List RawCommittedMessage}
    (sent : ∀ message ∈ messages,
      chain.messageAt message.leafIndex = some message)
    (consecutive : AbacusDB.Consecutive next messages)
    (stored : AbacusDB.StoredThrough db next)
    (holds : HoldsBelow chain db next) :
    Synced chain ((AbacusDB.storeMessages messages).final db) := by
  induction messages generalizing db next with
  | nil => exact ⟨next, stored, holds⟩
  | cons message rest inductionHypothesis =>
      obtain ⟨rfl, later⟩ := consecutive
      cases parses : AbacusMessage.parse message.message with
      | error error =>
          have stops : (AbacusDB.storeMessages (message :: rest)).journal db =
              [] := by
            unfold AbacusDB.storeMessages
            rw [List.foldlM_cons, Program.journal, Program.run_bind_error
              (AbacusDB.run_storeBatchMessage_error parses stored.positive)]
          rw [Program.final, stops]
          exact ⟨_, stored, holds⟩
      | ok parsed =>
          rw [Program.final, AbacusDB.journal_storeMessages_cons parses
            stored.positive, Journal.replay_append]
          exact inductionHypothesis
            (fun other member => sent other (List.mem_cons_of_mem _ member))
            later (stored.next parsed.destination)
            (holds.next distinct (sent message (by simp)) parsed.destination)

/-! ## One iteration -/

/-- While no message is stored, fetched messages without gaps start with the
first message. -/
def Fetched.Grounded (fetched : Fetched) (latest : Option UInt32) : Prop :=
  latest = none →
    (validContinuation none fetched.sortedMessages :
        Except (Fault Report) ListValidity) = .ok .valid →
      ∀ first ∈ fetched.sortedMessages.head?, first.leafIndex = 0

/-- The window that an iteration fetches is grounded. -/
def Grounded (chunkSize : UInt32) (indexer : Indexer) (poll : Poll) : Prop :=
  ∀ state fetched, indexer.loop = .ok state →
    fetchWindow chunkSize poll state = .ok (some fetched) →
      fetched.Grounded (indexer.db .latestLeafIndex)

/-- Moving on to the next block does not touch the database. -/
theorem triple_nextBlock (toBlock : UInt32) :
    Program.Triple (Synced chain) (nextBlock toBlock)
      (fun _ => Synced chain) (Synced chain) :=
  Program.Triple.lift (fun _ _ _ synced => synced) (fun _ synced => synced)

/-- Recording the start of a range touches no message. -/
theorem triple_storeLatestValidMessageRangeStartBlock (blockNum : UInt32) :
    Program.Triple (Synced chain)
      (AbacusDB.storeLatestValidMessageRangeStartBlock blockNum)
      (fun _ => Synced chain) (Synced chain) := by
  apply Program.Triple.put
  intro db synced
  exact synced.congr (Journal.Put.apply_of_ne (by simp) db)
    (fun _ => Journal.Put.apply_of_ne (by simp) db)
    (fun _ => Journal.Put.apply_of_ne (by simp) db)

/-- Storing a batch of the chain that continues the stored messages keeps the
invariant, whether or not the loop goes on. -/
theorem triple_storeWindow
    (distinct : (chain.messages.map RawCommittedMessage.leaf).Nodup)
    (fetched : Fetched)
    {messages : List RawCommittedMessage}
    (sent : ∀ message ∈ messages,
      chain.messageAt message.leafIndex = some message) :
    Program.Triple
      (fun db => ∃ next, AbacusDB.StoredThrough db next ∧
        HoldsBelow chain db next ∧ AbacusDB.Consecutive next messages)
      (storeWindow fetched messages)
      (fun _ => Synced chain) (Synced chain) := by
  refine Program.Triple.bind (Program.Triple.of_final ?_) fun _ =>
    (triple_storeLatestValidMessageRangeStartBlock _).bind fun _ =>
      (triple_nextBlock _).bind fun _ =>
        Program.Triple.pure fun _ synced => synced
  rintro db ⟨next, stored, holds, consecutive⟩
  exact synced_storeMessages distinct sent consecutive stored holds

/-- Processing a window keeps the invariant, whether or not the loop goes on. -/
theorem triple_processWindow
    (distinct : (chain.messages.map RawCommittedMessage.leaf).Nodup)
    {fetched : Fetched}
    (sent : ∀ message ∈ fetched.sortedMessages,
      chain.messageAt message.leafIndex = some message)
    (state : SyncState) :
    Program.Triple
      (fun db => Synced chain db ∧ fetched.Grounded (db .latestLeafIndex))
      (processWindow fetched state)
      (fun _ => Synced chain) (Synced chain) := by
  have read : Program.Triple
      (fun db => Synced chain db ∧ fetched.Grounded (db .latestLeafIndex))
      AbacusDB.retrieveLatestLeafIndex
      (fun latest db => latest = db .latestLeafIndex ∧ Synced chain db ∧
        fetched.Grounded latest)
      (Synced chain) :=
    Program.Triple.get fun db holds => ⟨rfl, holds⟩
  refine read.bind fun latest => ?_
  simp only
  split
  · exact ((triple_nextBlock _).weaken fun _ holds => holds.2.1).bind fun _ =>
      Program.Triple.pure fun _ synced => synced
  · refine Program.Triple.bind
      (Program.Triple.lift
        (fun _ validated _ holds => And.intro validated holds)
        fun _ holds => holds.2.1) fun validity => ?_
    cases validity with
    | empty => exact Program.Triple.fail fun _ holds => holds.2.2.1
    | invalidContinuation =>
        exact Program.Triple.pure fun _ holds => holds.2.2.1
    | containsGaps => exact Program.Triple.pure fun _ holds => holds.2.2.1
    | valid =>
        refine (triple_storeWindow distinct fetched fun message member =>
          sent message (mem_of_mem_filterStored member)).weaken ?_
        rintro db ⟨validated, rfl, ⟨next, stored, holds⟩, grounded⟩
        refine ⟨next, stored, holds,
          consecutive_of_validContinuation stored validated ?_⟩
        intro unknown
        apply grounded unknown
        rwa [unknown] at validated

/-! ## Runs -/

/-- One iteration keeps the invariant. -/
theorem synced_step
    (distinct : (chain.messages.map RawCommittedMessage.leaf).Nodup)
    {chunkSize : UInt32}
    {indexer : Indexer}
    {poll : Poll}
    (faithful : chain.Faithful poll)
    (grounded : Grounded chunkSize indexer poll)
    (synced : Synced chain indexer.db) :
    Synced chain (indexer.step chunkSize poll).db := by
  unfold Indexer.step
  cases running : indexer.loop with
  | error fault => exact synced
  | ok state =>
      simp only
      unfold syncIteration
      have fetch : Program.Triple (fun db => db = indexer.db)
          (Program.lift (fetchWindow chunkSize poll state) :
            DbM (Option Fetched))
          (fun window db => fetchWindow chunkSize poll state = .ok window ∧
            db = indexer.db)
          (Synced chain) :=
        Program.Triple.lift
          (fun _ fetched _ same => ⟨fetched, same⟩)
          (by rintro db rfl; exact synced)
      refine Program.Triple.final (fetch.bind fun window => ?_) rfl
      cases window with
      | none =>
          apply Program.Triple.pure
          rintro db ⟨-, rfl⟩
          exact synced
      | some fetched =>
          intro db
          rintro ⟨fetches, rfl⟩
          exact triple_processWindow distinct
            (OutboxChain.messageAt_of_fetchWindow faithful fetches) state _
            ⟨synced, grounded state fetched running fetches⟩

/-- In every run from the empty database whose fetched windows are grounded,
every message up to the latest leaf index is stored and found. -/
theorem run_indexer_covers
    (distinct : (chain.messages.map RawCommittedMessage.leaf).Nodup)
    (chunkSize configFrom : UInt32)
    (polls : List Poll)
    (faithful : ∀ poll ∈ polls, chain.Faithful poll)
    (grounded : Machine.AdmissibleRun (Indexer.step chunkSize)
      (Grounded chunkSize) (Indexer.start configFrom Journal.empty) polls)
    (latest : UInt32)
    (known : AbacusDB.retrieveLatestLeafIndex.result
        (Machine.run (Indexer.step chunkSize)
          (Indexer.start configFrom Journal.empty) polls).db =
      .ok (some latest))
    (index : UInt32)
    (below : index ≤ latest) :
    ∃ message, chain.messageAt index = some message ∧
      (AbacusDB.messageByLeafIndex index).result
          (Machine.run (Indexer.step chunkSize)
            (Indexer.start configFrom Journal.empty) polls).db =
        .ok (some message) := by
  have initial : Synced chain
      (Indexer.start configFrom Journal.empty).db :=
    ⟨0, AbacusDB.storedThrough_empty, fun _ contrary => by omega⟩
  have reached := Machine.invariant_run (Indexer.step chunkSize)
    (fun indexer => Synced chain indexer.db)
    (fun indexer poll admissible synced =>
      synced_step distinct admissible.1 admissible.2 synced)
    initial
    ((Machine.admissibleRun_of_forall _ _ faithful).and _ grounded)
  obtain ⟨next, stored, holds⟩ := reached
  obtain ⟨message, sent, leaf, body⟩ :=
    holds index (stored.lt_of_le_latest known below)
  refine ⟨message, sent, ?_⟩
  rw [Program.result, AbacusDB.run_messageByLeafIndex, leaf,
    Option.bind_some, body]

end Correctness

/-- Two messages dispatched in block `5`. -/
def OutboxChain.pair : OutboxChain where
  dispatched := [
    (5, AbacusDB.shortestMessage 0), (5, AbacusDB.shortestMessage 1)]
  leafIndex_eq := by decide

/-- A provider at block `10` that returns the dispatched messages from a leaf
index on. -/
def OutboxChain.pollFrom (chain : OutboxChain) (first : UInt32) : Poll where
  finalizedBlockNumber := .ok 10
  fetchSortedMessages fromBlock toBlock :=
    .ok ((chain.window fromBlock toBlock).filter fun message =>
      first ≤ message.leafIndex)

theorem OutboxChain.faithful_pollFrom (chain : OutboxChain) (first : UInt32) :
    chain.Faithful (chain.pollFrom first) := by
  intro fromBlock toBlock response answer
  cases answer
  exact List.filter_sublist

/-- The complete window starts with the first message. -/
theorem grounded_pollFrom_zero :
    Grounded 10 (Indexer.start 0 Journal.empty)
      (OutboxChain.pair.pollFrom 0) := by
  intro state fetched running fetches _ _ first member
  have window : fetchWindow 10 (OutboxChain.pair.pollFrom 0) ⟨0, 0⟩ =
      .ok (some ⟨0, 10, [AbacusDB.shortestMessage 0,
        AbacusDB.shortestMessage 1]⟩) := by
    decide
  cases running
  rw [show (Journal.empty : AbacusDB) .latestValidMessageRangeStartBlock =
    none from rfl, Option.getD_none, window] at fetches
  cases fetches
  cases member
  rfl

/-- After the complete window has been stored, the first message is found. -/
theorem run_indexer_covers_pair :
    ∃ message, OutboxChain.pair.messageAt 0 = some message ∧
      (AbacusDB.messageByLeafIndex 0).result
          (Machine.run (@Indexer.step .transparent 10)
            (Indexer.start 0 Journal.empty)
            [OutboxChain.pair.pollFrom 0]).db =
        .ok (some message) :=
  @run_indexer_covers .transparent OutboxChain.pair (by decide) 10 0
    [OutboxChain.pair.pollFrom 0]
    (by simpa using OutboxChain.pair.faithful_pollFrom 0)
    ⟨grounded_pollFrom_zero, trivial⟩ 1 (by decide) 0 (by decide)

/-- A response that omits message `0` is stored all the same: the latest leaf
index is `1`, and nothing is found at index `0`. -/
theorem run_indexer_omitting_first :
    OutboxChain.pair.Faithful (OutboxChain.pair.pollFrom 1) ∧
      AbacusDB.retrieveLatestLeafIndex.result
          (Machine.run (@Indexer.step .transparent 10)
            (Indexer.start 0 Journal.empty)
            [OutboxChain.pair.pollFrom 1]).db = .ok (some 1) ∧
      (AbacusDB.messageByLeafIndex 0).result
          (Machine.run (@Indexer.step .transparent 10)
            (Indexer.start 0 Journal.empty)
            [OutboxChain.pair.pollFrom 1]).db = .ok none := by
  refine ⟨OutboxChain.pair.faithful_pollFrom 1, ?_, ?_⟩
  · decide
  · decide

end Abacus
