import Abacus.Base.OutboxSyncRewind
import Abacus.Library.Positions

/-!
# Completeness against a complete provider

If every response holds exactly the messages of the requested window, the
messages stored at a loop head are those dispatched below the block that the
loop has reached, and each batch that is left after the filter continues them.
-/

namespace Abacus

open Journal (Program)

/-! ## Valid continuations -/

/-- Consecutive messages have no gap. -/
theorem containsGap_of_consecutive
    {next : Nat}
    {messages : List RawCommittedMessage}
    (consecutive : AbacusDB.Consecutive next messages) :
    (containsGap messages : Except (Fault ε) Bool) = .ok false := by
  induction messages generalizing next with
  | nil => rfl
  | cons first rest inductionHypothesis =>
      cases rest with
      | nil => rfl
      | cons second rest =>
          obtain ⟨firstIndex, secondIndex, later⟩ := consecutive
          have positive : (1 : UInt32) ≤ second.leafIndex := by
            rw [UInt32.le_iff_toNat_le, secondIndex]
            exact Nat.succ_pos next
          have previous : first.leafIndex = second.leafIndex - 1 := by
            apply UInt32.toNat_inj.mp
            rw [UInt32.toNat_sub_of_le _ _ positive, firstIndex, secondIndex]
            rfl
          unfold containsGap
          rw [checkedSub, if_pos positive]
          simp only [bind, Except.bind, previous, ne_eq, not_true_eq_false,
            if_false]
          exact inductionHypothesis ⟨secondIndex, later⟩

/-- Consecutive messages that start after the latest one, or when there is
none, are a valid continuation. -/
theorem validContinuation_of_consecutive
    {next : Nat}
    {latest : Option UInt32}
    {first : RawCommittedMessage}
    {rest : List RawCommittedMessage}
    (consecutive : AbacusDB.Consecutive next (first :: rest))
    (follows : ∀ lastSeen, latest = some lastSeen →
      lastSeen.toNat + 1 = next) :
    (validContinuation latest (first :: rest) :
      Except (Fault ε) ListValidity) = .ok .valid := by
  have continues : (continuesLatest latest (first :: rest) :
      Except (Fault ε) Bool) = .ok true := by
    cases latest with
    | none => rfl
    | some lastSeen =>
        have following := follows lastSeen rfl
        have positive : (1 : UInt32) ≤ first.leafIndex := by
          rw [UInt32.le_iff_toNat_le, consecutive.1, ← following]
          exact Nat.succ_pos _
        have previous : lastSeen = first.leafIndex - 1 := by
          apply UInt32.toNat_inj.mp
          rw [UInt32.toNat_sub_of_le _ _ positive, consecutive.1, ← following]
          rfl
        unfold continuesLatest hasDesiredMessage
        rw [checkedSub, if_pos positive]
        simp only [bind, Except.bind, previous, if_true]
        rfl
  unfold validContinuation
  rw [if_neg (by simp), continues, containsGap_of_consecutive consecutive]
  rfl

/-- Messages whose indices count up are consecutive. -/
theorem consecutive_of_forall_getElem
    {next : Nat}
    {messages : List RawCommittedMessage}
    (positions : ∀ position, ∀ inside : position < messages.length,
      messages[position].leafIndex.toNat = next + position) :
    AbacusDB.Consecutive next messages := by
  induction messages generalizing next with
  | nil => trivial
  | cons message rest inductionHypothesis =>
      refine ⟨positions 0 (by simp), inductionHypothesis ?_⟩
      intro position inside
      have shifted := positions (position + 1) (by simpa using inside)
      rw [List.getElem_cons_succ] at shifted
      omega

/-! ## Windows of a complete provider -/

/-- The responses of a provider are exactly the messages dispatched in the
requested windows, in order. -/
def OutboxChain.Complete (chain : OutboxChain) (poll : Poll) : Prop :=
  ∀ fromBlock toBlock response,
    poll.fetchSortedMessages fromBlock toBlock = .ok response →
      response = chain.window fromBlock toBlock

/-- A complete provider is faithful. -/
theorem OutboxChain.Complete.faithful
    {chain : OutboxChain}
    {poll : Poll}
    (complete : chain.Complete poll) :
    chain.Faithful poll := by
  intro fromBlock toBlock response answer
  rw [complete fromBlock toBlock response answer]

/-- The messages below a block are those below an index. -/
structure Below (chain : OutboxChain) (block : UInt32) (next : Nat) :
    Prop where
  most : next ≤ chain.dispatched.length
  positions : ∀ position, ∀ inside : position < chain.dispatched.length,
    chain.dispatched[position].1 < block ↔ position < next

variable {chain : OutboxChain}

/-- Messages above the latest index are those from the next one on. -/
theorem all_lt_iff_of_storedThrough
    {db : AbacusDB}
    {next : Nat}
    (stored : AbacusDB.StoredThrough db next)
    (index : UInt32) :
    (db .latestLeafIndex).all (fun minIndex => decide (minIndex < index)) =
        true ↔
      next ≤ index.toNat := by
  rcases Nat.eq_zero_or_pos next with rfl | some
  · rw [stored.latest_none rfl]
    exact iff_of_true rfl (Nat.zero_le _)
  · obtain ⟨latest, known, last⟩ := stored.latest_some some
    rw [known, Option.all_some, decide_eq_true_iff, UInt32.lt_iff_toNat_lt]
    omega

/-- What is left of a window after the filter. -/
theorem filterStored_window
    (latest : Option UInt32)
    (fromBlock toBlock : UInt32) :
    filterStored latest (chain.window fromBlock toBlock) =
      (chain.dispatched.filter fun sent =>
        latest.all (fun minIndex => decide (minIndex < sent.2.leafIndex)) &&
          (decide (fromBlock ≤ sent.1) && decide (sent.1 ≤ toBlock))).map
        Prod.snd := by
  cases latest with
  | none => simp [filterStored, OutboxChain.window]
  | some minIndex =>
      rw [filterStored, OutboxChain.window, List.filter_map,
        List.filter_filter]
      rfl

/-- What is left of a complete window are the messages that are not stored and
not above the window. -/
theorem filterStored_window_eq
    {db : AbacusDB}
    {next upper : Nat}
    {fromBlock fullChunkFrom toBlock : UInt32}
    (stored : AbacusDB.StoredThrough db next)
    (reached : Below chain fromBlock next)
    (full : fullChunkFrom ≤ fromBlock)
    (bounded : ∀ position, ∀ inside : position < chain.dispatched.length,
      chain.dispatched[position].1 ≤ toBlock ↔ position < upper) :
    filterStored (db .latestLeafIndex)
        (chain.window fullChunkFrom toBlock) =
      (chain.messages.take upper).drop next := by
  rw [filterStored_window, OutboxChain.messages, ← List.map_take,
    ← List.map_drop]
  congr 1
  apply Positions.filter_eq_drop_take
  intro position inside
  rw [Bool.and_eq_true, Bool.and_eq_true, decide_eq_true_iff,
    decide_eq_true_iff, all_lt_iff_of_storedThrough stored,
    chain.leafIndex_eq position inside, bounded position inside]
  constructor
  · rintro ⟨new, -, low⟩
    exact ⟨new, low⟩
  · rintro ⟨new, low⟩
    refine ⟨new, UInt32.le_trans full ?_, low⟩
    rw [← UInt32.not_lt, reached.positions position inside]
    omega

/-- The messages of a segment are consecutive. -/
theorem consecutive_drop_take
    (chain : OutboxChain)
    (next upper : Nat) :
    AbacusDB.Consecutive next ((chain.messages.take upper).drop next) := by
  apply consecutive_of_forall_getElem
  intro position inside
  have within : next + position < chain.dispatched.length := by
    simp [OutboxChain.messages] at inside
    omega
  rw [List.getElem_drop, List.getElem_take]
  simp only [OutboxChain.messages, List.getElem_map]
  exact chain.leafIndex_eq _ within

/-- A fetched window of a complete provider, with the number of messages that
are not above it. -/
structure CompleteWindow (chain : OutboxChain) (state : SyncState)
    (fetched : Fetched) (next upper : Nat) : Prop where
  messages : fetched.sortedMessages =
    chain.window fetched.fullChunkFrom fetched.toBlock
  full : fetched.fullChunkFrom ≤ state.fromBlock
  least : next ≤ upper
  most : upper ≤ chain.dispatched.length
  positions : ∀ position, ∀ inside : position < chain.dispatched.length,
    chain.dispatched[position].1 ≤ fetched.toBlock ↔ position < upper

/-- Every window that is fetched from a complete provider is complete. -/
theorem exists_completeWindow
    (sorted : chain.Sorted)
    {chunkSize : UInt32}
    {poll : Poll}
    (complete : chain.Complete poll)
    {state : SyncState}
    {fetched : Fetched}
    (fetches : fetchWindow chunkSize poll state = .ok (some fetched))
    {next : Nat}
    (reached : Below chain state.fromBlock next) :
    ∃ upper, CompleteWindow chain state fetched next upper := by
  obtain ⟨forward, full, answer⟩ := of_fetchWindow_eq_some fetches
  have downward : chain.dispatched.Pairwise fun earlier later =>
      later.1 ≤ fetched.toBlock → earlier.1 ≤ fetched.toBlock :=
    List.Pairwise.imp (fun order low => UInt32.le_trans order low) sorted
  obtain ⟨upper, most, positions⟩ := Positions.exists_position_iff downward
  refine ⟨upper, complete _ _ _ answer, full, ?_, most, positions⟩
  by_contra above
  rw [Nat.not_le] at above
  have inside : upper < chain.dispatched.length :=
    Nat.lt_of_lt_of_le above reached.most
  have low := (reached.positions upper inside).mpr above
  have past := (positions upper inside).mp
    (UInt32.le_trans (UInt32.le_of_lt low) forward)
  exact Nat.lt_irrefl _ past

/-- What is left of a complete window is empty or a valid continuation. -/
theorem CompleteWindow.valid
    {state : SyncState}
    {fetched : Fetched}
    {db : AbacusDB}
    {next upper : Nat}
    (window : CompleteWindow chain state fetched next upper)
    (reached : Below chain state.fromBlock next)
    (stored : AbacusDB.StoredThrough db next) :
    filterStored (db .latestLeafIndex) fetched.sortedMessages = [] ∨
      (validContinuation (db .latestLeafIndex)
        (filterStored (db .latestLeafIndex) fetched.sortedMessages) :
          Except (Fault Report) ListValidity) = .ok .valid := by
  rw [window.messages,
    filterStored_window_eq stored reached window.full window.positions]
  have consecutive := consecutive_drop_take chain next upper
  cases left : (chain.messages.take upper).drop next with
  | nil => exact .inl rfl
  | cons first rest =>
      rw [left] at consecutive
      refine .inr (validContinuation_of_consecutive consecutive ?_)
      intro lastSeen known
      rcases Nat.eq_zero_or_pos next with rfl | some
      · rw [stored.latest_none rfl] at known
        cases known
      · obtain ⟨latest, record, last⟩ := stored.latest_some some
        rw [record] at known
        cases known
        exact last

/-- What is left of a complete window: the messages that are not stored yet,
consecutive, up to the end of the window. -/
theorem CompleteWindow.left
    {state : SyncState}
    {fetched : Fetched}
    {db : AbacusDB}
    {next upper : Nat}
    (window : CompleteWindow chain state fetched next upper)
    (reached : Below chain state.fromBlock next)
    (stored : AbacusDB.StoredThrough db next) :
    next + (filterStored (db .latestLeafIndex)
        fetched.sortedMessages).length = upper ∧
      AbacusDB.Consecutive next
        (filterStored (db .latestLeafIndex) fetched.sortedMessages) ∧
      ∀ message ∈ filterStored (db .latestLeafIndex) fetched.sortedMessages,
        chain.messageAt message.leafIndex = some message := by
  have segment := filterStored_window_eq stored reached window.full
    window.positions
  rw [← window.messages] at segment
  refine ⟨?_, ?_, fun message member => ?_⟩
  · have most := window.most
    have least := window.least
    rw [segment]
    simp only [OutboxChain.messages, List.length_drop, List.length_take,
      List.length_map]
    omega
  · rw [segment]
    exact consecutive_drop_take chain next upper
  · have inside := mem_of_mem_filterStored member
    rw [window.messages] at inside
    exact OutboxChain.messageAt_of_mem_window inside

/-- Behind a complete window, the messages below the start are those that
were not above the window. -/
theorem CompleteWindow.below
    {state after : SyncState}
    {fetched : Fetched}
    {next upper : Nat}
    (window : CompleteWindow chain state fetched next upper)
    (moved : after.fromBlock.toNat = fetched.toBlock.toNat + 1) :
    Below chain after.fromBlock upper := by
  refine ⟨window.most, fun position inside => ?_⟩
  rw [← window.positions position inside, UInt32.lt_iff_toNat_lt,
    UInt32.le_iff_toNat_le, moved, Nat.lt_succ_iff]

/-- Below the first message there is none. -/
theorem below_zero
    (sorted : chain.Sorted)
    {block : UInt32}
    (least : ∀ first, chain.blockAt 0 = some first → block ≤ first) :
    Below chain block 0 := by
  refine ⟨Nat.zero_le _, fun position inside =>
    iff_of_false (UInt32.not_lt.mpr ?_) (Nat.not_lt_zero _)⟩
  have nonempty : 0 < chain.dispatched.length := by omega
  have first : chain.blockAt 0 = some chain.dispatched[0].1 := by
    simp [OutboxChain.blockAt, List.getElem?_eq_getElem nonempty]
  refine UInt32.le_trans (least _ first) ?_
  rcases Nat.eq_zero_or_pos position with rfl | later
  · exact UInt32.le_refl _
  · exact List.pairwise_iff_getElem.mp sorted 0 position nonempty inside later

/-- A message below the block stands below the index. -/
theorem Below.lt_of_blockAt
    {block dispatchedIn : UInt32}
    {next : Nat}
    (upTo : Below chain block next)
    {index : UInt32}
    (dispatched : chain.blockAt index = some dispatchedIn)
    (low : dispatchedIn < block) :
    index.toNat < next := by
  obtain ⟨sent, found, rfl⟩ := Option.map_eq_some_iff.mp dispatched
  obtain ⟨inside, rfl⟩ := List.getElem?_eq_some_iff.mp found
  exact (upTo.positions _ inside).mp low

section Iteration

variable [Crypto]

/-- The messages of the chain below an index are stored. -/
def StoredBelow (chain : OutboxChain) (db : AbacusDB) (next : Nat) : Prop :=
  AbacusDB.StoredThrough db next ∧ HoldsBelow chain db next

/-- Storing the next message of the chain. -/
theorem triple_storeBatchMessage
    (distinct : (chain.messages.map RawCommittedMessage.leaf).Nodup)
    {message : RawCommittedMessage}
    (sent : chain.messageAt message.leafIndex = some message) :
    Program.Triple
      (fun db => StoredBelow chain db message.leafIndex.toNat)
      (AbacusDB.storeBatchMessage message)
      (fun _ db => StoredBelow chain db (message.leafIndex.toNat + 1))
      fun _ => True := by
  rintro db ⟨stored, holds⟩
  cases parses : AbacusMessage.parse message.message with
  | error error =>
      simp only [Program.result,
        AbacusDB.run_storeBatchMessage_error parses stored.positive]
  | ok parsed =>
      simp only [Program.result, Program.final, Program.journal,
        AbacusDB.run_storeBatchMessage parses stored.positive]
      exact ⟨stored.next parsed.destination,
        holds.next distinct sent parsed.destination⟩

/-- Storing the next messages of the chain, if all of them parse. -/
theorem triple_storeMessages
    (distinct : (chain.messages.map RawCommittedMessage.leaf).Nodup)
    {next : Nat}
    {messages : List RawCommittedMessage}
    (sent : ∀ message ∈ messages,
      chain.messageAt message.leafIndex = some message)
    (consecutive : AbacusDB.Consecutive next messages)
    (latest : UInt32) :
    Program.Triple (fun db => StoredBelow chain db next)
      (messages.foldlM
        (fun _ message => AbacusDB.storeBatchMessage message) latest :
          DbM UInt32)
      (fun _ db => StoredBelow chain db (next + messages.length))
      fun _ => True := by
  induction messages generalizing next latest with
  | nil => exact Program.Triple.pure fun _ stored => stored
  | cons message rest inductionHypothesis =>
      obtain ⟨rfl, later⟩ := consecutive
      rw [List.foldlM_cons, List.length_cons, Nat.add_comm rest.length,
        ← Nat.add_assoc]
      exact (triple_storeBatchMessage distinct (sent message (by simp))).bind
        fun index => inductionHypothesis
          (fun other member => sent other (List.mem_cons_of_mem _ member))
          later index

/-- Only the leaves, the bodies and the latest index matter. -/
theorem StoredBelow.congr
    {first second : AbacusDB}
    {next : Nat}
    (stored : StoredBelow chain first next)
    (latest : second .latestLeafIndex = first .latestLeafIndex)
    (leaves : ∀ index, second (.leaf index) = first (.leaf index))
    (bodies : ∀ hash, second (.message hash) = first (.message hash)) :
    StoredBelow chain second next := by
  refine ⟨stored.1.congr latest leaves bodies, fun index below => ?_⟩
  obtain ⟨message, sent, leaf, body⟩ := stored.2 index below
  exact ⟨message, sent, (leaves index).trans leaf,
    (bodies message.leaf).trans body⟩

/-- Moving past a window leaves the stored messages alone. -/
theorem triple_nextBlock_storedBelow (toBlock : UInt32) (next : Nat) :
    Program.Triple (fun db => StoredBelow chain db next) (nextBlock toBlock)
      (fun block db => StoredBelow chain db next ∧
        block.toNat = toBlock.toNat + 1) fun _ => True := by
  refine Program.Triple.lift (fun value added db stored => ⟨stored, ?_⟩)
    fun _ _ => trivial
  have succ := triple_nextBlock_succ toBlock db trivial
  simp only [nextBlock, Program.result, Program.run_lift, added] at succ
  exact succ

/-- Storing a segment of the chain and moving past its window. -/
theorem triple_storeWindow_complete
    (distinct : (chain.messages.map RawCommittedMessage.leaf).Nodup)
    (fetched : Fetched)
    {next : Nat}
    {messages : List RawCommittedMessage}
    (sent : ∀ message ∈ messages,
      chain.messageAt message.leafIndex = some message)
    (consecutive : AbacusDB.Consecutive next messages) :
    Program.Triple (fun db => StoredBelow chain db next)
      (storeWindow fetched messages)
      (fun after db => StoredBelow chain db (next + messages.length) ∧
        after.fromBlock.toNat = fetched.toBlock.toNat + 1)
      fun _ => True := by
  refine Program.Triple.bind
    (triple_storeMessages distinct sent consecutive 0) fun _ => ?_
  have persist : Program.Triple
      (fun db => StoredBelow chain db (next + messages.length))
      (AbacusDB.storeLatestValidMessageRangeStartBlock fetched.fullChunkFrom)
      (fun _ db => StoredBelow chain db (next + messages.length))
      fun _ => True :=
    Program.Triple.put fun db stored =>
      stored.congr (Journal.Put.apply_of_ne (by simp) db)
        (fun _ => Journal.Put.apply_of_ne (by simp) db)
        (fun _ => Journal.Put.apply_of_ne (by simp) db)
  refine persist.bind fun _ => ?_
  exact (triple_nextBlock_storedBelow fetched.toBlock _).bind fun block =>
    Program.Triple.pure fun _ stored => stored

/-- Processing a complete window stores its messages. -/
theorem triple_processWindow_complete
    (distinct : (chain.messages.map RawCommittedMessage.leaf).Nodup)
    {state : SyncState}
    {fetched : Fetched}
    {next upper : Nat}
    (window : CompleteWindow chain state fetched next upper)
    (reached : Below chain state.fromBlock next) :
    Program.Triple (fun db => StoredBelow chain db next)
      (processWindow fetched state)
      (fun after db => StoredBelow chain db upper ∧
        after.fromBlock.toNat = fetched.toBlock.toNat + 1)
      fun _ => True := by
  have read : Program.Triple (fun db => StoredBelow chain db next)
      AbacusDB.retrieveLatestLeafIndex
      (fun latest db => latest = db .latestLeafIndex ∧
        StoredBelow chain db next)
      fun _ => True :=
    Program.Triple.get fun _ stored => ⟨rfl, stored⟩
  refine read.bind fun latest => ?_
  rintro db ⟨rfl, stored⟩
  obtain ⟨length, consecutive, sent⟩ := window.left reached stored.1
  have valid := window.valid reached stored.1
  simp only
  generalize filterStored (db .latestLeafIndex) fetched.sortedMessages =
    messages at length consecutive sent valid ⊢
  generalize db .latestLeafIndex = latest at valid ⊢
  refine (?_ : Program.Triple (fun db => StoredBelow chain db next) _
    (fun (after : SyncState) db => StoredBelow chain db upper ∧
      after.fromBlock.toNat = fetched.toBlock.toNat + 1)
    fun _ => True) db stored
  split
  · rename_i empty
    rw [List.isEmpty_iff] at empty
    subst empty
    rw [List.length_nil, Nat.add_zero] at length
    subst length
    exact (triple_nextBlock_storedBelow fetched.toBlock next).bind
      fun block => Program.Triple.pure fun _ moved => moved
  · rename_i some
    rw [List.isEmpty_iff] at some
    have continuation := valid.resolve_left some
    refine Program.Triple.bind
      (Program.Triple.lift
        (fun validity validated db stored =>
          And.intro (Except.ok.inj (continuation.symm.trans validated)) stored)
        fun _ _ => trivial) fun validity => ?_
    rintro after ⟨rfl, stored⟩
    rw [← length]
    exact triple_storeWindow_complete distinct fetched sent consecutive after
      stored

/-- The messages below the start of the loop are stored. -/
def CompleteBelow (chain : OutboxChain) (state : SyncState)
    (db : AbacusDB) : Prop :=
  ∃ next, StoredBelow chain db next ∧ Below chain state.fromBlock next

/-- One iteration against a complete provider. -/
theorem triple_syncIteration_complete
    (distinct : (chain.messages.map RawCommittedMessage.leaf).Nodup)
    (sorted : chain.Sorted)
    {poll : Poll}
    (complete : chain.Complete poll)
    (chunkSize : UInt32)
    (state : SyncState) :
    Program.Triple (CompleteBelow chain state)
      (syncIteration chunkSize poll state) (CompleteBelow chain)
      fun _ => True := by
  refine Program.Triple.bind
    (Program.Triple.lift (fun _ fetches _ held => And.intro fetches held)
      fun _ _ => trivial) fun window => ?_
  cases window with
  | none => exact Program.Triple.pure fun _ held => held.2
  | some fetched =>
      rintro db ⟨fetches, next, stored, reached⟩
      obtain ⟨upper, window⟩ :=
        exists_completeWindow sorted complete fetches reached
      have processed : Program.Triple (fun db => StoredBelow chain db next)
          (processWindow fetched state) (CompleteBelow chain) fun _ => True :=
        Program.Triple.conseq
          (triple_processWindow_complete distinct window reached)
          (fun after _ held => ⟨upper, held.1, window.below held.2⟩)
          fun _ held => held
      exact processed db stored

/-- At the start no message is below the loop. -/
theorem completeBelow_start
    (sorted : chain.Sorted)
    {configFrom : UInt32}
    (below : ∀ block, chain.blockAt 0 = some block → configFrom ≤ block)
    (state : SyncState)
    (head : (Indexer.start configFrom Journal.empty).loop = .ok state) :
    CompleteBelow chain state
      (Indexer.start configFrom Journal.empty).db := by
  cases head
  exact ⟨0, ⟨AbacusDB.storedThrough_empty, fun _ contrary => by omega⟩,
    below_zero sorted below⟩

/-- One iteration of the indexer against a complete provider. -/
theorem completeBelow_step
    (distinct : (chain.messages.map RawCommittedMessage.leaf).Nodup)
    (sorted : chain.Sorted)
    {chunkSize : UInt32}
    {indexer : Indexer}
    {poll : Poll}
    (complete : chain.Complete poll)
    (held : ∀ state, indexer.loop = .ok state →
      CompleteBelow chain state indexer.db)
    (after : SyncState)
    (head : (indexer.step chunkSize poll).loop = .ok after) :
    CompleteBelow chain after (indexer.step chunkSize poll).db := by
  cases running : indexer.loop with
  | error fault =>
      rw [Indexer.step, running] at head
      exact absurd (running.symm.trans head) (by simp)
  | ok state =>
      simp only [Indexer.step, running] at head ⊢
      have iterated := triple_syncIteration_complete distinct sorted complete
        chunkSize state indexer.db (held state running)
      rw [head] at iterated
      exact iterated

/-- In every run from the empty database against a complete provider, at every
loop head all messages dispatched below the start of the loop are stored and
found, and what is left of a window that is fetched next is empty or a valid
continuation. -/
theorem run_indexer_complete
    (distinct : (chain.messages.map RawCommittedMessage.leaf).Nodup)
    (sorted : chain.Sorted)
    (configFrom chunkSize : UInt32)
    (below : ∀ block, chain.blockAt 0 = some block → configFrom ≤ block)
    (polls : List Poll)
    (complete : ∀ poll ∈ polls, chain.Complete poll)
    (state : SyncState)
    (head : (Machine.run (Indexer.step chunkSize)
      (Indexer.start configFrom Journal.empty) polls).loop = .ok state) :
    (∀ index block, chain.blockAt index = some block →
      block < state.fromBlock →
        ∃ message, chain.messageAt index = some message ∧
          (AbacusDB.messageByLeafIndex index).result
              (Machine.run (Indexer.step chunkSize)
                (Indexer.start configFrom Journal.empty) polls).db =
            .ok (some message)) ∧
      ∀ poll fetched latest, chain.Complete poll →
        fetchWindow chunkSize poll state = .ok (some fetched) →
          AbacusDB.retrieveLatestLeafIndex.result
              (Machine.run (Indexer.step chunkSize)
                (Indexer.start configFrom Journal.empty) polls).db =
            .ok latest →
            filterStored latest fetched.sortedMessages = [] ∨
              (validContinuation latest
                (filterStored latest fetched.sortedMessages) :
                  Except (Fault Report) ListValidity) = .ok .valid := by
  have reached := Machine.invariant_run (Indexer.step chunkSize)
    (fun indexer => ∀ state, indexer.loop = .ok state →
      CompleteBelow chain state indexer.db)
    (fun _ _ complete held =>
      completeBelow_step distinct sorted complete held)
    (completeBelow_start sorted below)
    (Machine.admissibleRun_of_forall _ _ complete)
  obtain ⟨next, stored, upTo⟩ := reached state head
  generalize Machine.run (Indexer.step chunkSize)
    (Indexer.start configFrom Journal.empty) polls = indexer at stored ⊢
  refine ⟨fun index block dispatched low => ?_, ?_⟩
  · obtain ⟨message, sent, leaf, body⟩ :=
      stored.2 index (upTo.lt_of_blockAt dispatched low)
    refine ⟨message, sent, ?_⟩
    rw [Program.result, AbacusDB.run_messageByLeafIndex, leaf,
      Option.bind_some, body]
  · intro poll fetched latest complete fetches known
    simp only [Program.result, AbacusDB.retrieveLatestLeafIndex,
      AbacusDB.run_retrieve, Except.ok.injEq] at known
    subst known
    obtain ⟨upper, window⟩ :=
      exists_completeWindow sorted complete fetches upTo
    exact window.valid upTo stored.1

end Iteration

/-- A provider that returns every message is complete. -/
theorem OutboxChain.complete_pollFrom_zero (chain : OutboxChain) :
    chain.Complete (chain.pollFrom 0) := by
  intro fromBlock toBlock response answer
  cases answer
  rw [List.filter_eq_self]
  intro message _
  exact decide_eq_true UInt32.zero_le

/-- Behind the window up to block `10`, the second message of block `5` is
found. -/
theorem run_indexer_complete_pair :
    ∃ message, OutboxChain.pair.messageAt 1 = some message ∧
      (AbacusDB.messageByLeafIndex 1).result
          (Machine.run (@Indexer.step .transparent 10)
            (Indexer.start 0 Journal.empty)
            [OutboxChain.pair.pollFrom 0]).db =
        .ok (some message) :=
  (@run_indexer_complete OutboxChain.pair .transparent (by decide) (by
      unfold OutboxChain.Sorted; decide) 0 10
    (fun _ _ => UInt32.zero_le) [OutboxChain.pair.pollFrom 0]
    (by simpa using OutboxChain.pair.complete_pollFrom_zero) ⟨11, 0⟩
    (by decide)).1 1 5 (by decide) (by decide)

end Abacus
