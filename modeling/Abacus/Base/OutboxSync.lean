import Abacus.Db.Crash
import Abacus.Library.Machine

/-!
# The outbox message indexer

The loop that fetches dispatched messages in windows of blocks and stores them
while they continue the stored ones. One iteration is a program over the
database; a run feeds the loop with the answers of the provider.
-/

namespace Abacus

open Journal (Program)

/-- How a list of messages relates to the latest stored one. -/
inductive ListValidity
  | empty
  | invalidContinuation
  | containsGaps
  | valid
  deriving DecidableEq

/-- Whether some message directly follows an index. The search stops at the
first one. -/
def hasDesiredMessage (lastSeen : UInt32) :
    List RawCommittedMessage → Except (Fault ε) Bool
  | [] => .ok false
  | message :: rest => do
      let previous ← checkedSub message.leafIndex 1
      if lastSeen = previous then return true
      else hasDesiredMessage lastSeen rest

/-- Whether the messages contain the one after the latest, if there is a
latest one. -/
def continuesLatest (latest : Option UInt32)
    (sortedMessages : List RawCommittedMessage) : Except (Fault ε) Bool :=
  match latest with
  | some lastSeen => hasDesiredMessage lastSeen sortedMessages
  | none => .ok true

/-- Whether two neighbours have indices that are not consecutive. -/
def containsGap : List RawCommittedMessage → Except (Fault ε) Bool
  | first :: second :: rest => do
      let previous ← checkedSub second.leafIndex 1
      if first.leafIndex ≠ previous then return true
      else containsGap (second :: rest)
  | _ => .ok false

/-- Check if sorted messages are a valid continuation of an optional latest
leaf index. -/
def validContinuation (latest : Option UInt32)
    (sortedMessages : List RawCommittedMessage) :
    Except (Fault ε) ListValidity :=
  if sortedMessages.isEmpty then .ok .empty
  else do
    if !(← continuesLatest latest sortedMessages) then
      return .invalidContinuation
    else if ← containsGap sortedMessages then return .containsGaps
    else return .valid

/-- The variables of the loop. -/
structure SyncState where
  fromBlock : UInt32
  lastValidRangeStartBlock : UInt32
  deriving DecidableEq

/-- What the provider answers in one iteration: the number of the latest
finalized block, and the messages of a window. -/
structure Poll where
  finalizedBlockNumber : Except Report UInt32
  fetchSortedMessages :
    UInt32 → UInt32 → Except Report (List RawCommittedMessage)

/-- The fetched window: its bounds and its messages. -/
structure Fetched where
  fullChunkFrom : UInt32
  toBlock : UInt32
  sortedMessages : List RawCommittedMessage
  deriving DecidableEq

/-- The first half of an iteration, up to the fetch. There is no window when
the block number is missing or not above the start. -/
def fetchWindow (chunkSize : UInt32) (poll : Poll) (state : SyncState) :
    Except (Fault Report) (Option Fetched) :=
  match poll.finalizedBlockNumber with
  | .error _ => .ok none
  | .ok tip =>
      if tip ≤ state.fromBlock then .ok none
      else do
        let chunkEnd ← checkedAdd state.fromBlock chunkSize
        let toBlock := if tip ≤ chunkEnd then tip else chunkEnd
        let fullChunkFrom :=
          if chunkSize ≤ toBlock then toBlock - chunkSize else 0
        let sortedMessages ←
          (poll.fetchSortedMessages fullChunkFrom toBlock).mapError Fault.error
        return some ⟨fullChunkFrom, toBlock, sortedMessages⟩

/-- The messages above the latest stored one. -/
def filterStored (latest : Option UInt32)
    (sortedMessages : List RawCommittedMessage) : List RawCommittedMessage :=
  match latest with
  | some minIndex =>
      sortedMessages.filter fun message => minIndex < message.leafIndex
  | none => sortedMessages

/-- The start of the block after a window. -/
def nextBlock (toBlock : UInt32) : DbM UInt32 :=
  Program.lift (checkedAdd toBlock 1)

/-- Store a valid continuation and move on to the next block. -/
def storeWindow [Crypto] (fetched : Fetched)
    (sortedMessages : List RawCommittedMessage) : DbM SyncState := do
  let _ ← AbacusDB.storeMessages sortedMessages
  AbacusDB.storeLatestValidMessageRangeStartBlock fetched.fullChunkFrom
  let next ← nextBlock fetched.toBlock
  return {
    fromBlock := next
    lastValidRangeStartBlock := fetched.fullChunkFrom }

/-- The second half of an iteration: filter, validate and store. -/
def processWindow [Crypto] (fetched : Fetched) (state : SyncState) :
    DbM SyncState := do
  let lastLeafIndex ← AbacusDB.retrieveLatestLeafIndex
  let sortedMessages := filterStored lastLeafIndex fetched.sortedMessages
  if sortedMessages.isEmpty then do
    let next ← nextBlock fetched.toBlock
    return { state with fromBlock := next }
  else do
    match ← (Program.lift (validContinuation lastLeafIndex sortedMessages) :
      DbM ListValidity) with
    | .valid => storeWindow fetched sortedMessages
    | .invalidContinuation =>
        return { state with fromBlock := state.lastValidRangeStartBlock }
    | .containsGaps => return state
    | .empty => Program.fail (.panic .emptyContinuation)

/-- One iteration of the loop. -/
def syncIteration [Crypto] (chunkSize : UInt32) (poll : Poll)
    (state : SyncState) : DbM SyncState := do
  match ← (Program.lift (fetchWindow chunkSize poll state) :
    DbM (Option Fetched)) with
  | none => return state
  | some fetched => processWindow fetched state

/-- The indexer: its database, and its loop variables or the reason why the
loop has ended. -/
structure Indexer where
  db : AbacusDB
  loop : Except (Fault Report) SyncState

/-- The indexer at the head of its loop. -/
def Indexer.start (configFrom : UInt32) (db : AbacusDB) : Indexer where
  db := db
  loop :=
    let fromBlock :=
      (db .latestValidMessageRangeStartBlock).getD configFrom
    .ok { fromBlock := fromBlock, lastValidRangeStartBlock := fromBlock }

/-- One iteration of the indexer, unless its loop has ended. -/
def Indexer.step [Crypto] (chunkSize : UInt32) (indexer : Indexer)
    (poll : Poll) : Indexer :=
  match indexer.loop with
  | .error _ => indexer
  | .ok state => {
      db := (syncIteration chunkSize poll state).final indexer.db
      loop := (syncIteration chunkSize poll state).result indexer.db }

/-! ## Windows -/

/-- A window of blocks up to a tip or the end of a chunk does not end before
the block it is searched from, and its full chunk does not start behind it. -/
theorem window_bounds
    {fromBlock chunkSize chunkEnd tip : UInt32}
    (added : (checkedAdd fromBlock chunkSize : Except (Fault ε) UInt32) =
      .ok chunkEnd)
    (behind : fromBlock < tip) :
    fromBlock ≤ (if tip ≤ chunkEnd then tip else chunkEnd) ∧
      (if chunkSize ≤ (if tip ≤ chunkEnd then tip else chunkEnd) then
        (if tip ≤ chunkEnd then tip else chunkEnd) - chunkSize
      else 0) ≤ fromBlock := by
  have chunk := toNat_of_checkedAdd added
  rw [UInt32.lt_iff_toNat_lt] at behind
  have bounds : ∀ toBlock : UInt32, fromBlock.toNat ≤ toBlock.toNat →
      toBlock.toNat ≤ chunkEnd.toNat →
        fromBlock ≤ toBlock ∧
          (if chunkSize ≤ toBlock then toBlock - chunkSize else 0) ≤
            fromBlock := by
    intro toBlock low high
    refine ⟨UInt32.le_iff_toNat_le.mpr low, ?_⟩
    split
    · rename_i full
      rw [UInt32.le_iff_toNat_le, UInt32.toNat_sub_of_le _ _ full]
      omega
    · exact UInt32.zero_le
  by_cases capped : tip ≤ chunkEnd
  · simp only [capped, if_true]
    rw [UInt32.le_iff_toNat_le] at capped
    exact bounds tip (by omega) capped
  · simp only [capped, if_false]
    exact bounds chunkEnd (by omega) le_rfl

/-- What a fetched window is. -/
theorem of_fetchWindow_eq_some
    {chunkSize : UInt32}
    {poll : Poll}
    {state : SyncState}
    {fetched : Fetched}
    (fetches : fetchWindow chunkSize poll state = .ok (some fetched)) :
    state.fromBlock ≤ fetched.toBlock ∧
      fetched.fullChunkFrom ≤ state.fromBlock ∧
      poll.fetchSortedMessages fetched.fullChunkFrom fetched.toBlock =
        .ok fetched.sortedMessages := by
  unfold fetchWindow at fetches
  split at fetches
  · cases fetches
  · rename_i tip finalized
    split at fetches
    · cases fetches
    · rename_i behind
      obtain ⟨chunkEnd, added, fetches⟩ := exists_of_bind_eq_ok fetches
      obtain ⟨response, answered, fetches⟩ := exists_of_bind_eq_ok fetches
      have bounds := window_bounds added (UInt32.not_le.mp behind)
      cases fetches
      refine ⟨bounds.1, bounds.2, ?_⟩
      generalize poll.fetchSortedMessages _ _ = outcome at answered ⊢
      cases outcome with
      | error error => cases answered
      | ok messages =>
          cases answered
          rfl

/-! ## Valid continuations -/

/-- Messages without a gap have consecutive indices. -/
theorem consecutive_of_containsGap
    {first : RawCommittedMessage}
    {rest : List RawCommittedMessage}
    (none : (containsGap (first :: rest) : Except (Fault ε) Bool) =
      .ok false) :
    AbacusDB.Consecutive first.leafIndex.toNat (first :: rest) := by
  induction rest generalizing first with
  | nil => exact ⟨rfl, trivial⟩
  | cons second rest inductionHypothesis =>
      refine ⟨rfl, ?_⟩
      unfold containsGap at none
      cases subtracted :
          (checkedSub second.leafIndex 1 : Except (Fault ε) UInt32) with
      | error fault => simp [subtracted, bind, Except.bind] at none
      | ok previous =>
          simp only [subtracted, bind, Except.bind] at none
          split at none
          · cases none
          · rename_i same
            rw [not_not] at same
            have following := toNat_of_checkedSub subtracted
            rw [← same] at following
            have consecutive := inductionHypothesis none
            rwa [following] at consecutive

/-- The desired message has the index after the last seen one. -/
theorem exists_of_hasDesiredMessage
    {lastSeen : UInt32}
    {messages : List RawCommittedMessage}
    (desired : (hasDesiredMessage lastSeen messages :
      Except (Fault ε) Bool) = .ok true) :
    ∃ message ∈ messages,
      message.leafIndex.toNat = lastSeen.toNat + 1 := by
  induction messages with
  | nil => cases desired
  | cons message rest inductionHypothesis =>
      unfold hasDesiredMessage at desired
      cases subtracted :
          (checkedSub message.leafIndex 1 : Except (Fault ε) UInt32) with
      | error fault => simp [subtracted, bind, Except.bind] at desired
      | ok previous =>
          simp only [subtracted, bind, Except.bind] at desired
          split at desired
          · rename_i same
            have following := toNat_of_checkedSub subtracted
            exact ⟨message, by simp, by rw [same, following]; rfl⟩
          · obtain ⟨other, member, following⟩ := inductionHypothesis desired
            exact ⟨other, List.mem_cons_of_mem _ member, following⟩

/-- The messages above the latest one are still messages of the response. -/
theorem mem_of_mem_filterStored
    {latest : Option UInt32}
    {messages : List RawCommittedMessage}
    {message : RawCommittedMessage}
    (member : message ∈ filterStored latest messages) :
    message ∈ messages := by
  cases latest with
  | none => exact member
  | some minIndex => exact List.mem_of_mem_filter member

/-- What a valid continuation is. -/
theorem of_validContinuation_eq_valid
    {latest : Option UInt32}
    {sortedMessages : List RawCommittedMessage}
    (validated : (validContinuation latest sortedMessages :
      Except (Fault ε) ListValidity) = .ok .valid) :
    ∃ first rest, sortedMessages = first :: rest ∧
      AbacusDB.Consecutive first.leafIndex.toNat sortedMessages ∧
      ∀ lastSeen, latest = some lastSeen →
        ∃ message ∈ sortedMessages,
          message.leafIndex.toNat = lastSeen.toNat + 1 := by
  unfold validContinuation at validated
  cases sortedMessages with
  | nil => cases validated
  | cons first rest =>
      rw [if_neg (by simp)] at validated
      obtain ⟨desired, searched, validated⟩ := exists_of_bind_eq_ok validated
      cases desired with
      | false => cases validated
      | true =>
          rw [if_neg (by simp)] at validated
          obtain ⟨gap, checked, validated⟩ := exists_of_bind_eq_ok validated
          cases gap with
          | true => cases validated
          | false =>
              refine ⟨first, rest, rfl, consecutive_of_containsGap checked, ?_⟩
              rintro lastSeen rfl
              exact exists_of_hasDesiredMessage searched

/-- A batch that is a valid continuation starts with the first message that is
not stored, if the first batch of all starts with the first message. -/
theorem consecutive_of_validContinuation
    {db : AbacusDB}
    {next : Nat}
    {sortedMessages : List RawCommittedMessage}
    (stored : AbacusDB.StoredThrough db next)
    (validated : (validContinuation (db .latestLeafIndex)
        (filterStored (db .latestLeafIndex) sortedMessages) :
      Except (Fault ε) ListValidity) = .ok .valid)
    (grounded : db .latestLeafIndex = none →
      ∀ first ∈ sortedMessages.head?, first.leafIndex = 0) :
    AbacusDB.Consecutive next
      (filterStored (db .latestLeafIndex) sortedMessages) := by
  obtain ⟨first, rest, split, consecutive, desired⟩ :=
    of_validContinuation_eq_valid validated
  have starts : first.leafIndex.toNat = next := by
    rcases Nat.eq_zero_or_pos next with none | some
    · have unknown := stored.latest_none none
      rw [unknown, filterStored] at split
      rw [grounded unknown first (by rw [split]; rfl), none]
      rfl
    · obtain ⟨latest, known, last⟩ := stored.latest_some some
      obtain ⟨message, member, following⟩ := desired latest known
      have below := AbacusDB.le_of_mem_of_consecutive consecutive member
      have above : latest < first.leafIndex := by
        have inside : first ∈
            filterStored (db .latestLeafIndex) sortedMessages := by
          rw [split]
          simp
        rw [known, filterStored] at inside
        exact of_decide_eq_true (List.mem_filter.mp inside).2
      rw [UInt32.lt_iff_toNat_lt] at above
      omega
  rwa [starts] at consecutive

end Abacus
