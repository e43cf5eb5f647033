import Abacus.Ethereum.OutboxIndexer
import Abacus.Library.Settling

/-!
# Final blocks

The chain of the outbox is reorganized: its last blocks are replaced by at
least as many new ones. The indexer only asks for blocks that are as many
blocks behind the last one as the setting says, and as long as no
reorganization is deeper, their messages stay for good.
-/

namespace Abacus

open Settling (Evolves settled)

/-! ## Chains of blocks -/

/-- A block, with the messages that are dispatched in it, in order. -/
abbrev Block := List (List UInt8)

/-- The messages that are dispatched in some blocks, each with the number of
its block, from the number of the first block and the index of the first
message on. -/
def dispatchedFrom (number index : Nat) :
    List Block → List (UInt32 × RawCommittedMessage)
  | [] => []
  | block :: rest =>
      ((block.zipIdx index).map fun sent =>
        (UInt32.ofNat number,
          { leafIndex := UInt32.ofNat sent.2, message := sent.1 })) ++
        dispatchedFrom (number + 1) (index + block.length) rest

theorem dispatchedFrom_append
    (number index : Nat)
    (first second : List Block) :
    dispatchedFrom number index (first ++ second) =
      dispatchedFrom number index first ++
        dispatchedFrom (number + first.length)
          (index + first.flatten.length) second := by
  induction first generalizing number index with
  | nil => rfl
  | cons block rest inductionHypothesis =>
      rw [List.cons_append, dispatchedFrom, dispatchedFrom,
        inductionHypothesis, List.append_assoc, List.flatten_cons,
        List.length_cons, List.length_append, Nat.add_assoc number,
        Nat.add_comm 1, Nat.add_assoc index]

/-- The block numbers of dispatched messages are those of the blocks. -/
theorem number_of_mem_dispatchedFrom
    {number index : Nat}
    {blocks : List Block}
    (fits : number + blocks.length ≤ 2 ^ 32)
    {sent : UInt32 × RawCommittedMessage}
    (member : sent ∈ dispatchedFrom number index blocks) :
    number ≤ sent.1.toNat := by
  induction blocks generalizing number index with
  | nil => cases member
  | cons block rest inductionHypothesis =>
      rw [List.length_cons] at fits
      rcases List.mem_append.mp member with here | later
      · obtain ⟨entry, -, rfl⟩ := List.mem_map.mp here
        simp only [UInt32.toNat_ofNat']
        rw [Nat.mod_eq_of_lt (by omega)]
      · have bound := inductionHypothesis (by omega) later
        omega

/-- The messages of blocks are counted in order. -/
theorem leafIndex_dispatchedFrom
    {number index : Nat}
    {blocks : List Block}
    (fits : index + blocks.flatten.length ≤ 2 ^ 32)
    {position : Nat}
    {sent : UInt32 × RawCommittedMessage}
    (found : (dispatchedFrom number index blocks)[position]? = some sent) :
    sent.2.leafIndex.toNat = index + position := by
  induction blocks generalizing number index position with
  | nil => simp [dispatchedFrom] at found
  | cons block rest inductionHypothesis =>
      rw [List.flatten_cons, List.length_append] at fits
      rw [dispatchedFrom] at found
      by_cases here : position < block.length
      · rw [List.getElem?_append_left (by simpa using here)] at found
        simp only [List.getElem?_map, List.getElem?_zipIdx,
          Option.map_eq_some_iff] at found
        obtain ⟨entry, ⟨message, -, rfl⟩, rfl⟩ := found
        simp only [UInt32.toNat_ofNat']
        rw [Nat.mod_eq_of_lt (by omega)]
      · rw [List.getElem?_append_right (by simpa using here)] at found
        have counted := inductionHypothesis (by omega) found
        simp only [List.length_map, List.length_zipIdx] at counted
        omega

/-- A chain whose blocks and messages are counted in 32 bits. -/
structure EthereumChain where
  blocks : List Block
  numbered : blocks.length ≤ 2 ^ 32
  counted : blocks.flatten.length ≤ 2 ^ 32

namespace EthereumChain

/-- The messages that are dispatched on a chain. -/
def outbox (chain : EthereumChain) : OutboxChain where
  dispatched := dispatchedFrom 0 0 chain.blocks
  leafIndex_eq position inside := by
    have counted := @leafIndex_dispatchedFrom 0 0 chain.blocks
      (by simpa using chain.counted) position _
      (List.getElem?_eq_getElem inside)
    rwa [Nat.zero_add] at counted

/-- The blocks of the messages are in order. -/
theorem sorted_outbox (chain : EthereumChain) : chain.outbox.Sorted := by
  have sorted {number index : Nat} {blocks : List Block}
      (fits : number + blocks.length ≤ 2 ^ 32) :
      (dispatchedFrom number index blocks).Pairwise fun earlier later =>
        earlier.1 ≤ later.1 := by
    induction blocks generalizing number index with
    | nil => exact .nil
    | cons block rest inductionHypothesis =>
        rw [List.length_cons] at fits
        refine List.pairwise_append.mpr
          ⟨?_, inductionHypothesis (by omega), ?_⟩
        · rw [List.pairwise_map]
          exact List.pairwise_of_forall fun _ _ => UInt32.le_refl _
        · intro earlier here later member
          obtain ⟨entry, -, rfl⟩ := List.mem_map.mp here
          have above := number_of_mem_dispatchedFrom (by omega) member
          rw [UInt32.le_iff_toNat_le, UInt32.toNat_ofNat']
          rw [Nat.mod_eq_of_lt (by omega)]
          omega
  exact sorted (by simpa using chain.numbered)

/-- The messages of a window have ascending leaf indices. -/
theorem ascending_window (chain : EthereumChain) (fromBlock toBlock : UInt32) :
    (chain.outbox.window fromBlock toBlock).Pairwise fun first second =>
      first.leafIndex < second.leafIndex := by
  unfold OutboxChain.window
  rw [List.pairwise_map]
  refine List.Pairwise.filter _ ?_
  rw [List.pairwise_iff_getElem]
  intro first second firstInside secondInside less
  rw [UInt32.lt_iff_toNat_lt, chain.outbox.leafIndex_eq first firstInside,
    chain.outbox.leafIndex_eq second secondInside]
  exact less

/-- A window that ends within the first blocks has messages of these blocks
only. -/
theorem window_eq
    {chain : EthereumChain}
    {kept rest : List Block}
    (split : chain.blocks = kept ++ rest)
    {toBlock : UInt32}
    (inside : toBlock.toNat < kept.length)
    (fromBlock : UInt32) :
    chain.outbox.window fromBlock toBlock =
      ((dispatchedFrom 0 0 kept).filter fun sent =>
        decide (fromBlock ≤ sent.1) &&
          decide (sent.1 ≤ toBlock)).map Prod.snd := by
  have fits := chain.numbered
  rw [split, List.length_append] at fits
  unfold OutboxChain.window outbox
  simp only
  rw [split, dispatchedFrom_append, List.filter_append]
  have none : (dispatchedFrom (0 + kept.length) (0 + kept.flatten.length)
      rest).filter (fun sent => decide (fromBlock ≤ sent.1) &&
        decide (sent.1 ≤ toBlock)) = [] := by
    rw [List.filter_eq_nil_iff]
    intro sent member
    have above := number_of_mem_dispatchedFrom (by omega) member
    simp only [Bool.and_eq_true, decide_eq_true_eq, not_and]
    intro _ below
    rw [UInt32.le_iff_toNat_le] at below
    omega
  rw [none, List.append_nil]

end EthereumChain

/-! ## Final windows -/

/-- A poll that is asked for final blocks only. -/
def Poll.upToFinal (poll : Poll) : Poll where
  finalizedBlockNumber := poll.finalizedBlockNumber
  fetchSortedMessages fromBlock toBlock :=
    match poll.finalizedBlockNumber with
    | .ok tip =>
        if toBlock ≤ tip then poll.fetchSortedMessages fromBlock toBlock
        else .error .backend
    | .error error => .error error

/-- The loop asks for final blocks only. -/
theorem fetchWindow_upToFinal
    (chunkSize : UInt32)
    (poll : Poll)
    (state : SyncState) :
    fetchWindow chunkSize poll.upToFinal state =
      fetchWindow chunkSize poll state := by
  unfold fetchWindow Poll.upToFinal
  cases finalized : poll.finalizedBlockNumber with
  | error error => rfl
  | ok tip =>
      simp only
      split
      · rfl
      · refine bind_congr fun chunkEnd => ?_
        have below : (if tip ≤ chunkEnd then tip else chunkEnd) ≤ tip := by
          split
          · exact UInt32.le_refl _
          · rename_i later
            exact UInt32.le_of_lt (UInt32.not_le.mp later)
        rw [if_pos below]

/-- An iteration asks for final blocks only. -/
theorem syncIteration_upToFinal
    [Crypto]
    (chunkSize : UInt32)
    (poll : Poll)
    (state : SyncState) :
    syncIteration chunkSize poll.upToFinal state =
      syncIteration chunkSize poll state := by
  rw [syncIteration, syncIteration, fetchWindow_upToFinal]

/-! ## Reorganizations -/

namespace EthereumOutboxIndexer

/-- The provider of the indexer answers from one chain when it is asked for the
number of the last block, and from another one when it is asked for events,
which it may list in any order. Either answer may fail. -/
structure AnsweredBy (indexer : EthereumOutboxIndexer)
    (atNumber atQuery : EthereumChain) : Prop where
  number : ∀ number, indexer.getBlockNumber = .ok number →
    number.toNat + 1 = atNumber.blocks.length
  events : ∀ fromBlock toBlock events,
    indexer.query fromBlock toBlock = .ok events →
      events.Perm ((atQuery.outbox.window fromBlock toBlock).map eventOf)

variable {blockAsU32 : UInt64 → Except (Fault Report) UInt32}
variable {asU32 : U256 → Except (Fault Report) UInt32}
variable {indexer : EthereumOutboxIndexer}
variable {poll : Poll}
variable {atNumber atQuery last : EthereumChain}

/-- The blocks up to the final one are settled. -/
theorem lt_length_settled
    (convertsU64 : ConvertsU64 blockAsU32)
    (answered : indexer.AnsweredBy atNumber atQuery)
    (answers : indexer.Answers blockAsU32 asU32 poll)
    {tip : UInt32}
    (finalized : poll.finalizedBlockNumber = .ok tip) :
    tip.toNat < (settled indexer.finalityBlocks.toNat
      atNumber.blocks).length := by
  have reads := answers.finalizedBlockNumber
  rw [finalized, getFinalizedBlockNumber] at reads
  cases numbered : indexer.getBlockNumber with
  | error error =>
      rw [numbered] at reads
      cases reads
  | ok number =>
      have tipNumber := answered.number number numbered
      have bound := atNumber.numbered
      have fits : number.toNat < 2 ^ 32 := by omega
      rw [numbered] at reads
      simp only [Except.mapError, bind, Except.bind,
        convertsU64.fits number fits] at reads
      have nonempty : atNumber.blocks ≠ [] := by
        intro empty
        rw [empty] at tipNumber
        cases tipNumber
      rw [Settling.length_settled nonempty]
      have same := Except.ok.inj reads
      rw [← same]
      split
      · rename_i deep
        rw [UInt32.toNat_sub_of_le _ _ deep, UInt32.toNat_ofNat',
          Nat.mod_eq_of_lt fits]
        omega
      · simp

/-- Against a chain that is reorganized less deeply than the setting says, a
final window of the provider is that of every later chain. -/
theorem complete_upToFinal
    (convertsU64 : ConvertsU64 blockAsU32)
    (convertsU256 : ConvertsU256 asU32)
    (answered : indexer.AnsweredBy atNumber atQuery)
    (answers : indexer.Answers blockAsU32 asU32 poll)
    (before : Evolves indexer.finalityBlocks.toNat atNumber.blocks
      atQuery.blocks)
    (after : Evolves indexer.finalityBlocks.toNat atQuery.blocks
      last.blocks) :
    last.outbox.Complete poll.upToFinal := by
  intro fromBlock toBlock response answer
  unfold Poll.upToFinal at answer
  cases finalized : poll.finalizedBlockNumber with
  | error error => simp [finalized] at answer
  | ok tip =>
      simp only [finalized] at answer
      split at answer
      · rename_i final
        have inside := lt_length_settled convertsU64 answered answers finalized
        rw [UInt32.le_iff_toNat_le] at final
        obtain ⟨-, queried, -, atQuerySplit⟩ := before.exists_settled
        obtain ⟨-, later, -, lastSplit⟩ :=
          Evolves.exists_settled (before.trans after)
        have same : atQuery.outbox.window fromBlock toBlock =
            last.outbox.window fromBlock toBlock := by
          rw [EthereumChain.window_eq atQuerySplit (by omega),
            EthereumChain.window_eq lastSplit (by omega)]
        have reads := answers.fetchSortedMessages fromBlock toBlock
        rw [answer] at reads
        cases queries : indexer.query fromBlock toBlock with
        | error error =>
            rw [fetchSortedMessages, queries] at reads
            cases reads
        | ok events =>
            rw [fetchSortedMessages_eq convertsU256
              (atQuery.ascending_window fromBlock toBlock)
              (answered.events _ _ _ queries) queries] at reads
            rw [← same]
            exact (Except.ok.inj reads).symm
      · cases answer

end EthereumOutboxIndexer

/-- A poll that an indexer answers, from chains that evolve to another one
without a reorganization that is deeper than its setting. -/
def AnsweredOn (blockAsU32 : UInt64 → Except (Fault Report) UInt32)
    (asU32 : U256 → Except (Fault Report) UInt32) (last : EthereumChain)
    (poll : Poll) : Prop :=
  ∃ indexer : EthereumOutboxIndexer, ∃ atNumber atQuery,
    indexer.AnsweredBy atNumber atQuery ∧
      indexer.Answers blockAsU32 asU32 poll ∧
        Evolves indexer.finalityBlocks.toNat atNumber.blocks
            atQuery.blocks ∧
          Evolves indexer.finalityBlocks.toNat atQuery.blocks last.blocks

/-- On final blocks, such a poll is complete. -/
theorem AnsweredOn.complete
    {blockAsU32 : UInt64 → Except (Fault Report) UInt32}
    {asU32 : U256 → Except (Fault Report) UInt32}
    (convertsU64 : ConvertsU64 blockAsU32)
    (convertsU256 : ConvertsU256 asU32)
    {last : EthereumChain}
    {poll : Poll}
    (answered : AnsweredOn blockAsU32 asU32 last poll) :
    last.outbox.Complete poll.upToFinal := by
  obtain ⟨indexer, atNumber, atQuery, answeredBy, answers, before,
    after⟩ := answered
  exact EthereumOutboxIndexer.complete_upToFinal convertsU64 convertsU256
    answeredBy answers before after

end Abacus
