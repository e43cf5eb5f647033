import Abacus.Ethereum.Finality
import Abacus.Relayer.RelayerDelivery

/-!
# The relayer on a chain that is reorganized

Whatever the relayer stores and submits belongs to the chain of the outbox as
it is at any later time, as long as no reorganization is deeper than the number
of blocks that the indexer waits for.
-/

namespace Abacus

namespace Relayer

section Reorganizations

variable [Crypto]

/-- The event with a poll that is asked for final blocks only. -/
def Event.upToFinal : Event → Event
  | .pollOutbox poll => .pollOutbox poll.upToFinal
  | event => event

/-- The relayer asks for final blocks only. -/
theorem step_upToFinal (relayer : Relayer) (event : Event) :
    relayer.step event.upToFinal = relayer.step event := by
  cases event with
  | pollOutbox poll =>
      have same : syncIteration relayer.conf.indexer.chunkSize
          poll.upToFinal =
        syncIteration relayer.conf.indexer.chunkSize poll :=
        funext (syncIteration_upToFinal _ poll)
      rw [Event.upToFinal, step, step, same]
  | _ => rfl

/-- A run is the same if final blocks are asked for only. -/
theorem run_upToFinal (relayer : Relayer) (events : List Event) :
    Machine.run step relayer (events.map Event.upToFinal) =
      Machine.run step relayer events := by
  induction events generalizing relayer with
  | nil => rfl
  | cons event events inductionHypothesis =>
      rw [List.map_cons, Machine.run_cons, Machine.run_cons, step_upToFinal,
        inductionHypothesis]

/-- The answers to the outbox loop come from chains that evolve to another one,
and the other events are admissible. -/
def Settles (blockAsU32 : UInt64 → Except (Fault Report) UInt32)
    (asU32 : U256 → Except (Fault Report) UInt32) (last : EthereumChain) :
    Event → Prop
  | .pollOutbox poll => AnsweredOn blockAsU32 asU32 last poll
  | event => Admissible last.outbox event

variable {blockAsU32 : UInt64 → Except (Fault Report) UInt32}
variable {asU32 : U256 → Except (Fault Report) UInt32}
variable {last : EthereumChain}

/-- With final blocks only, such events are admissible on the other chain. -/
theorem Settles.admissible
    (convertsU64 : ConvertsU64 blockAsU32)
    (convertsU256 : ConvertsU256 asU32)
    {event : Event}
    (settles : Settles blockAsU32 asU32 last event) :
    Admissible last.outbox event.upToFinal := by
  cases event with
  | pollOutbox poll =>
      exact (AnsweredOn.complete convertsU64 convertsU256 settles).faithful
  | _ => exact settles

/-- The same checkpoints are published. -/
theorem Publishes.of_upToFinal
    {relayer : Relayer}
    {event : Event}
    {checkpoint : MultisigSignedCheckpoint}
    (publishes : relayer.Publishes event.upToFinal checkpoint) :
    relayer.Publishes event checkpoint := by
  cases event with
  | pollOutbox poll => cases publishes
  | _ => exact publishes

/-- The same checkpoints were published in a run. -/
theorem Fetches.of_upToFinal
    {relayer : Relayer}
    {events : List Event}
    {checkpoint : MultisigSignedCheckpoint}
    (fetches : Fetches relayer (events.map Event.upToFinal) checkpoint) :
    Fetches relayer events checkpoint := by
  obtain ⟨before, event, after, split, publishes⟩ := fetches
  obtain ⟨first, rest, rfl, rfl, others⟩ := List.map_eq_append_iff.mp split
  obtain ⟨original, later, rfl, rfl, rfl⟩ := List.map_eq_cons_iff.mp others
  rw [run_upToFinal] at publishes
  exact ⟨first, original, later, rfl, publishes.of_upToFinal⟩

/-- The same messages are justified. -/
theorem Justified.of_upToFinal
    {chain : OutboxChain}
    {relayer : Relayer}
    {events : List Event}
    {number : Nat}
    {msg : SubmitMessageArgs}
    (justified : Justified chain relayer (events.map Event.upToFinal) number
      msg) :
    Justified chain relayer events number msg := by
  have destined := justified.destined
  have whitelisted := justified.whitelisted
  have unlisted := justified.unlisted
  rw [run_upToFinal] at destined whitelisted unlisted
  exact { justified with
    destined := destined
    whitelisted := whitelisted
    unlisted := unlisted
    fetched := justified.fetched.of_upToFinal }

/-- In every run of all tasks whose outbox answers come from chains that evolve
to a last one, every stored message is dispatched on the last one, and whatever
is submitted is justified by it. -/
theorem attempts_justified_on_last
    (convertsU64 : ConvertsU64 blockAsU32)
    (convertsU256 : ConvertsU256 asU32)
    (distinct : last.outbox.Distinct)
    (conf : RelayerConf)
    (relayer : Relayer)
    (started : start conf Journal.empty = .ok relayer)
    (events : List Event)
    (settles : ∀ event ∈ events, Settles blockAsU32 asU32 last event) :
    (∀ leaf message,
      (Machine.run step relayer events).db (.message leaf) = some message →
        last.outbox.messageAt message.leafIndex = some message ∧
          message.leaf = leaf) ∧
      ∀ number answers msg,
        (Machine.run step relayer events).Attempts number answers msg →
          Justified last.outbox relayer events number msg := by
  have admissible : ∀ event ∈ events.map Event.upToFinal,
      Admissible last.outbox event := by
    intro event member
    obtain ⟨original, listed, rfl⟩ := List.mem_map.mp member
    exact (settles original listed).admissible convertsU64 convertsU256
  have invariant := invariant_of_started distinct started admissible
  rw [← run_upToFinal]
  exact ⟨fun leaf message stored => of_stored_message invariant.fills stored,
    fun number answers msg attempts =>
      (invariant.justified attempts.1).of_upToFinal⟩

end Reorganizations

/-! ## A reorganization -/

/-- The numbers that fit are converted. -/
def sampleAsU32 (value : Nat) : Except (Fault Report) UInt32 :=
  if value < 2 ^ 32 then .ok (UInt32.ofNat value)
  else .error (.panic .overflow)

theorem convertsU64_sample :
    ConvertsU64 fun value => sampleAsU32 value.toNat :=
  ⟨fun _ fits => if_pos fits,
    fun _ large => ⟨_, if_neg (Nat.not_lt.mpr large)⟩⟩

theorem convertsU256_sample :
    ConvertsU256 fun value => sampleAsU32 value.toNat :=
  ⟨fun _ fits => if_pos fits,
    fun _ large => ⟨_, if_neg (Nat.not_lt.mpr large)⟩⟩

/-- Two messages of block `1`, and a third one in the last block. -/
def forkedChain : EthereumChain where
  blocks := [[], [(AbacusDB.shortestMessage 0).message,
    (AbacusDB.shortestMessage 1).message], [[1, 2, 3]]]
  numbered := by decide
  counted := by decide

/-- The last block is replaced by two empty ones. -/
def sampleChain : EthereumChain where
  blocks := [[], [(AbacusDB.shortestMessage 0).message,
    (AbacusDB.shortestMessage 1).message], [], []]
  numbered := by decide
  counted := by decide

/-- An indexer that waits for one block; its provider lists the last events
first. -/
def forkedIndexer : EthereumOutboxIndexer where
  finalityBlocks := 1
  getBlockNumber := .ok 2
  query fromBlock toBlock :=
    .ok ((forkedChain.outbox.window fromBlock toBlock).map
      EthereumOutboxIndexer.eventOf).reverse

/-- What the indexer answers. -/
def forkedPoll : Poll where
  finalizedBlockNumber := .ok 1
  fetchSortedMessages fromBlock toBlock :=
    .ok (forkedChain.outbox.window fromBlock toBlock)

theorem answeredOn_forkedPoll :
    AnsweredOn (fun value => sampleAsU32 value.toNat)
      (fun value => sampleAsU32 value.toNat) sampleChain forkedPoll := by
  refine ⟨forkedIndexer, forkedChain, forkedChain, ⟨?_, ?_⟩, ⟨rfl, ?_⟩,
    .refl, .single ?_⟩
  · rintro number ⟨⟩
    rfl
  · rintro fromBlock toBlock events ⟨⟩
    exact List.reverse_perm _
  · intro fromBlock toBlock
    exact EthereumOutboxIndexer.fetchSortedMessages_eq convertsU256_sample
      (forkedChain.ascending_window fromBlock toBlock)
      (List.reverse_perm _) rfl
  · exact @Settling.Replaces.intro _ 1
      [[], [(AbacusDB.shortestMessage 0).message,
        (AbacusDB.shortestMessage 1).message]] [[[1, 2, 3]]] [[], []]
      (by decide) (by decide) (by decide)

/-- The messages are synced before the reorganization, and the first one is
sent. -/
def forkedEvents : List Event :=
  .pollOutbox forkedPoll ::
    (List.replicate 12 .writeOutbox ++ fetchingEvents 8)

/-- The message that is submitted first is dispatched on the last chain. -/
theorem attempts_justified_on_last_forked :
    ∃ msg,
      @Attempts .transparent
        (Machine.run (@step .transparent) sampleRelayer forkedEvents) 0
        SerialSubmitter.revertedAnswers msg ∧
      @Justified .transparent sampleChain.outbox sampleRelayer forkedEvents 0
        msg := by
  obtain ⟨msg, handled⟩ : ∃ msg,
      (Machine.run (@step .transparent) sampleRelayer forkedEvents).handled 0
        SerialSubmitter.revertedAnswers = some msg :=
    Option.isSome_iff_exists.mp (by decide +kernel)
  have settles : ∀ event ∈ forkedEvents,
      @Settles .transparent (fun value => sampleAsU32 value.toNat)
        (fun value => sampleAsU32 value.toNat) sampleChain event := by
    intro event member
    rcases List.mem_cons.mp member with rfl | later
    · exact answeredOn_forkedPoll
    · rcases List.mem_append.mp later with repeated | fetching
      · rw [List.eq_of_mem_replicate repeated]
        trivial
      · exact @forall_mem_fetchingEvents (@Settles .transparent
          (fun value => sampleAsU32 value.toNat)
          (fun value => sampleAsU32 value.toNat) sampleChain)
          admissible_fetch_sampleSyncer trivial 8 event fetching
  have distinct : @OutboxChain.Distinct .transparent sampleChain.outbox := by
    unfold OutboxChain.Distinct
    decide
  exact ⟨msg, ⟨handled, rfl⟩,
    (@attempts_justified_on_last .transparent _ _ _ convertsU64_sample
      convertsU256_sample distinct sampleConf sampleRelayer rfl
      forkedEvents settles).2 0 SerialSubmitter.revertedAnswers msg
      ⟨handled, rfl⟩⟩

end Relayer

end Abacus
