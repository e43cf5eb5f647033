import Abacus.Relayer.Pipeline

/-!
# Every sent proof is for the root of its checkpoint

The fetcher publishes indices above its latest one, so the checkpoints on the
channel increase and none has index zero. With the steps of the processor this
gives an invariant of all interleavings.
-/

namespace Abacus

namespace Pipeline

open Relay (Absent keeps_of_absent)

section Invariant

variable [Crypto]

/-! ## Admissible events of the code -/

/-- A put that stores no message, or stores it under its own leaf. -/
def KeyedPut (put : DbPut) : Prop :=
  ∀ (leaf : H256) (raw : RawCommittedMessage),
    put = ⟨.message leaf, raw⟩ → raw.leaf = leaf

theorem WellKeyed.apply
    {db : AbacusDB}
    {put : DbPut}
    (wellKeyed : WellKeyed db)
    (keyed : KeyedPut put) :
    WellKeyed (put.apply db) := by
  intro leaf raw stored
  obtain ⟨key, value⟩ := put
  by_cases same : Record.message leaf = key
  · subst same
    rw [Journal.Put.apply_mk_self] at stored
    cases stored
    exact keyed leaf _ rfl
  · rw [Journal.Put.apply_of_ne same] at stored
    exact wellKeyed leaf raw stored

/-- Storing a message puts it under its own leaf. -/
theorem keyedPut_of_mem_messagePuts
    {db : AbacusDB}
    {message : RawCommittedMessage}
    {destination : UInt32}
    {put : DbPut}
    (member : put ∈ AbacusDB.messagePuts db message destination) :
    KeyedPut put := by
  rintro leaf raw rfl
  have listed := (AbacusDB.messagePuts_sublist db message
    destination).subset member
  simp only [List.mem_cons, List.not_mem_nil, or_false] at listed
  rcases listed with same | same | same | same <;> cases same
  rfl

/-- Puts to different records, none of them a stored leaf or message, can be
made one after the other. -/
theorem admissibleRun_puts
    {pipeline : Pipeline}
    {puts : List DbPut}
    (wellKeyed : WellKeyed pipeline.relay.db)
    (keyed : ∀ put ∈ puts, KeyedPut put)
    (absent : ∀ put ∈ puts, Absent pipeline.relay.db put)
    (different : puts.Pairwise fun left right => left.key ≠ right.key) :
    Machine.AdmissibleRun step Admissible pipeline (puts.map .put) := by
  induction puts generalizing pipeline with
  | nil => trivial
  | cons put puts inductionHypothesis =>
      have stillKeyed := wellKeyed.apply (keyed put (List.mem_cons_self ..))
      have keeps := keeps_of_absent (absent put (List.mem_cons_self ..))
      obtain ⟨fromFirst, amongRest⟩ := List.pairwise_cons.mp different
      refine ⟨⟨keeps, stillKeyed⟩, inductionHypothesis stillKeyed ?_ ?_
        amongRest⟩
      · exact fun later member => keyed later (List.mem_cons_of_mem _ member)
      · exact fun later member =>
          (absent later (List.mem_cons_of_mem _ member)).apply
            (fromFirst later member)

/-- The indexer can store a message that is not stored yet. -/
theorem admissibleRun_messagePuts
    {pipeline : Pipeline}
    {message : RawCommittedMessage}
    (wellKeyed : WellKeyed pipeline.relay.db)
    (leafAbsent : pipeline.relay.db (.leaf message.leafIndex) = none)
    (bodyAbsent : pipeline.relay.db (.message message.leaf) = none)
    (destination : UInt32) :
    Machine.AdmissibleRun step Admissible pipeline
      ((AbacusDB.messagePuts pipeline.relay.db message destination).map
        .put) := by
  have sublist := AbacusDB.messagePuts_sublist pipeline.relay.db message
    destination
  refine admissibleRun_puts wellKeyed
    (fun put => keyedPut_of_mem_messagePuts) ?_ ?_
  · intro put member
    constructor
    · intro index same
      have listed := sublist.subset member
      simp only [List.mem_cons, List.not_mem_nil, or_false] at listed
      rcases listed with rfl | rfl | rfl | rfl <;> cases same
      exact leafAbsent
    · intro hash same
      have listed := sublist.subset member
      simp only [List.mem_cons, List.not_mem_nil, or_false] at listed
      rcases listed with rfl | rfl | rfl | rfl <;> cases same
      exact bodyAbsent
  · refine List.Pairwise.sublist sublist ?_
    simp

/-! ## The invariant of both tasks -/

/-- What holds between any two events. -/
structure Invariant (pipeline : Pipeline) : Prop where
  wellKeyed : WellKeyed pipeline.relay.db
  synced : Synced pipeline.relay.db pipeline.relay.ckpt
    pipeline.relay.processor
  positive : ∀ newest, pipeline.relay.ckpt = some newest →
    0 < newest.checkpoint.index.toNat
  bounded : ∀ newest, pipeline.relay.ckpt = some newest →
    newest.checkpoint.index.toNat ≤ 2 ^ 32 - 2
  latest : ∀ fetcher newest, pipeline.fetcher = some fetcher →
    pipeline.relay.ckpt = some newest →
    newest.checkpoint.index ≤ fetcher.latestSignedCheckpointIndex
  verified : ∀ args ∈ pipeline.relay.txMsg, Verified args

/-- Before any event nothing is published or sent. -/
theorem invariant_new
    {localDomain : UInt32}
    {whitelist blacklist : MatchingList}
    {processor : MessageProcessor}
    (created : MessageProcessor.new localDomain whitelist blacklist =
      .ok processor)
    {db : AbacusDB}
    (wellKeyed : WellKeyed db) :
    Invariant (new db processor) := by
  have fresh := MessageProcessor.fresh_of_new created
  refine ⟨wellKeyed, ⟨⟨[], fresh.proverSync, Nat.zero_le _, ?_⟩, ?_, ?_⟩,
    ?_, ?_, ?_, ?_⟩
  · intro index leaf nothing
    cases nothing
  · intro message carrying
    rw [new, Relay.new, fresh.phase_eq] at carrying
    cases carrying
  · simp only [PhaseInvariant, new, Relay.new, fresh.phase_eq]
    exact .inl (MerkleTreeBuilder.toNat_count fresh.proverSync
      (Nat.two_pow_pos 32))
  · intro newest nothing
    cases nothing
  · intro newest nothing
    cases nothing
  · intro fetcher newest _ nothing
    cases nothing
  · intro args member
    cases member

/-- A published checkpoint that is above the latest index of the fetcher keeps
the invariant. -/
theorem invariant_publish
    {relay : Relay}
    {fetcher after : CheckpointFetcher}
    {checkpoint : MultisigSignedCheckpoint}
    (invariant : Invariant ⟨some fetcher, relay⟩)
    (above : fetcher.latestSignedCheckpointIndex <
      checkpoint.checkpoint.index)
    (bounded : checkpoint.checkpoint.index.toNat ≤ 2 ^ 32 - 2)
    (latest : after.latestSignedCheckpointIndex =
      checkpoint.checkpoint.index) :
    Invariant ⟨some after, { relay with ckpt := some checkpoint }⟩ := by
  have newer : ∀ newest, relay.ckpt = some newest →
      newest.checkpoint.index < checkpoint.checkpoint.index := by
    intro newest seen
    exact UInt32.lt_of_le_of_lt
      (invariant.latest fetcher newest rfl seen) above
  refine ⟨invariant.wellKeyed, ⟨invariant.synced.leaves,
    invariant.synced.carries, invariant.synced.phase.publish newer⟩,
    ?_, ?_, ?_, invariant.verified⟩
  · rintro newest ⟨⟩
    exact Nat.lt_of_le_of_lt (Nat.zero_le _)
      (UInt32.lt_iff_toNat_lt.mp above)
  · rintro newest ⟨⟩
    exact bounded
  · rintro other newest ⟨⟩ ⟨⟩
    rw [latest]
    exact UInt32.le_refl _

/-- An iteration of the fetcher keeps the invariant. -/
theorem invariant_fetch
    {relay : Relay}
    {fetcher : CheckpointFetcher}
    {answers : FetcherAnswers}
    (invariant : Invariant ⟨some fetcher, relay⟩)
    (fetched : ∀ index checkpoint,
      answers.fetchCheckpoint index = .ok (some checkpoint) →
        checkpoint.checkpoint.index = index ∧ index.toNat ≤ 2 ^ 32 - 2) :
    Invariant (fetch answers fetcher relay) := by
  unfold fetch
  split
  · exact {
      wellKeyed := invariant.wellKeyed
      synced := invariant.synced
      positive := invariant.positive
      bounded := invariant.bounded
      latest := fun _ _ nothing => nomatch nothing
      verified := invariant.verified }
  · rename_i after iterated
    rcases CheckpointFetcher.iteration_cases iterated with
      ⟨rfl, -⟩ | ⟨requested, checkpoint, sent, -⟩
    · exact invariant
    · cases sent
  · rename_i after checkpoint iterated
    rcases CheckpointFetcher.iteration_cases iterated with
      ⟨-, nothing⟩ | ⟨requested, other, sent, -, above, answer, latest⟩
    · cases nothing
    · cases sent
      obtain ⟨index, bounded⟩ := fetched requested checkpoint answer
      rw [← index] at above bounded
      rw [Relay.step]
      split
      · refine { invariant with latest := ?_ }
        rintro next newest ⟨⟩ seen
        rw [latest]
        exact UInt32.le_of_lt (UInt32.lt_of_le_of_lt
          (invariant.latest fetcher newest rfl seen) above)
      · exact invariant_publish invariant above bounded latest

/-- Every admissible event keeps the invariant. -/
theorem invariant_step
    {pipeline : Pipeline}
    {event : Event}
    (admissible : Admissible pipeline event)
    (invariant : Invariant pipeline) :
    Invariant (pipeline.step event) := by
  cases event with
  | fetch latestIndex fetchCheckpoint =>
      obtain ⟨fetcher, relay⟩ := pipeline
      cases fetcher with
      | none => exact invariant
      | some fetcher => exact invariant_fetch invariant admissible
  | processor dbFails =>
      have transition := MessageProcessor.transition_step
        (pipeline.relay.around dbFails) pipeline.relay.processor
      obtain ⟨synced, verified⟩ := synced_transition transition
        invariant.wellKeyed invariant.positive invariant.bounded
        invariant.synced
      refine { invariant with synced := synced, verified := ?_ }
      intro args member
      rcases List.mem_append.mp member with earlier | sent
      · exact invariant.verified args earlier
      · exact verified args (Option.mem_toList.mp sent)
  | put put =>
      obtain ⟨keeps, wellKeyed⟩ := admissible
      obtain ⟨leaves, held, fits, stored⟩ := invariant.synced.leaves
      refine { invariant with wellKeyed := wellKeyed, synced := ?_ }
      refine ⟨⟨leaves, held, fits, ?_⟩, ?_, invariant.synced.phase⟩
      · exact fun index leaf inside => keeps.leaf (stored index leaf inside)
      · exact fun message carrying =>
          (invariant.synced.carries message carrying).keeps keeps
  | closeSubmitter => exact { invariant with }

/-- The invariant holds after every admissible run of both tasks. -/
theorem invariant_run
    {localDomain : UInt32}
    {whitelist blacklist : MatchingList}
    {processor : MessageProcessor}
    (created : MessageProcessor.new localDomain whitelist blacklist =
      .ok processor)
    {db : AbacusDB}
    (wellKeyed : WellKeyed db)
    {events : List Event}
    (admissible : Machine.AdmissibleRun step Admissible (new db processor)
      events) :
    Invariant (Machine.run step (new db processor) events) :=
  Machine.invariant_run step Invariant (fun _ _ => invariant_step)
    (invariant_new created wellKeyed) admissible

/-- In every interleaving of a fetcher and a processor, on a database that
only grows: the processor panics at most on moving past the last `u32`, so
none of its assertions fails, and whatever it sends carries a proof of its
message at its index for the root of its checkpoint, which covers the
index. -/
theorem sent_verified
    {localDomain : UInt32}
    {whitelist blacklist : MatchingList}
    {processor : MessageProcessor}
    (created : MessageProcessor.new localDomain whitelist blacklist =
      .ok processor)
    {db : AbacusDB}
    (wellKeyed : WellKeyed db)
    (events : List Event)
    (admissible : Machine.AdmissibleRun step Admissible (new db processor)
      events) :
    (∀ reason,
      (Machine.run step (new db processor) events).relay.processor.phase =
          .panicked reason →
        reason = .overflow ∧
          (Machine.run step (new db processor)
            events).relay.processor.messageLeafIndex.toNat = 2 ^ 32 - 1) ∧
      ∀ args ∈ (Machine.run step (new db processor) events).relay.txMsg,
        args.leafIndex ≤ args.checkpoint.checkpoint.index ∧
          args.proof.index = args.leafIndex.toNat ∧
          args.proof.leaf = args.committedMessage.toLeaf ∧
          merkleRootFromBranch args.proof.leaf args.proof.path 32
              args.proof.index =
            .ok args.checkpoint.checkpoint.root := by
  have invariant := invariant_run created wellKeyed admissible
  constructor
  · intro reason panicked
    have phase := invariant.synced.phase
    simp only [PhaseInvariant, panicked] at phase
    exact phase
  · intro args member
    have verified := invariant.verified args member
    exact ⟨verified.covered, verified.index_eq, verified.leaf_eq,
      verified.root_eq⟩

end Invariant

/-- The events of storing a message that is sent to domain zero. -/
def storing (pipeline : Pipeline) (message : RawCommittedMessage) :
    List Event :=
  (@AbacusDB.messagePuts .transparent pipeline.relay.db message 0).map .put

/-- The shortest message is stored at index zero. -/
def storedFirst : Pipeline :=
  Machine.run (@step .transparent) (new Journal.empty Relay.sampleProcessor)
    (storing (new Journal.empty Relay.sampleProcessor)
      (AbacusDB.shortestMessage 0))

/-- A checkpoint of index one is fetched, and the processor makes a tick. -/
def verifyingTail : List Event :=
  .fetch (.ok (some 1)) (fun index =>
      .ok (if index = 1 then some ⟨.sample 1, []⟩ else none)) ::
    List.replicate 8 (.processor false)

/-- Two messages are stored, and the first of them is sent. -/
def verifyingRun : List Event :=
  storing (new Journal.empty Relay.sampleProcessor)
      (AbacusDB.shortestMessage 0) ++
    (storing storedFirst (AbacusDB.shortestMessage 1) ++ verifyingTail)

/-- A run that sends a verified message. -/
theorem sent_verified_run :
    ∃ args,
      (Machine.run (@step .transparent)
        (new Journal.empty Relay.sampleProcessor)
        verifyingRun).relay.txMsg = [args] ∧
      args.leafIndex ≤ args.checkpoint.checkpoint.index ∧
      args.proof.index = args.leafIndex.toNat ∧
      args.proof.leaf =
        @CommittedMessage.toLeaf .transparent args.committedMessage := by
  have wellKeyed : @WellKeyed .transparent Journal.empty :=
    fun _ _ nothing => nomatch nothing
  have first := @admissibleRun_messagePuts .transparent
    (new Journal.empty Relay.sampleProcessor) (AbacusDB.shortestMessage 0)
    wellKeyed rfl rfl 0
  have stored := @invariant_run .transparent 0 ⟨none⟩ ⟨none⟩
    Relay.sampleProcessor rfl Journal.empty wellKeyed _ first
  have second := @admissibleRun_messagePuts .transparent storedFirst
    (AbacusDB.shortestMessage 1)
    (@Invariant.wellKeyed .transparent _ stored) (by decide +kernel)
    (by decide +kernel) 0
  have last (pipeline : Pipeline) : Machine.AdmissibleRun (@step .transparent)
      (@Admissible .transparent) pipeline verifyingTail := by
    refine ⟨?_, trivial, trivial, trivial, trivial, trivial, trivial, trivial,
      trivial, trivial⟩
    intro index checkpoint fetched
    dsimp only at fetched
    split at fetched
    · rename_i same
      cases fetched
      exact ⟨same.symm, by rw [same]; decide⟩
    · cases fetched
  obtain ⟨args, sent⟩ : ∃ args,
      (Machine.run (@step .transparent)
        (new Journal.empty Relay.sampleProcessor)
        verifyingRun).relay.txMsg = [args] :=
    List.length_eq_one_iff.mp (by decide +kernel)
  obtain ⟨covered, index, leaf, -⟩ :=
    (@sent_verified .transparent 0 ⟨none⟩ ⟨none⟩ Relay.sampleProcessor rfl
      Journal.empty wellKeyed verifyingRun
      (Machine.AdmissibleRun.append _ first
        (Machine.AdmissibleRun.append _ second (last _)))).2 args
      (by simp [sent])
  exact ⟨args, sent, covered, index, leaf⟩

end Pipeline

end Abacus
