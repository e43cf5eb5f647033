import Abacus.Base.SyncWrites
import Abacus.Relayer.PipelineCorrectness
import Abacus.Relayer.ProcessorScan
import Abacus.Relayer.Relayer
import Abacus.Relayer.SubmitterConservation

/-!
# An invariant of all tasks of the relayer

Each task guarantees something of its puts that the other tasks rely on: the
sync loops put dispatched messages only, and a submitter puts the status of
messages for its own inbox. So every inbox keeps a queue of distinct messages
for it, whatever the other tasks do. If no two inboxes have the same domain,
none of these messages is recorded as processed.
-/

namespace Abacus

open Journal (Loop)

section Invariant

variable [Crypto]
variable {chain : OutboxChain}

/-! ## The database of dispatched messages -/

/-- The puts of all tasks. -/
inductive TaskPut (chain : OutboxChain) : DbPut → Prop
  | outbox {put : DbPut} (puts : OutboxPut chain put) : TaskPut chain put
  | gas {put : DbPut} (puts : GasPut put) : TaskPut chain put
  | status (leafIndex : UInt32) :
      TaskPut chain ⟨.leafProcessStatus leafIndex, (1 : UInt32)⟩

/-- The database holds nothing but what the tasks put. -/
abbrev OutboxChain.Fills (chain : OutboxChain) (db : AbacusDB) : Prop :=
  Journal.Entries (TaskPut chain) db

/-- No two dispatched messages have the same leaf. -/
def OutboxChain.Distinct (chain : OutboxChain) : Prop :=
  (chain.messages.map RawCommittedMessage.leaf).Nodup

/-- A message was dispatched at an index. -/
def OutboxChain.Dispatches (chain : OutboxChain) (index : UInt32)
    (message : CommittedMessage) : Prop :=
  ∃ raw, chain.messageAt index = some raw ∧
    CommittedMessage.tryFrom raw = .ok message

omit [Crypto] in
/-- One message is dispatched at an index. -/
theorem OutboxChain.Dispatches.eq
    {index : UInt32}
    {first second : CommittedMessage}
    (one : chain.Dispatches index first)
    (other : chain.Dispatches index second) :
    first = second := by
  obtain ⟨raw, sent, parsed⟩ := one
  obtain ⟨otherRaw, otherSent, otherParsed⟩ := other
  rw [sent] at otherSent
  cases otherSent
  rw [parsed] at otherParsed
  cases otherParsed
  rfl

/-- Dispatched messages with the same leaf are the same. -/
theorem OutboxChain.Distinct.eq_of_leaf_eq
    (distinct : chain.Distinct)
    {first second : UInt32}
    {one other : RawCommittedMessage}
    (oneSent : chain.messageAt first = some one)
    (otherSent : chain.messageAt second = some other)
    (collide : one.leaf = other.leaf) :
    one = other := by
  unfold OutboxChain.messageAt at oneSent otherSent
  obtain ⟨inside, -⟩ := List.getElem?_eq_some_iff.mp oneSent
  have same : first.toNat = second.toNat := by
    apply (List.getElem?_inj (by simpa using inside) distinct).mp
    rw [List.getElem?_map, List.getElem?_map, oneSent, otherSent,
      Option.map_some, Option.map_some, collide]
  rw [same, otherSent] at oneSent
  exact (Option.some.inj oneSent).symm

section Fills

variable {db : AbacusDB}
variable (fills : chain.Fills db)
include fills

/-- A stored leaf is that of the dispatched message. -/
theorem exists_of_stored_leaf
    {index : UInt32}
    {leaf : H256}
    (stored : db (.leaf index) = some leaf) :
    ∃ message, chain.messageAt index = some message ∧
      leaf = message.leaf := by
  cases fills _ _ stored with
  | outbox puts =>
      cases puts with
      | leaf sent => exact ⟨_, sent, rfl⟩
  | gas puts => cases puts

/-- A stored message is a dispatched one, under its leaf. -/
theorem of_stored_message
    {leaf : H256}
    {message : RawCommittedMessage}
    (stored : db (.message leaf) = some message) :
    chain.messageAt message.leafIndex = some message ∧
      message.leaf = leaf := by
  cases fills _ _ stored with
  | outbox puts =>
      cases puts with
      | message sent => exact ⟨sent, rfl⟩
  | gas puts => cases puts

/-- The only status that is stored is that of a processed leaf. -/
theorem recorded_of_stored_status
    {index status : UInt32}
    (stored : db (.leafProcessStatus index) = some status) :
    db.Recorded index := by
  rw [AbacusDB.recorded_iff, stored]
  cases fills _ _ stored with
  | outbox puts => cases puts
  | gas puts => cases puts
  | status => rfl

/-- Every message is stored under its own leaf. -/
theorem wellKeyed_of_fills : Pipeline.WellKeyed db :=
  fun _ _ stored => (of_stored_message fills stored).2

/-- No put of a task changes a stored leaf or a stored message. -/
theorem keeps_of_taskPut
    (distinct : chain.Distinct)
    {put : DbPut}
    (puts : TaskPut chain put) :
    Relay.Keeps db (put.apply db) := by
  constructor
  · intro index leaf stored
    by_cases same : Record.leaf index = put.key
    · cases puts with
      | outbox puts =>
          cases puts with
          | leaf sent =>
              cases same
              obtain ⟨message, other, rfl⟩ := exists_of_stored_leaf fills stored
              rw [sent] at other
              cases other
              exact Journal.Put.apply_mk_self _ _ _
          | _ => cases same
      | gas puts => cases puts <;> cases same
      | status => cases same
    · rwa [Journal.Put.apply_of_ne same]
  · intro leaf raw stored
    by_cases same : Record.message leaf = put.key
    · cases puts with
      | outbox puts =>
          cases puts with
          | message sent =>
              cases same
              obtain ⟨other, leafEq⟩ := of_stored_message fills stored
              rw [distinct.eq_of_leaf_eq other sent leafEq]
              exact Journal.Put.apply_mk_self _ _ _
          | _ => cases same
      | gas puts => cases puts <;> cases same
      | status => cases same
    · rwa [Journal.Put.apply_of_ne same]

/-- What the processor reads at an index was dispatched there. -/
theorem dispatches_of_holds
    (distinct : chain.Distinct)
    {index : UInt32}
    {message : CommittedMessage}
    (holds : Relay.Holds db index message) :
    chain.Dispatches index message := by
  obtain ⟨leaf, raw, leafStored, rawStored, parsed⟩ := holds
  obtain ⟨sent, dispatched, rfl⟩ := exists_of_stored_leaf fills leafStored
  obtain ⟨rawSent, leafEq⟩ := of_stored_message fills rawStored
  have same := distinct.eq_of_leaf_eq rawSent dispatched leafEq
  exact ⟨raw, same ▸ dispatched, parsed⟩

end Fills

/-! ## One inbox -/

/-- A message that an inbox relays was dispatched at an index. -/
def OutboxChain.Addresses (chain : OutboxChain) (processor : MessageProcessor)
    (index : UInt32) (message : CommittedMessage) : Prop :=
  chain.Dispatches index message ∧ ¬ processor.Excluded message.message

omit [Crypto] in
/-- Which messages an inbox relays depends on its settings only. -/
theorem Relay.SameSettings.addresses
    {first second : MessageProcessor}
    (same : Relay.SameSettings first second)
    {index : UInt32}
    {message : CommittedMessage}
    (addressed : chain.Addresses second index message) :
    chain.Addresses first index message :=
  ⟨addressed.1, fun excluded =>
    addressed.2 ((same.excluded_iff message.message).mp excluded)⟩

/-- The messages of a submitter, in the order in which it picks them. -/
def InboxTasks.queue (tasks : InboxTasks) : List SubmitMessageArgs :=
  tasks.waitQueue ++ tasks.rx ++ tasks.runQueue

/-- The processor has read the status of its index. -/
def Phase.checked : Phase → Bool
  | .reading => true
  | .awaiting _ => true
  | .updating _ _ _ => true
  | .dispatching _ _ => true
  | _ => false

/-- The checkpoint for which a message is proved. -/
def Phase.target : Phase → Option MultisigSignedCheckpoint
  | .updating _ checkpoint _ => some checkpoint
  | .dispatching _ checkpoint => some checkpoint
  | _ => none

/-- The fetcher and the processor of one inbox, with what its submitter has
left to do. -/
def Relayer.pipeline (relayer : Relayer) (tasks : InboxTasks) : Pipeline where
  fetcher := relayer.fetcher.toOption
  relay := {
    db := relayer.db
    ckpt := relayer.ckpt
    ckptClosed := relayer.fetcher.toOption.isNone
    txClosed := tasks.submitterEnd.isSome
    processor := tasks.processor
    txMsg := tasks.queue }

/-- No two inboxes of the settings have the same domain. -/
def RelayerConf.DistinctDomains (conf : RelayerConf) : Prop :=
  (conf.inboxes.map InboxConf.localDomain).Nodup

instance (conf : RelayerConf) : Decidable conf.DistinctDomains :=
  inferInstanceAs (Decidable (List.Nodup _))

/-- What an inbox keeps: its queue holds distinct messages for it, in front of
the scan, with proofs for fetched checkpoints. If no two inboxes have the same
domain, none of them is recorded as processed; nor is the one at which the scan
stands. -/
structure InboxTasks.Sound (chain : OutboxChain)
    (Fetched : MultisigSignedCheckpoint → Prop) (relayer : Relayer)
    (tasks : InboxTasks) : Prop where
  pipeline : Pipeline.Invariant (relayer.pipeline tasks)
  accepted : ∀ message,
    Relay.carried tasks.processor.phase = some message →
      ¬ tasks.processor.Excluded message.message
  targeted : ∀ checkpoint, tasks.processor.phase.target = some checkpoint →
    Fetched checkpoint
  unprocessed : relayer.conf.DistinctDomains →
    tasks.processor.phase.checked = true → ∀ message,
      chain.Addresses tasks.processor tasks.processor.messageLeafIndex
          message →
        ¬ relayer.db.Recorded tasks.processor.messageLeafIndex
  addressed : ∀ args ∈ tasks.queue,
    chain.Addresses tasks.processor args.leafIndex args.committedMessage
  fetched : ∀ args ∈ tasks.queue, Fetched args.checkpoint
  distinct : (tasks.queue.map SubmitMessageArgs.leafIndex).Nodup
  behind : ∀ args ∈ tasks.queue,
    args.leafIndex < tasks.processor.messageLeafIndex
  unrecorded : relayer.conf.DistinctDomains →
    ∀ args ∈ tasks.queue, ¬ relayer.db.Recorded args.leafIndex

namespace InboxTasks

variable {Fetched : MultisigSignedCheckpoint → Prop}
variable {relayer : Relayer}
variable {tasks : InboxTasks}

/-- Of the other tasks, only the settings, the database and the fetcher with
its channel matter to an inbox. -/
theorem Sound.congr
    {first second : Relayer}
    (sound : Sound chain Fetched first tasks)
    (conf : second.conf = first.conf)
    (db : second.db = first.db)
    (ckpt : second.ckpt = first.ckpt)
    (fetcher : second.fetcher = first.fetcher) :
    Sound chain Fetched second tasks := by
  have same : second.pipeline tasks = first.pipeline tasks := by
    simp [Relayer.pipeline, db, ckpt, fetcher]
  exact { sound with
    pipeline := same ▸ sound.pipeline
    unprocessed := by
      rw [conf, db]
      exact sound.unprocessed
    unrecorded := by
      rw [conf, db]
      exact sound.unrecorded }

/-! ### Puts of other tasks -/

/-- A put records no leaf but one that is not among the messages of an
inbox. -/
def Spares (chain : OutboxChain) (tasks : InboxTasks) (put : DbPut) : Prop :=
  ∀ index, put.key = .leafProcessStatus index →
    (∀ args ∈ tasks.queue, args.leafIndex ≠ index) ∧
      ∀ message,
        chain.Addresses tasks.processor tasks.processor.messageLeafIndex
            message →
          tasks.processor.messageLeafIndex ≠ index

omit [Crypto] in
/-- A leaf that was not recorded is not recorded by a put of another
record. -/
theorem not_recorded_apply
    {db : AbacusDB}
    {put : DbPut}
    {index : UInt32}
    (unrecorded : ¬ db.Recorded index)
    (other : put.key ≠ .leafProcessStatus index) :
    ¬ AbacusDB.Recorded (put.apply db) index := by
  rw [AbacusDB.recorded_iff] at unrecorded ⊢
  rwa [Journal.Put.apply_of_ne other.symm]

/-- What an inbox keeps is stable under the puts of the other tasks. -/
theorem Sound.put
    (sound : Sound chain Fetched relayer tasks)
    (fills : chain.Fills relayer.db)
    (distinct : chain.Distinct)
    {put : DbPut}
    (puts : TaskPut chain put)
    (spares : relayer.conf.DistinctDomains → Spares chain tasks put) :
    Sound chain Fetched { relayer with db := put.apply relayer.db } tasks where
  pipeline := @Pipeline.invariant_step _ _ (.put put)
    ⟨keeps_of_taskPut fills distinct puts,
      wellKeyed_of_fills (fills.apply puts)⟩ sound.pipeline
  accepted := sound.accepted
  targeted := sound.targeted
  unprocessed domains checked message addressed :=
    not_recorded_apply (sound.unprocessed domains checked message addressed)
      fun same => (spares domains _ same).2 message addressed rfl
  addressed := sound.addressed
  fetched := sound.fetched
  distinct := sound.distinct
  behind := sound.behind
  unrecorded domains args member :=
    not_recorded_apply (sound.unrecorded domains args member)
      fun same => (spares domains _ same).1 args member rfl

/-! ### A step of the processor -/

omit [Crypto] in
/-- A message that the processor accepts is not excluded. -/
theorem not_excluded_of_readMessage
    {around : Surroundings}
    {processor : MessageProcessor}
    {message : CommittedMessage}
    (accepts : (processor.settle (processor.readMessage around)).1.phase =
      .awaiting message) :
    ¬ processor.Excluded message.message := by
  have skips : (processor.settle processor.skip).1.phase ≠
      .awaiting message := by
    unfold MessageProcessor.skip
    rcases MessageProcessor.checkedAdd_one_cases processor.messageLeafIndex
      with ⟨next, -, added⟩ | ⟨-, overflows⟩
    · rw [added]
      exact fun same => by cases same
    · rw [overflows]
      exact fun same => by cases same
  have passes (other : CommittedMessage)
      (accepts : (processor.settle (processor.filter other)).1.phase =
        .awaiting message) :
      ¬ processor.Excluded message.message := by
    unfold MessageProcessor.filter at accepts
    split at accepts
    · exact absurd accepts skips
    · rename_i here
      split at accepts
      · exact absurd accepts skips
      · rename_i listed
        split at accepts
        · exact absurd accepts skips
        · rename_i unlisted
          cases accepts
          rintro (elsewhere | notListed | blocked)
          · exact here elsewhere
          · rw [notListed] at listed
            exact listed Bool.false_ne_true
          · exact unlisted blocked
  unfold MessageProcessor.readMessage at accepts
  generalize around.read (AbacusDB.messageByLeafIndex
    processor.messageLeafIndex) = found at accepts
  cases found with
  | error fault => cases fault <;> cases accepts
  | ok stored =>
      cases stored with
      | none => cases accepts
      | some raw =>
          simp only [Except.mapError, bind, Except.bind] at accepts
          cases parsed : CommittedMessage.tryFrom raw with
          | error error =>
              rw [parsed] at accepts
              cases accepts
          | ok other =>
              rw [parsed] at accepts
              exact passes other accepts

/-- What is passed is recorded or not for the inbox. -/
theorem recorded_of_passed
    {processor : MessageProcessor}
    {db : AbacusDB}
    (fills : chain.Fills db)
    (distinct : chain.Distinct)
    {index : UInt32}
    (passed : processor.Passed db index)
    {message : CommittedMessage}
    (addressed : chain.Addresses processor index message) :
    db.Recorded index := by
  rcases passed with ⟨status, known⟩ | ⟨raw, other, found, parsed, excluded⟩
  · rw [Journal.Program.result,
      AbacusDB.run_retrieveLeafProcessingStatus] at known
    cases stored : db (.leafProcessStatus index) with
    | none =>
        rw [stored] at known
        cases known
    | some value => exact recorded_of_stored_status fills stored
  · have holds := Relay.holds_of_found found parsed
    have same := (dispatches_of_holds fills distinct holds).eq addressed.1
    exact absurd (same ▸ excluded) addressed.2

/-- A step of the processor that sends nothing. -/
theorem process_of_unsent
    {around : Surroundings}
    {after : MessageProcessor}
    (stepped : tasks.processor.step around = (after, none)) :
    tasks.process around = { tasks with processor := after } := by
  simp [process, stepped]

/-- A step of the processor that sends a message. -/
theorem queue_process_of_sent
    {around : Surroundings}
    {after : MessageProcessor}
    {sent : SubmitMessageArgs}
    (stepped : tasks.processor.step around = (after, some sent)) :
    (tasks.process around).processor = after ∧
      (tasks.process around).queue.Perm (sent :: tasks.queue) := by
  refine ⟨by simp [process, stepped], ?_⟩
  simp only [process, stepped, queue, Option.toList_some]
  rw [← List.append_assoc, List.append_assoc, List.singleton_append]
  exact List.perm_middle

/-- An inbox keeps its promises when its processor goes on without a
message. -/
theorem Sound.unladen
    (sound : Sound chain Fetched relayer tasks)
    {next : UInt32}
    {phase : Phase}
    (pipeline : Pipeline.Invariant (relayer.pipeline { tasks with
      processor := { tasks.processor with
        messageLeafIndex := next, phase := phase } }))
    (forward : tasks.processor.messageLeafIndex.toNat ≤ next.toNat)
    (carried : Relay.carried phase = none)
    (target : phase.target = none)
    (checked : phase.checked = false) :
    Sound chain Fetched relayer { tasks with
      processor := { tasks.processor with
        messageLeafIndex := next, phase := phase } } := by
  refine { sound with
    pipeline := pipeline
    accepted := ?_
    targeted := ?_
    unprocessed := ?_
    behind := ?_ }
  · intro message carries
    cases carried.symm.trans carries
  · intro checkpoint proves
    cases target.symm.trans proves
  · intro _ stands
    cases checked.symm.trans stands
  · intro args member
    have below := UInt32.lt_iff_toNat_lt.mp (sound.behind args member)
    exact UInt32.lt_iff_toNat_lt.mpr (Nat.lt_of_lt_of_le below forward)

omit [Crypto] in
/-- A processor that carries a message has read the status of its index. -/
theorem checked_of_carried
    {phase : Phase}
    {message : CommittedMessage}
    (carried : Relay.carried phase = some message) :
    phase.checked = true := by
  cases phase with
  | awaiting message => rfl
  | updating message checkpoint next => rfl
  | dispatching message checkpoint => rfl
  | _ => cases carried

/-- An inbox keeps its promises when its processor goes on with its
message. -/
theorem Sound.laden
    (sound : Sound chain Fetched relayer tasks)
    {proverSync : MerkleTreeBuilder H256}
    {phase : Phase}
    {message : CommittedMessage}
    (pipeline : Pipeline.Invariant (relayer.pipeline { tasks with
      processor := { tasks.processor with
        proverSync := proverSync, phase := phase } }))
    (before : Relay.carried tasks.processor.phase = some message)
    (after : Relay.carried phase = some message)
    (targeted : ∀ checkpoint, phase.target = some checkpoint →
      Fetched checkpoint) :
    Sound chain Fetched relayer { tasks with
      processor := { tasks.processor with
        proverSync := proverSync, phase := phase } } :=
  { sound with
    pipeline := pipeline
    accepted := fun _ other =>
      Option.some.inj (after.symm.trans other) ▸ sound.accepted message before
    targeted := targeted
    unprocessed := fun domains _ =>
      sound.unprocessed domains (checked_of_carried before) }

/-- An inbox keeps its promises when its processor changes its phase. -/
theorem Sound.goto
    (sound : Sound chain Fetched relayer tasks)
    (published : ∀ checkpoint, relayer.ckpt = some checkpoint →
      Fetched checkpoint)
    {dbFails : Bool}
    {phase : Phase}
    (goes : MessageProcessor.Goes (relayer.around tasks dbFails)
      tasks.processor phase)
    (accepts : tasks.processor.phase = .reading → ∀ message,
      phase = .awaiting message →
        ¬ tasks.processor.Excluded message.message)
    (pipeline : Pipeline.Invariant (relayer.pipeline { tasks with
      processor := { tasks.processor with phase := phase } })) :
    Sound chain Fetched relayer { tasks with
      processor := { tasks.processor with phase := phase } } := by
  cases goes with
  | start starting newest =>
      exact sound.unladen pipeline le_rfl rfl rfl rfl
  | missing reading absent =>
      exact sound.unladen pipeline le_rfl rfl rfl rfl
  | unlisted dispatching absent =>
      exact sound.unladen pipeline le_rfl rfl rfl rfl
  | unprocessed idle unknown =>
      refine { sound with
        pipeline := pipeline
        accepted := fun _ nothing => by cases nothing
        targeted := fun _ nothing => by cases nothing
        unprocessed := fun _ _ message addressed recorded => ?_ }
      rw [AbacusDB.recorded_iff] at recorded
      cases unknown.symm.trans recorded
  | accept reading found parsed =>
      exact { sound with
        pipeline := pipeline
        accepted := fun _ now => Option.some.inj now ▸ accepts reading _ rfl
        targeted := fun _ nothing => by cases nothing
        unprocessed := fun domains _ =>
          sound.unprocessed domains (by rw [reading]; rfl) }
  | update awaiting newest covered behind later =>
      exact sound.laden pipeline (by rw [awaiting]; rfl) rfl
        fun _ now => Option.some.inj now ▸ published _ newest
  | ready awaiting newest covered ahead =>
      exact sound.laden pipeline (by rw [awaiting]; rfl) rfl
        fun _ now => Option.some.inj now ▸ published _ newest
  | compared updating complete checked =>
      exact sound.laden pipeline (by rw [updating]; rfl) rfl
        fun _ now => Option.some.inj now ▸
          sound.targeted _ (by rw [updating]; rfl)

/-- An inbox keeps its promises when its processor sends nothing. -/
theorem Sound.process_of_unsent
    (sound : Sound chain Fetched relayer tasks)
    (published : ∀ checkpoint, relayer.ckpt = some checkpoint →
      Fetched checkpoint)
    {dbFails : Bool}
    {after : MessageProcessor}
    (stepped : tasks.processor.step (relayer.around tasks dbFails) =
      (after, none)) :
    Sound chain Fetched relayer { tasks with processor := after } := by
  have transition := MessageProcessor.transition_step
    (relayer.around tasks dbFails) tasks.processor
  have accepts : tasks.processor.phase = .reading → ∀ message,
      (tasks.processor.step (relayer.around tasks dbFails)).1.phase =
          .awaiting message →
        ¬ tasks.processor.Excluded message.message := by
    intro reading message accepted
    rw [MessageProcessor.step, MessageProcessor.advance, reading] at accepted
    exact not_excluded_of_readMessage accepted
  rw [stepped] at transition accepts
  have synced := (Pipeline.synced_transition transition
    sound.pipeline.wellKeyed sound.pipeline.positive sound.pipeline.bounded
    sound.pipeline.synced).1
  have pipeline : Pipeline.Invariant
      (relayer.pipeline { tasks with processor := after }) :=
    { sound.pipeline with synced := synced }
  cases transition with
  | stay => exact sound
  | fail error => exact sound.unladen pipeline le_rfl rfl rfl rfl
  | panic cause => exact sound.unladen pipeline le_rfl rfl rfl rfl
  | pass scanning passed successor =>
      exact sound.unladen pipeline (by omega) rfl rfl rfl
  | ingest updating below found ingested =>
      exact sound.laden pipeline (by rw [updating]; rfl) rfl
        fun _ now => Option.some.inj now ▸
          sound.targeted _ (by rw [updating]; rfl)
  | goto goes => exact sound.goto published goes accepts pipeline

/-- The pipeline of an inbox keeps its invariant when the processor sends. -/
theorem Sound.pipeline_process_of_sent
    (sound : Sound chain Fetched relayer tasks)
    {dbFails : Bool}
    {after : MessageProcessor}
    {sent : SubmitMessageArgs}
    (stepped : tasks.processor.step (relayer.around tasks dbFails) =
      (after, some sent)) :
    Pipeline.Invariant (relayer.pipeline
      (tasks.process (relayer.around tasks dbFails))) := by
  have transition := MessageProcessor.transition_step
    (relayer.around tasks dbFails) tasks.processor
  rw [stepped] at transition
  obtain ⟨synced, verified⟩ := Pipeline.synced_transition transition
    sound.pipeline.wellKeyed sound.pipeline.positive sound.pipeline.bounded
    sound.pipeline.synced
  obtain ⟨moved, perm⟩ := queue_process_of_sent stepped
  refine { sound.pipeline with synced := ?_, verified := ?_ }
  · change Pipeline.Synced relayer.db relayer.ckpt
      (tasks.process (relayer.around tasks dbFails)).processor
    rw [moved]
    exact synced
  · intro args member
    rcases List.mem_cons.mp (perm.mem_iff.mp member) with rfl | earlier
    · exact verified args rfl
    · exact sound.pipeline.verified args earlier

/-- An inbox keeps its promises when its processor sends a message. -/
theorem Sound.process_of_sent
    (sound : Sound chain Fetched relayer tasks)
    (fills : chain.Fills relayer.db)
    (distinct : chain.Distinct)
    {dbFails : Bool}
    {after : MessageProcessor}
    {sent : SubmitMessageArgs}
    (stepped : tasks.processor.step (relayer.around tasks dbFails) =
      (after, some sent)) :
    Sound chain Fetched relayer
      (tasks.process (relayer.around tasks dbFails)) := by
  have transition := MessageProcessor.transition_step
    (relayer.around tasks dbFails) tasks.processor
  rw [stepped] at transition
  have pipeline := sound.pipeline_process_of_sent stepped
  obtain ⟨moved, perm⟩ := queue_process_of_sent stepped
  have mem_queue : ∀ args ∈ (tasks.process (relayer.around tasks
      dbFails)).queue, args = sent ∨ args ∈ tasks.queue :=
    fun args member => List.mem_cons.mp (perm.mem_iff.mp member)
  cases transition with
  | @send message checkpoint proof next sends successor =>
      have dispatched := sends.dispatching
      have holds := sound.pipeline.synced.carries message
        (by rw [Relayer.pipeline, dispatched]; rfl)
      have addressed : chain.Addresses tasks.processor
          tasks.processor.messageLeafIndex message :=
        ⟨dispatches_of_holds fills distinct holds,
          sound.accepted message (by rw [dispatched]; rfl)⟩
      have order : ∀ args ∈ tasks.queue, args.leafIndex.toNat <
          tasks.processor.messageLeafIndex.toNat :=
        fun args member =>
          UInt32.lt_iff_toNat_lt.mp (sound.behind args member)
      refine {
        pipeline := pipeline
        accepted := by rw [moved]; exact fun _ nothing => by cases nothing
        targeted := by rw [moved]; exact fun _ nothing => by cases nothing
        unprocessed := by rw [moved]; exact fun _ nothing => by cases nothing
        addressed := ?_
        fetched := ?_
        distinct := ?_
        behind := ?_
        unrecorded := ?_ }
      · intro args member
        rw [moved]
        rcases mem_queue args member with rfl | earlier
        · exact addressed
        · exact sound.addressed args earlier
      · intro args member
        rcases mem_queue args member with rfl | earlier
        · exact sound.targeted checkpoint (by rw [dispatched]; rfl)
        · exact sound.fetched args earlier
      · refine ((perm.map _).nodup_iff).mpr
          (List.nodup_cons.mpr ⟨?_, sound.distinct⟩)
        intro listed
        obtain ⟨args, member, same⟩ := List.mem_map.mp listed
        have before := order args member
        rw [same] at before
        exact Nat.lt_irrefl _ before
      · intro args member
        rw [moved, UInt32.lt_iff_toNat_lt]
        simp only
        rcases mem_queue args member with rfl | earlier
        · change tasks.processor.messageLeafIndex.toNat < next.toNat
          omega
        · have before := order args earlier
          omega
      · intro domains args member
        rcases mem_queue args member with rfl | earlier
        · exact sound.unprocessed domains (by rw [dispatched]; rfl) message
            addressed
        · exact sound.unrecorded domains args earlier
  | @sendLast message checkpoint proof sends last =>
      have phase := sound.pipeline.synced.phase
      simp only [Pipeline.PhaseInvariant, Relayer.pipeline,
        sends.dispatching] at phase
      have bound := phase.1.bounded
      have covered := UInt32.le_iff_toNat_le.mp phase.2.1
      omega

/-- An inbox keeps its promises in a step of its processor. -/
theorem Sound.process
    (sound : Sound chain Fetched relayer tasks)
    (fills : chain.Fills relayer.db)
    (distinct : chain.Distinct)
    (published : ∀ checkpoint, relayer.ckpt = some checkpoint →
      Fetched checkpoint)
    (dbFails : Bool) :
    Sound chain Fetched relayer
      (tasks.process (relayer.around tasks dbFails)) := by
  cases stepped : tasks.processor.step (relayer.around tasks dbFails) with
  | mk after sent =>
      cases sent with
      | none =>
          rw [InboxTasks.process_of_unsent stepped]
          exact sound.process_of_unsent published stepped
      | some sent => exact sound.process_of_sent fills distinct stepped

end InboxTasks

end Invariant

end Abacus
