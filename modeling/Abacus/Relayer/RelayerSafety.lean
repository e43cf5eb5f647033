import Abacus.Relayer.RelayerInvariant

/-!
# Every task keeps the promises of every inbox

The ticks of the submitters keep the promises of all inboxes; those about the
records of other submitters need that no two inboxes have the same domain. So
do the loops, the fetcher, the processors and a restart, which gives an
invariant of all interleavings.
-/

namespace Abacus

open Journal (Loop)

section Safety

variable [Crypto]
variable {chain : OutboxChain}
variable {Fetched : MultisigSignedCheckpoint → Prop}

/-! ## A tick of a submitter -/

namespace InboxTasks

variable {relayer : Relayer}
variable {tasks : InboxTasks}

/-- What a tick leaves of the queue: a part of it, where messages have been
tried more often. -/
def Remains (queue : List SubmitMessageArgs) (tasks : InboxTasks) : Prop :=
  (tasks.queue.map SubmitMessageArgs.asSent).Subperm
    (queue.map SubmitMessageArgs.asSent)

omit [Crypto] in
/-- A remaining message was in the queue. -/
theorem Remains.exists_mem
    {queue : List SubmitMessageArgs}
    (remains : Remains queue tasks)
    {args : SubmitMessageArgs}
    (member : args ∈ tasks.queue) :
    ∃ earlier ∈ queue, args =
      { earlier with numRetries := args.numRetries } := by
  obtain ⟨earlier, queued, same⟩ :=
    List.mem_map.mp (remains.subset (List.mem_map_of_mem member))
  refine ⟨earlier, queued, ?_⟩
  obtain ⟨⟩ := args
  cases same
  rfl

omit [Crypto] in
/-- The indices of the remaining messages are those of distinct ones. -/
theorem Remains.nodup
    {queue : List SubmitMessageArgs}
    (remains : Remains queue tasks)
    (distinct : (queue.map SubmitMessageArgs.leafIndex).Nodup) :
    (tasks.queue.map SubmitMessageArgs.leafIndex).Nodup := by
  have indices (list : List SubmitMessageArgs) :
      list.map SubmitMessageArgs.leafIndex =
        (list.map SubmitMessageArgs.asSent).map
          SubmitMessageArgs.leafIndex := by
    rw [List.map_map]
    rfl
  rw [indices] at distinct ⊢
  obtain ⟨part, perm, sublist⟩ := remains
  exact ((perm.map _).nodup_iff).mp (distinct.sublist (sublist.map _))

/-- An inbox keeps its promises with a part of its queue. -/
theorem Sound.remains
    {after : InboxTasks}
    (sound : Sound chain Fetched relayer tasks)
    (same : after.processor = tasks.processor)
    (remains : Remains tasks.queue after) :
    Sound chain Fetched relayer after := by
  have pipeline : Pipeline.Invariant (relayer.pipeline after) := by
    refine { sound.pipeline with synced := ?_, verified := ?_ }
    · change Pipeline.Synced relayer.db relayer.ckpt after.processor
      rw [same]
      exact sound.pipeline.synced
    · intro args member
      obtain ⟨earlier, queued, retried⟩ := remains.exists_mem member
      have verified := sound.pipeline.verified earlier queued
      rw [retried]
      exact ⟨verified.covered, verified.index_eq, verified.leaf_eq,
        verified.root_eq⟩
  refine {
    pipeline := pipeline
    accepted := same ▸ sound.accepted
    targeted := same ▸ sound.targeted
    unprocessed := same ▸ sound.unprocessed
    addressed := ?_
    fetched := ?_
    distinct := remains.nodup sound.distinct
    behind := ?_
    unrecorded := fun domains => ?_ } <;>
    intro args member <;>
    obtain ⟨earlier, queued, retried⟩ := remains.exists_mem member <;>
    rw [retried]
  · rw [same]
    exact sound.addressed earlier queued
  · exact sound.fetched earlier queued
  · rw [same]
    exact sound.behind earlier queued
  · exact sound.unrecorded domains earlier queued

/-- The put that records a message as processed. -/
def statusPut (args : SubmitMessageArgs) : DbPut :=
  ⟨.leafProcessStatus args.leafIndex, (1 : UInt32)⟩

/-- What a tick does: it leaves a part of the queue, and it does not touch the
database or records the message that it handles. -/
structure Ticks (answers : TickAnswers) (db : AbacusDB) (tasks : InboxTasks)
    (after : InboxTasks) (left : AbacusDB) : Prop where
  processor_eq : after.processor = tasks.processor
  remains : Remains tasks.queue after
  recorded : left = db ∨ ∃ msg,
    handled answers db tasks = some msg ∧
      tasks.queue = msg :: after.queue ∧
      left = (statusPut msg).apply db

/-- What every tick does. -/
theorem ticks_tick
    (answers : TickAnswers)
    (db : AbacusDB)
    (tasks : InboxTasks) :
    Ticks answers db tasks (tasks.tick answers db).1
      (tasks.tick answers db).2 := by
  by_cases ended : tasks.submitterEnd.isSome = true
  · simp only [tick, ended, if_true]
    exact ⟨rfl, List.Subperm.refl _, .inl rfl⟩
  by_cases gelato : tasks.gelato = true
  · simp only [tick, ended, gelato, if_true]
    exact ⟨rfl, List.Subperm.refl _, .inl rfl⟩
  have handles : handled answers db tasks =
      (tasks.submitter db).next (tasks.answers answers) := by
    simp [handled, ended, gelato]
  have picks {msg : SubmitMessageArgs} {runQueue : List SubmitMessageArgs}
      (popped : (tasks.submitter db).promoted = msg :: runQueue) :
      (runQueue.map SubmitMessageArgs.asSent).Subperm
        (tasks.queue.map SubmitMessageArgs.asSent) := by
    change tasks.queue = msg :: runQueue at popped
    rw [popped]
    exact (List.sublist_cons_self _ _).subperm
  have ticked := SerialSubmitter.ticked_tick (tasks.answers answers)
    (tasks.submitter db)
  simp only [tick, ended, gelato, Bool.false_eq_true, if_false]
  generalize (tasks.submitter db).tick (tasks.answers answers) = outcome
    at ticked
  cases ticked with
  | disconnected closed error =>
      refine ⟨rfl, ?_, .inl rfl⟩
      simp [Remains, queue, submitter, List.Subperm.refl]
  | idle nothing =>
      refine ⟨rfl, ?_, .inl rfl⟩
      simp [Remains, queue, List.nil_subperm]
  | @record msg runQueue picked popped kept =>
      exact ⟨rfl, picks popped,
        .inr ⟨msg, handles.trans picked, popped, rfl⟩⟩
  | @retry msg runQueue picked popped kept numRetries counted =>
      refine ⟨rfl, List.Perm.subperm ?_, .inl rfl⟩
      change tasks.queue = msg :: runQueue at popped
      rw [popped]
      exact (List.perm_append_singleton _ runQueue).map
        SubmitMessageArgs.asSent
  | drop picked popped drops error => exact ⟨rfl, picks popped, .inl rfl⟩
  | panic picked popped reason => exact ⟨rfl, picks popped, .inl rfl⟩

/-- An inbox keeps its promises in a tick of its submitter. -/
theorem Sound.tick
    (sound : Sound chain Fetched relayer tasks)
    (fills : chain.Fills relayer.db)
    (distinct : chain.Distinct)
    {answers : TickAnswers}
    {after : InboxTasks}
    {db : AbacusDB}
    (ticks : Ticks answers relayer.db tasks after db) :
    Sound chain Fetched { relayer with db := db } after := by
  have remaining := sound.remains ticks.processor_eq ticks.remains
  rcases ticks.recorded with same | ⟨msg, handled, queued, marked⟩
  · rw [same]
    exact remaining
  · have member : msg ∈ tasks.queue := by
      rw [queued]
      exact List.mem_cons_self
    have others : msg.leafIndex ∉
        after.queue.map SubmitMessageArgs.leafIndex := by
      have unique := sound.distinct
      rw [queued, List.map_cons, List.nodup_cons] at unique
      exact unique.1
    have behind := sound.behind msg member
    rw [marked]
    refine remaining.put fills distinct (.status _) fun _ => ?_
    rintro index same
    cases same
    refine ⟨fun args listed equal => others ?_, fun _ _ equal => ?_⟩
    · exact equal ▸ List.mem_map_of_mem listed
    · rw [ticks.processor_eq] at equal
      rw [equal] at behind
      exact UInt32.lt_irrefl _ behind

end InboxTasks

/-! ## All tasks -/

namespace Relayer

/-- The tasks of an inbox have its settings. -/
structure Serves (conf : RelayerConf) (inbox : InboxConf)
    (tasks : InboxTasks) : Prop where
  localDomain : tasks.processor.localDomain = inbox.localDomain
  whitelist : tasks.processor.whitelist = conf.whitelist
  blacklist : tasks.processor.blacklist = conf.blacklist

/-- What holds between any two events. -/
structure Invariant (chain : OutboxChain)
    (Fetched : MultisigSignedCheckpoint → Prop) (relayer : Relayer) :
    Prop where
  fills : chain.Fills relayer.db
  outbox : relayer.outboxSync.Pends (OutboxPut chain)
  gas : ∀ gasSync, relayer.gasSync = some gasSync → gasSync.Pends GasPut
  published : ∀ checkpoint, relayer.ckpt = some checkpoint →
    Fetched checkpoint
  serves : ∀ (number : Nat) tasks, relayer.inboxes[number]? = some tasks →
    ∃ inbox, relayer.conf.inboxes[number]? = some inbox ∧
      Serves relayer.conf inbox tasks
  sound : ∀ tasks ∈ relayer.inboxes, tasks.Sound chain Fetched relayer

/-- The provider answers faithfully, and fetched checkpoints leave room for the
count of their leaves. -/
def Admissible (chain : OutboxChain) : Event → Prop
  | .pollOutbox poll => chain.Faithful poll
  | .fetch _ syncer => ∀ index checkpoint,
      syncer.fetchCheckpoint index = .ok (some checkpoint) →
        index.toNat ≤ 2 ^ 32 - 2
  | _ => True

variable {relayer : Relayer}

/-! ### The start -/

/-- The tasks of every inbox can be created. -/
theorem exists_new (conf : RelayerConf) :
    ∃ create : InboxConf → InboxTasks,
      (∀ inbox, InboxTasks.new conf inbox = .ok (create inbox)) ∧
        ∀ inbox, (create inbox).queue = [] ∧
          MessageProcessor.new inbox.localDomain conf.whitelist
            conf.blacklist = .ok (create inbox).processor := by
  obtain ⟨builder, built, -⟩ := @MerkleTreeBuilder.holds_new H256 _
  refine ⟨fun inbox => {
    processor := {
      localDomain := inbox.localDomain
      whitelist := conf.whitelist
      blacklist := conf.blacklist
      proverSync := builder
      messageLeafIndex := 0
      phase := .starting }
    gelato := inbox.gelatoEnabled
    rx := []
    waitQueue := []
    runQueue := []
    submitterEnd := none }, fun inbox => ?_, fun inbox => ⟨rfl, ?_⟩⟩
  · rw [InboxTasks.new, MessageProcessor.new, built]
    rfl
  · rw [MessageProcessor.new, built]
    rfl

/-- A new processor has the settings that it was created with. -/
theorem serves_of_new
    {conf : RelayerConf}
    {inbox : InboxConf}
    {tasks : InboxTasks}
    (created : MessageProcessor.new inbox.localDomain conf.whitelist
      conf.blacklist = .ok tasks.processor) :
    Serves conf inbox tasks := by
  obtain ⟨builder, built, -⟩ := @MerkleTreeBuilder.holds_new H256 _
  rw [MessageProcessor.new, built] at created
  have same := Except.ok.inj created
  constructor <;> rw [← same]

/-- The tasks of an inbox keep their promises when they are new. -/
theorem sound_of_new
    {conf : RelayerConf}
    {inbox : InboxConf}
    {tasks : InboxTasks}
    (created : MessageProcessor.new inbox.localDomain conf.whitelist
      conf.blacklist = .ok tasks.processor)
    (empty : tasks.queue = [])
    (fills : chain.Fills relayer.db)
    (fetcher : relayer.fetcher = .ok .new)
    (unpublished : relayer.ckpt = none) :
    tasks.Sound chain Fetched relayer := by
  have fresh := MessageProcessor.fresh_of_new created
  have fromStart := Pipeline.invariant_new created (wellKeyed_of_fills fills)
  obtain ⟨conf, db, ckpt, loop, outboxSync, gasSync, inboxes⟩ := relayer
  subst fetcher unpublished
  exact {
    pipeline := { fromStart with
      verified := fun args member => by
        rw [pipeline, empty] at member
        cases member }
    accepted := by
      rw [fresh.phase_eq]
      exact fun _ nothing => by cases nothing
    targeted := by
      rw [fresh.phase_eq]
      exact fun _ nothing => by cases nothing
    unprocessed := by
      rw [fresh.phase_eq]
      exact fun _ nothing => by cases nothing
    addressed := by simp [empty]
    fetched := by simp [empty]
    distinct := by simp [empty]
    behind := by simp [empty]
    unrecorded := by simp [empty] }

/-- A relayer always starts, and then it keeps its promises, whatever database
it is started on. -/
theorem exists_start
    (conf : RelayerConf)
    {db : AbacusDB}
    (fills : chain.Fills db) :
    ∃ started, start conf db = .ok started ∧ started.db = db ∧
      Invariant chain Fetched started := by
  obtain ⟨create, created, fresh⟩ := exists_new conf
  have all := mapM_eq_ok fun inbox (_ : inbox ∈ conf.inboxes) => created inbox
  refine ⟨_, by rw [start, all]; rfl, rfl, ?_⟩
  refine {
    fills := fills
    outbox := Loop.pends_start _
    gas := ?_
    published := fun _ nothing => by cases nothing
    serves := ?_
    sound := ?_ }
  · intro gasSync running
    dsimp only at running
    split at running
    · cases running
      exact Loop.pends_start _
    · cases running
  · intro number tasks found
    rw [List.getElem?_map] at found
    obtain ⟨inbox, listed, rfl⟩ := Option.map_eq_some_iff.mp found
    exact ⟨inbox, listed, serves_of_new (fresh inbox).2⟩
  · intro tasks member
    obtain ⟨inbox, listed, rfl⟩ := List.mem_map.mp member
    exact sound_of_new (fresh inbox).2 (fresh inbox).1 fills rfl rfl

/-- A relayer that is started on the empty database keeps its promises. -/
theorem invariant_start
    {conf : RelayerConf}
    (started : start conf Journal.empty = .ok relayer) :
    Invariant chain Fetched relayer := by
  obtain ⟨fresh, starts, -, initial⟩ :=
    exists_start conf (Journal.entries_empty _)
  rw [starts] at started
  cases started
  exact initial

/-! ### The sync loops -/

omit [Crypto] in
/-- A put that records no leaf is harmless to all inboxes. -/
theorem spares_of_ne_status
    {put : DbPut}
    (other : ∀ index, put.key ≠ .leafProcessStatus index)
    (tasks : InboxTasks) :
    InboxTasks.Spares chain tasks put :=
  fun index same => absurd same (other index)

theorem ne_status_of_outboxPut
    {put : DbPut}
    (puts : OutboxPut chain put)
    (index : UInt32) :
    put.key ≠ .leafProcessStatus index := by
  cases puts <;> exact fun same => by cases same

omit [Crypto] in
theorem ne_status_of_gasPut
    {put : DbPut}
    (puts : GasPut put)
    (index : UInt32) :
    put.key ≠ .leafProcessStatus index := by
  cases puts <;> exact fun same => by cases same

/-- The puts of a sync loop keep all promises. -/
theorem Invariant.replay
    (invariant : Invariant chain Fetched relayer)
    (distinct : chain.Distinct)
    {puts : List DbPut}
    (allowed : ∀ put ∈ puts, TaskPut chain put ∧
      ∀ index, put.key ≠ .leafProcessStatus index) :
    Invariant chain Fetched
      { relayer with db := Journal.replay relayer.db puts } := by
  induction puts generalizing relayer with
  | nil => exact invariant
  | cons put puts inductionHypothesis =>
      obtain ⟨made, other⟩ := allowed put List.mem_cons_self
      have next : Invariant chain Fetched
          { relayer with db := put.apply relayer.db } :=
        { invariant with
          fills := invariant.fills.apply made
          sound := fun tasks member => (invariant.sound tasks member).put
            invariant.fills distinct made
              fun _ => spares_of_ne_status other tasks }
      exact inductionHypothesis next fun later member =>
        allowed later (List.mem_cons_of_mem _ member)

/-! ### The fetcher -/

/-- An iteration of the fetcher keeps it in step with a processor. -/
theorem pipeline_fetch
    {tasks : InboxTasks}
    {poll : FetcherPoll}
    (invariant : Pipeline.Invariant (relayer.pipeline tasks))
    (bounded : ∀ index checkpoint,
      poll.syncer.fetchCheckpoint index = .ok (some checkpoint) →
        index.toNat ≤ 2 ^ 32 - 2) :
    Pipeline.Invariant ((relayer.fetch poll).pipeline tasks) := by
  obtain ⟨conf, db, ckpt, loop, outboxSync, gasSync, inboxes⟩ := relayer
  cases loop with
  | error error => exact invariant
  | ok fetcher =>
      have fetched := @Pipeline.invariant_fetch _ _ _ poll.answers invariant
        fun index checkpoint answer =>
          ⟨index_eq_of_fetchCheckpoint answer, bounded index checkpoint answer⟩
      unfold Pipeline.fetch at fetched
      simp only [fetch, CheckpointFetcher.step, CheckpointFetcher.sends,
        Except.bind]
      cases iterated : fetcher.iteration poll.answers with
      | error error =>
          rw [iterated] at fetched
          exact { fetched with }
      | ok outcome =>
          obtain ⟨after, sent⟩ := outcome
          rw [iterated] at fetched
          cases sent with
          | none => exact { fetched with }
          | some checkpoint => exact { fetched with }

/-- What the fetcher sends was fetched for the index that was reported. -/
theorem exists_fetched_of_sends
    {loop : CheckpointFetcher.MainLoop}
    {poll : FetcherPoll}
    {checkpoint : MultisigSignedCheckpoint}
    (sent : checkpoint ∈ CheckpointFetcher.sends loop poll) :
    ∃ index, poll.latestIndex = .ok (some index) ∧
      poll.syncer.fetchCheckpoint index = .ok (some checkpoint) := by
  unfold CheckpointFetcher.sends at sent
  split at sent
  · cases sent
  · rename_i fetcher
    split at sent
    · cases sent
    · rename_i after published iterated
      obtain rfl := Option.mem_toList.mp sent
      rcases CheckpointFetcher.iteration_cases iterated with
        ⟨-, nothing⟩ | ⟨index, other, same, requested, -, answer, -⟩
      · cases nothing
      · cases same
        exact ⟨index, requested, answer⟩

/-- An iteration of the fetcher keeps all promises. -/
theorem Invariant.fetch
    (invariant : Invariant chain Fetched relayer)
    {poll : FetcherPoll}
    (bounded : ∀ index checkpoint,
      poll.syncer.fetchCheckpoint index = .ok (some checkpoint) →
        index.toNat ≤ 2 ^ 32 - 2)
    (fetched : ∀ checkpoint,
      checkpoint ∈ CheckpointFetcher.sends relayer.fetcher poll →
        Fetched checkpoint) :
    Invariant chain Fetched (relayer.fetch poll) := by
  refine { invariant with published := ?_, sound := ?_ }
  · intro checkpoint newest
    simp only [Relayer.fetch] at newest
    split at newest
    · rename_i sent last
      cases newest
      exact fetched checkpoint (List.mem_of_getLast? last)
    · exact invariant.published checkpoint newest
  · intro tasks member
    have sound := invariant.sound tasks member
    exact { sound with pipeline := pipeline_fetch sound.pipeline bounded }

/-! ### The tasks of an inbox -/

omit [Crypto] in
/-- A message for an inbox is sent to its domain. -/
theorem destination_of_addresses
    {processor : MessageProcessor}
    {index : UInt32}
    {message : CommittedMessage}
    (addressed : chain.Addresses processor index message) :
    message.message.destination = processor.localDomain :=
  not_not.mp fun elsewhere => addressed.2 (.inl elsewhere)

/-- If the domains are distinct, no domain has two inboxes. -/
theorem Invariant.eq_of_localDomain
    (invariant : Invariant chain Fetched relayer)
    (domains : relayer.conf.DistinctDomains)
    {first second : Nat}
    {one other : InboxTasks}
    (oneFound : relayer.inboxes[first]? = some one)
    (otherFound : relayer.inboxes[second]? = some other)
    (same : one.processor.localDomain = other.processor.localDomain) :
    first = second := by
  obtain ⟨inbox, listed, serves⟩ := invariant.serves first one oneFound
  obtain ⟨otherInbox, otherListed, otherServes⟩ :=
    invariant.serves second other otherFound
  have domain : inbox.localDomain = otherInbox.localDomain := by
    rw [← serves.localDomain, ← otherServes.localDomain, same]
  obtain ⟨inside, -⟩ := List.getElem?_eq_some_iff.mp listed
  apply (List.getElem?_inj (by simpa using inside) domains).mp
  rw [List.getElem?_map, List.getElem?_map, listed, otherListed,
    Option.map_some, Option.map_some, domain]

/-- If the domains are distinct, no message is for two inboxes. -/
theorem Invariant.eq_of_addresses
    (invariant : Invariant chain Fetched relayer)
    (domains : relayer.conf.DistinctDomains)
    {first second : Nat}
    {one other : InboxTasks}
    (oneFound : relayer.inboxes[first]? = some one)
    (otherFound : relayer.inboxes[second]? = some other)
    {index : UInt32}
    {message otherMessage : CommittedMessage}
    (oneAddressed : chain.Addresses one.processor index message)
    (otherAddressed : chain.Addresses other.processor index otherMessage) :
    first = second := by
  have same := oneAddressed.1.eq otherAddressed.1
  refine invariant.eq_of_localDomain domains oneFound otherFound ?_
  rw [← destination_of_addresses oneAddressed,
    ← destination_of_addresses otherAddressed, same]

omit [Crypto] in
/-- What a change of the tasks of one inbox keeps holds of all inboxes. -/
theorem forall_mem_modifyInbox
    {Holds : InboxTasks → Prop}
    (all : ∀ tasks ∈ relayer.inboxes, Holds tasks)
    (number : Nat)
    {change : InboxTasks → InboxTasks × AbacusDB}
    (kept : ∀ tasks ∈ relayer.inboxes, Holds tasks →
      Holds (change tasks).1) :
    ∀ tasks ∈ (relayer.modifyInbox number change).inboxes, Holds tasks := by
  unfold Relayer.modifyInbox
  split
  · exact all
  · rename_i found listed
    have member := List.mem_of_getElem? listed
    intro tasks changed
    rcases List.mem_or_eq_of_mem_set changed with same | rfl
    · exact all tasks same
    · exact kept found member (all found member)

omit [Crypto] in
/-- A change of the tasks of one inbox is none of the fetcher's business. -/
@[simp] theorem fetcher_modifyInbox
    (relayer : Relayer)
    (number : Nat)
    (change : InboxTasks → InboxTasks × AbacusDB) :
    (relayer.modifyInbox number change).fetcher = relayer.fetcher := by
  unfold Relayer.modifyInbox
  split <;> rfl

omit [Crypto] in
/-- Nor does it change the settings. -/
@[simp] theorem conf_modifyInbox
    (relayer : Relayer)
    (number : Nat)
    (change : InboxTasks → InboxTasks × AbacusDB) :
    (relayer.modifyInbox number change).conf = relayer.conf := by
  unfold Relayer.modifyInbox
  split <;> rfl

/-- No event but a restart changes the settings. -/
theorem conf_step
    (relayer : Relayer)
    {event : Event}
    (continues : event.Continues) :
    (relayer.step event).conf = relayer.conf := by
  cases event with
  | process number dbFails => exact conf_modifyInbox relayer number _
  | tick number answers => exact conf_modifyInbox relayer number _
  | restart conf => exact continues.elim
  | _ => rfl

/-- Without restarts, the settings stay. -/
theorem conf_run
    (relayer : Relayer)
    {events : List Event}
    (continues : ∀ event ∈ events, event.Continues) :
    (Machine.run step relayer events).conf = relayer.conf := by
  induction events generalizing relayer with
  | nil => rfl
  | cons event events inductionHypothesis =>
      rw [Machine.run_cons, inductionHypothesis (relayer.step event)
          fun later member => continues later (List.mem_cons_of_mem _ member),
        conf_step relayer (continues event List.mem_cons_self)]

/-- A relayer has the settings with which it is started. -/
theorem conf_of_started
    {conf : RelayerConf}
    {db : AbacusDB}
    (started : start conf db = .ok relayer) :
    relayer.conf = conf := by
  obtain ⟨create, created, -⟩ := exists_new conf
  have all := mapM_eq_ok fun inbox (_ : inbox ∈ conf.inboxes) => created inbox
  rw [start, all] at started
  cases started
  rfl

/-- What a change of the tasks of one inbox has to keep. -/
theorem Invariant.modifyInbox
    (invariant : Invariant chain Fetched relayer)
    {number : Nat}
    {change : InboxTasks → InboxTasks × AbacusDB}
    (fills : ∀ tasks, relayer.inboxes[number]? = some tasks →
      chain.Fills (change tasks).2)
    (settings : ∀ tasks, relayer.inboxes[number]? = some tasks →
      Relay.SameSettings tasks.processor (change tasks).1.processor)
    (own : ∀ tasks, relayer.inboxes[number]? = some tasks →
      (change tasks).1.Sound chain Fetched
        { relayer with db := (change tasks).2 })
    (others : ∀ tasks, relayer.inboxes[number]? = some tasks →
      ∀ (position : Nat) other, position ≠ number →
        relayer.inboxes[position]? = some other →
          other.Sound chain Fetched { relayer with db := (change tasks).2 }) :
    Invariant chain Fetched (relayer.modifyInbox number change) := by
  unfold Relayer.modifyInbox
  cases found : relayer.inboxes[number]? with
  | none => exact invariant
  | some tasks =>
      have place (position : Nat) (other : InboxTasks)
          (listed : (relayer.inboxes.set number (change tasks).1)[position]? =
            some other) :
          position = number ∧ other = (change tasks).1 ∨
            position ≠ number ∧
              relayer.inboxes[position]? = some other := by
        rw [List.getElem?_set] at listed
        split at listed
        · rename_i same
          split at listed
          · exact .inl ⟨same.symm, (Option.some.inj listed).symm⟩
          · cases listed
        · rename_i different
          exact .inr ⟨fun same => different same.symm, listed⟩
      refine { invariant with
        fills := fills tasks found
        serves := ?_
        sound := ?_ }
      · intro position other listed
        rcases place position other listed with ⟨rfl, rfl⟩ | ⟨-, same⟩
        · obtain ⟨inbox, configured, serves⟩ :=
            invariant.serves position tasks found
          have kept := settings tasks found
          exact ⟨inbox, configured, kept.localDomain.symm.trans
            serves.localDomain, kept.whitelist.symm.trans serves.whitelist,
            kept.blacklist.symm.trans serves.blacklist⟩
        · exact invariant.serves position other same
      · intro other member
        obtain ⟨position, listed⟩ := List.mem_iff_getElem?.mp member
        rcases place position other listed with ⟨rfl, rfl⟩ | ⟨apart, same⟩
        · exact (own tasks found).congr rfl rfl rfl rfl
        · exact (others tasks found position other apart same).congr rfl rfl
            rfl rfl

/-- A step of a processor keeps all promises. -/
theorem Invariant.process
    (invariant : Invariant chain Fetched relayer)
    (distinct : chain.Distinct)
    (number : Nat)
    (dbFails : Bool) :
    Invariant chain Fetched (relayer.step (.process number dbFails)) := by
  refine invariant.modifyInbox (fun _ _ => invariant.fills) ?_ ?_ ?_
  · intro tasks found
    exact Relay.sameSettings_transition (MessageProcessor.transition_step
      (relayer.around tasks dbFails) tasks.processor)
  · intro tasks found
    exact (invariant.sound tasks (List.mem_of_getElem? found)).process
      invariant.fills distinct invariant.published dbFails
  · intro tasks found position other apart listed
    exact invariant.sound other (List.mem_of_getElem? listed)

/-- A tick of a submitter keeps all promises. -/
theorem Invariant.tick
    (invariant : Invariant chain Fetched relayer)
    (distinct : chain.Distinct)
    (number : Nat)
    (answers : TickAnswers) :
    Invariant chain Fetched (relayer.step (.tick number answers)) := by
  refine invariant.modifyInbox ?_ ?_ ?_ ?_
  · intro tasks found
    rcases (InboxTasks.ticks_tick answers relayer.db tasks).recorded with
      same | ⟨msg, -, -, marked⟩
    · rw [same]
      exact invariant.fills
    · rw [marked]
      exact invariant.fills.apply (.status msg.leafIndex)
  · intro tasks found
    rw [(InboxTasks.ticks_tick answers relayer.db tasks).processor_eq]
    exact ⟨rfl, rfl, rfl⟩
  · intro tasks found
    exact (invariant.sound tasks (List.mem_of_getElem? found)).tick
      invariant.fills distinct (InboxTasks.ticks_tick answers relayer.db tasks)
  · intro tasks found position other apart listed
    have kept := invariant.sound other (List.mem_of_getElem? listed)
    rcases (InboxTasks.ticks_tick answers relayer.db tasks).recorded with
      same | ⟨msg, -, queued, marked⟩
    · rw [same]
      exact kept
    · have addressed := (invariant.sound tasks
        (List.mem_of_getElem? found)).addressed msg
          (by rw [queued]; exact List.mem_cons_self)
      rw [marked]
      refine kept.put invariant.fills distinct (.status _) fun domains => ?_
      rintro index same
      cases same
      constructor
      · intro args member equal
        have other := kept.addressed args member
        rw [equal] at other
        exact apart (invariant.eq_of_addresses domains listed found other
          addressed)
      · intro message other equal
        rw [equal] at other
        exact apart (invariant.eq_of_addresses domains listed found other
          addressed)

/-! ### Runs -/

/-- In an event, the fetcher publishes a checkpoint: an index is reported as
the latest one, the checkpoint is fetched for this index, and it is sent to the
processors. -/
inductive Publishes (relayer : Relayer) :
    Event → MultisigSignedCheckpoint → Prop
  | fetch
      {index : UInt32}
      {syncer : MultisigCheckpointSyncer}
      {checkpoint : MultisigSignedCheckpoint}
      (answered : syncer.fetchCheckpoint index = .ok (some checkpoint))
      (sent : checkpoint ∈ CheckpointFetcher.sends relayer.fetcher
        (relayer.fetcherPoll (.ok (some index)) syncer)) :
      Publishes relayer (.fetch (.ok (some index)) syncer) checkpoint

/-- What the fetcher sends is published. -/
theorem publishes_of_sends
    {latestIndex : Except Report (Option UInt32)}
    {syncer : MultisigCheckpointSyncer}
    {checkpoint : MultisigSignedCheckpoint}
    (sent : checkpoint ∈ CheckpointFetcher.sends relayer.fetcher
      (relayer.fetcherPoll latestIndex syncer)) :
    relayer.Publishes (.fetch latestIndex syncer) checkpoint := by
  obtain ⟨index, requested, answered⟩ := exists_fetched_of_sends sent
  obtain rfl : latestIndex = .ok (some index) := requested
  exact .fetch answered sent

/-- Every admissible event keeps all promises. -/
theorem Invariant.step
    (invariant : Invariant chain Fetched relayer)
    (distinct : chain.Distinct)
    {event : Event}
    (admissible : Admissible chain event)
    (fetched : ∀ checkpoint, relayer.Publishes event checkpoint →
      Fetched checkpoint) :
    Invariant chain Fetched (relayer.step event) := by
  cases event with
  | pollOutbox poll =>
      exact { invariant with
        outbox := invariant.outbox.iterate
          (fun state _ => writes_syncIteration admissible _ state) _
        sound := fun tasks member =>
          (invariant.sound tasks member).congr rfl rfl rfl rfl }
  | writeOutbox =>
      have written := invariant.replay distinct fun put member =>
        have puts := invariant.outbox.of_mem_take put member
        ⟨.outbox puts, ne_status_of_outboxPut puts⟩
      exact { written with
        outbox := invariant.outbox.rest
        sound := fun tasks member =>
          (written.sound tasks member).congr rfl rfl rfl rfl }
  | pollGas poll =>
      refine { invariant with
        gas := ?_
        sound := fun tasks member =>
          (invariant.sound tasks member).congr rfl rfl rfl rfl }
      intro gasSync running
      obtain ⟨before, earlier, rfl⟩ := Option.map_eq_some_iff.mp running
      exact (invariant.gas before earlier).iterate
        (fun state _ => writes_gasIteration _ poll state) _
  | writeGas =>
      cases running : relayer.gasSync with
      | none =>
          have same : relayer.step .writeGas = relayer := by
            obtain ⟨conf, db, ckpt, fetcher, outboxSync, gasSync, inboxes⟩ :=
              relayer
            cases running
            rfl
          rw [same]
          exact invariant
      | some gasSync =>
          have pends := invariant.gas gasSync running
          have written := invariant.replay distinct fun put member =>
            have puts := pends.of_mem_take put member
            ⟨.gas puts, ne_status_of_gasPut puts⟩
          simp only [Relayer.step, running]
          refine { written with
            gas := ?_
            sound := fun tasks member =>
              (written.sound tasks member).congr rfl rfl rfl rfl }
          rintro after ⟨⟩
          exact pends.rest
  | fetch latestIndex syncer =>
      exact invariant.fetch admissible fun checkpoint sent =>
        fetched checkpoint (publishes_of_sends sent)
  | process number dbFails => exact invariant.process distinct number dbFails
  | tick number answers => exact invariant.tick distinct number answers
  | restart conf =>
      obtain ⟨started, starts, -, fresh⟩ := @exists_start _ _ Fetched conf
        _ invariant.fills
      rw [Relayer.step, starts]
      exact fresh

/-- What holds between any two events holds after every run of admissible
events. -/
theorem Invariant.run
    (invariant : Invariant chain Fetched relayer)
    (distinct : chain.Distinct)
    {events : List Event}
    (admissible : ∀ event ∈ events, Admissible chain event)
    (fetched : ∀ before event after, events = before ++ event :: after →
      ∀ checkpoint,
        (Machine.run Relayer.step relayer before).Publishes event
            checkpoint →
          Fetched checkpoint) :
    Invariant chain Fetched (Machine.run Relayer.step relayer events) := by
  have allowed := Machine.admissibleRun_of_forall Relayer.step relayer
    admissible
  have publishes : Machine.AdmissibleRun Relayer.step
      (fun state event => ∀ checkpoint, state.Publishes event checkpoint →
        Fetched checkpoint) relayer events :=
    Machine.admissibleRun_of_forall_split _ fetched
  exact Machine.invariant_run Relayer.step (Invariant chain Fetched)
    (fun state event both kept => kept.step distinct both.1 both.2)
    invariant (allowed.and _ publishes)

end Relayer

end Safety

end Abacus
