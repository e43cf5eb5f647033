import Abacus.Base.SyncWindow
import Abacus.Library.Loop
import Abacus.Relayer.FetcherProgress
import Abacus.Relayer.Pipeline
import Abacus.Relayer.SubmitterTransitions

/-!
# The relayer

All tasks of the agent: the two sync loops, the checkpoint fetcher, and for
each inbox a processor with its submitter. They share one database, the
fetcher publishes to all processors, and each processor sends to its own
submitter. The puts of a sync loop are made one at a time, so that the other
tasks act between any two of them.
-/

namespace Abacus

open Journal (Loop)

/-- The loop of a task over the database. -/
abbrev DbLoop (σ : Type) := Loop Record Record.Value (Fault Report) σ

/-- The panic of a task, as its handle returns it. -/
inductive JoinError
  | panicked
  deriving DecidableEq

/-- What the handle of a task returns once the task has ended. -/
abbrev Joined (ε : Type) := Except JoinError (Except ε Unit)

/-- What the handle of a task returns behind a fault of the task. -/
def Fault.joined : Fault ε → Joined ε
  | .error cause => .ok (.error cause)
  | .panic _ => .error .panicked

/-- The settings of one inbox: its domain, and whether its messages are
submitted with Gelato. -/
structure InboxConf where
  localDomain : UInt32
  gelatoEnabled : Bool
  deriving DecidableEq

/-- The settings of a relayer. -/
structure RelayerConf where
  whitelist : MatchingList
  blacklist : MatchingList
  indexer : IndexSettings
  inboxes : List InboxConf
  hasPaymaster : Bool

/-! ## The tasks of an inbox -/

/-- The processor of an inbox, the channel to its submitter, and the submitter
with its queues and what its handle returns. -/
structure InboxTasks where
  processor : MessageProcessor
  gelato : Bool
  rx : List SubmitMessageArgs
  waitQueue : List SubmitMessageArgs
  runQueue : List SubmitMessageArgs
  submitterEnd : Option (Joined Report)

namespace InboxTasks

/-- The tasks of an inbox before any event. -/
def new [Crypto] (conf : RelayerConf) (inbox : InboxConf) :
    Except Panic InboxTasks := do
  let processor ← MessageProcessor.new inbox.localDomain conf.whitelist
    conf.blacklist
  return {
    processor := processor
    gelato := inbox.gelatoEnabled
    rx := []
    waitQueue := []
    runQueue := []
    submitterEnd := none }

/-- The serial submitter of an inbox, with the database that it shares. -/
def submitter (tasks : InboxTasks) (db : AbacusDB) : SerialSubmitter where
  rx := tasks.rx
  waitQueue := tasks.waitQueue
  runQueue := tasks.runQueue
  db := db

/-- The channel is disconnected once its sender, the processor, has ended. -/
def answers (tasks : InboxTasks) (answers : TickAnswers) : TickAnswers :=
  { answers with disconnected := Pipeline.ended tasks.processor.phase }

/-- A step of the processor; what it sends goes to the channel. -/
def process [Crypto] (around : Surroundings) (tasks : InboxTasks) :
    InboxTasks :=
  let (processor, sent) := tasks.processor.step around
  { tasks with processor := processor, rx := tasks.rx ++ sent.toList }

/-- A tick of the submitter, unless it has ended, with the database it leaves.
The Gelato submitter is not implemented: its first tick panics. -/
def tick [Crypto] (tickAnswers : TickAnswers) (db : AbacusDB)
    (tasks : InboxTasks) : InboxTasks × AbacusDB :=
  if tasks.submitterEnd.isSome then (tasks, db)
  else if tasks.gelato then
    ({ tasks with submitterEnd := some (.error .panicked) }, db)
  else
    let (result, after) :=
      (tasks.submitter db).tick (tasks.answers tickAnswers)
    ({
      tasks with
      rx := after.rx
      waitQueue := after.waitQueue
      runQueue := after.runQueue
      submitterEnd :=
        match result with
        | .ok () => none
        | .error fault => some fault.joined },
      after.db)

/-- The message that a tick of the submitter handles. -/
def handled (tickAnswers : TickAnswers) (db : AbacusDB)
    (tasks : InboxTasks) : Option SubmitMessageArgs :=
  if tasks.submitterEnd.isSome || tasks.gelato then none
  else (tasks.submitter db).next (tasks.answers tickAnswers)

/-- What the handle of the processor returns. -/
def processorEnd (tasks : InboxTasks) : Option (Joined ProcessorError) :=
  match tasks.processor.phase with
  | .failed error => some (.ok (.error error))
  | .panicked _ => some (.error .panicked)
  | _ => none

/-- The outcome of the task that joins the two handles: a panic of either one
ends it, an error does not, and behind two errors it succeeds. -/
def finished (tasks : InboxTasks) : Option (Except JoinError Unit) :=
  match tasks.submitterEnd, tasks.processorEnd with
  | some (.error error), _ => some (.error error)
  | _, some (.error error) => some (.error error)
  | some (.ok _), some (.ok _) => some (.ok ())
  | _, _ => none

end InboxTasks

/-! ## All tasks -/

/-- The relayer: its settings, the shared database and checkpoint channel, and
its tasks. -/
structure Relayer where
  conf : RelayerConf
  db : AbacusDB
  ckpt : Option MultisigSignedCheckpoint
  fetcher : CheckpointFetcher.MainLoop
  outboxSync : DbLoop SyncState
  gasSync : Option (DbLoop UInt32)
  inboxes : List InboxTasks

/-- Errors that end the agent. -/
inductive AgentError
  | fetcher (error : FetcherError)
  | join (error : JoinError)
  deriving DecidableEq

namespace Relayer

/-- What happens to a relayer: the provider answers one of the sync loops, the
next put of such a loop is made, the fetcher makes an iteration, the processor
or the submitter of an inbox makes a step, or the process ends at any point
and is started again, perhaps with other settings. -/
inductive Event
  | pollOutbox (poll : Poll)
  | writeOutbox
  | pollGas (poll : GasPoll)
  | writeGas
  | fetch (latestIndex : Except Report (Option UInt32))
      (syncer : MultisigCheckpointSyncer)
  | process (inbox : Nat) (dbFails : Bool)
  | tick (inbox : Nat) (answers : TickAnswers)
  | restart (conf : RelayerConf)

/-- The event is not a restart. -/
def Event.Continues : Event → Prop
  | .restart _ => False
  | _ => True

instance : DecidablePred Event.Continues
  | .restart _ => inferInstanceAs (Decidable False)
  | .pollOutbox _ => inferInstanceAs (Decidable True)
  | .writeOutbox => inferInstanceAs (Decidable True)
  | .pollGas _ => inferInstanceAs (Decidable True)
  | .writeGas => inferInstanceAs (Decidable True)
  | .fetch _ _ => inferInstanceAs (Decidable True)
  | .process _ _ => inferInstanceAs (Decidable True)
  | .tick _ _ => inferInstanceAs (Decidable True)

/-- What the processor of an inbox sees. -/
def around (relayer : Relayer) (tasks : InboxTasks) (dbFails : Bool) :
    Surroundings where
  db := relayer.db
  dbFails := dbFails
  ckptRx := relayer.ckpt
  ckptClosed := relayer.fetcher.toOption.isNone
  txClosed := tasks.submitterEnd.isSome

/-- What the fetcher is answered. All receivers are gone once all processors
have ended. -/
def fetcherPoll (relayer : Relayer)
    (latestIndex : Except Report (Option UInt32))
    (syncer : MultisigCheckpointSyncer) : FetcherPoll where
  latestIndex := latestIndex
  syncer := syncer
  rxClosed := relayer.inboxes.all fun tasks =>
    Pipeline.ended tasks.processor.phase

section Machine

variable [Crypto]

/-- Start the tasks on a database. -/
def start (conf : RelayerConf) (db : AbacusDB) : Except Panic Relayer := do
  let inboxes ← conf.inboxes.mapM (InboxTasks.new conf)
  return {
    conf := conf
    db := db
    ckpt := none
    fetcher := .ok .new
    outboxSync := .start (Indexer.start conf.indexer.fromBlock db).loop
    gasSync :=
      if conf.hasPaymaster then
        some (.start ((resumeBlock conf.indexer.fromBlock).result db))
      else none
    inboxes := inboxes }

/-- An iteration of the fetcher, unless it has ended. -/
def fetch (poll : FetcherPoll) (relayer : Relayer) : Relayer :=
  { relayer with
    fetcher := CheckpointFetcher.step relayer.fetcher poll
    ckpt :=
      match (CheckpointFetcher.sends relayer.fetcher poll).getLast? with
      | some checkpoint => some checkpoint
      | none => relayer.ckpt }

/-- A step of the tasks of one inbox on the shared database. -/
def modifyInbox (relayer : Relayer) (inbox : Nat)
    (change : InboxTasks → InboxTasks × AbacusDB) : Relayer :=
  match relayer.inboxes[inbox]? with
  | none => relayer
  | some tasks =>
      { relayer with
        db := (change tasks).2
        inboxes := relayer.inboxes.set inbox (change tasks).1 }

/-- The relayer after an event. -/
def step (relayer : Relayer) : Event → Relayer
  | .pollOutbox poll =>
      { relayer with
        outboxSync := relayer.outboxSync.iterate
          (syncIteration relayer.conf.indexer.chunkSize poll) relayer.db }
  | .writeOutbox =>
      { relayer with
        db := relayer.outboxSync.write relayer.db
        outboxSync := relayer.outboxSync.rest }
  | .pollGas poll =>
      { relayer with
        gasSync := relayer.gasSync.map fun gasSync => gasSync.iterate
          (gasIteration relayer.conf.indexer.chunkSize poll) relayer.db }
  | .writeGas =>
      { relayer with
        db :=
          match relayer.gasSync with
          | some gasSync => gasSync.write relayer.db
          | none => relayer.db
        gasSync := relayer.gasSync.map .rest }
  | .fetch latestIndex syncer =>
      relayer.fetch (relayer.fetcherPoll latestIndex syncer)
  | .process inbox dbFails =>
      relayer.modifyInbox inbox fun tasks =>
        (tasks.process (relayer.around tasks dbFails), relayer.db)
  | .tick inbox answers =>
      relayer.modifyInbox inbox (InboxTasks.tick answers relayer.db)
  | .restart conf =>
      match start conf relayer.db with
      | .ok started => started
      | .error _ => relayer

/-- The message that a tick handles, whatever becomes of it. -/
def handled (relayer : Relayer) (inbox : Nat) (answers : TickAnswers) :
    Option SubmitMessageArgs :=
  relayer.inboxes[inbox]?.bind (InboxTasks.handled answers relayer.db)

/-- A tick calls the inbox to process a message. -/
def Attempts (relayer : Relayer) (inbox : Nat) (answers : TickAnswers)
    (msg : SubmitMessageArgs) : Prop :=
  relayer.handled inbox answers = some msg ∧
    answers.messageStatus msg.committedMessage.toLeaf = .ok .none

end Machine

/-! ## The end of the agent -/

/-- What the handles of the ended tasks return, in the order in which they are
selected. The sync tasks discard what has ended their loop. -/
def finished (relayer : Relayer) : List (Except AgentError Unit) :=
  (relayer.inboxes.filterMap fun tasks =>
      tasks.finished.map fun outcome => outcome.mapError AgentError.join) ++
    (match relayer.fetcher with
      | .ok _ => []
      | .error error => [.error (.fetcher error)]) ++
    (match relayer.outboxSync.ended with
      | none => []
      | some _ => [.ok ()]) ++
    (match relayer.gasSync.bind Loop.ended with
      | none => []
      | some _ => [.ok ()])

/-- The outcome of the agent is that of the first task that has ended. -/
def runAll (relayer : Relayer) : Option (Except AgentError Unit) :=
  relayer.finished.head?

end Relayer

end Abacus
