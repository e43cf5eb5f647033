import Abacus.Db.AbacusDB
import Abacus.Relayer.MatchingList
import Abacus.Relayer.MerkleTreeBuilder
import Abacus.Relayer.SerialSubmitter

/-!
# The message processor

The processor scans the leaf indices in order. A tick reads the database, may
wait for a checkpoint and for leaves, and either moves past the index, sends
the message of the index to the submitter, or leaves the index for the next
tick. The places where a tick can be interrupted are the phases of the
processor, and a step takes it from one phase to the next.
-/

namespace Abacus

/-- Errors that end the processor. -/
inductive ProcessorError
  | report (error : Report)
  | builder (error : MerkleTreeBuilderError H256)
  | recvError
  | sendError
  deriving DecidableEq

/-- Where the processor stands: before its first checkpoint, at the start of a
tick, after the status of the index has been read, while it waits for a
checkpoint or for the leaf `next`, and before it looks for the proof. -/
inductive Phase
  | starting
  | idle
  | reading
  | awaiting (message : CommittedMessage)
  | updating (message : CommittedMessage)
      (checkpoint : MultisigSignedCheckpoint) (next : Nat)
  | dispatching (message : CommittedMessage)
      (checkpoint : MultisigSignedCheckpoint)
  | failed (error : ProcessorError)
  | panicked (reason : Panic)
  deriving DecidableEq

/-- The processor of one inbox. -/
structure MessageProcessor where
  localDomain : UInt32
  whitelist : MatchingList
  blacklist : MatchingList
  proverSync : MerkleTreeBuilder H256
  messageLeafIndex : UInt32
  phase : Phase

/-- What the processor sees of its surroundings during one step: the database
and whether it fails, the checkpoint channel and whether it is closed, and
whether the channel to the submitter is closed. -/
structure Surroundings where
  db : AbacusDB
  dbFails : Bool
  ckptRx : Option MultisigSignedCheckpoint
  ckptClosed : Bool
  txClosed : Bool

/-- A read of the database. -/
def Surroundings.read (around : Surroundings) (program : DbM α) :
    Except (Fault Report) α :=
  if around.dbFails then .error (.error .backend)
  else program.result around.db

/-- A fault of another component ends the processor. -/
def Fault.toProcessor (wrap : ε → ProcessorError) :
    Fault ε → Fault ProcessorError
  | .error cause => .error (wrap cause)
  | .panic reason => .panic reason

/-- The processor after a step, with the message it sent. -/
abbrev ProcessorStep :=
  Except (Fault ProcessorError) (MessageProcessor × Option SubmitMessageArgs)

namespace MessageProcessor

/-- A processor before its first checkpoint. -/
def new [Crypto] (localDomain : UInt32)
    (whitelist blacklist : MatchingList) : Except Panic MessageProcessor := do
  let proverSync ← MerkleTreeBuilder.new
  return {
    localDomain := localDomain
    whitelist := whitelist
    blacklist := blacklist
    proverSync := proverSync
    messageLeafIndex := 0
    phase := .starting }

/-- Go on in another phase, without a message. -/
def goto (processor : MessageProcessor) (phase : Phase) : ProcessorStep :=
  .ok ({ processor with phase := phase }, none)

/-- Move past the current index. -/
def skip (processor : MessageProcessor) : ProcessorStep := do
  let next ← checkedAdd processor.messageLeafIndex 1
  return ({ processor with messageLeafIndex := next, phase := .idle }, none)

/-- The start of the main loop: wait for the first checkpoint. -/
def awaitFirstCheckpoint (around : Surroundings)
    (processor : MessageProcessor) : ProcessorStep :=
  match around.ckptRx with
  | some _ => processor.goto .idle
  | none =>
      if around.ckptClosed then .error (.error .recvError)
      else processor.goto .starting

/-- The start of a tick: skip an index that has a processing status. -/
def checkStatus (around : Surroundings) (processor : MessageProcessor) :
    ProcessorStep := do
  let status ← (around.read (AbacusDB.retrieveLeafProcessingStatus
    processor.messageLeafIndex)).mapError (Fault.toProcessor .report)
  match status with
  | some _ => processor.skip
  | none => processor.goto .reading

/-- Skip a message for another inbox, one that is not whitelisted, and one
that is blacklisted. -/
def filter (processor : MessageProcessor) (message : CommittedMessage) :
    ProcessorStep :=
  if message.message.destination ≠ processor.localDomain then processor.skip
  else if ¬processor.whitelist.msgMatches message.message true then
    processor.skip
  else if processor.blacklist.msgMatches message.message false then
    processor.skip
  else processor.goto (.awaiting message)

/-- Read the message of the index; without one, start over. -/
def readMessage (around : Surroundings) (processor : MessageProcessor) :
    ProcessorStep := do
  let found ← (around.read (AbacusDB.messageByLeafIndex
    processor.messageLeafIndex)).mapError (Fault.toProcessor .report)
  match found with
  | none => processor.goto .idle
  | some raw =>
      match CommittedMessage.tryFrom raw with
      | .error error => .error (.error (.report error))
      | .ok message => processor.filter message

/-- Bring the builder up to a checkpoint that covers the index, unless it is
ahead. The update returns at once for a checkpoint of index zero. -/
def prepare (processor : MessageProcessor) (message : CommittedMessage)
    (checkpoint : MultisigSignedCheckpoint) : ProcessorStep :=
  if processor.messageLeafIndex ≤ checkpoint.checkpoint.index then
    if processor.proverSync.count ≤ checkpoint.checkpoint.index then
      if checkpoint.checkpoint.index = 0 then
        processor.goto (.dispatching message checkpoint)
      else
        processor.goto (.updating message checkpoint
          processor.proverSync.count.toNat)
    else processor.goto (.dispatching message checkpoint)
  else .error (.panic .checkpointBelowMessage)

/-- Wait for a checkpoint that covers the index. -/
def awaitCheckpoint (around : Surroundings) (processor : MessageProcessor)
    (message : CommittedMessage) : ProcessorStep :=
  match around.ckptRx with
  | some checkpoint =>
      if processor.messageLeafIndex ≤ checkpoint.checkpoint.index then
        processor.prepare message checkpoint
      else if around.ckptClosed then .error (.error .recvError)
      else processor.goto (.awaiting message)
  | none =>
      if around.ckptClosed then .error (.error .recvError)
      else processor.goto (.awaiting message)

/-- The processor after an outcome: an error or a panic is its last phase. -/
def settle (processor : MessageProcessor) :
    ProcessorStep → MessageProcessor × Option SubmitMessageArgs
  | .ok outcome => outcome
  | .error (.error error) => ({ processor with phase := .failed error }, none)
  | .error (.panic reason) =>
      ({ processor with phase := .panicked reason }, none)

section Proving

variable [Crypto]

/-- One round of the loop of an update: wait for the next leaf and ingest it.
After the last leaf the roots are compared. -/
def update (around : Surroundings) (processor : MessageProcessor)
    (message : CommittedMessage) (checkpoint : MultisigSignedCheckpoint)
    (next : Nat) : ProcessorStep :=
  if next ≤ checkpoint.checkpoint.index.toNat then
    let found :=
      around.read (AbacusDB.leafByLeafIndex (UInt32.ofNat next))
    match found with
    | .ok none => processor.goto (.updating message checkpoint next)
    | found => do
        let proverSync ← (processor.proverSync.ingestLeafIndex found
          (UInt32.ofNat next)).mapError (Fault.toProcessor .builder)
        return ({
          processor with
          proverSync := proverSync
          phase := .updating message checkpoint (next + 1) }, none)
  else do
    (processor.proverSync.checkRoots checkpoint.checkpoint.root).mapError
      (Fault.toProcessor .builder)
    processor.goto (.dispatching message checkpoint)

/-- Send the message with its proof, and move past its index. -/
def send (around : Surroundings) (processor : MessageProcessor)
    (message : CommittedMessage) (checkpoint : MultisigSignedCheckpoint)
    (proof : Proof H256) : ProcessorStep :=
  if around.txClosed then .error (.error .sendError)
  else
    let submitArgs := SubmitMessageArgs.new processor.messageLeafIndex
      message checkpoint proof
    match (checkedAdd processor.messageLeafIndex 1 :
        Except (Fault ProcessorError) UInt32) with
    | .ok next =>
        .ok ({ processor with messageLeafIndex := next, phase := .idle },
          some submitArgs)
    | .error _ =>
        .ok ({ processor with phase := .panicked .overflow },
          some submitArgs)

/-- Prove the message against the checkpoint and send it. -/
def dispatch (around : Surroundings) (processor : MessageProcessor)
    (message : CommittedMessage) (checkpoint : MultisigSignedCheckpoint) :
    ProcessorStep := do
  let expected ← checkedAdd checkpoint.checkpoint.index 1
  if expected ≠ processor.proverSync.count then
    throw (.panic .countMismatch)
  let proof ← (processor.proverSync.getProof
    processor.messageLeafIndex).mapError (Fault.toProcessor .builder)
  let leaf ← (around.read (AbacusDB.leafByLeafIndex
    processor.messageLeafIndex)).mapError (Fault.toProcessor .report)
  if leaf.isSome then processor.send around message checkpoint proof
  else processor.goto .idle

/-- The step from each phase. A processor that has failed or panicked is
gone. -/
def advance (around : Surroundings) (processor : MessageProcessor) :
    ProcessorStep :=
  match processor.phase with
  | .starting => processor.awaitFirstCheckpoint around
  | .idle => processor.checkStatus around
  | .reading => processor.readMessage around
  | .awaiting message => processor.awaitCheckpoint around message
  | .updating message checkpoint next =>
      processor.update around message checkpoint next
  | .dispatching message checkpoint =>
      processor.dispatch around message checkpoint
  | .failed _ => .ok (processor, none)
  | .panicked _ => .ok (processor, none)

/-- One step of the processor. -/
def step (around : Surroundings) (processor : MessageProcessor) :
    MessageProcessor × Option SubmitMessageArgs :=
  processor.settle (processor.advance around)

/-! ## A new processor -/

/-- The processor has done nothing yet. -/
structure Fresh (processor : MessageProcessor) : Prop where
  proverSync : MerkleTreeBuilder.Holds [] processor.proverSync
  messageLeafIndex_eq : processor.messageLeafIndex = 0
  phase_eq : processor.phase = .starting

/-- A new processor has done nothing yet. -/
theorem fresh_of_new
    {localDomain : UInt32}
    {whitelist blacklist : MatchingList}
    {processor : MessageProcessor}
    (created : new localDomain whitelist blacklist = .ok processor) :
    Fresh processor := by
  obtain ⟨builder, built, holds⟩ := @MerkleTreeBuilder.holds_new H256 _
  rw [new, built] at created
  cases created
  exact ⟨holds, rfl, rfl⟩

end Proving

end MessageProcessor

end Abacus
