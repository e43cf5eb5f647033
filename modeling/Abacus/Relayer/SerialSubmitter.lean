import Abacus.Core.Checkpoint
import Abacus.Db.AbacusDB
import Abacus.Ethereum.Tx
import Abacus.Library.Machine

/-!
# The serial submitter

The submitter takes messages from a channel, keeps them in queues and handles
one of them in each tick: it asks the inbox for the status of the message, and
submits it unless it has been processed. Either way can record the message as
processed in the database, and that record is final.
-/

namespace Abacus

/-- A message with all that is needed to submit it. -/
structure SubmitMessageArgs where
  leafIndex : UInt32
  committedMessage : CommittedMessage
  checkpoint : MultisigSignedCheckpoint
  proof : Proof H256
  numRetries : UInt32
  deriving DecidableEq

/-- A message that has not been tried yet. -/
def SubmitMessageArgs.new (leafIndex : UInt32)
    (committedMessage : CommittedMessage)
    (checkpoint : MultisigSignedCheckpoint) (proof : Proof H256) :
    SubmitMessageArgs where
  leafIndex := leafIndex
  committedMessage := committedMessage
  checkpoint := checkpoint
  proof := proof
  numRetries := 0

/-- The status of a message on its destination chain. -/
inductive MessageStatus
  | none
  | processed
  deriving DecidableEq

/-- The channel, the queues and the database of a submitter. -/
structure SerialSubmitter where
  rx : List SubmitMessageArgs
  waitQueue : List SubmitMessageArgs
  runQueue : List SubmitMessageArgs
  db : AbacusDB

/-- What the environment answers during one tick: whether the channel is
disconnected once it is drained, the status of a leaf, the outcome of a
submission, and whether the database takes the record. -/
structure TickAnswers where
  disconnected : Bool
  messageStatus : H256 → Except ChainCommunicationError MessageStatus
  process : MultisigSignedCheckpoint → AbacusMessage → Proof H256 →
    Except (Fault ChainCommunicationError) TxOutcome
  markLeaf : Except Report Unit

namespace SerialSubmitter

/-- A submitter without messages. -/
def new (db : AbacusDB) : SerialSubmitter where
  rx := []
  waitQueue := []
  runQueue := []
  db := db

/-- Record a message as processed. -/
def recordMessageProcessSuccess (answers : TickAnswers)
    (msg : SubmitMessageArgs) (db : AbacusDB) :
    Except (Fault Report) Unit × AbacusDB :=
  match answers.markLeaf with
  | .error error => (.error (.error error), db)
  | .ok () => (.ok (), (AbacusDB.markLeafAsProcessed msg.leafIndex).final db)

/-- Submit a message and record it as processed; of the outcome, only the
transaction hash is used, for a log entry. -/
def processMessage (answers : TickAnswers) (msg : SubmitMessageArgs)
    (db : AbacusDB) : Except (Fault Report) Unit × AbacusDB :=
  match answers.process msg.checkpoint msg.committedMessage.message
      msg.proof with
  | .error (.error error) => (.error (.error (.chain error)), db)
  | .error (.panic reason) => (.error (.panic reason), db)
  | .ok _ => recordMessageProcessSuccess answers msg db

/-- Try to submit a message; a message that fails goes to the back of the
queue. -/
def attempt (answers : TickAnswers) (msg : SubmitMessageArgs)
    (submitter : SerialSubmitter) :
    Except (Fault Report) Unit × SerialSubmitter :=
  match processMessage answers msg submitter.db with
  | (.ok (), db) => (.ok (), { submitter with db := db })
  | (.error (.panic reason), db) =>
      (.error (.panic reason), { submitter with db := db })
  | (.error (.error _), db) =>
      match (checkedAdd msg.numRetries 1 : Except (Fault Report) UInt32) with
      | .error fault => (.error fault, { submitter with db := db })
      | .ok numRetries =>
          (.ok (), {
            submitter with
            runQueue :=
              submitter.runQueue ++ [{ msg with numRetries := numRetries }]
            db := db })

/-- Handle the message that was picked. -/
def handle [Crypto] (answers : TickAnswers) (msg : SubmitMessageArgs)
    (submitter : SerialSubmitter) :
    Except (Fault Report) Unit × SerialSubmitter :=
  match answers.messageStatus msg.committedMessage.toLeaf with
  | .error error => (.error (.error (.chain error)), submitter)
  | .ok .processed =>
      let (result, db) :=
        recordMessageProcessSuccess answers msg submitter.db
      (result, { submitter with db := db })
  | .ok .none => attempt answers msg submitter

/-- One round of scheduling: drain the channel, promote the waiting messages
to the front of the run queue, and handle the first message of it. -/
def tick [Crypto] (answers : TickAnswers) (submitter : SerialSubmitter) :
    Except (Fault Report) Unit × SerialSubmitter :=
  let waitQueue := submitter.waitQueue ++ submitter.rx
  if answers.disconnected then
    (.error (.error (.message "Disconnected rcvq or fatal err")),
      { submitter with rx := [], waitQueue := waitQueue })
  else
    match waitQueue ++ submitter.runQueue with
    | [] =>
        (.ok (), { submitter with rx := [], waitQueue := [], runQueue := [] })
    | msg :: runQueue =>
        handle answers msg
          { submitter with rx := [], waitQueue := [], runQueue := runQueue }

/-- What happens to a submitter: a message is sent to it, or it ticks. -/
inductive Event
  | send (msg : SubmitMessageArgs)
  | tick (answers : TickAnswers)

/-- The submitter after an event. -/
def step [Crypto] (submitter : SerialSubmitter) : Event → SerialSubmitter
  | .send msg => { submitter with rx := submitter.rx ++ [msg] }
  | .tick answers => (submitter.tick answers).2

end SerialSubmitter

end Abacus
