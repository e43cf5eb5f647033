import Abacus.Base.Multisig
import Abacus.Relayer.SerialSubmitter

/-!
# What the submitter records as processed

A leaf is recorded as processed in a tick that handles a message of its index
and finds it processed on the inbox, or submits it with any outcome. So the
record is backed by a delivery as long as the outcomes of the submissions are
executed.
-/

namespace Abacus

namespace SerialSubmitter

/-- What recording does to the database. -/
theorem recordMessageProcessSuccess_db
    (answers : TickAnswers)
    (msg : SubmitMessageArgs)
    (db : AbacusDB) :
    (recordMessageProcessSuccess answers msg db).2 = db ∨
      answers.markLeaf = .ok () ∧
        (recordMessageProcessSuccess answers msg db).2 =
          (AbacusDB.markLeafAsProcessed msg.leafIndex).final db := by
  unfold recordMessageProcessSuccess
  split
  · exact .inl rfl
  · rename_i taken
    exact .inr ⟨taken, rfl⟩

/-- Recording a leaf touches no other record. -/
theorem final_markLeafAsProcessed_of_ne
    {leafIndex : UInt32}
    {key : Record}
    (different : key ≠ .leafProcessStatus leafIndex)
    (db : AbacusDB) :
    (AbacusDB.markLeafAsProcessed leafIndex).final db key = db key :=
  Journal.Put.apply_of_ne different db

/-- What an attempt does to the database. -/
theorem attempt_db
    (answers : TickAnswers)
    (msg : SubmitMessageArgs)
    (submitter : SerialSubmitter) :
    (attempt answers msg submitter).2.db = submitter.db ∨
      (∃ outcome, answers.process msg.checkpoint
          msg.committedMessage.message msg.proof = .ok outcome) ∧
        answers.markLeaf = .ok () ∧
        (attempt answers msg submitter).2.db =
          (AbacusDB.markLeafAsProcessed msg.leafIndex).final
            submitter.db := by
  have db : (attempt answers msg submitter).2.db =
      (processMessage answers msg submitter.db).2 := by
    unfold attempt
    split
    · rename_i processed
      rw [processed]
    · rename_i processed
      rw [processed]
    · rename_i processed
      rw [processed]
      split <;> rfl
  rw [db]
  unfold processMessage
  split
  · exact .inl rfl
  · exact .inl rfl
  · rename_i outcome processed
    rcases recordMessageProcessSuccess_db answers msg submitter.db with
      same | ⟨taken, recorded⟩
    · exact .inl same
    · exact .inr ⟨⟨outcome, processed⟩, taken, recorded⟩

section Delivery

variable [Crypto]

/-- The message that a tick handles. -/
def next (submitter : SerialSubmitter) (answers : TickAnswers) :
    Option SubmitMessageArgs :=
  if answers.disconnected then none
  else (submitter.waitQueue ++ submitter.rx ++ submitter.runQueue).head?

/-- A tick submits a message: the inbox does not know it as processed. -/
def Submits (answers : TickAnswers) (msg : SubmitMessageArgs)
    (outcome : TxOutcome) : Prop :=
  answers.messageStatus msg.committedMessage.toLeaf = .ok .none ∧
    answers.process msg.checkpoint msg.committedMessage.message msg.proof =
      .ok outcome

/-- A message is delivered: the inbox reports it as processed, or it is
submitted in a transaction that is executed. -/
def Delivered (answers : TickAnswers) (msg : SubmitMessageArgs) : Prop :=
  answers.messageStatus msg.committedMessage.toLeaf = .ok .processed ∨
    ∃ outcome, Submits answers msg outcome ∧ outcome.executed = true

/-- Every submission that returns an outcome, and is then recorded, has been
executed. -/
def Executes (submitter : SerialSubmitter) : Event → Prop
  | .send _ => True
  | .tick answers =>
      ∀ msg outcome, submitter.next answers = some msg →
        Submits answers msg outcome → answers.markLeaf = .ok () →
          outcome.executed = true

/-- What a tick does to the database: nothing, or it records the message that
it handles, which was processed on the inbox or submitted with an outcome. -/
theorem tick_db
    (answers : TickAnswers)
    (submitter : SerialSubmitter) :
    (submitter.tick answers).2.db = submitter.db ∨
      ∃ msg, submitter.next answers = some msg ∧
        answers.markLeaf = .ok () ∧
        (answers.messageStatus msg.committedMessage.toLeaf = .ok .processed ∨
          ∃ outcome, Submits answers msg outcome) ∧
        (submitter.tick answers).2.db =
          (AbacusDB.markLeafAsProcessed msg.leafIndex).final
            submitter.db := by
  unfold tick next
  by_cases disconnected : answers.disconnected
  · simp [disconnected]
  · simp only [disconnected, Bool.false_eq_true, if_false]
    cases submitter.waitQueue ++ submitter.rx ++ submitter.runQueue with
    | nil => exact .inl rfl
    | cons msg runQueue =>
        simp only [handle]
        cases status : answers.messageStatus
            msg.committedMessage.toLeaf with
        | error error => exact .inl rfl
        | ok known =>
            cases known with
            | processed =>
                rcases recordMessageProcessSuccess_db answers msg
                  submitter.db with same | ⟨taken, recorded⟩
                · exact .inl same
                · exact .inr ⟨msg, rfl, taken, .inl status, recorded⟩
            | none =>
                rcases attempt_db answers msg { submitter with
                  rx := [], waitQueue := [], runQueue := runQueue } with
                  same | ⟨⟨outcome, processed⟩, taken, recorded⟩
                · exact .inl same
                · exact .inr ⟨msg, rfl, taken,
                    .inr ⟨outcome, status, processed⟩, recorded⟩

/-- In a run whose recorded submissions are all executed, every leaf that is
newly recorded as processed belongs to a message that was delivered in the
tick that recorded it. -/
theorem exists_delivered_of_recorded
    (submitter : SerialSubmitter)
    (events : List Event)
    (executes : Machine.AdmissibleRun step Executes submitter events)
    (leafIndex : UInt32)
    (fresh : submitter.db (.leafProcessStatus leafIndex) = none)
    (recorded : ((Machine.run step submitter events).db
      (.leafProcessStatus leafIndex)).isSome) :
    ∃ before answers after msg,
      events = before ++ .tick answers :: after ∧
        (Machine.run step submitter before).next answers = some msg ∧
        msg.leafIndex = leafIndex ∧ Delivered answers msg := by
  obtain ⟨before, event, after, split, earlier, later⟩ :=
    Machine.exists_first_step step
      (fun state => (state.db (.leafProcessStatus leafIndex)).isSome)
      (by simp [fresh]) recorded
  rw [split] at executes
  have executed := Machine.AdmissibleRun.at_split step executes
  cases event with
  | send msg => exact absurd later earlier
  | tick answers =>
      rcases tick_db answers (Machine.run step submitter before) with
        same | ⟨msg, handled, taken, backed, db⟩
      · rw [step, same] at later
        exact absurd later earlier
      · refine ⟨before, answers, after, msg, split, handled, ?_, ?_⟩
        · by_contra different
          rw [step, db, final_markLeafAsProcessed_of_ne
            (by simpa using Ne.symm different)] at later
          exact earlier later
        · rcases backed with processed | ⟨outcome, submitted⟩
          · exact .inl processed
          · exact .inr ⟨outcome, submitted,
              executed msg outcome handled submitted taken⟩

end Delivery

/-- A message at leaf index `3` with an empty body. -/
def sampleArgs : SubmitMessageArgs :=
  .new 3
    { leafIndex := 3
      message := {
        origin := 1
        sender := H256.zero
        destination := 2
        recipient := H256.zero
        body := [] } }
    ⟨.sample 3, []⟩
    ⟨H256.zero, 3, List.replicate 32 H256.zero, by decide⟩

/-- The inbox knows every message as processed. -/
def processedAnswers : TickAnswers where
  disconnected := false
  messageStatus _ := .ok .processed
  process _ _ _ := .error (.error .providerError)
  markLeaf := .ok ()

/-- The inbox knows no message, and the submitted transaction is mined with
the status of a reverted one. -/
def revertedAnswers : TickAnswers where
  disconnected := false
  messageStatus _ := .ok .none
  process _ _ _ :=
    EthereumInboxValidatorManager.process (.ok 100000) (.ok H256.zero)
      (.receipt { transactionHash := H256.zero, status := some 0 })
  markLeaf := .ok ()

/-- The inbox knows no message, and executes what is submitted. -/
def executedAnswers : TickAnswers where
  disconnected := false
  messageStatus _ := .ok .none
  process _ _ _ :=
    EthereumInboxValidatorManager.process (.ok 100000) (.ok H256.zero)
      (.receipt { transactionHash := H256.zero, status := some 1 })
  markLeaf := .ok ()

/-- The inbox knows no message, and nothing can be submitted to it. -/
def refusedAnswers : TickAnswers :=
  { executedAnswers with
    process := fun _ _ _ => .error (.error .providerError) }

/-- A message whose first submission fails and whose second one is executed is
recorded. -/
theorem exists_delivered_of_recorded_executed :
    ∃ before answers after msg,
      [Event.send sampleArgs, .tick refusedAnswers, .tick executedAnswers] =
        before ++ .tick answers :: after ∧
      @next (Machine.run (@step .transparent) (new Journal.empty) before)
        answers = some msg ∧
      msg.leafIndex = 3 ∧ @Delivered .transparent answers msg := by
  refine @exists_delivered_of_recorded .transparent (new Journal.empty)
    [.send sampleArgs, .tick refusedAnswers, .tick executedAnswers]
    ⟨trivial, ?_, ?_, trivial⟩ 3 rfl (by decide)
  · rintro msg outcome handled ⟨unknown, submitted⟩
    cases submitted
  · rintro msg outcome handled ⟨unknown, submitted⟩ taken
    cases submitted
    rfl

/-- A reverted transaction is recorded as a delivery: the outcome is not
executed and the inbox does not know the message, yet the leaf is marked. -/
theorem reverted_recorded :
    revertedAnswers.messageStatus
        (@CommittedMessage.toLeaf .transparent
          sampleArgs.committedMessage) = .ok .none ∧
      revertedAnswers.process sampleArgs.checkpoint
          sampleArgs.committedMessage.message sampleArgs.proof =
        .ok { txid := H256.zero, executed := false } ∧
      (Machine.run (@step .transparent) (new Journal.empty)
          [.send sampleArgs, .tick revertedAnswers]).db
        (.leafProcessStatus 3) = some (1 : UInt32) := by
  refine ⟨rfl, ?_, ?_⟩
  · decide
  · decide

end SerialSubmitter

end Abacus
