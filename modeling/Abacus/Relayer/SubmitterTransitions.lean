import Abacus.Relayer.SubmitterDelivery

/-!
# What a tick of the submitter does

A tick drains the channel and puts everything that waits in front of the run
queue. Of the message it then picks there is one of four things to say: it is
recorded as processed, it goes to the back of the run queue with one more
retry, it is dropped with an error, or the tick panics.
-/

namespace Abacus

namespace SerialSubmitter

/-- What recording returns, and the database it leaves. -/
theorem recordMessageProcessSuccess_cases
    (answers : TickAnswers)
    (msg : SubmitMessageArgs)
    (db : AbacusDB) :
    answers.markLeaf = .ok () ∧
        recordMessageProcessSuccess answers msg db =
          (.ok (), (AbacusDB.markLeafAsProcessed msg.leafIndex).final db) ∨
      ∃ error, answers.markLeaf = .error error ∧
        recordMessageProcessSuccess answers msg db =
          (.error (.error error), db) := by
  unfold recordMessageProcessSuccess
  cases taken : answers.markLeaf with
  | error error => exact .inr ⟨error, rfl, rfl⟩
  | ok _ => exact .inl ⟨rfl, rfl⟩

/-- Submitting a message records it, or leaves the database alone. -/
theorem processMessage_cases
    (answers : TickAnswers)
    (msg : SubmitMessageArgs)
    (db : AbacusDB) :
    processMessage answers msg db =
        (.ok (), (AbacusDB.markLeafAsProcessed msg.leafIndex).final db) ∨
      (∃ error, processMessage answers msg db = (.error (.error error), db)) ∨
        ∃ reason,
          processMessage answers msg db = (.error (.panic reason), db) := by
  unfold processMessage
  cases answers.process msg.checkpoint msg.committedMessage.message
      msg.proof with
  | error fault =>
      cases fault with
      | error error => exact .inr (.inl ⟨_, rfl⟩)
      | panic reason => exact .inr (.inr ⟨_, rfl⟩)
  | ok outcome =>
      rcases recordMessageProcessSuccess_cases answers msg db with
        ⟨-, recorded⟩ | ⟨error, -, failed⟩
      · exact .inl recorded
      · exact .inr (.inl ⟨error, failed⟩)

section Transitions

variable [Crypto]

/-- The run queue from which a tick picks a message. -/
def promoted (submitter : SerialSubmitter) : List SubmitMessageArgs :=
  submitter.waitQueue ++ submitter.rx ++ submitter.runQueue

/-- A tick drops the message it picks: its status is not known, or it is
processed and the database does not take the record. -/
def Drops (answers : TickAnswers) (msg : SubmitMessageArgs) : Prop :=
  (∃ error, answers.messageStatus msg.committedMessage.toLeaf =
      .error error) ∨
    answers.messageStatus msg.committedMessage.toLeaf = .ok .processed ∧
      ∃ error, answers.markLeaf = .error error

/-- The outcome of a tick: what it returns, and the submitter it leaves. -/
inductive Ticked (answers : TickAnswers) (submitter : SerialSubmitter) :
    Except (Fault Report) Unit × SerialSubmitter → Prop
  | disconnected
      (closed : submitter.next answers = none)
      (error : Report) :
      Ticked answers submitter
        (.error (.error error), { submitter with
          rx := [], waitQueue := submitter.waitQueue ++ submitter.rx })
  | idle (nothing : submitter.promoted = []) :
      Ticked answers submitter
        (.ok (), { submitter with rx := [], waitQueue := [], runQueue := [] })
  | record {msg : SubmitMessageArgs} {runQueue : List SubmitMessageArgs}
      (picked : submitter.next answers = some msg)
      (popped : submitter.promoted = msg :: runQueue)
      (kept : ¬ Drops answers msg) :
      Ticked answers submitter
        (.ok (), {
          rx := [], waitQueue := [], runQueue := runQueue
          db := (AbacusDB.markLeafAsProcessed msg.leafIndex).final
            submitter.db })
  | retry {msg : SubmitMessageArgs} {runQueue : List SubmitMessageArgs}
      (picked : submitter.next answers = some msg)
      (popped : submitter.promoted = msg :: runQueue)
      (kept : ¬ Drops answers msg)
      {numRetries : UInt32}
      (counted : numRetries.toNat = msg.numRetries.toNat + 1) :
      Ticked answers submitter
        (.ok (), { submitter with
          rx := [], waitQueue := []
          runQueue := runQueue ++ [{ msg with numRetries := numRetries }] })
  | drop {msg : SubmitMessageArgs} {runQueue : List SubmitMessageArgs}
      (picked : submitter.next answers = some msg)
      (popped : submitter.promoted = msg :: runQueue)
      (drops : Drops answers msg)
      (error : Report) :
      Ticked answers submitter
        (.error (.error error), { submitter with
          rx := [], waitQueue := [], runQueue := runQueue })
  | panic {msg : SubmitMessageArgs} {runQueue : List SubmitMessageArgs}
      (picked : submitter.next answers = some msg)
      (popped : submitter.promoted = msg :: runQueue)
      (reason : Panic) :
      Ticked answers submitter
        (.error (.panic reason), { submitter with
          rx := [], waitQueue := [], runQueue := runQueue })

/-- An attempt that is made does not drop its message. -/
theorem ticked_attempt
    {answers : TickAnswers}
    {submitter : SerialSubmitter}
    {msg : SubmitMessageArgs}
    {runQueue : List SubmitMessageArgs}
    (picked : submitter.next answers = some msg)
    (popped : submitter.promoted = msg :: runQueue)
    (kept : ¬ Drops answers msg) :
    Ticked answers submitter
      (attempt answers msg { submitter with
        rx := [], waitQueue := [], runQueue := runQueue }) := by
  unfold attempt
  rcases processMessage_cases answers msg submitter.db with
    processed | ⟨error, failed⟩ | ⟨reason, panicked⟩
  · simp only [processed]
    exact .record picked popped kept
  · simp only [failed]
    rcases checkedAdd_cases (ε := Report) msg.numRetries 1 with
      ⟨numRetries, added, counted⟩ | overflow
    · simp only [added]
      exact .retry picked popped kept counted
    · simp only [overflow]
      exact .panic picked popped .overflow
  · simp only [panicked]
    exact .panic picked popped reason

/-- Every tick has one of the outcomes. -/
theorem ticked_tick
    (answers : TickAnswers)
    (submitter : SerialSubmitter) :
    Ticked answers submitter (submitter.tick answers) := by
  unfold tick
  by_cases closed : answers.disconnected = true
  · simp only [closed, if_true]
    exact .disconnected (by simp [next, closed]) _
  · simp only [closed, if_false, Bool.false_eq_true]
    cases popped : submitter.waitQueue ++ submitter.rx ++
        submitter.runQueue with
    | nil => exact .idle popped
    | cons msg runQueue =>
        have picked : submitter.next answers = some msg := by
          simp [next, closed, popped]
        simp only [handle]
        cases status : answers.messageStatus
            msg.committedMessage.toLeaf with
        | error error =>
            exact .drop picked popped (.inl ⟨error, status⟩) _
        | ok known =>
            cases known with
            | none =>
                refine ticked_attempt picked popped ?_
                rintro (⟨error, unknown⟩ | ⟨processed, -⟩)
                · rw [status] at unknown
                  cases unknown
                · rw [status] at processed
                  cases processed
            | processed =>
                rcases recordMessageProcessSuccess_cases answers msg
                  submitter.db with ⟨taken, recorded⟩ | ⟨error, taken, failed⟩
                · simp only [recorded]
                  refine .record picked popped ?_
                  rintro (⟨error, unknown⟩ | ⟨-, error, refused⟩)
                  · rw [status] at unknown
                    cases unknown
                  · rw [taken] at refused
                    cases refused
                · simp only [failed]
                  exact .drop picked popped (.inr ⟨status, error, taken⟩) _

end Transitions

/-- The messages sent to the submitter, in order. -/
def sent (events : List Event) : List SubmitMessageArgs :=
  events.filterMap fun event =>
    match event with
    | .send msg => some msg
    | .tick _ => none

end SerialSubmitter

end Abacus
