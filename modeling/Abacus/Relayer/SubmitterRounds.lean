import Abacus.Relayer.SubmitterConservation
import Abacus.Relayer.SubmitterSchedule

/-!
# A round of the submitter through its queue

While nothing arrives, as many ticks as there are messages in the run queue
handle each of them once, in order. The messages whose attempt fails come back
behind those that have yet to be handled, so that the round ends with the
failed ones in their old order.
-/

namespace Abacus

/-- A message after a failed attempt. -/
def SubmitMessageArgs.retried (msg : SubmitMessageArgs) : SubmitMessageArgs :=
  { msg with numRetries := msg.numRetries + 1 }

namespace SerialSubmitter

section Rounds

variable [Crypto]

/-- The attempt at a message fails: the inbox does not know it as processed,
and submitting it or recording it returns an error. -/
def attemptFails (answers : TickAnswers) (msg : SubmitMessageArgs) : Bool :=
  match answers.messageStatus msg.committedMessage.toLeaf with
  | .ok .none =>
      match answers.process msg.checkpoint msg.committedMessage.message
          msg.proof, answers.markLeaf with
      | .error (.error _), _ => true
      | .ok _, .error _ => true
      | _, _ => false
  | _ => false

/-- A tick returns without an error. -/
def Succeeds (submitter : SerialSubmitter) : Event → Prop
  | .send _ => True
  | .tick answers => (submitter.tick answers).1 = .ok ()

/-- Whether an attempt fails is whether submitting the message returns an
error. -/
theorem processMessage_of_attemptFails
    {answers : TickAnswers}
    {msg : SubmitMessageArgs}
    (unknown : answers.messageStatus msg.committedMessage.toLeaf =
      .ok .none)
    (db : AbacusDB) :
    attemptFails answers msg = true ∧
        (∃ error, processMessage answers msg db = (.error (.error error), db)) ∨
      attemptFails answers msg = false ∧
        (processMessage answers msg db =
            (.ok (), (AbacusDB.markLeafAsProcessed msg.leafIndex).final db) ∨
          ∃ reason,
            processMessage answers msg db = (.error (.panic reason), db)) := by
  unfold attemptFails processMessage
  simp only [unknown]
  cases answers.process msg.checkpoint msg.committedMessage.message
      msg.proof with
  | error fault =>
      cases fault with
      | error error => exact .inl ⟨rfl, _, rfl⟩
      | panic reason => exact .inr ⟨rfl, .inr ⟨reason, rfl⟩⟩
  | ok outcome =>
      rcases recordMessageProcessSuccess_cases answers msg db with
        ⟨taken, recorded⟩ | ⟨error, refused, failed⟩
      · simp only [taken, recorded]
        exact .inr ⟨trivial, .inl trivial⟩
      · simp only [refused, failed]
        exact .inl ⟨trivial, error, rfl⟩

/-- What an attempt that returns has done. -/
theorem attempt_eq_ok
    {answers : TickAnswers}
    {msg : SubmitMessageArgs}
    {submitter after : SerialSubmitter}
    (unknown : answers.messageStatus msg.committedMessage.toLeaf =
      .ok .none)
    (returned : attempt answers msg submitter = (.ok (), after)) :
    attemptFails answers msg = true ∧
        msg.retried.numRetries.toNat = msg.numRetries.toNat + 1 ∧
        after = { submitter with
          runQueue := submitter.runQueue ++ [msg.retried] } ∨
      attemptFails answers msg = false ∧
        after = { submitter with
          db := (AbacusDB.markLeafAsProcessed msg.leafIndex).final
            submitter.db } := by
  unfold attempt at returned
  rcases processMessage_of_attemptFails unknown submitter.db with
    ⟨fails, error, failed⟩ | ⟨succeeds, processed | ⟨reason, panicked⟩⟩
  · simp only [failed] at returned
    split at returned
    · cases returned
    · rename_i numRetries added
      unfold checkedAdd at added
      split at added
      · rename_i fits
        cases added
        cases returned
        refine .inl ⟨fails, ?_, rfl⟩
        rw [SubmitMessageArgs.retried, UInt32.toNat_add,
          Nat.mod_eq_of_lt fits]
        rfl
      · cases added
  · simp only [processed] at returned
    cases returned
    exact .inr ⟨succeeds, rfl⟩
  · simp only [panicked] at returned
    cases returned

/-- What a tick that returns has done with the first message of the run queue,
when nothing else waits. -/
theorem tick_eq_ok
    {answers : TickAnswers}
    {submitter : SerialSubmitter}
    {msg : SubmitMessageArgs}
    {rest : List SubmitMessageArgs}
    (waiting : submitter.waitQueue = [])
    (channel : submitter.rx = [])
    (queued : submitter.runQueue = msg :: rest)
    (returned : (submitter.tick answers).1 = .ok ()) :
    submitter.next answers = some msg ∧
      (attemptFails answers msg = true ∧
          msg.retried.numRetries.toNat = msg.numRetries.toNat + 1 ∧
          (submitter.tick answers).2 = { submitter with
            runQueue := rest ++ [msg.retried] } ∨
        attemptFails answers msg = false ∧
          (submitter.tick answers).2 = { submitter with
            runQueue := rest
            db := (AbacusDB.markLeafAsProcessed msg.leafIndex).final
              submitter.db }) := by
  obtain ⟨rx, waitQueue, runQueue, db⟩ := submitter
  simp only at waiting channel queued
  subst waiting channel queued
  cases outcome : tick answers ⟨[], [], msg :: rest, db⟩ with
  | mk result after =>
      rw [outcome] at returned
      simp only at returned
      subst returned
      unfold tick at outcome
      split at outcome
      · cases outcome
      · rename_i connected
        refine ⟨by simp [next, connected], ?_⟩
        simp only [List.append_nil, List.nil_append, handle] at outcome
        split at outcome
        · cases outcome
        · rename_i processed
          have settled : attemptFails answers msg = false := by
            simp [attemptFails, processed]
          rcases recordMessageProcessSuccess_cases answers msg db with
            ⟨-, recorded⟩ | ⟨error, -, failed⟩
          · simp only [recorded] at outcome
            cases outcome
            exact .inr ⟨settled, rfl⟩
          · simp only [failed] at outcome
            cases outcome
        · rename_i unknown
          exact attempt_eq_ok unknown outcome

/-- The messages of a round whose attempts fail, each with one more retry. -/
def retriedOf (queue : List SubmitMessageArgs) (answers : List TickAnswers) :
    List SubmitMessageArgs :=
  ((queue.zip answers).filter fun pair =>
    attemptFails pair.2 pair.1).map fun pair => pair.1.retried

theorem retriedOf_cons_of_fails
    {answer : TickAnswers}
    {msg : SubmitMessageArgs}
    (fails : attemptFails answer msg = true)
    (queue : List SubmitMessageArgs)
    (answers : List TickAnswers) :
    retriedOf (msg :: queue) (answer :: answers) =
      msg.retried :: retriedOf queue answers := by
  simp [retriedOf, fails]

theorem retriedOf_cons_of_settles
    {answer : TickAnswers}
    {msg : SubmitMessageArgs}
    (settles : attemptFails answer msg = false)
    (queue : List SubmitMessageArgs)
    (answers : List TickAnswers) :
    retriedOf (msg :: queue) (answer :: answers) =
      retriedOf queue answers := by
  simp [retriedOf, settles]

/-- What a round through a part of the run queue leaves. -/
structure Round (submitter after : SerialSubmitter)
    (pending behind : List SubmitMessageArgs) (answers : List TickAnswers) :
    Prop where
  rx : after.rx = []
  waitQueue : after.waitQueue = []
  runQueue : after.runQueue = behind ++ retriedOf pending answers
  counted : ∀ pair ∈ pending.zip answers, attemptFails pair.2 pair.1 = true →
    pair.1.retried.numRetries.toNat = pair.1.numRetries.toNat + 1
  kept : ∀ leafIndex, submitter.db.Recorded leafIndex →
    after.db.Recorded leafIndex
  recorded : ∀ pair ∈ pending.zip answers,
    attemptFails pair.2 pair.1 = false → after.db.Recorded pair.1.leafIndex

/-- A round that begins with a failed attempt. -/
theorem Round.cons_of_fails
    {submitter after : SerialSubmitter}
    {msg : SubmitMessageArgs}
    {pending behind : List SubmitMessageArgs}
    {answer : TickAnswers}
    {answers : List TickAnswers}
    (fails : attemptFails answer msg = true)
    (counted : msg.retried.numRetries.toNat = msg.numRetries.toNat + 1)
    {next : SerialSubmitter}
    (same : next.db = submitter.db)
    (round : Round next after pending (behind ++ [msg.retried]) answers) :
    Round submitter after (msg :: pending) behind (answer :: answers) where
  rx := round.rx
  waitQueue := round.waitQueue
  runQueue := by
    rw [round.runQueue, retriedOf_cons_of_fails fails, ← List.append_cons]
  counted pair member pairFails := by
    rcases List.mem_cons.mp member with rfl | later
    · exact counted
    · exact round.counted pair later pairFails
  kept leafIndex known := round.kept leafIndex (by rwa [same])
  recorded pair member settled := by
    rcases List.mem_cons.mp member with rfl | later
    · rw [fails] at settled
      cases settled
    · exact round.recorded pair later settled

/-- A round that begins with a message that is recorded. -/
theorem Round.cons_of_recorded
    {submitter after : SerialSubmitter}
    {msg : SubmitMessageArgs}
    {pending behind : List SubmitMessageArgs}
    {answer : TickAnswers}
    {answers : List TickAnswers}
    (settles : attemptFails answer msg = false)
    {next : SerialSubmitter}
    (marked : next.db =
      (AbacusDB.markLeafAsProcessed msg.leafIndex).final submitter.db)
    (round : Round next after pending behind answers) :
    Round submitter after (msg :: pending) behind (answer :: answers) where
  rx := round.rx
  waitQueue := round.waitQueue
  runQueue := by
    rw [round.runQueue, retriedOf_cons_of_settles settles]
  counted pair member pairFails := by
    rcases List.mem_cons.mp member with rfl | later
    · rw [settles] at pairFails
      cases pairFails
    · exact round.counted pair later pairFails
  kept leafIndex known := by
    apply round.kept
    rw [marked]
    exact AbacusDB.recorded_markLeafAsProcessed (.inr known)
  recorded pair member settled := by
    rcases List.mem_cons.mp member with rfl | later
    · apply round.kept
      rw [marked]
      exact AbacusDB.recorded_markLeafAsProcessed (.inl rfl)
    · exact round.recorded pair later settled

/-- Ticks that return make a round through as many messages at the front of
the run queue, and handle them in order. -/
theorem round_run
    {submitter : SerialSubmitter}
    {pending behind : List SubmitMessageArgs}
    (waiting : submitter.waitQueue = [])
    (channel : submitter.rx = [])
    (queued : submitter.runQueue = pending ++ behind)
    {answers : List TickAnswers}
    (length : answers.length = pending.length)
    (succeeds : Machine.AdmissibleRun step Succeeds submitter
      (answers.map .tick)) :
    Round submitter (Machine.run step submitter (answers.map .tick)) pending
        behind answers ∧
      ∀ i msg answer, pending[i]? = some msg → answers[i]? = some answer →
        (Machine.run step submitter
          ((answers.take i).map .tick)).next answer = some msg := by
  induction answers generalizing submitter pending behind with
  | nil =>
      obtain rfl := List.length_eq_zero_iff.mp length.symm
      refine ⟨⟨channel, waiting, ?_, by simp, fun _ known => known, by simp⟩,
        by simp⟩
      simpa [retriedOf] using queued
  | cons answer answers inductionHypothesis =>
      cases pending with
      | nil => simp at length
      | cons msg pending =>
          obtain ⟨returned, later⟩ := succeeds
          have rest : answers.length = pending.length := by
            simpa using length
          rw [List.cons_append] at queued
          obtain ⟨picked, outcome⟩ :=
            tick_eq_ok waiting channel queued returned
          rw [List.map_cons, Machine.run_cons]
          generalize next_eq : submitter.step (.tick answer) = next at later ⊢
          have extend : (∀ i other given, pending[i]? = some other →
                answers[i]? = some given →
                (Machine.run step next ((answers.take i).map .tick)).next
                  given = some other) →
              ∀ i other given, (msg :: pending)[i]? = some other →
                (answer :: answers)[i]? = some given →
                (Machine.run step submitter
                  (((answer :: answers).take i).map .tick)).next given =
                    some other := by
            rintro order (_ | i) other given found answered
            · cases found
              cases answered
              exact picked
            · rw [List.take_succ_cons, List.map_cons, Machine.run_cons,
                next_eq]
              exact order i other given found answered
          rcases outcome with ⟨fails, counted, stepped⟩ | ⟨settles, stepped⟩
          · have same := next_eq.symm.trans stepped
            have moved : next.runQueue = pending ++ (behind ++ [msg.retried]) :=
              (congrArg runQueue same).trans (List.append_assoc _ _ _)
            obtain ⟨round, order⟩ := inductionHypothesis
              ((congrArg waitQueue same).trans waiting)
              ((congrArg rx same).trans channel) moved rest later
            exact ⟨round.cons_of_fails fails counted (by rw [same]),
              extend order⟩
          · have same := next_eq.symm.trans stepped
            obtain ⟨round, order⟩ := inductionHypothesis
              ((congrArg waitQueue same).trans waiting)
              ((congrArg rx same).trans channel) (congrArg runQueue same)
              rest later
            exact ⟨round.cons_of_recorded settles (by rw [same]),
              extend order⟩

/-- As many ticks as there are messages in the run queue, while nothing arrives
and no tick returns an error, handle each of the messages once and in order;
the run queue then consists of those whose attempt failed, with one more
retry, and all others are recorded as processed. -/
theorem run_round
    {submitter : SerialSubmitter}
    (waiting : submitter.waitQueue = [])
    (channel : submitter.rx = [])
    {answers : List TickAnswers}
    (length : answers.length = submitter.runQueue.length)
    (succeeds : Machine.AdmissibleRun step Succeeds submitter
      (answers.map .tick)) :
    let after := Machine.run step submitter (answers.map .tick)
    (∀ i msg answer, submitter.runQueue[i]? = some msg →
        answers[i]? = some answer →
          (Machine.run step submitter
            ((answers.take i).map .tick)).next answer = some msg) ∧
      after.runQueue = retriedOf submitter.runQueue answers ∧
      (∀ pair ∈ submitter.runQueue.zip answers,
        attemptFails pair.2 pair.1 = true →
          pair.1.retried.numRetries.toNat =
            pair.1.numRetries.toNat + 1) ∧
      ∀ pair ∈ submitter.runQueue.zip answers,
        attemptFails pair.2 pair.1 = false →
          after.db.Recorded pair.1.leafIndex := by
  intro after
  obtain ⟨round, order⟩ := round_run waiting channel
    (List.append_nil _).symm length succeeds
  exact ⟨order, round.runQueue, round.counted, round.recorded⟩

end Rounds

/-- Two messages wait to be attempted. -/
def twoQueued : SerialSubmitter where
  rx := []
  waitQueue := []
  runQueue := [sampleAt 3, sampleAt 4]
  db := Journal.empty

/-- The first message is refused and comes back, the second is known as
processed. -/
theorem run_round_two :
    let _ := Crypto.transparent
    let after := Machine.run step twoQueued
      [.tick refusingAnswers, .tick processedAnswers]
    (Machine.run step twoQueued [.tick refusingAnswers]).next
        processedAnswers = some (sampleAt 4) ∧
      after.runQueue = [(sampleAt 3).retried] ∧
      after.db.Recorded 4 := by
  intro crypto after
  obtain ⟨order, queue, -, recorded⟩ :=
    @run_round crypto twoQueued rfl rfl [refusingAnswers, processedAnswers]
      rfl ⟨rfl, rfl, trivial⟩
  exact ⟨order 1 _ _ rfl rfl, queue,
    recorded (sampleAt 4, processedAnswers) (by simp [twoQueued]) rfl⟩

end SerialSubmitter

end Abacus
