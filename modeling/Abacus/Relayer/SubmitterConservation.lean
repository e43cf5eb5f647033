import Abacus.Relayer.SubmitterTransitions
import Mathlib.Data.List.Count

/-!
# No message is lost by the submitter

Every message that was taken from the channel stands in the queues once, or
its leaf is recorded as processed. A tick keeps this exactly when it does not
drop a message whose leaf is not recorded: asking for the status and recording
a message that others have processed both end the tick with an error after the
message has left the queue.
-/

namespace Abacus

/-- A message as it was sent, whatever its retries. -/
def SubmitMessageArgs.asSent (msg : SubmitMessageArgs) : SubmitMessageArgs :=
  { msg with numRetries := 0 }

@[simp] theorem SubmitMessageArgs.asSent_leafIndex (msg : SubmitMessageArgs) :
    msg.asSent.leafIndex = msg.leafIndex := rfl

/-- A leaf is recorded as processed. -/
def AbacusDB.Recorded (db : AbacusDB) (leafIndex : UInt32) : Prop :=
  (AbacusDB.retrieveLeafProcessingStatus leafIndex).result db =
    .ok (some true)

theorem AbacusDB.recorded_iff
    {db : AbacusDB}
    {leafIndex : UInt32} :
    db.Recorded leafIndex ↔
      db (.leafProcessStatus leafIndex) = some (1 : UInt32) := by
  rw [AbacusDB.Recorded, Journal.Program.result,
    AbacusDB.run_retrieveLeafProcessingStatus]
  cases db (.leafProcessStatus leafIndex) <;> simp

/-- Marking a leaf records it, and keeps the other records. -/
theorem AbacusDB.recorded_markLeafAsProcessed
    {db : AbacusDB}
    {marked leafIndex : UInt32}
    (either : leafIndex = marked ∨ db.Recorded leafIndex) :
    AbacusDB.Recorded ((AbacusDB.markLeafAsProcessed marked).final db)
      leafIndex := by
  rw [recorded_iff] at either ⊢
  by_cases same : leafIndex = marked
  · subst same
    have stored : (⟨.leafProcessStatus leafIndex, (1 : UInt32)⟩ :
        DbPut).apply db (.leafProcessStatus leafIndex) = some (1 : UInt32) :=
      Journal.Put.apply_mk_self _ _ db
    exact stored
  · rw [SerialSubmitter.final_markLeafAsProcessed_of_ne (by simpa using same)]
    exact either.resolve_left same

namespace SerialSubmitter

/-- The messages in the two queues, as they were sent. -/
def queued (submitter : SerialSubmitter) : List SubmitMessageArgs :=
  (submitter.waitQueue ++ submitter.runQueue).map .asSent

/-- Each message stands in the queues at most as often as it was taken from
the channel, and its leaf is recorded if it stands there less often. -/
def Conserved (taken : List SubmitMessageArgs)
    (submitter : SerialSubmitter) : Prop :=
  ∀ msg, submitter.queued.count msg ≤ (taken.map .asSent).count msg ∧
    (submitter.queued.count msg < (taken.map .asSent).count msg →
      submitter.db.Recorded msg.leafIndex)

/-- The messages that an event takes from the channel. -/
def drained (submitter : SerialSubmitter) : Event → List SubmitMessageArgs
  | .send _ => []
  | .tick _ => submitter.rx

/-- Picking a message takes one occurrence of it from the queues and the
channel together. -/
theorem count_queued
    {submitter : SerialSubmitter}
    {msg : SubmitMessageArgs}
    {runQueue : List SubmitMessageArgs}
    (popped : submitter.promoted = msg :: runQueue)
    (other : SubmitMessageArgs) :
    submitter.queued.count other + (submitter.rx.map .asSent).count other =
      (runQueue.map .asSent).count other + [msg.asSent].count other := by
  rw [← List.singleton_append] at popped
  have counts := congrArg
    (fun queue => (queue.map SubmitMessageArgs.asSent).count other) popped
  simp only [promoted, List.map_append, List.count_append, List.map_cons,
    List.map_nil] at counts
  rw [queued, List.map_append, List.count_append]
  omega

/-- What is left of a message after it was picked, if it does not return to
the queue. -/
theorem conserved_of_picked
    {taken : List SubmitMessageArgs}
    {submitter after : SerialSubmitter}
    {msg : SubmitMessageArgs}
    {runQueue : List SubmitMessageArgs}
    (conserved : Conserved taken submitter)
    (popped : submitter.promoted = msg :: runQueue)
    (queue : after.queued = runQueue.map .asSent)
    (recorded : after.db.Recorded msg.leafIndex)
    (kept : ∀ leafIndex, submitter.db.Recorded leafIndex →
      after.db.Recorded leafIndex) :
    Conserved (taken ++ submitter.rx) after := by
  intro other
  obtain ⟨most, covered⟩ := conserved other
  have counts := count_queued popped other
  rw [queue, List.map_append, List.count_append]
  refine ⟨by omega, fun less => ?_⟩
  by_cases same : msg.asSent = other
  · rwa [← same, SubmitMessageArgs.asSent_leafIndex]
  · have absent : [msg.asSent].count other = 0 :=
      List.count_eq_zero_of_not_mem (by simpa using Ne.symm same)
    exact kept _ (covered (by omega))

/-- Messages that only move between the channel and the queues are kept. -/
theorem conserved_of_moved
    {taken : List SubmitMessageArgs}
    {submitter after : SerialSubmitter}
    (conserved : Conserved taken submitter)
    (counts : ∀ other, after.queued.count other =
      submitter.queued.count other +
        (submitter.rx.map .asSent).count other)
    (db : after.db = submitter.db) :
    Conserved (taken ++ submitter.rx) after := by
  intro other
  obtain ⟨most, covered⟩ := conserved other
  rw [counts, db, List.map_append, List.count_append]
  exact ⟨by omega, fun less => covered (by omega)⟩

section Conservation

variable [Crypto]

/-- A tick returns, with or without an error. -/
def Returns (submitter : SerialSubmitter) : Event → Prop
  | .send _ => True
  | .tick answers =>
      ∀ reason, (submitter.tick answers).1 ≠ .error (.panic reason)

/-- The message that a tick drops is recorded already. -/
def Retains (submitter : SerialSubmitter) : Event → Prop
  | .send _ => True
  | .tick answers =>
      ∀ msg, submitter.next answers = some msg → Drops answers msg →
        submitter.db.Recorded msg.leafIndex

/-- A tick that returns keeps the messages exactly when the one it drops is
recorded already. -/
theorem conserved_tick_iff
    {taken : List SubmitMessageArgs}
    {answers : TickAnswers}
    {submitter : SerialSubmitter}
    (returns : Returns submitter (.tick answers))
    (conserved : Conserved taken submitter) :
    Conserved (taken ++ submitter.rx) (submitter.tick answers).2 ↔
      Retains submitter (.tick answers) := by
  have ticked := ticked_tick answers submitter
  simp only [Returns] at returns
  unfold Retains
  generalize submitter.tick answers = outcome at ticked returns
  cases ticked with
  | disconnected closed error =>
      refine iff_of_true (conserved_of_moved conserved ?_ rfl) ?_
      · intro other
        simp only [queued, List.map_append, List.count_append]
        omega
      · intro msg picked
        rw [closed] at picked
        cases picked
  | idle nothing =>
      rw [promoted, List.append_eq_nil_iff, List.append_eq_nil_iff] at nothing
      obtain ⟨⟨waiting, channel⟩, running⟩ := nothing
      refine iff_of_true (conserved_of_moved conserved ?_ rfl) ?_
      · intro other
        simp [queued, waiting, channel, running]
      · intro msg picked
        simp [next, waiting, channel, running] at picked
  | @record msg runQueue picked popped kept =>
      refine iff_of_true
        (conserved_of_picked conserved popped (by simp [queued])
          (AbacusDB.recorded_markLeafAsProcessed (.inl rfl))
          fun _ known => AbacusDB.recorded_markLeafAsProcessed (.inr known)) ?_
      intro other otherPicked drops
      rw [picked] at otherPicked
      cases otherPicked
      exact absurd drops kept
  | @retry msg runQueue picked popped kept numRetries counted =>
      refine iff_of_true (conserved_of_moved conserved ?_ rfl) ?_
      · intro other
        rw [count_queued popped, queued, List.nil_append, List.map_append,
          List.count_append]
        rfl
      · intro other otherPicked drops
        rw [picked] at otherPicked
        cases otherPicked
        exact absurd drops kept
  | @drop msg runQueue picked popped drops error =>
      constructor
      · intro after other otherPicked _
        rw [picked] at otherPicked
        cases otherPicked
        obtain ⟨most, -⟩ := conserved msg.asSent
        obtain ⟨-, covered⟩ := after msg.asSent
        have counts := count_queued popped msg.asSent
        rw [List.count_singleton_self] at counts
        change (runQueue.map SubmitMessageArgs.asSent).count msg.asSent < _ → _
          at covered
        rw [List.map_append, List.count_append] at covered
        exact covered (by omega)
      · intro retains
        exact conserved_of_picked conserved popped (by simp [queued])
          (retains msg picked drops) fun _ known => known
  | panic picked popped reason => exact absurd rfl (returns reason)

/-- In a run whose ticks all return, every message taken from the channel
stands in the queues exactly once or is recorded as processed, at every point
of the run, exactly when no tick drops a message that is not recorded. -/
theorem conserved_run_iff
    (db : AbacusDB)
    (events : List Event)
    (returns : Machine.AdmissibleRun step Returns (new db) events) :
    (∀ before after, events = before ++ after →
        Conserved (Machine.log step drained (new db) before)
          (Machine.run step (new db) before)) ↔
      Machine.AdmissibleRun step Retains (new db) events := by
  have initial : Conserved [] (new db) := by
    intro msg
    simp [queued, new]
  refine Machine.forall_prefix_iff step drained Conserved ?_ initial returns
  intro taken submitter event returned conserved
  cases event with
  | send msg =>
      refine iff_of_true ?_ trivial
      rw [drained, List.append_nil]
      exact conserved
  | tick answers => exact conserved_tick_iff returned conserved

end Conservation

/-- A message that the inbox reports as processed is not lost. -/
theorem conserved_run_iff_processed :
    Conserved
      (Machine.log (@step .transparent) drained (new Journal.empty)
        [.send sampleArgs, .tick processedAnswers])
      (Machine.run (@step .transparent) (new Journal.empty)
        [.send sampleArgs, .tick processedAnswers]) := by
  refine (@conserved_run_iff .transparent Journal.empty
    [.send sampleArgs, .tick processedAnswers] ⟨trivial, ?_, trivial⟩).mpr
    ⟨trivial, ?_, trivial⟩ _ [] rfl
  · intro reason panicked
    cases panicked
  · rintro msg picked (⟨error, unknown⟩ | ⟨-, error, refused⟩)
    · cases unknown
    · cases refused

/-- The inbox does not answer. -/
def silentAnswers : TickAnswers where
  disconnected := false
  messageStatus _ := .error .providerError
  process _ _ _ := .error (.error .providerError)
  markLeaf := .ok ()

/-- A message whose status cannot be asked for is lost: the tick returns the
error of the call, and the message is neither in the queues nor recorded. -/
theorem silent_lost :
    Machine.AdmissibleRun (@step .transparent) (@Returns .transparent)
        (new Journal.empty) [.send sampleArgs, .tick silentAnswers] ∧
      ¬ Conserved
        (Machine.log (@step .transparent) drained (new Journal.empty)
          [.send sampleArgs, .tick silentAnswers])
        (Machine.run (@step .transparent) (new Journal.empty)
          [.send sampleArgs, .tick silentAnswers]) := by
  refine ⟨⟨trivial, ?_, trivial⟩, ?_⟩
  · intro reason panicked
    cases panicked
  · intro conserved
    have recorded := (conserved sampleArgs).2 (by decide)
    rw [AbacusDB.recorded_iff] at recorded
    cases recorded

end SerialSubmitter

end Abacus
