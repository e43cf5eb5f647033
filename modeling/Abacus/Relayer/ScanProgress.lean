import Abacus.Relayer.Pipeline
import Abacus.Relayer.ProcessorTransitions

/-!
# The scan moves on

A step of a processor that does not end leaves it as it is only while it waits
for a checkpoint or for a leaf. Every other step brings it closer to the end
of its tick, as long as the message at the index is in the database.
-/

namespace Abacus

/-- The database has a leaf at an index, and the message of the leaf. -/
def AbacusDB.Stores (db : AbacusDB) (index : UInt32) : Prop :=
  ∃ leaf raw, db (.leaf index) = some leaf ∧ db (.message leaf) = some raw

/-- A stored message is found under its index. -/
theorem AbacusDB.Stores.exists_found
    {db : AbacusDB}
    {index : UInt32}
    (stores : db.Stores index) :
    ∃ raw, (AbacusDB.messageByLeafIndex index).result db =
      .ok (some raw) := by
  obtain ⟨leaf, raw, leafStored, rawStored⟩ := stores
  refine ⟨raw, ?_⟩
  rw [Journal.Program.result, AbacusDB.run_messageByLeafIndex, leafStored,
    Option.bind_some, rawStored]

/-- A bound of the steps left in a tick that does not have to wait: the leaves
of an update are ingested one by one. -/
def Phase.stepsLeft : Phase → Nat
  | .starting => 2 ^ 32 + 5
  | .idle => 2 ^ 32 + 4
  | .reading => 2 ^ 32 + 3
  | .awaiting _ => 2 ^ 32 + 2
  | .updating _ checkpoint next =>
      1 + (checkpoint.checkpoint.index.toNat + 1 - next)
  | _ => 0

theorem Phase.stepsLeft_lt (phase : Phase) : phase.stepsLeft < 2 ^ 33 := by
  cases phase with
  | updating message checkpoint next =>
      have bound := checkpoint.checkpoint.index.toNat_lt
      simp only [stepsLeft]
      omega
  | _ => simp [stepsLeft]

namespace MessageProcessor

/-- A bound of the steps left until the scan is at an index. -/
def stepsTo (target : Nat) (processor : MessageProcessor) : Nat :=
  (target - processor.messageLeafIndex.toNat) * 2 ^ 33 +
    processor.phase.stepsLeft

/-- What the processor waits for is there, if it waits for anything. -/
def Supplied (around : Surroundings) (processor : MessageProcessor) : Prop :=
  match processor.phase with
  | .starting => ∃ checkpoint, around.ckptRx = some checkpoint
  | .awaiting _ => ∃ checkpoint, around.ckptRx = some checkpoint ∧
      processor.messageLeafIndex ≤ checkpoint.checkpoint.index
  | .updating _ checkpoint next => next ≤ checkpoint.checkpoint.index.toNat →
      ∃ leaf, around.db (.leaf (UInt32.ofNat next)) = some leaf
  | .failed _ => False
  | .panicked _ => False
  | _ => True

variable {around : Surroundings}
variable {processor : MessageProcessor}

/-! ## A step is not idle -/

/-- Moving past an index changes it, or panics. -/
theorem settle_skip_ne
    (scanning : processor.phase = .idle ∨ processor.phase = .reading) :
    (processor.settle processor.skip).1 ≠ processor := by
  unfold skip
  intro same
  rcases checkedAdd_one_cases processor.messageLeafIndex with
    ⟨next, successor, added⟩ | ⟨-, overflows⟩
  · rw [added] at same
    have index := congrArg MessageProcessor.messageLeafIndex same
    change next = processor.messageLeafIndex at index
    rw [index] at successor
    omega
  · rw [overflows] at same
    have phase := congrArg MessageProcessor.phase same
    change Phase.panicked .overflow = processor.phase at phase
    rcases scanning with idle | reading
    · rw [idle] at phase
      cases phase
    · rw [reading] at phase
      cases phase

/-- A step that ends in another phase is not idle. -/
theorem ne_of_phase_ne
    {after : MessageProcessor}
    (other : after.phase ≠ processor.phase) :
    after ≠ processor :=
  fun same => other (same ▸ rfl)

theorem checkStatus_ne
    (idle : processor.phase = .idle) :
    (processor.settle (processor.checkStatus around)).1 ≠ processor := by
  unfold checkStatus
  cases around.read (AbacusDB.retrieveLeafProcessingStatus
      processor.messageLeafIndex) with
  | error fault =>
      cases fault <;>
        exact ne_of_phase_ne fun same => by cases same.trans idle
  | ok status =>
      cases status with
      | none => exact ne_of_phase_ne fun same => by cases same.trans idle
      | some status => exact settle_skip_ne (.inl idle)

theorem filter_ne
    (reading : processor.phase = .reading)
    (message : CommittedMessage) :
    (processor.settle (processor.filter message)).1 ≠ processor := by
  unfold filter
  split
  · exact settle_skip_ne (.inr reading)
  · split
    · exact settle_skip_ne (.inr reading)
    · split
      · exact settle_skip_ne (.inr reading)
      · exact ne_of_phase_ne fun same => by cases same.trans reading

theorem readMessage_ne
    (reading : processor.phase = .reading) :
    (processor.settle (processor.readMessage around)).1 ≠ processor := by
  unfold readMessage
  cases around.read (AbacusDB.messageByLeafIndex
      processor.messageLeafIndex) with
  | error fault =>
      cases fault <;>
        exact ne_of_phase_ne fun same => by cases same.trans reading
  | ok found =>
      cases found with
      | none => exact ne_of_phase_ne fun same => by cases same.trans reading
      | some raw =>
          simp only [Except.mapError, bind, Except.bind]
          cases CommittedMessage.tryFrom raw with
          | error error =>
              exact ne_of_phase_ne fun same => by cases same.trans reading
          | ok message => exact filter_ne reading message

theorem awaitCheckpoint_ne
    {message : CommittedMessage}
    (awaiting : processor.phase = .awaiting message)
    {checkpoint : MultisigSignedCheckpoint}
    (published : around.ckptRx = some checkpoint)
    (covered : processor.messageLeafIndex ≤ checkpoint.checkpoint.index) :
    (processor.settle (processor.awaitCheckpoint around message)).1 ≠
      processor := by
  unfold awaitCheckpoint prepare
  simp only [published, if_pos covered]
  split
  · split <;> exact ne_of_phase_ne fun same => by cases same.trans awaiting
  · exact ne_of_phase_ne fun same => by cases same.trans awaiting

theorem send_ne
    {message : CommittedMessage}
    {checkpoint : MultisigSignedCheckpoint}
    (dispatching : processor.phase = .dispatching message checkpoint)
    (proof : Proof H256) :
    (processor.settle (processor.send around message checkpoint proof)).1 ≠
      processor := by
  refine ne_of_phase_ne fun same => ?_
  rw [dispatching] at same
  unfold send at same
  split at same
  · cases same
  · rcases checkedAdd_one_cases processor.messageLeafIndex with
      ⟨next, -, added⟩ | ⟨-, overflows⟩
    · simp only [added] at same
      cases same
    · simp only [overflows] at same
      cases same

section Proving

variable [Crypto]

theorem update_ne
    {message : CommittedMessage}
    {checkpoint : MultisigSignedCheckpoint}
    {next : Nat}
    (updating : processor.phase = .updating message checkpoint next)
    (supplied : next ≤ checkpoint.checkpoint.index.toNat →
      ∃ leaf, around.db (.leaf (UInt32.ofNat next)) = some leaf) :
    (processor.settle (processor.update around message checkpoint
      next)).1 ≠ processor := by
  refine ne_of_phase_ne fun same => ?_
  rw [updating] at same
  unfold update at same
  split at same
  · rename_i below
    obtain ⟨leaf, stored⟩ := supplied below
    have reads : (AbacusDB.leafByLeafIndex
        (UInt32.ofNat next)).result around.db = .ok (some leaf) := by
      change Except.ok (around.db (.leaf (UInt32.ofNat next))) = _
      rw [stored]
    rcases read_cases around (AbacusDB.leafByLeafIndex (UInt32.ofNat next))
      with fails | answers
    · simp only [fails] at same
      cases same
    · simp only [answers, reads, MerkleTreeBuilder.ingestLeafIndex] at same
      cases ingested : processor.proverSync.ingest leaf with
      | error reason =>
          rw [ingested] at same
          cases same
      | ok proverSync =>
          rw [ingested] at same
          injection same with _ _ later
          omega
  · cases checked : processor.proverSync.checkRoots
        checkpoint.checkpoint.root with
    | error fault =>
        rw [checked] at same
        cases fault <;> cases same
    | ok checkedUnit =>
        rw [checked] at same
        cases same

theorem dispatch_ne
    {message : CommittedMessage}
    {checkpoint : MultisigSignedCheckpoint}
    (dispatching : processor.phase = .dispatching message checkpoint) :
    (processor.settle (processor.dispatch around message checkpoint)).1 ≠
      processor := by
  have changes {phase : Phase}
      (other : phase ≠ .dispatching message checkpoint) :
      (processor.settle (processor.goto phase)).1 ≠ processor :=
    ne_of_phase_ne fun same => other (same.trans dispatching)
  have fails (fault : Fault ProcessorError) :
      (processor.settle (.error fault)).1 ≠ processor := by
    cases fault <;>
      exact ne_of_phase_ne fun same => by cases same.trans dispatching
  unfold dispatch
  cases (checkedAdd checkpoint.checkpoint.index 1 :
      Except (Fault ProcessorError) UInt32) with
  | error fault => exact fails fault
  | ok expected =>
      simp only [bind, Except.bind]
      split
      · exact fails _
      · cases processor.proverSync.getProof processor.messageLeafIndex with
        | error fault => exact fails _
        | ok proof =>
            cases around.read (AbacusDB.leafByLeafIndex
                processor.messageLeafIndex) with
            | error fault => exact fails _
            | ok leaf =>
                simp only [Except.mapError]
                split
                · exact send_ne dispatching proof
                · exact changes fun same => by cases same

/-- A step of a supplied processor is not idle. -/
theorem step_ne_self
    (supplied : Supplied around processor) :
    (processor.step around).1 ≠ processor := by
  unfold Supplied at supplied
  unfold step advance
  cases phase : processor.phase with
  | starting =>
      rw [phase] at supplied
      obtain ⟨checkpoint, published⟩ := supplied
      simp only [awaitFirstCheckpoint, published]
      exact ne_of_phase_ne fun same => by cases same.trans phase
  | idle => exact checkStatus_ne phase
  | reading => exact readMessage_ne phase
  | awaiting message =>
      rw [phase] at supplied
      obtain ⟨checkpoint, published, covered⟩ := supplied
      exact awaitCheckpoint_ne phase published covered
  | updating message checkpoint next =>
      rw [phase] at supplied
      exact update_ne phase supplied
  | dispatching message checkpoint => exact dispatch_ne phase
  | failed error =>
      rw [phase] at supplied
      exact supplied.elim
  | panicked reason =>
      rw [phase] at supplied
      exact supplied.elim

/-! ## Every change is progress -/

/-- No step moves the scan back. -/
theorem Transition.index_le
    {outcome : MessageProcessor × Option SubmitMessageArgs}
    (transition : Transition around processor outcome) :
    processor.messageLeafIndex.toNat ≤
      outcome.1.messageLeafIndex.toNat := by
  cases transition with
  | pass scanning passed successor =>
      simp only [successor]
      omega
  | send sends successor =>
      simp only [successor]
      omega
  | _ => exact le_rfl

/-- A change of the phase brings the tick closer to its end, if the message at
the index is in the database. -/
theorem Goes.stepsLeft_lt
    {phase : Phase}
    (goes : Goes around processor phase)
    (stores : around.db.Stores processor.messageLeafIndex) :
    phase.stepsLeft < processor.phase.stepsLeft := by
  cases goes with
  | start starting published =>
      rw [starting]
      decide
  | unprocessed idle unknown =>
      rw [idle]
      decide
  | missing reading absent =>
      obtain ⟨raw, found⟩ := stores.exists_found
      rw [found] at absent
      cases absent
  | accept reading found parsed =>
      rw [reading]
      simp [Phase.stepsLeft]
  | @update message checkpoint awaiting published covered behind later =>
      have bound := checkpoint.checkpoint.index.toNat_lt
      rw [awaiting]
      simp only [Phase.stepsLeft]
      omega
  | ready awaiting published covered ahead =>
      rw [awaiting]
      simp [Phase.stepsLeft]
  | compared updating complete checked =>
      rw [updating]
      simp only [Phase.stepsLeft]
      omega
  | unlisted dispatching absent =>
      obtain ⟨leaf, raw, stored, -⟩ := stores
      rw [stored] at absent
      cases absent

/-- A step after which the processor goes on leaves it as it is, or brings it
closer to an index in front of it, if the message at its own index is in the
database. -/
theorem Transition.eq_or_stepsTo_lt
    {outcome : MessageProcessor × Option SubmitMessageArgs}
    (transition : Transition around processor outcome)
    (going : Pipeline.ended outcome.1.phase = false)
    (stores : around.db.Stores processor.messageLeafIndex)
    {target : Nat}
    (ahead : processor.messageLeafIndex.toNat < target) :
    outcome.1 = processor ∨
      outcome.1.stepsTo target < processor.stepsTo target := by
  cases transition with
  | stay => exact .inl rfl
  | fail error => cases going
  | panic cause => cases going
  | goto goes =>
      exact .inr (Nat.add_lt_add_left (goes.stepsLeft_lt stores) _)
  | pass scanning passed successor =>
      simp only [stepsTo, successor, Phase.stepsLeft]
      omega
  | @ingest message checkpoint next leaf proverSync updating below found
      ingested =>
      refine .inr (Nat.add_lt_add_left ?_ _)
      rw [updating]
      simp only [Phase.stepsLeft]
      omega
  | send sends successor =>
      simp only [stepsTo, successor, Phase.stepsLeft]
      omega
  | sendLast sends last => cases going

end Proving

end MessageProcessor

end Abacus
