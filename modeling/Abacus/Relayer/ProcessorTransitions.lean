import Abacus.Relayer.MessageProcessor

/-!
# What a step of the processor can do

Every step stays, fails, panics, changes the phase, moves past the index
without a message, ingests one leaf, or sends one message. Each kind comes
with what the code has checked before it, and later proofs are case analyses
over these kinds.
-/

namespace Abacus

namespace MessageProcessor

/-- A message that the processor does not relay. -/
def Excluded (processor : MessageProcessor) (message : AbacusMessage) : Prop :=
  message.destination ≠ processor.localDomain ∨
    processor.whitelist.msgMatches message true = false ∨
    processor.blacklist.msgMatches message false = true

/-- An index that the processor moves past without sending a message: it has a
processing status, or its message is excluded. -/
def Passed (processor : MessageProcessor) (db : AbacusDB) (index : UInt32) :
    Prop :=
  (∃ status, (AbacusDB.retrieveLeafProcessingStatus index).result db =
    .ok (some status)) ∨
  ∃ raw message, (AbacusDB.messageByLeafIndex index).result db =
      .ok (some raw) ∧
    CommittedMessage.tryFrom raw = .ok message ∧
    processor.Excluded message.message

/-! ## Reads and increments -/

/-- A read fails, or returns what the database holds. -/
theorem read_cases (around : Surroundings) (program : DbM α) :
    around.read program = .error (.error .backend) ∨
      around.read program = program.result around.db := by
  unfold Surroundings.read
  split
  · exact .inl rfl
  · exact .inr rfl

/-- A checked increment panics on the last `u32`. -/
theorem checkedAdd_one_cases (value : UInt32) :
    (∃ next : UInt32, next.toNat = value.toNat + 1 ∧
      ∀ ε, (checkedAdd value 1 : Except (Fault ε) UInt32) = .ok next) ∨
    value.toNat = 2 ^ 32 - 1 ∧
      ∀ ε, (checkedAdd value 1 : Except (Fault ε) UInt32) =
        .error (.panic .overflow) := by
  have one : (1 : UInt32).toNat = 1 := rfl
  by_cases fits : value.toNat + 1 < 2 ^ 32
  · refine .inl ⟨value + 1, ?_, fun ε => if_pos fits⟩
    rw [UInt32.toNat_add, one, Nat.mod_eq_of_lt fits]
  · refine .inr ⟨?_, fun ε => if_neg fits⟩
    have bound := value.toNat_lt
    omega

/-! ## The kinds of steps -/

variable [Crypto]
variable (around : Surroundings)
variable (processor : MessageProcessor)

/-- A change of the phase alone. -/
inductive Goes : Phase → Prop
  | start
      {checkpoint : MultisigSignedCheckpoint}
      (starting : processor.phase = .starting)
      (published : around.ckptRx = some checkpoint) :
      Goes .idle
  | unprocessed
      (idle : processor.phase = .idle)
      (unknown : around.db (.leafProcessStatus processor.messageLeafIndex) =
        none) :
      Goes .reading
  | missing
      (reading : processor.phase = .reading)
      (absent : (AbacusDB.messageByLeafIndex
        processor.messageLeafIndex).result around.db = .ok none) :
      Goes .idle
  | accept
      {raw : RawCommittedMessage}
      {message : CommittedMessage}
      (reading : processor.phase = .reading)
      (found : (AbacusDB.messageByLeafIndex
        processor.messageLeafIndex).result around.db = .ok (some raw))
      (parsed : CommittedMessage.tryFrom raw = .ok message) :
      Goes (.awaiting message)
  | update
      {message : CommittedMessage}
      {checkpoint : MultisigSignedCheckpoint}
      (awaiting : processor.phase = .awaiting message)
      (published : around.ckptRx = some checkpoint)
      (covered :
        processor.messageLeafIndex ≤ checkpoint.checkpoint.index)
      (behind : processor.proverSync.count ≤ checkpoint.checkpoint.index)
      (later : checkpoint.checkpoint.index ≠ 0) :
      Goes (.updating message checkpoint processor.proverSync.count.toNat)
  | ready
      {message : CommittedMessage}
      {checkpoint : MultisigSignedCheckpoint}
      (awaiting : processor.phase = .awaiting message)
      (published : around.ckptRx = some checkpoint)
      (covered :
        processor.messageLeafIndex ≤ checkpoint.checkpoint.index)
      (ahead : processor.proverSync.count ≤ checkpoint.checkpoint.index →
        checkpoint.checkpoint.index = 0) :
      Goes (.dispatching message checkpoint)
  | compared
      {message : CommittedMessage}
      {checkpoint : MultisigSignedCheckpoint}
      {next : Nat}
      (updating : processor.phase = .updating message checkpoint next)
      (complete : checkpoint.checkpoint.index.toNat < next)
      (checked : processor.proverSync.checkRoots
        checkpoint.checkpoint.root = .ok ()) :
      Goes (.dispatching message checkpoint)
  | unlisted
      {message : CommittedMessage}
      {checkpoint : MultisigSignedCheckpoint}
      (dispatching : processor.phase = .dispatching message checkpoint)
      (absent : around.db (.leaf processor.messageLeafIndex) = none) :
      Goes .idle

/-- The panics of a step. -/
inductive Panics : Panic → Prop
  | lastIndex
      (last : processor.messageLeafIndex.toNat = 2 ^ 32 - 1) :
      Panics .overflow
  | ingest
      {message : CommittedMessage}
      {checkpoint : MultisigSignedCheckpoint}
      {next : Nat}
      {leaf : H256}
      {reason : Panic}
      (updating : processor.phase = .updating message checkpoint next)
      (below : next ≤ checkpoint.checkpoint.index.toNat)
      (panicked : processor.proverSync.ingest leaf = .error reason) :
      Panics reason
  | lastCheckpoint
      {message : CommittedMessage}
      {checkpoint : MultisigSignedCheckpoint}
      (dispatching : processor.phase = .dispatching message checkpoint)
      (last : checkpoint.checkpoint.index.toNat = 2 ^ 32 - 1) :
      Panics .overflow
  | count
      {message : CommittedMessage}
      {checkpoint : MultisigSignedCheckpoint}
      (dispatching : processor.phase = .dispatching message checkpoint)
      (differs : checkpoint.checkpoint.index.toNat + 1 ≠
        processor.proverSync.count.toNat) :
      Panics .countMismatch
  | prove
      {message : CommittedMessage}
      {checkpoint : MultisigSignedCheckpoint}
      {reason : Panic}
      (dispatching : processor.phase = .dispatching message checkpoint)
      (panicked : processor.proverSync.getProof
        processor.messageLeafIndex = .error (.panic reason)) :
      Panics reason

/-- A message is ready to be sent. -/
structure Sends (message : CommittedMessage)
    (checkpoint : MultisigSignedCheckpoint) (proof : Proof H256) : Prop where
  dispatching : processor.phase = .dispatching message checkpoint
  count_eq : checkpoint.checkpoint.index.toNat + 1 =
    processor.proverSync.count.toNat
  proved : processor.proverSync.getProof processor.messageLeafIndex =
    .ok proof

/-- The kinds of steps. -/
inductive Transition : MessageProcessor × Option SubmitMessageArgs → Prop
  | stay :
      Transition (processor, none)
  | fail
      (error : ProcessorError) :
      Transition ({ processor with phase := .failed error }, none)
  | panic
      {reason : Panic}
      (cause : Panics processor reason) :
      Transition ({ processor with phase := .panicked reason }, none)
  | goto
      {phase : Phase}
      (goes : Goes around processor phase) :
      Transition ({ processor with phase := phase }, none)
  | pass
      {next : UInt32}
      (scanning : processor.phase = .idle ∨ processor.phase = .reading)
      (passed : processor.Passed around.db processor.messageLeafIndex)
      (successor : next.toNat = processor.messageLeafIndex.toNat + 1) :
      Transition
        ({ processor with messageLeafIndex := next, phase := .idle }, none)
  | ingest
      {message : CommittedMessage}
      {checkpoint : MultisigSignedCheckpoint}
      {next : Nat}
      {leaf : H256}
      {proverSync : MerkleTreeBuilder H256}
      (updating : processor.phase = .updating message checkpoint next)
      (below : next ≤ checkpoint.checkpoint.index.toNat)
      (found : around.db (.leaf (UInt32.ofNat next)) = some leaf)
      (ingested : processor.proverSync.ingest leaf = .ok proverSync) :
      Transition ({
        processor with
        proverSync := proverSync
        phase := .updating message checkpoint (next + 1) }, none)
  | send
      {message : CommittedMessage}
      {checkpoint : MultisigSignedCheckpoint}
      {proof : Proof H256}
      {next : UInt32}
      (sends : Sends processor message checkpoint proof)
      (successor : next.toNat = processor.messageLeafIndex.toNat + 1) :
      Transition
        ({ processor with messageLeafIndex := next, phase := .idle },
          some (.new processor.messageLeafIndex message checkpoint proof))
  | sendLast
      {message : CommittedMessage}
      {checkpoint : MultisigSignedCheckpoint}
      {proof : Proof H256}
      (sends : Sends processor message checkpoint proof)
      (last : processor.messageLeafIndex.toNat = 2 ^ 32 - 1) :
      Transition ({ processor with phase := .panicked .overflow },
        some (.new processor.messageLeafIndex message checkpoint proof))

/-! ## The steps from each phase -/

variable {around} {processor}

/-- Moving past an index. -/
theorem transition_skip
    (scanning : processor.phase = .idle ∨ processor.phase = .reading)
    (passed : processor.Passed around.db processor.messageLeafIndex) :
    Transition around processor (processor.settle processor.skip) := by
  unfold skip
  rcases checkedAdd_one_cases processor.messageLeafIndex with
    ⟨next, successor, added⟩ | ⟨last, overflows⟩
  · rw [added]
    exact .pass scanning passed successor
  · rw [overflows]
    exact .panic (.lastIndex last)

theorem transition_awaitFirstCheckpoint
    (starting : processor.phase = .starting) :
    Transition around processor
      (processor.settle (processor.awaitFirstCheckpoint around)) := by
  unfold awaitFirstCheckpoint
  split
  · rename_i checkpoint published
    exact .goto (.start starting published)
  · split
    · exact .fail .recvError
    · have same : { processor with phase := .starting } = processor := by
        rw [← starting]
      rw [goto, settle, same]
      exact .stay

theorem transition_checkStatus
    (idle : processor.phase = .idle) :
    Transition around processor
      (processor.settle (processor.checkStatus around)) := by
  unfold checkStatus
  rcases read_cases around (AbacusDB.retrieveLeafProcessingStatus
    processor.messageLeafIndex) with fails | reads
  · rw [fails]
    exact .fail (.report .backend)
  · rw [reads]
    cases stored : around.db
        (.leafProcessStatus processor.messageLeafIndex) with
    | none =>
        have known : (AbacusDB.retrieveLeafProcessingStatus
            processor.messageLeafIndex).result around.db = .ok none := by
          rw [Journal.Program.result,
            AbacusDB.run_retrieveLeafProcessingStatus, stored]
          rfl
        rw [known]
        exact .goto (.unprocessed idle stored)
    | some value =>
        have known : (AbacusDB.retrieveLeafProcessingStatus
            processor.messageLeafIndex).result around.db =
              .ok (some (value == (1 : UInt32))) := by
          rw [Journal.Program.result,
            AbacusDB.run_retrieveLeafProcessingStatus, stored]
          rfl
        rw [known]
        exact transition_skip (.inl idle) (.inl ⟨_, known⟩)

theorem transition_filter
    {raw : RawCommittedMessage}
    {message : CommittedMessage}
    (reading : processor.phase = .reading)
    (found : (AbacusDB.messageByLeafIndex
      processor.messageLeafIndex).result around.db = .ok (some raw))
    (parsed : CommittedMessage.tryFrom raw = .ok message) :
    Transition around processor
      (processor.settle (processor.filter message)) := by
  have excludes (excluded : processor.Excluded message.message) :
      Transition around processor (processor.settle processor.skip) :=
    transition_skip (.inr reading)
      (.inr ⟨raw, message, found, parsed, excluded⟩)
  unfold filter
  split
  · rename_i elsewhere
    exact excludes (.inl elsewhere)
  · split
    · rename_i unlisted
      exact excludes (.inr (.inl (by simpa using unlisted)))
    · split
      · rename_i listed
        exact excludes (.inr (.inr listed))
      · exact .goto (.accept reading found parsed)

theorem transition_readMessage
    (reading : processor.phase = .reading) :
    Transition around processor
      (processor.settle (processor.readMessage around)) := by
  unfold readMessage
  rcases read_cases around (AbacusDB.messageByLeafIndex
    processor.messageLeafIndex) with fails | reads
  · rw [fails]
    exact .fail (.report .backend)
  · rw [reads]
    cases found : (AbacusDB.messageByLeafIndex
      processor.messageLeafIndex).result around.db with
    | error fault =>
        rw [Journal.Program.result, AbacusDB.run_messageByLeafIndex] at found
        cases found
    | ok stored =>
        cases stored with
        | none => exact .goto (.missing reading found)
        | some raw =>
            simp only [Except.mapError, bind, Except.bind]
            cases parsed : CommittedMessage.tryFrom raw with
            | error error => exact .fail (.report error)
            | ok message => exact transition_filter reading found parsed

theorem transition_awaitCheckpoint
    {message : CommittedMessage}
    (awaiting : processor.phase = .awaiting message) :
    Transition around processor
      (processor.settle (processor.awaitCheckpoint around message)) := by
  have waits : Transition around processor (processor.settle
      (if around.ckptClosed then .error (.error .recvError)
        else processor.goto (.awaiting message))) := by
    split
    · exact .fail .recvError
    · have same : { processor with phase := .awaiting message } =
          processor := by
        rw [← awaiting]
      rw [goto, settle, same]
      exact .stay
  unfold awaitCheckpoint
  split
  · rename_i checkpoint published
    split
    · rename_i covered
      unfold prepare
      rw [if_pos covered]
      split
      · rename_i behind
        split
        · rename_i first
          exact .goto (.ready awaiting published covered fun _ => first)
        · rename_i later
          exact .goto (.update awaiting published covered behind later)
      · rename_i ahead
        exact .goto (.ready awaiting published covered
          fun behind => absurd behind ahead)
    · exact waits
  · exact waits

theorem transition_update
    {message : CommittedMessage}
    {checkpoint : MultisigSignedCheckpoint}
    {next : Nat}
    (updating : processor.phase = .updating message checkpoint next) :
    Transition around processor
      (processor.settle
        (processor.update around message checkpoint next)) := by
  unfold update
  split
  · rename_i below
    rcases read_cases around (AbacusDB.leafByLeafIndex (UInt32.ofNat next))
      with fails | reads
    · simp only [fails]
      exact .fail (.builder (.dbError .backend))
    · have stored : (AbacusDB.leafByLeafIndex
          (UInt32.ofNat next)).result around.db =
          .ok (around.db (.leaf (UInt32.ofNat next))) := rfl
      simp only [reads, stored]
      cases found : around.db (.leaf (UInt32.ofNat next)) with
      | none =>
          have same : { processor with
              phase := .updating message checkpoint next } = processor := by
            rw [← updating]
          simp only [goto, settle, same]
          exact .stay
      | some leaf =>
          simp only [MerkleTreeBuilder.ingestLeafIndex]
          cases ingested : processor.proverSync.ingest leaf with
          | error reason => exact .panic (.ingest updating below ingested)
          | ok proverSync => exact .ingest updating below found ingested
  · rename_i complete
    cases checked : processor.proverSync.checkRoots
        checkpoint.checkpoint.root with
    | error fault =>
        cases fault with
        | error error => exact .fail (.builder error)
        | panic reason =>
            unfold MerkleTreeBuilder.checkRoots at checked
            simp only at checked
            split at checked <;> cases checked
    | ok checkedUnit =>
        exact .goto (.compared updating (Nat.lt_of_not_le complete) checked)

theorem transition_send
    {message : CommittedMessage}
    {checkpoint : MultisigSignedCheckpoint}
    {proof : Proof H256}
    (sends : Sends processor message checkpoint proof) :
    Transition around processor
      (processor.settle
        (processor.send around message checkpoint proof)) := by
  unfold send
  split
  · exact .fail .sendError
  · rcases checkedAdd_one_cases processor.messageLeafIndex with
      ⟨next, successor, added⟩ | ⟨last, overflows⟩
    · simp only [added]
      exact .send sends successor
    · simp only [overflows]
      exact .sendLast sends last

theorem transition_dispatch
    {message : CommittedMessage}
    {checkpoint : MultisigSignedCheckpoint}
    (dispatching : processor.phase = .dispatching message checkpoint) :
    Transition around processor
      (processor.settle
        (processor.dispatch around message checkpoint)) := by
  unfold dispatch
  rcases checkedAdd_one_cases checkpoint.checkpoint.index with
    ⟨expected, successor, added⟩ | ⟨last, overflows⟩
  · rw [added]
    simp only [bind, Except.bind]
    by_cases agrees : expected = processor.proverSync.count
    · have count : checkpoint.checkpoint.index.toNat + 1 =
          processor.proverSync.count.toNat := by
        rw [← agrees, successor]
      rw [if_neg (not_not_intro agrees)]
      cases proved : processor.proverSync.getProof
          processor.messageLeafIndex with
      | error fault =>
          cases fault with
          | error error => exact .fail (.builder error)
          | panic reason => exact .panic (.prove dispatching proved)
      | ok proof =>
          rcases read_cases around (AbacusDB.leafByLeafIndex
            processor.messageLeafIndex) with fails | reads
          · simp only [fails]
            exact .fail (.report .backend)
          · have stored : (AbacusDB.leafByLeafIndex
                processor.messageLeafIndex).result around.db =
                .ok (around.db (.leaf processor.messageLeafIndex)) := rfl
            simp only [reads, stored, Except.mapError]
            split
            · exact transition_send ⟨dispatching, count, proved⟩
            · rename_i absent
              exact .goto (.unlisted dispatching (by simpa using absent))
    · rw [if_pos agrees]
      refine .panic (.count dispatching fun count => agrees ?_)
      rw [← UInt32.toNat_inj, successor, count]
  · rw [overflows]
    exact .panic (.lastCheckpoint dispatching last)

/-- Every step is one of the kinds. -/
theorem transition_step
    (around : Surroundings)
    (processor : MessageProcessor) :
    Transition around processor (processor.step around) := by
  unfold step advance
  cases phase : processor.phase with
  | starting => exact transition_awaitFirstCheckpoint phase
  | idle => exact transition_checkStatus phase
  | reading => exact transition_readMessage phase
  | awaiting message => exact transition_awaitCheckpoint phase
  | updating message checkpoint next => exact transition_update phase
  | dispatching message checkpoint => exact transition_dispatch phase
  | failed error => exact .stay
  | panicked reason => exact .stay

end MessageProcessor

end Abacus
