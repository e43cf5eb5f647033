import Abacus.Relayer.RelayerInvariant

/-!
# Why a processor ends

A step ends the processor only where the database fails, a channel is closed, a
stored message cannot be decoded, the tree disagrees with a checkpoint, or a
counter or an assertion fails. Each end comes with what the code has found.
-/

namespace Abacus

namespace MessageProcessor

variable [Crypto]
variable (around : Surroundings)
variable (processor : MessageProcessor)

/-- The ends of a processor. -/
inductive Ends : Phase → Prop
  | unreadable
      (error : ProcessorError)
      (fails : around.dbFails = true) :
      Ends (.failed error)
  | undecodable
      {raw : RawCommittedMessage}
      {error : Report}
      (found : (AbacusDB.messageByLeafIndex
        processor.messageLeafIndex).result around.db = .ok (some raw))
      (refused : CommittedMessage.tryFrom raw = .error error) :
      Ends (.failed (.report error))
  | unpublished
      (closed : around.ckptClosed = true) :
      Ends (.failed .recvError)
  | undelivered
      (closed : around.txClosed = true) :
      Ends (.failed .sendError)
  | mismatched
      {message : CommittedMessage}
      {checkpoint : MultisigSignedCheckpoint}
      {next : Nat}
      {error : MerkleTreeBuilderError H256}
      (updating : processor.phase = .updating message checkpoint next)
      (complete : checkpoint.checkpoint.index.toNat < next)
      (differs : processor.proverSync.checkRoots checkpoint.checkpoint.root =
        .error (.error error)) :
      Ends (.failed (.builder error))
  | unproved
      {message : CommittedMessage}
      {checkpoint : MultisigSignedCheckpoint}
      {error : MerkleTreeBuilderError H256}
      (dispatching : processor.phase = .dispatching message checkpoint)
      (refused : processor.proverSync.getProof processor.messageLeafIndex =
        .error (.error error)) :
      Ends (.failed (.builder error))
  | lastIndex
      (passed : processor.Passed around.db processor.messageLeafIndex)
      (last : processor.messageLeafIndex.toNat = 2 ^ 32 - 1) :
      Ends (.panicked .overflow)
  | assertion
      {checkpoint : MultisigSignedCheckpoint}
      {reason : Panic}
      (targets : processor.phase.target = some checkpoint)
      (panics : Panics processor reason) :
      Ends (.panicked reason)

variable {around} {processor}

/-- An outcome goes on, or comes with the end of the processor. -/
def Explained (around : Surroundings) (processor : MessageProcessor)
    (outcome : ProcessorStep) : Prop :=
  Pipeline.ended (processor.settle outcome).1.phase = true →
    Ends around processor (processor.settle outcome).1.phase

omit [Crypto] in
/-- A read fails with the database, or returns what it holds. -/
theorem fails_or_read (around : Surroundings) (program : DbM α) :
    (around.dbFails = true ∧
        around.read program = .error (.error .backend)) ∨
      around.read program = program.result around.db := by
  unfold Surroundings.read
  split
  · rename_i fails
    exact .inl ⟨fails, rfl⟩
  · exact .inr rfl

/-- Going on needs no reason. -/
theorem explained_goto
    {phase : Phase}
    (going : Pipeline.ended phase = false) :
    Explained around processor (processor.goto phase) := by
  intro ended
  exact absurd (going.symm.trans ended) Bool.false_ne_true

/-- Moving past an index goes on, or panics at the last one. -/
theorem explained_skip
    (passed : processor.Passed around.db processor.messageLeafIndex) :
    Explained around processor processor.skip := by
  unfold skip
  rcases checkedAdd_one_cases processor.messageLeafIndex with
    ⟨next, -, added⟩ | ⟨last, overflows⟩
  · rw [added]
    intro ended
    cases ended
  · rw [overflows]
    exact fun _ => .lastIndex passed last

/-- A closed channel ends whoever waits for a checkpoint. -/
theorem explained_await
    {phase : Phase}
    (going : Pipeline.ended phase = false) :
    Explained around processor
      (if around.ckptClosed then .error (.error .recvError)
        else processor.goto phase) := by
  split
  · rename_i closed
    exact fun _ => .unpublished closed
  · exact explained_goto going

theorem explained_awaitFirstCheckpoint :
    Explained around processor (processor.awaitFirstCheckpoint around) := by
  unfold awaitFirstCheckpoint
  split
  · exact explained_goto rfl
  · exact explained_await rfl

theorem explained_checkStatus :
    Explained around processor (processor.checkStatus around) := by
  unfold checkStatus
  rcases fails_or_read around (AbacusDB.retrieveLeafProcessingStatus
    processor.messageLeafIndex) with ⟨fails, same⟩ | reads
  · rw [same]
    exact fun _ => .unreadable _ fails
  · rw [reads]
    cases known : (AbacusDB.retrieveLeafProcessingStatus
        processor.messageLeafIndex).result around.db with
    | error fault =>
        rw [Journal.Program.result,
          AbacusDB.run_retrieveLeafProcessingStatus] at known
        cases known
    | ok status =>
        cases status with
        | none => exact explained_goto rfl
        | some status => exact explained_skip (.inl ⟨status, known⟩)

theorem explained_filter
    {raw : RawCommittedMessage}
    {message : CommittedMessage}
    (found : (AbacusDB.messageByLeafIndex
      processor.messageLeafIndex).result around.db = .ok (some raw))
    (parsed : CommittedMessage.tryFrom raw = .ok message) :
    Explained around processor (processor.filter message) := by
  have excludes (excluded : processor.Excluded message.message) :
      Explained around processor processor.skip :=
    explained_skip (.inr ⟨raw, message, found, parsed, excluded⟩)
  unfold filter
  split
  · rename_i elsewhere
    exact excludes (.inl elsewhere)
  · split
    · rename_i unlisted
      exact excludes (.inr (.inl (by simpa using unlisted)))
    · split
      · rename_i listed
        exact excludes (.inr (.inr listed))
      · exact explained_goto rfl

theorem explained_readMessage :
    Explained around processor (processor.readMessage around) := by
  unfold readMessage
  rcases fails_or_read around (AbacusDB.messageByLeafIndex
    processor.messageLeafIndex) with ⟨fails, same⟩ | reads
  · rw [same]
    exact fun _ => .unreadable _ fails
  · rw [reads]
    cases found : (AbacusDB.messageByLeafIndex
        processor.messageLeafIndex).result around.db with
    | error fault =>
        rw [Journal.Program.result, AbacusDB.run_messageByLeafIndex] at found
        cases found
    | ok stored =>
        cases stored with
        | none => exact explained_goto rfl
        | some raw =>
            simp only [Except.mapError, bind, Except.bind]
            cases parsed : CommittedMessage.tryFrom raw with
            | error error => exact fun _ => .undecodable found parsed
            | ok message => exact explained_filter found parsed

theorem explained_awaitCheckpoint (message : CommittedMessage) :
    Explained around processor
      (processor.awaitCheckpoint around message) := by
  unfold awaitCheckpoint
  split
  · rename_i checkpoint published
    split
    · rename_i covered
      unfold prepare
      rw [if_pos covered]
      split
      · split
        · exact explained_goto rfl
        · exact explained_goto rfl
      · exact explained_goto rfl
    · exact explained_await rfl
  · exact explained_await rfl

theorem explained_update
    {message : CommittedMessage}
    {checkpoint : MultisigSignedCheckpoint}
    {next : Nat}
    (updating : processor.phase = .updating message checkpoint next) :
    Explained around processor
      (processor.update around message checkpoint next) := by
  have targets : processor.phase.target = some checkpoint := by
    rw [updating]
    rfl
  unfold update
  split
  · rename_i below
    rcases fails_or_read around (AbacusDB.leafByLeafIndex
      (UInt32.ofNat next)) with ⟨fails, same⟩ | reads
    · simp only [same]
      exact fun _ => .unreadable _ fails
    · have stored : (AbacusDB.leafByLeafIndex
          (UInt32.ofNat next)).result around.db =
          .ok (around.db (.leaf (UInt32.ofNat next))) := rfl
      simp only [reads, stored]
      cases around.db (.leaf (UInt32.ofNat next)) with
      | none => exact explained_goto rfl
      | some leaf =>
          simp only [MerkleTreeBuilder.ingestLeafIndex]
          cases ingested : processor.proverSync.ingest leaf with
          | error reason =>
              exact fun _ =>
                .assertion targets (.ingest updating below ingested)
          | ok proverSync => exact fun ended => by cases ended
  · rename_i complete
    cases checked : processor.proverSync.checkRoots
        checkpoint.checkpoint.root with
    | error fault =>
        cases fault with
        | error error =>
            exact fun _ =>
              .mismatched updating (Nat.lt_of_not_le complete) checked
        | panic reason =>
            unfold MerkleTreeBuilder.checkRoots at checked
            simp only at checked
            split at checked <;> cases checked
    | ok checkedUnit => exact explained_goto rfl

theorem explained_send
    {message : CommittedMessage}
    {checkpoint : MultisigSignedCheckpoint}
    (targets : processor.phase.target = some checkpoint)
    (proof : Proof H256) :
    Explained around processor
      (processor.send around message checkpoint proof) := by
  unfold send
  split
  · rename_i closed
    exact fun _ => .undelivered closed
  · rcases checkedAdd_one_cases processor.messageLeafIndex with
      ⟨next, -, added⟩ | ⟨last, overflows⟩
    · simp only [added]
      exact fun ended => by cases ended
    · simp only [overflows]
      exact fun _ => .assertion targets (.lastIndex last)

theorem explained_dispatch
    {message : CommittedMessage}
    {checkpoint : MultisigSignedCheckpoint}
    (dispatching : processor.phase = .dispatching message checkpoint) :
    Explained around processor
      (processor.dispatch around message checkpoint) := by
  have targets : processor.phase.target = some checkpoint := by
    rw [dispatching]
    rfl
  unfold dispatch
  rcases checkedAdd_one_cases checkpoint.checkpoint.index with
    ⟨expected, successor, added⟩ | ⟨last, overflows⟩
  · rw [added]
    simp only [bind, Except.bind]
    by_cases agrees : expected = processor.proverSync.count
    · rw [if_neg (not_not_intro agrees)]
      cases proved : processor.proverSync.getProof
          processor.messageLeafIndex with
      | error fault =>
          cases fault with
          | error error => exact fun _ => .unproved dispatching proved
          | panic reason =>
              exact fun _ => .assertion targets (.prove dispatching proved)
      | ok proof =>
          rcases fails_or_read around (AbacusDB.leafByLeafIndex
            processor.messageLeafIndex) with ⟨fails, same⟩ | reads
          · simp only [same]
            exact fun _ => .unreadable _ fails
          · have stored : (AbacusDB.leafByLeafIndex
                processor.messageLeafIndex).result around.db =
                .ok (around.db (.leaf processor.messageLeafIndex)) := rfl
            simp only [reads, stored, Except.mapError]
            split
            · exact explained_send targets proof
            · exact explained_goto rfl
    · rw [if_pos agrees]
      refine fun _ => .assertion targets (.count dispatching fun count => ?_)
      apply agrees
      rw [← UInt32.toNat_inj, successor, count]
  · rw [overflows]
    exact fun _ => .assertion targets (.lastCheckpoint dispatching last)

/-- A processor that runs ends in a step for one of the reasons. -/
theorem ends_of_ended_step
    (running : Pipeline.ended processor.phase = false)
    (ended : Pipeline.ended (processor.step around).1.phase = true) :
    Ends around processor (processor.step around).1.phase := by
  revert ended
  change Explained around processor (processor.advance around)
  unfold advance
  cases phase : processor.phase with
  | starting => exact explained_awaitFirstCheckpoint
  | idle => exact explained_checkStatus
  | reading => exact explained_readMessage
  | awaiting message => exact explained_awaitCheckpoint message
  | updating message checkpoint next => exact explained_update phase
  | dispatching message checkpoint => exact explained_dispatch phase
  | failed error =>
      rw [phase] at running
      cases running
  | panicked reason =>
      rw [phase] at running
      cases running

end MessageProcessor

end Abacus
