import Abacus.Core.Checkpoint
import Mathlib.Data.List.Nodup

/-!
# The multisig checkpoint syncer

A checkpoint is fetched by asking each configured validator in the iteration
order of the map and collecting the accepted answers by root, until one root
has as many as the threshold. How the loop ends is described by the first
entry that decides it, and quorum soundness follows.
-/

namespace Abacus

/-- The answers of a validator's checkpoint syncer. -/
structure CheckpointSyncer where
  latestIndex : Except Report (Option UInt32)
  fetchCheckpoint : UInt32 → Except Report (Option SignedCheckpoint)

/-- The validators with their syncers, in the iteration order of the map, and
the quorum threshold. -/
structure MultisigCheckpointSyncer where
  threshold : Nat
  checkpointSyncers : List (Address × CheckpointSyncer)
  nodup_validators : (checkpointSyncers.map Prod.fst).Nodup

/-- The signed checkpoints collected so far, by root. -/
abbrev SignedCheckpointsPerRoot :=
  H256 → Option (List SignedCheckpointWithSigner)

/-- Insert a signed checkpoint under its root; the result includes the number
of signatures that the root has now. -/
def SignedCheckpointsPerRoot.insert
    (perRoot : SignedCheckpointsPerRoot)
    (signed : SignedCheckpointWithSigner) :
    SignedCheckpointsPerRoot × Nat :=
  match perRoot signed.root with
  | some occupied =>
      let signatures := occupied ++ [signed]
      (Function.update perRoot signed.root (some signatures),
        signatures.length)
  | none => (Function.update perRoot signed.root (some [signed]), 1)

/-- Inserting appends a checkpoint to those of its root. -/
theorem SignedCheckpointsPerRoot.insert_eq
    (perRoot : SignedCheckpointsPerRoot)
    (signed : SignedCheckpointWithSigner) :
    perRoot.insert signed =
      (Function.update perRoot signed.root
          (some ((perRoot signed.root).getD [] ++ [signed])),
        ((perRoot signed.root).getD [] ++ [signed]).length) := by
  unfold insert
  cases perRoot signed.root with
  | none => rfl
  | some occupied => rfl

/-- A validator with its syncer. -/
abbrev ValidatorEntry := Address × CheckpointSyncer

/-- Assemble the signatures of a root. -/
def assemble (signed : List SignedCheckpointWithSigner) :
    Except Report (Option MultisigSignedCheckpoint) :=
  match MultisigSignedCheckpoint.tryFrom signed with
  | .ok checkpoint => .ok (some checkpoint)
  | .error error => .error (.multisig error)

/-- What assembling successfully means. -/
theorem assemble_eq_ok_some
    {signed : List SignedCheckpointWithSigner}
    {multisig : MultisigSignedCheckpoint}
    (assembled : assemble signed = .ok (some multisig)) :
    MultisigSignedCheckpoint.tryFrom signed = .ok multisig := by
  unfold assemble at assembled
  split at assembled
  · rename_i checkpoint converted
    cases assembled
    exact converted
  · cases assembled

section Fetch

variable [Crypto]

/-- The checks on one validator's answer: an error, a missing checkpoint, a
checkpoint of another index or another signer is ignored, and a signature that
does not recover is passed on as an error. -/
def checkAnswer (index : UInt32) (entry : ValidatorEntry) :
    Except Report (Option SignedCheckpointWithSigner) :=
  match entry.2.fetchCheckpoint index with
  | .ok (some signedCheckpoint) =>
      if signedCheckpoint.checkpoint.index ≠ index then .ok none
      else
        match signedCheckpoint.recover with
        | .error error => .error (.abacus error)
        | .ok signer =>
            if signer ≠ entry.1 then .ok none
            else
              .ok (some {
                signer := signer
                signedCheckpoint := signedCheckpoint })
  | _ => .ok none

/-- The loop of `fetch_checkpoint` over the remaining validators. -/
def fetchLoop (threshold : Nat) (index : UInt32) :
    SignedCheckpointsPerRoot → List ValidatorEntry →
      Except Report (Option MultisigSignedCheckpoint)
  | _, [] => .ok none
  | perRoot, entry :: rest =>
      match checkAnswer index entry with
      | .error error => .error error
      | .ok none => fetchLoop threshold index perRoot rest
      | .ok (some signed) =>
          let (inserted, signatureCount) := perRoot.insert signed
          if threshold ≤ signatureCount then
            match inserted signed.root with
            | some signedCheckpoints => assemble signedCheckpoints
            | none => fetchLoop threshold index inserted rest
          else fetchLoop threshold index inserted rest

/-- Fetch a checkpoint if there is a quorum. -/
def MultisigCheckpointSyncer.fetchCheckpoint
    (syncer : MultisigCheckpointSyncer) (index : UInt32) :
    Except Report (Option MultisigSignedCheckpoint) :=
  fetchLoop syncer.threshold index (fun _ => none) syncer.checkpointSyncers

/-! ## Accepted answers -/

/-- The answer of a validator, if it is a checkpoint of the requested index
whose signature recovers to the validator. -/
def accepted (index : UInt32) (entry : ValidatorEntry) :
    Option SignedCheckpointWithSigner :=
  match entry.2.fetchCheckpoint index with
  | .ok (some signedCheckpoint) =>
      if signedCheckpoint.checkpoint.index = index ∧
          signedCheckpoint.recover = .ok entry.1 then
        some { signer := entry.1, signedCheckpoint := signedCheckpoint }
      else none
  | _ => none

/-- The accepted answers for one root, in iteration order. -/
def votes (index : UInt32) (entries : List ValidatorEntry) (root : H256) :
    List SignedCheckpointWithSigner :=
  (entries.filterMap (accepted index)).filter fun signed => signed.root = root

/-- The checks let through exactly the accepted answers. -/
theorem accepted_of_checkAnswer
    {index : UInt32}
    {entry : ValidatorEntry}
    {answer : Option SignedCheckpointWithSigner}
    (checked : checkAnswer index entry = .ok answer) :
    accepted index entry = answer := by
  unfold checkAnswer at checked
  unfold accepted
  split at checked
  · rename_i signedCheckpoint fetched
    split at checked
    · rename_i otherIndex
      cases checked
      exact if_neg fun both => otherIndex both.1
    · rename_i sameIndex
      split at checked
      · cases checked
      · rename_i signer recovered
        split at checked
        · rename_i otherSigner
          cases checked
          refine if_neg fun both => otherSigner ?_
          rw [recovered] at both
          exact Except.ok.inj both.2
        · rename_i sameSigner
          cases checked
          rw [not_not] at sameIndex sameSigner
          subst sameSigner
          exact if_pos ⟨sameIndex, recovered⟩
  · cases checked
    rfl

/-- The checks fail exactly on a checkpoint of the requested index that does
not recover. -/
theorem exists_checkAnswer_error_iff
    {index : UInt32}
    {entry : ValidatorEntry} :
    (∃ error, checkAnswer index entry = .error error) ↔
      ∃ signed error,
        entry.2.fetchCheckpoint index = .ok (some signed) ∧
          signed.checkpoint.index = index ∧
          signed.recover = .error error := by
  constructor
  · rintro ⟨error, failed⟩
    unfold checkAnswer at failed
    split at failed
    · rename_i signed fetched
      split at failed
      · cases failed
      · rename_i sameIndex
        split at failed
        · rename_i reason unrecovered
          exact ⟨signed, reason, fetched, not_not.mp sameIndex, unrecovered⟩
        · split at failed <;> cases failed
    · cases failed
  · rintro ⟨signed, error, fetched, sameIndex, unrecovered⟩
    refine ⟨.abacus error, ?_⟩
    simp [checkAnswer, fetched, sameIndex, unrecovered]

/-- What acceptance says. -/
theorem accepted_eq_some_iff
    {index : UInt32}
    {entry : ValidatorEntry}
    {signed : SignedCheckpointWithSigner} :
    accepted index entry = some signed ↔
      entry.2.fetchCheckpoint index = .ok (some signed.signedCheckpoint) ∧
        signed.signedCheckpoint.checkpoint.index = index ∧
        signed.signedCheckpoint.recover = .ok signed.signer ∧
        signed.signer = entry.1 := by
  unfold accepted
  constructor
  · intro answer
    split at answer
    · rename_i signedCheckpoint fetched
      split at answer
      · rename_i both
        cases answer
        exact ⟨fetched, both.1, both.2, rfl⟩
      · cases answer
    · cases answer
  · rintro ⟨fetched, sameIndex, recovered, sameSigner⟩
    rw [sameSigner] at recovered
    rw [fetched]
    simp only
    rw [if_pos ⟨sameIndex, recovered⟩, ← sameSigner]

theorem votes_append
    (index : UInt32)
    (first second : List ValidatorEntry)
    (root : H256) :
    votes index (first ++ second) root =
      votes index first root ++ votes index second root := by
  simp [votes]

/-- A vote is the accepted answer of some validator, for its root. -/
theorem mem_votes_iff
    {index : UInt32}
    {entries : List ValidatorEntry}
    {root : H256}
    {signed : SignedCheckpointWithSigner} :
    signed ∈ votes index entries root ↔
      (∃ entry ∈ entries, accepted index entry = some signed) ∧
        signed.root = root := by
  simp [votes, List.mem_filterMap]

/-- An accepted entry adds its vote to its own root. -/
theorem votes_singleton
    {index : UInt32}
    {entry : ValidatorEntry}
    {signed : SignedCheckpointWithSigner}
    (answer : accepted index entry = some signed)
    (root : H256) :
    votes index [entry] root = if signed.root = root then [signed] else [] := by
  simp [votes, answer, List.filter_cons]

/-- An entry that is not accepted adds no vote. -/
theorem votes_singleton_none
    {index : UInt32}
    {entry : ValidatorEntry}
    (answer : accepted index entry = none)
    (root : H256) :
    votes index [entry] root = [] := by
  simp [votes, answer]

/-- The signers of the votes are the validators they come from, so distinct
validators cast distinct votes. -/
theorem nodup_signers_votes
    {index : UInt32}
    {entries : List ValidatorEntry}
    (nodup : (entries.map Prod.fst).Nodup)
    (root : H256) :
    ((votes index entries root).map
      SignedCheckpointWithSigner.signer).Nodup := by
  have signers :
      ((entries.filterMap (accepted index)).map
        SignedCheckpointWithSigner.signer).Sublist
        (entries.map Prod.fst) := by
    clear nodup
    induction entries with
    | nil => exact List.Sublist.refl _
    | cons entry rest inductionHypothesis =>
        cases answer : accepted index entry with
        | none =>
            rw [List.filterMap_cons_none answer, List.map_cons]
            exact inductionHypothesis.cons _
        | some signed =>
            rw [List.filterMap_cons_some answer, List.map_cons, List.map_cons,
              (accepted_eq_some_iff.mp answer).2.2.2]
            exact inductionHypothesis.cons_cons _
  exact nodup.sublist ((List.filter_sublist.map _).trans signers)

/-! ## How the loop ends -/

/-- The collected checkpoints are the votes of the processed validators. -/
def Tallies (index : UInt32) (processed : List ValidatorEntry)
    (perRoot : SignedCheckpointsPerRoot) : Prop :=
  ∀ root, (perRoot root).getD [] = votes index processed root

/-- No root has reached the threshold. -/
def Pending (threshold : Nat) (index : UInt32)
    (processed : List ValidatorEntry) : Prop :=
  ∀ root, votes index processed root ≠ [] →
    (votes index processed root).length < threshold

/-- The three ways in which the loop ends: at the first answer that does not
recover, at the first root that reaches the threshold, or after the last
validator. -/
inductive FetchOutcome (threshold : Nat) (index : UInt32)
    (entries : List ValidatorEntry) :
    Except Report (Option MultisigSignedCheckpoint) → Prop
  | failed
      {before after : List ValidatorEntry}
      {entry : ValidatorEntry}
      {error : Report}
      (split : entries = before ++ entry :: after)
      (failure : checkAnswer index entry = .error error) :
      FetchOutcome threshold index entries (.error error)
  | reached
      {before after : List ValidatorEntry}
      {entry : ValidatorEntry}
      {signed : SignedCheckpointWithSigner}
      (split : entries = before ++ entry :: after)
      (answer : accepted index entry = some signed)
      (pending : Pending threshold index before)
      (quorum : threshold ≤
        (votes index (before ++ [entry]) signed.root).length) :
      FetchOutcome threshold index entries
        (assemble (votes index (before ++ [entry]) signed.root))
  | exhausted
      (pending : Pending threshold index entries) :
      FetchOutcome threshold index entries (.ok none)

/-- Nothing has been collected at first. -/
theorem Tallies.nil (index : UInt32) :
    Tallies index [] (fun _ => none) :=
  fun _ => rfl

theorem Pending.nil (threshold : Nat) (index : UInt32) :
    Pending threshold index [] :=
  fun _ nonempty => absurd rfl nonempty

/-- An entry that is not accepted leaves the votes as they are. -/
theorem votes_append_none
    {index : UInt32}
    {entry : ValidatorEntry}
    (answer : accepted index entry = none)
    (processed : List ValidatorEntry) :
    votes index (processed ++ [entry]) = votes index processed := by
  funext root
  rw [votes_append, votes_singleton_none answer, List.append_nil]

/-- Inserting an accepted answer keeps the tallies. -/
theorem Tallies.insert
    {index : UInt32}
    {processed : List ValidatorEntry}
    {perRoot : SignedCheckpointsPerRoot}
    {entry : ValidatorEntry}
    {signed : SignedCheckpointWithSigner}
    (tallies : Tallies index processed perRoot)
    (answer : accepted index entry = some signed) :
    Tallies index (processed ++ [entry]) (perRoot.insert signed).1 ∧
      (perRoot.insert signed).1 signed.root =
        some (votes index (processed ++ [entry]) signed.root) ∧
      (perRoot.insert signed).2 =
        (votes index (processed ++ [entry]) signed.root).length := by
  have own : votes index (processed ++ [entry]) signed.root =
      votes index processed signed.root ++ [signed] := by
    rw [votes_append, votes_singleton answer, if_pos rfl]
  have others : ∀ root, root ≠ signed.root →
      votes index (processed ++ [entry]) root =
        votes index processed root := by
    intro root different
    rw [votes_append, votes_singleton answer, if_neg (Ne.symm different),
      List.append_nil]
  rw [SignedCheckpointsPerRoot.insert_eq, tallies signed.root, ← own]
  refine ⟨fun root => ?_, Function.update_self _ _ _, rfl⟩
  dsimp only
  by_cases same : root = signed.root
  · rw [same, Function.update_self, Option.getD_some]
  · rw [Function.update_of_ne same, others root same]
    exact tallies root

/-- A root other than the one just voted for stays below the threshold. -/
theorem Pending.append
    {threshold : Nat}
    {index : UInt32}
    {processed : List ValidatorEntry}
    {entry : ValidatorEntry}
    {signed : SignedCheckpointWithSigner}
    (pending : Pending threshold index processed)
    (answer : accepted index entry = some signed)
    (below : (votes index (processed ++ [entry]) signed.root).length <
      threshold) :
    Pending threshold index (processed ++ [entry]) := by
  intro root nonempty
  by_cases same : root = signed.root
  · rwa [same]
  · rw [votes_append, votes_singleton answer, if_neg (Ne.symm same),
      List.append_nil] at nonempty ⊢
    exact pending root nonempty

/-- The loop ends in one of the three ways. -/
theorem fetchLoop_outcome
    {threshold : Nat}
    {index : UInt32}
    {processed : List ValidatorEntry}
    {perRoot : SignedCheckpointsPerRoot}
    (tallies : Tallies index processed perRoot)
    (pending : Pending threshold index processed)
    (rest : List ValidatorEntry) :
    FetchOutcome threshold index (processed ++ rest)
      (fetchLoop threshold index perRoot rest) := by
  induction rest generalizing processed perRoot with
  | nil =>
      rw [List.append_nil]
      exact .exhausted pending
  | cons entry rest inductionHypothesis =>
      have regroup : processed ++ entry :: rest =
          (processed ++ [entry]) ++ rest := by simp
      cases checked : checkAnswer index entry with
      | error error =>
          simp only [fetchLoop, checked]
          exact .failed rfl checked
      | ok answer =>
          have answered := accepted_of_checkAnswer checked
          cases answer with
          | none =>
              have unchanged := votes_append_none answered processed
              simp only [fetchLoop, checked]
              rw [regroup]
              apply inductionHypothesis
              · intro root
                rw [unchanged, tallies root]
              · intro root nonempty
                rw [unchanged] at nonempty ⊢
                exact pending root nonempty
          | some signed =>
              obtain ⟨inserted, collected, counted⟩ :=
                tallies.insert answered
              simp only [fetchLoop, checked, collected, counted]
              split
              · rename_i quorum
                exact .reached rfl answered pending quorum
              · rename_i below
                rw [regroup]
                exact inductionHypothesis inserted
                  (pending.append answered (not_le.mp below))

/-- How a fetch ends. -/
theorem fetchCheckpoint_outcome
    (syncer : MultisigCheckpointSyncer)
    (index : UInt32) :
    FetchOutcome syncer.threshold index syncer.checkpointSyncers
      (syncer.fetchCheckpoint index) :=
  fetchLoop_outcome (Tallies.nil index) (Pending.nil _ index) _

/-! ## Quorum soundness -/

/-- A fetched checkpoint is assembled from a quorum of votes. -/
theorem exists_assembled_of_fetchCheckpoint
    {syncer : MultisigCheckpointSyncer}
    {index : UInt32}
    {multisig : MultisigSignedCheckpoint}
    (fetched : syncer.fetchCheckpoint index = .ok (some multisig)) :
    ∃ before entry after root,
      syncer.checkpointSyncers = before ++ entry :: after ∧
      syncer.threshold ≤ (votes index (before ++ [entry]) root).length ∧
      MultisigSignedCheckpoint.tryFrom (votes index (before ++ [entry]) root) =
        .ok multisig := by
  have outcome := fetchCheckpoint_outcome syncer index
  rw [fetched] at outcome
  generalize result : Except.ok (some multisig) = ended at outcome
  cases outcome with
  | failed => cases result
  | exhausted => cases result
  | @reached before after entry signed split answer pending quorum =>
      exact ⟨before, entry, after, signed.root, split, quorum,
        assemble_eq_ok_some result.symm⟩

/-- A fetched checkpoint has the requested index. -/
theorem index_eq_of_fetchCheckpoint
    {syncer : MultisigCheckpointSyncer}
    {index : UInt32}
    {multisig : MultisigSignedCheckpoint}
    (fetched : syncer.fetchCheckpoint index = .ok (some multisig)) :
    multisig.checkpoint.index = index := by
  obtain ⟨before, entry, after, root, -, -, assembled⟩ :=
    exists_assembled_of_fetchCheckpoint fetched
  obtain ⟨nonempty, same, -⟩ :=
    MultisigSignedCheckpoint.tryFrom_eq_ok_iff.mp assembled
  obtain ⟨each, member⟩ := List.exists_mem_of_ne_nil _ nonempty
  obtain ⟨⟨other, -, accepts⟩, -⟩ := mem_votes_iff.mp member
  rw [← same each member]
  exact (accepted_eq_some_iff.mp accepts).2.1

/-- A fetched checkpoint has the requested index and at least as many
signatures as the threshold, which recover over it to configured validators in
strictly ascending order. -/
theorem fetchCheckpoint_sound
    (syncer : MultisigCheckpointSyncer)
    (index : UInt32)
    (multisig : MultisigSignedCheckpoint)
    (fetched : syncer.fetchCheckpoint index = .ok (some multisig)) :
    multisig.checkpoint.index = index ∧
      syncer.threshold ≤ multisig.signatures.length ∧
      ∃ signers : List Address,
        List.Forall₂
          (fun signature signer =>
            SignedCheckpoint.recover ⟨multisig.checkpoint, signature⟩ =
              .ok signer)
          multisig.signatures signers ∧
        signers.Pairwise (· < ·) ∧
        ∀ signer ∈ signers,
          signer ∈ syncer.checkpointSyncers.map Prod.fst := by
  obtain ⟨before, entry, after, root, split, quorum, assembled⟩ :=
    exists_assembled_of_fetchCheckpoint fetched
  obtain ⟨-, -, signatures⟩ :=
    MultisigSignedCheckpoint.tryFrom_eq_ok_iff.mp assembled
  have voters : ∀ each ∈ votes index (before ++ [entry]) root,
      ∃ other ∈ syncer.checkpointSyncers,
        accepted index other = some each := by
    intro each member
    obtain ⟨⟨other, inside, accepts⟩, -⟩ := mem_votes_iff.mp member
    refine ⟨other, ?_, accepts⟩
    rw [split]
    rcases List.mem_append.mp inside with earlier | last
    · exact List.mem_append_left _ earlier
    · rw [List.mem_singleton.mp last]
      simp
  have distinct : ((votes index (before ++ [entry]) root).map
      SignedCheckpointWithSigner.signer).Nodup := by
    apply nodup_signers_votes
    have all := syncer.nodup_validators
    rw [split, List.append_cons, List.map_append] at all
    exact all.of_append_left
  obtain ⟨signers, recovered, ascending, signersVote⟩ :=
    MultisigSignedCheckpoint.exists_signers_of_tryFrom assembled distinct
      (by
        intro each member
        obtain ⟨other, -, accepts⟩ := voters each member
        exact (accepted_eq_some_iff.mp accepts).2.2.1)
  refine ⟨index_eq_of_fetchCheckpoint fetched, ?_, signers, recovered,
    ascending, ?_⟩
  · rw [signatures, List.length_map, List.length_insertionSort]
    exact quorum
  · intro signer member
    obtain ⟨each, voted, rfl⟩ := signersVote signer member
    obtain ⟨other, inside, accepts⟩ := voters each voted
    rw [(accepted_eq_some_iff.mp accepts).2.2.2]
    exact List.mem_map_of_mem inside

end Fetch

/-- A syncer that reports a latest index and holds some signed checkpoints. -/
def CheckpointSyncer.holding (latest : UInt32)
    (stored : List SignedCheckpoint) : CheckpointSyncer where
  latestIndex := .ok (some latest)
  fetchCheckpoint index :=
    .ok (stored.find? fun signed => signed.checkpoint.index = index)

/-- The checkpoint of an index with the zero root. -/
def Checkpoint.sample (index : UInt32) : Checkpoint :=
  { outboxDomain := 1, root := H256.zero, index := index }

/-- A signature that transparent cryptography recovers to a signer. -/
def Signature.naming (signer : U256) : Signature :=
  { r := signer, s := 0, v := 27 }

/-- Two validators sign index `7`, in the order opposite to their addresses. -/
def MultisigCheckpointSyncer.pair : MultisigCheckpointSyncer where
  threshold := 2
  checkpointSyncers := [
    (6, .holding 7 [⟨.sample 7, .naming 6⟩]),
    (5, .holding 7 [⟨.sample 7, .naming 5⟩])]
  nodup_validators := by decide

/-- The two signatures are assembled in the order of the signers. -/
theorem fetchCheckpoint_sound_pair :
    ∃ signers : List Address,
      List.Forall₂
        (fun signature signer =>
          @SignedCheckpoint.recover .transparent ⟨.sample 7, signature⟩ =
            .ok signer)
        [.naming 5, .naming 6] signers ∧
      signers.Pairwise (· < ·) ∧
      ∀ signer ∈ signers, signer ∈ [(6 : Address), 5] :=
  (@fetchCheckpoint_sound .transparent .pair 7
    ⟨.sample 7, [.naming 5, .naming 6]⟩ (by decide)).2.2

end Abacus
