import Abacus.Base.Multisig
import Mathlib.Data.List.Perm.Basic

/-!
# Quorum availability

A quorum of validators that sign one checkpoint is fetched in every iteration
order exactly when no answer makes the loop give up: every signature of the
requested index recovers, and the accepted answers of a root that can reach
the threshold agree, or the threshold is one.
-/

namespace Abacus

/-- The same validators in another iteration order of the map. -/
def MultisigCheckpointSyncer.reorder
    (syncer : MultisigCheckpointSyncer)
    (order : List ValidatorEntry)
    (permuted : order.Perm syncer.checkpointSyncers) :
    MultisigCheckpointSyncer where
  threshold := syncer.threshold
  checkpointSyncers := order
  nodup_validators :=
    (permuted.map Prod.fst).nodup_iff.mpr syncer.nodup_validators

/-- Two different members of a list can be moved to its front. -/
theorem exists_perm_cons_cons
    {α : Type}
    {first second : α}
    {list : List α}
    (firstMember : first ∈ list)
    (secondMember : second ∈ list)
    (distinct : second ≠ first) :
    ∃ rest, (first :: second :: rest).Perm list := by
  obtain ⟨left, right, split⟩ := List.append_of_mem firstMember
  have withoutFirst : (first :: (left ++ right)).Perm list := by
    rw [split]
    exact List.perm_middle.symm
  have secondLeft : second ∈ left ++ right := by
    have member := withoutFirst.mem_iff.mpr secondMember
    exact (List.mem_cons.mp member).resolve_left distinct
  obtain ⟨before, after, secondSplit⟩ := List.append_of_mem secondLeft
  refine ⟨before ++ after, List.Perm.trans ?_ withoutFirst⟩
  rw [secondSplit]
  exact (List.perm_middle.symm).cons first

section Availability

variable [Crypto]

/-- The accepted answers that sign one checkpoint. -/
def supporters (index : UInt32) (entries : List ValidatorEntry)
    (checkpoint : Checkpoint) : List SignedCheckpointWithSigner :=
  (entries.filterMap (accepted index)).filter fun signed =>
    signed.signedCheckpoint.checkpoint = checkpoint

/-- Every signed checkpoint of the requested index recovers to some signer. -/
def AllRecover (index : UInt32) (entries : List ValidatorEntry) : Prop :=
  ∀ entry ∈ entries, ∀ signed,
    entry.2.fetchCheckpoint index = .ok (some signed) →
      signed.checkpoint.index = index →
        ∃ signer, signed.recover = .ok signer

/-- The accepted answers of a root that can reach the threshold sign the same
checkpoint, unless a single answer is a quorum. -/
def Consistent (threshold : Nat) (index : UInt32)
    (entries : List ValidatorEntry) : Prop :=
  threshold = 1 ∨
    ∀ root, threshold ≤ (votes index entries root).length →
      ∀ first ∈ votes index entries root,
        ∀ second ∈ votes index entries root,
          first.signedCheckpoint.checkpoint =
            second.signedCheckpoint.checkpoint

/-! ## Votes under reordering -/

/-- Reordering the validators reorders the votes. -/
theorem votes_perm
    {first second : List ValidatorEntry}
    (permuted : first.Perm second)
    (index : UInt32)
    (root : H256) :
    (votes index first root).Perm (votes index second root) :=
  (permuted.filterMap (accepted index)).filter _

/-- The supporters of a checkpoint vote for its root. -/
theorem length_supporters_le
    (index : UInt32)
    (entries : List ValidatorEntry)
    (checkpoint : Checkpoint) :
    (supporters index entries checkpoint).length ≤
      (votes index entries checkpoint.root).length := by
  rw [supporters, votes, ← List.countP_eq_length_filter,
    ← List.countP_eq_length_filter]
  apply List.countP_mono_left
  intro signed _ same
  rw [decide_eq_true_eq] at same ⊢
  rw [SignedCheckpointWithSigner.root, same]

/-- The conditions on the answers do not depend on the order. -/
theorem AllRecover.perm
    {index : UInt32}
    {first second : List ValidatorEntry}
    (recover : AllRecover index second)
    (permuted : first.Perm second) :
    AllRecover index first :=
  fun entry member => recover entry (permuted.mem_iff.mp member)

theorem Consistent.perm
    {threshold : Nat}
    {index : UInt32}
    {first second : List ValidatorEntry}
    (consistent : Consistent threshold index second)
    (permuted : first.Perm second) :
    Consistent threshold index first := by
  refine consistent.imp_right fun agree root reached left leftVote right
    rightVote => ?_
  have reordered := votes_perm permuted index root
  rw [reordered.length_eq] at reached
  exact agree root reached left (reordered.mem_iff.mp leftVote) right
    (reordered.mem_iff.mp rightVote)

/-! ## The condition is sufficient -/

/-- The votes that first reach a quorum are no more than it takes. -/
theorem Pending.length_votes_le
    {threshold : Nat}
    {index : UInt32}
    {before : List ValidatorEntry}
    {entry : ValidatorEntry}
    {signed : SignedCheckpointWithSigner}
    (pending : Pending threshold index before)
    (positive : 1 ≤ threshold)
    (answer : accepted index entry = some signed) :
    (votes index (before ++ [entry]) signed.root).length ≤ threshold := by
  rw [votes_append, votes_singleton answer, if_pos rfl, List.length_append,
    List.length_singleton]
  by_cases none : votes index before signed.root = []
  · rw [none]
    simpa using positive
  · exact pending signed.root none

/-- The votes behind the first ones that reach the threshold sign the same
checkpoint, if the answers are consistent. -/
theorem Consistent.checkpoint_eq
    {threshold : Nat}
    {index : UInt32}
    {before after : List ValidatorEntry}
    {entry : ValidatorEntry}
    {signed : SignedCheckpointWithSigner}
    (consistent : Consistent threshold index (before ++ entry :: after))
    (positive : 1 ≤ threshold)
    (pending : Pending threshold index before)
    (answer : accepted index entry = some signed)
    (quorum : threshold ≤
      (votes index (before ++ [entry]) signed.root).length) :
    ∀ first ∈ votes index (before ++ [entry]) signed.root,
      ∀ second ∈ votes index (before ++ [entry]) signed.root,
        first.signedCheckpoint.checkpoint =
          second.signedCheckpoint.checkpoint := by
  intro first firstVote second secondVote
  rcases consistent with single | agree
  · have short := pending.length_votes_le positive answer
    rw [single] at short
    obtain ⟨only, votesEq⟩ := List.length_eq_one_iff.mp
      (le_antisymm short (by omega))
    rw [votesEq, List.mem_singleton] at firstVote secondVote
    rw [firstVote, secondVote]
  · have whole :
        votes index (before ++ entry :: after) signed.root =
          votes index (before ++ [entry]) signed.root ++
            votes index after signed.root := by
      rw [List.append_cons, votes_append]
    have enough : threshold ≤
        (votes index (before ++ entry :: after) signed.root).length := by
      rw [whole, List.length_append]
      omega
    refine agree signed.root enough first ?_ second ?_
    · rw [whole]
      exact List.mem_append_left _ firstVote
    · rw [whole]
      exact List.mem_append_left _ secondVote

/-- Under the two conditions a quorum is always fetched. -/
theorem exists_fetchCheckpoint_eq_ok_some
    (syncer : MultisigCheckpointSyncer)
    (index : UInt32)
    (checkpoint : Checkpoint)
    (positive : 1 ≤ syncer.threshold)
    (quorum : syncer.threshold ≤
      (supporters index syncer.checkpointSyncers checkpoint).length)
    (recover : AllRecover index syncer.checkpointSyncers)
    (consistent :
      Consistent syncer.threshold index syncer.checkpointSyncers) :
    ∃ multisig, syncer.fetchCheckpoint index = .ok (some multisig) := by
  have outcome := fetchCheckpoint_outcome syncer index
  generalize syncer.fetchCheckpoint index = ended at outcome ⊢
  cases outcome with
  | @failed before after entry error split failure =>
      obtain ⟨signed, reason, fetched, sameIndex, unrecovered⟩ :=
        exists_checkAnswer_error_iff.mp ⟨error, failure⟩
      have member : entry ∈ syncer.checkpointSyncers := by
        rw [split]
        simp
      obtain ⟨signer, recovered⟩ :=
        recover entry member signed fetched sameIndex
      rw [unrecovered] at recovered
      cases recovered
  | exhausted pending =>
      have reached : syncer.threshold ≤
          (votes index syncer.checkpointSyncers checkpoint.root).length :=
        quorum.trans (length_supporters_le _ _ _)
      have nonempty :
          votes index syncer.checkpointSyncers checkpoint.root ≠ [] := by
        rw [← List.length_pos_iff]
        omega
      have below := pending _ nonempty
      omega
  | @reached before after entry signed split answer pending collected =>
      have nonempty : votes index (before ++ [entry]) signed.root ≠ [] := by
        rw [← List.length_pos_iff]
        omega
      obtain ⟨first, firstVote⟩ := List.exists_mem_of_ne_nil _ nonempty
      rw [split] at consistent
      have agree : ∀ each ∈ votes index (before ++ [entry]) signed.root,
          each.signedCheckpoint.checkpoint =
            first.signedCheckpoint.checkpoint := fun each eachVote =>
        consistent.checkpoint_eq positive pending answer collected each
          eachVote first firstVote
      obtain ⟨multisig, assembled⟩ :=
        MultisigSignedCheckpoint.exists_tryFrom_eq_ok nonempty agree
      exact ⟨multisig, by rw [assemble, assembled]⟩

/-! ## The condition is necessary -/

/-- An answer that does not recover, asked first, ends the fetch. -/
theorem fetchLoop_eq_error
    {index : UInt32}
    {entry : ValidatorEntry}
    {error : Report}
    (failure : checkAnswer index entry = .error error)
    (threshold : Nat)
    (perRoot : SignedCheckpointsPerRoot)
    (rest : List ValidatorEntry) :
    fetchLoop threshold index perRoot (entry :: rest) = .error error := by
  simp only [fetchLoop, failure]

/-- Validators that all vote for one root cast as many votes. -/
theorem length_votes_of_forall
    {index : UInt32}
    {entries : List ValidatorEntry}
    {root : H256}
    (voters : ∀ entry ∈ entries, ∃ signed,
      accepted index entry = some signed ∧ signed.root = root) :
    (votes index entries root).length = entries.length := by
  induction entries with
  | nil => rfl
  | cons entry rest inductionHypothesis =>
      obtain ⟨signed, answer, same⟩ := voters entry (by simp)
      rw [← List.singleton_append, votes_append, votes_singleton answer,
        if_pos same, List.length_append, List.length_append,
        inductionHypothesis fun later member =>
          voters later (List.mem_cons_of_mem _ member)]
      rfl

/-- When enough voters for one root are asked first, the first quorum is
reached among them. -/
theorem eq_take_voters_of_reached
    {threshold : Nat}
    {index : UInt32}
    {root : H256}
    {voters others before after : List ValidatorEntry}
    {entry : ValidatorEntry}
    (positive : 1 ≤ threshold)
    (vote : ∀ each ∈ voters, ∃ signed,
      accepted index each = some signed ∧ signed.root = root)
    (enough : threshold ≤ voters.length)
    (split : voters ++ others = before ++ entry :: after)
    (pending : Pending threshold index before) :
    before ++ [entry] = voters.take (before.length + 1) := by
  have prefixes : ∀ count, count ≤ before.length + 1 →
      count ≤ voters.length →
      (before ++ [entry]).take count = voters.take count := by
    intro count inBefore inVoters
    have taken := congrArg (List.take count) split
    rw [List.take_append_of_le_length inVoters, List.append_cons,
      List.take_append_of_le_length (by simpa using inBefore)] at taken
    exact taken.symm
  have early : before.length < threshold := by
    by_contra late
    rw [not_lt] at late
    have taken := prefixes threshold (by omega) enough
    rw [List.take_append_of_le_length late] at taken
    have counted : (votes index (before.take threshold) root).length =
        (before.take threshold).length := by
      refine length_votes_of_forall fun each member => ?_
      rw [taken] at member
      exact vote each (List.mem_of_mem_take member)
    rw [List.length_take, min_eq_left late] at counted
    have more : votes index before root =
        votes index (before.take threshold) root ++
          votes index (before.drop threshold) root := by
      rw [← votes_append, List.take_append_drop]
    have length := congrArg List.length more
    rw [List.length_append, counted] at length
    have nonempty : votes index before root ≠ [] := by
      rw [← List.length_pos_iff]
      omega
    have below := pending root nonempty
    omega
  have whole := prefixes (before.length + 1) le_rfl (by omega)
  rwa [List.take_of_length_le (by simp)] at whole

/-- Two different checkpoints of one root, asked first and followed by a
quorum for that root, are not assembled. -/
theorem fetchLoop_ne_ok_some
    {threshold : Nat}
    {index : UInt32}
    {root : H256}
    {first second : ValidatorEntry}
    {firstSigned secondSigned : SignedCheckpointWithSigner}
    {more others : List ValidatorEntry}
    (several : 2 ≤ threshold)
    (firstAnswer : accepted index first = some firstSigned)
    (secondAnswer : accepted index second = some secondSigned)
    (different : firstSigned.signedCheckpoint.checkpoint ≠
      secondSigned.signedCheckpoint.checkpoint)
    (voters : ∀ entry ∈ first :: second :: more, ∃ signed,
      accepted index entry = some signed ∧ signed.root = root)
    (enough : threshold ≤ (first :: second :: more).length)
    (multisig : MultisigSignedCheckpoint) :
    fetchLoop threshold index (fun _ => none)
        (first :: second :: more ++ others) ≠
      .ok (some multisig) := by
  intro fetched
  have outcome := fetchLoop_outcome (Tallies.nil index)
    (Pending.nil threshold index) (first :: second :: more ++ others)
  rw [fetched, List.nil_append] at outcome
  generalize result : Except.ok (some multisig) = ended at outcome
  cases outcome with
  | failed => cases result
  | exhausted => cases result
  | @reached before after entry signed split answer pending quorum =>
      have whole := eq_take_voters_of_reached (by omega) voters enough split
        pending
      have chosen : ∀ each ∈ before ++ [entry], ∃ signed,
          accepted index each = some signed ∧ signed.root = root := by
        intro each member
        rw [whole] at member
        exact voters each (List.mem_of_mem_take member)
      have ownRoot : signed.root = root := by
        obtain ⟨other, otherAnswer, same⟩ := chosen entry (by simp)
        rw [answer] at otherAnswer
        cases otherAnswer
        exact same
      have long : 2 ≤ before.length + 1 := by
        have counted := length_votes_of_forall chosen
        rw [ownRoot] at quorum
        simp only [List.length_append, List.length_singleton] at counted
        omega
      obtain ⟨-, agree, -⟩ := MultisigSignedCheckpoint.tryFrom_eq_ok_iff.mp
        (assemble_eq_ok_some result.symm)
      have firstTwo : (first :: second :: more).take 2 <+:
          before ++ [entry] := by
        rw [whole]
        exact List.take_prefix_take_left long
      have vote : ∀ each eachSigned, each ∈ [first, second] →
          accepted index each = some eachSigned →
            eachSigned ∈ votes index (before ++ [entry]) signed.root := by
        intro each eachSigned member eachAnswer
        have inside : each ∈ before ++ [entry] :=
          firstTwo.subset (by simpa using member)
        refine mem_votes_iff.mpr ⟨⟨each, inside, eachAnswer⟩, ?_⟩
        obtain ⟨other, otherAnswer, same⟩ := chosen each inside
        rw [eachAnswer] at otherAnswer
        cases otherAnswer
        rw [same, ownRoot]
      apply different
      rw [agree firstSigned (vote first firstSigned (by simp) firstAnswer),
        agree secondSigned (vote second secondSigned (by simp) secondAnswer)]

/-- The validators that vote for a root can be asked first, any two of them
before the others. -/
theorem exists_perm_voters_first
    {index : UInt32}
    {root : H256}
    {entries : List ValidatorEntry}
    {first second : ValidatorEntry}
    {firstSigned secondSigned : SignedCheckpointWithSigner}
    (firstMember : first ∈ entries)
    (secondMember : second ∈ entries)
    (firstAnswer : accepted index first = some firstSigned)
    (secondAnswer : accepted index second = some secondSigned)
    (firstRoot : firstSigned.root = root)
    (secondRoot : secondSigned.root = root)
    (different : firstSigned ≠ secondSigned) :
    ∃ more others,
      (first :: second :: more ++ others).Perm entries ∧
        (∀ entry ∈ first :: second :: more, ∃ signed,
          accepted index entry = some signed ∧ signed.root = root) ∧
        (first :: second :: more).length =
          (votes index entries root).length := by
  have distinct : second ≠ first := by
    rintro rfl
    rw [firstAnswer] at secondAnswer
    exact different (Option.some.inj secondAnswer)
  let votesFor (entry : ValidatorEntry) : Bool :=
    (accepted index entry).any fun signed => signed.root = root
  have votesFor_iff : ∀ entry, votesFor entry = true ↔ ∃ signed,
      accepted index entry = some signed ∧ signed.root = root := by
    intro entry
    simp [votesFor, Option.any_eq_true]
  have firstVoter : first ∈ entries.filter votesFor :=
    List.mem_filter.mpr
      ⟨firstMember, (votesFor_iff first).mpr ⟨_, firstAnswer, firstRoot⟩⟩
  have secondVoter : second ∈ entries.filter votesFor :=
    List.mem_filter.mpr
      ⟨secondMember, (votesFor_iff second).mpr ⟨_, secondAnswer, secondRoot⟩⟩
  obtain ⟨more, front⟩ :=
    exists_perm_cons_cons firstVoter secondVoter distinct
  have voters : ∀ entry ∈ first :: second :: more, ∃ signed,
      accepted index entry = some signed ∧ signed.root = root := by
    intro entry member
    exact (votesFor_iff entry).mp
      (List.mem_filter.mp (front.mem_iff.mp member)).2
  have order : (first :: second :: more ++
      entries.filter fun entry => !votesFor entry).Perm entries :=
    (front.append_right _).trans (List.filter_append_perm votesFor entries)
  refine ⟨more, entries.filter fun entry => !votesFor entry, order, voters, ?_⟩
  have silent : votes index (entries.filter fun entry => !votesFor entry)
      root = [] := by
    rw [List.eq_nil_iff_forall_not_mem]
    intro signed vote
    obtain ⟨⟨entry, member, answer⟩, same⟩ := mem_votes_iff.mp vote
    have negative := (List.mem_filter.mp member).2
    rw [(votesFor_iff entry).mpr ⟨signed, answer, same⟩] at negative
    cases negative
  rw [← (votes_perm order index root).length_eq, votes_append, silent,
    List.append_nil, length_votes_of_forall voters]

/-- A checkpoint signed by a quorum is fetched in every iteration order of the
validators exactly when every signature of the requested index recovers and
the answers of each root that can reach the threshold are consistent. -/
theorem forall_order_fetchCheckpoint_iff
    (syncer : MultisigCheckpointSyncer)
    (index : UInt32)
    (checkpoint : Checkpoint)
    (positive : 1 ≤ syncer.threshold)
    (quorum : syncer.threshold ≤
      (supporters index syncer.checkpointSyncers checkpoint).length) :
    (∀ order, ∀ permuted : order.Perm syncer.checkpointSyncers,
        ∃ multisig,
          (syncer.reorder order permuted).fetchCheckpoint index =
            .ok (some multisig)) ↔
      AllRecover index syncer.checkpointSyncers ∧
        Consistent syncer.threshold index syncer.checkpointSyncers := by
  constructor
  · intro available
    refine ⟨?_, ?_⟩
    · intro entry member signed fetched sameIndex
      cases recovered : signed.recover with
      | ok signer => exact ⟨signer, rfl⟩
      | error reason =>
          obtain ⟨error, failure⟩ := exists_checkAnswer_error_iff.mpr
            ⟨signed, reason, fetched, sameIndex, recovered⟩
          obtain ⟨left, right, split⟩ := List.append_of_mem member
          have permuted : (entry :: (left ++ right)).Perm
              syncer.checkpointSyncers := by
            rw [split]
            exact List.perm_middle.symm
          obtain ⟨multisig, some⟩ := available _ permuted
          have ended := fetchLoop_eq_error failure syncer.threshold
            (fun _ => none) (left ++ right)
          exact absurd (ended.symm.trans some) (by simp)
    · by_contra inconsistent
      unfold Consistent at inconsistent
      push Not at inconsistent
      obtain ⟨notOne, root, reached, first, firstVote, second, secondVote,
        different⟩ := inconsistent
      obtain ⟨⟨firstEntry, firstMember, firstAnswer⟩, firstRoot⟩ :=
        mem_votes_iff.mp firstVote
      obtain ⟨⟨secondEntry, secondMember, secondAnswer⟩, secondRoot⟩ :=
        mem_votes_iff.mp secondVote
      obtain ⟨more, others, permuted, voters, length⟩ :=
        exists_perm_voters_first firstMember secondMember firstAnswer
          secondAnswer firstRoot secondRoot
          fun same => different (by rw [same])
      obtain ⟨multisig, some⟩ := available _ permuted
      have several : 2 ≤ syncer.threshold := by omega
      exact fetchLoop_ne_ok_some several firstAnswer secondAnswer different
        voters (by rw [length]; exact reached) multisig some
  · rintro ⟨recover, consistent⟩ order permuted
    apply exists_fetchCheckpoint_eq_ok_some (syncer.reorder order permuted)
      index checkpoint positive
    · have same : (supporters index order checkpoint).Perm
          (supporters index syncer.checkpointSyncers checkpoint) :=
        (permuted.filterMap _).filter _
      exact quorum.trans same.length_eq.ge
    · exact recover.perm permuted
    · exact consistent.perm permuted

end Availability

/-- The two validators that sign index `7` are a quorum in either order. -/
theorem forall_order_fetchCheckpoint_pair :
    (∀ order, ∀ permuted :
          order.Perm MultisigCheckpointSyncer.pair.checkpointSyncers,
        ∃ multisig,
          @MultisigCheckpointSyncer.fetchCheckpoint .transparent
              (MultisigCheckpointSyncer.pair.reorder order permuted) 7 =
            .ok (some multisig)) ↔
      @AllRecover .transparent 7
          MultisigCheckpointSyncer.pair.checkpointSyncers ∧
        @Consistent .transparent 2 7
          MultisigCheckpointSyncer.pair.checkpointSyncers :=
  @forall_order_fetchCheckpoint_iff .transparent .pair 7 (.sample 7)
    (by decide) (by decide)

/-- The quorum of two with a third validator, asked first, whose signature
does not recover. -/
def MultisigCheckpointSyncer.garbageFirst : MultisigCheckpointSyncer where
  threshold := 2
  checkpointSyncers := [
    (4, .holding 7 [⟨.sample 7, { r := 4, s := 0, v := 0 }⟩]),
    (6, .holding 7 [⟨.sample 7, .naming 6⟩]),
    (5, .holding 7 [⟨.sample 7, .naming 5⟩])]
  nodup_validators := by decide

/-- One signature that does not recover hides the quorum of the other two. -/
theorem fetchCheckpoint_garbageFirst :
    1 ≤ MultisigCheckpointSyncer.garbageFirst.threshold ∧
      MultisigCheckpointSyncer.garbageFirst.threshold ≤
        (@supporters .transparent 7
          MultisigCheckpointSyncer.garbageFirst.checkpointSyncers
          (.sample 7)).length ∧
      @MultisigCheckpointSyncer.fetchCheckpoint .transparent .garbageFirst 7 =
        .error (.abacus (.signatureError .recoveryError)) := by
  decide

end Abacus
