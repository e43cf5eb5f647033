import Abacus.Base.OutboxSyncCompleteness
import Mathlib.Data.List.Count

/-!
# How a batch is classified

The validation of a batch subtracts one from the indices of its messages. It
classifies every sorted batch above the latest index, unless there is no latest
index and two messages of the batch have index zero.
-/

namespace Abacus

/-- The classification of a batch: a nonempty one is an invalid continuation if
the index after the latest one is missing, valid if its indices count up, from
the one after the latest if there is a latest one, and has gaps otherwise. -/
structure Classifies (latest : Option UInt32)
    (messages : List RawCommittedMessage) (validity : ListValidity) :
    Prop where
  empty : validity = .empty ↔ messages = []
  invalidContinuation : validity = .invalidContinuation ↔
    messages ≠ [] ∧ ∃ lastSeen, latest = some lastSeen ∧
      ∀ message ∈ messages, message.leafIndex.toNat ≠ lastSeen.toNat + 1
  valid : validity = .valid ↔
    messages ≠ [] ∧ ∃ next, AbacusDB.Consecutive next messages ∧
      ∀ lastSeen, latest = some lastSeen → next = lastSeen.toNat + 1
  containsGaps : validity = .containsGaps ↔
    validity ≠ .empty ∧ validity ≠ .invalidContinuation ∧ validity ≠ .valid

/-! ## Subtractions that do not underflow -/

/-- Subtracting one from a positive index. -/
theorem checkedSub_one
    {index : UInt32}
    (positive : index ≠ 0) :
    (checkedSub index 1 : Except (Fault ε) UInt32) = .ok (index - 1) := by
  refine if_pos ?_
  rw [UInt32.le_iff_toNat_le]
  have nonzero : index.toNat ≠ 0 := fun zero =>
    positive (UInt32.toNat_inj.mp zero)
  exact Nat.one_le_iff_ne_zero.mpr nonzero

/-- The search for the desired message returns if all indices are positive, and
finds it if it is there. -/
theorem exists_hasDesiredMessage_eq_ok
    (lastSeen : UInt32)
    {messages : List RawCommittedMessage}
    (positive : ∀ message ∈ messages, message.leafIndex ≠ 0) :
    ∃ desired,
      (hasDesiredMessage lastSeen messages : Except (Fault ε) Bool) =
        .ok desired ∧
      (desired = true ↔ ∃ message ∈ messages,
        message.leafIndex.toNat = lastSeen.toNat + 1) := by
  induction messages with
  | nil => exact ⟨false, rfl, by simp⟩
  | cons message rest inductionHypothesis =>
      have subtracted : (checkedSub message.leafIndex 1 :
          Except (Fault ε) UInt32) = .ok (message.leafIndex - 1) :=
        checkedSub_one (positive message List.mem_cons_self)
      have index := toNat_of_checkedSub subtracted
      by_cases same : lastSeen = message.leafIndex - 1
      · refine ⟨true, ?_, iff_of_true rfl
          ⟨message, List.mem_cons_self, by rw [index, same]; rfl⟩⟩
        unfold hasDesiredMessage
        simp only [subtracted, bind, Except.bind]
        exact if_pos same
      · obtain ⟨desired, searched, found⟩ := inductionHypothesis
          fun other member => positive other (List.mem_cons_of_mem _ member)
        refine ⟨desired, ?_, ?_⟩
        · unfold hasDesiredMessage
          simp only [subtracted, bind, Except.bind]
          rw [if_neg same]
          exact searched
        · rw [found]
          constructor
          · rintro ⟨other, member, following⟩
            exact ⟨other, List.mem_cons_of_mem _ member, following⟩
          · rintro ⟨other, member, following⟩
            rcases List.mem_cons.mp member with rfl | later
            · refine absurd (UInt32.toNat_inj.mp ?_) same
              have one : (1 : UInt32).toNat = 1 := rfl
              omega
            · exact ⟨other, later, following⟩

/-- The search for a gap returns if all indices but the first are positive. -/
theorem exists_containsGap_eq_ok
    {first : RawCommittedMessage}
    {rest : List RawCommittedMessage}
    (positive : ∀ message ∈ rest, message.leafIndex ≠ 0) :
    ∃ gap, (containsGap (first :: rest) : Except (Fault ε) Bool) =
      .ok gap := by
  induction rest generalizing first with
  | nil => exact ⟨false, rfl⟩
  | cons second rest inductionHypothesis =>
      unfold containsGap
      rw [checkedSub_one (positive second List.mem_cons_self)]
      simp only [bind, Except.bind]
      split
      · exact ⟨true, rfl⟩
      · exact inductionHypothesis fun message member =>
          positive message (List.mem_cons_of_mem _ member)

/-- The search for a gap underflows on a second index of zero. -/
theorem containsGap_eq_panic
    {first second : RawCommittedMessage}
    (zero : second.leafIndex = 0)
    (rest : List RawCommittedMessage) :
    (containsGap (first :: second :: rest) : Except (Fault ε) Bool) =
      .error (.panic .overflow) := by
  unfold containsGap
  rw [zero]
  rfl

/-! ## The classification -/

/-- In a sorted batch above the latest index, the desired message can only be
the first. -/
theorem toNat_head_of_desired
    {first : RawCommittedMessage}
    {rest : List RawCommittedMessage}
    (sorted : (first :: rest).Pairwise fun earlier later =>
      earlier.leafIndex ≤ later.leafIndex)
    {lastSeen : UInt32}
    (above : lastSeen < first.leafIndex)
    (desired : ∃ message ∈ first :: rest,
      message.leafIndex.toNat = lastSeen.toNat + 1) :
    first.leafIndex.toNat = lastSeen.toNat + 1 := by
  obtain ⟨message, member, following⟩ := desired
  rcases List.mem_cons.mp member with rfl | later
  · exact following
  · have lower := (List.pairwise_cons.mp sorted).1 message later
    rw [UInt32.le_iff_toNat_le] at lower
    rw [UInt32.lt_iff_toNat_lt] at above
    omega

/-- A batch whose desired message is there is classified by its gaps. -/
theorem classifies_of_containsGap
    {latest : Option UInt32}
    {first : RawCommittedMessage}
    {rest : List RawCommittedMessage}
    (follows : ∀ lastSeen, latest = some lastSeen →
      first.leafIndex.toNat = lastSeen.toNat + 1)
    {gap : Bool}
    (checked : (containsGap (first :: rest) : Except (Fault ε) Bool) =
      .ok gap) :
    Classifies latest (first :: rest)
      (if gap then .containsGaps else .valid) := by
  have present : ¬ ∃ lastSeen, latest = some lastSeen ∧
      ∀ message ∈ first :: rest,
        message.leafIndex.toNat ≠ lastSeen.toNat + 1 := by
    rintro ⟨lastSeen, known, missing⟩
    exact missing first List.mem_cons_self (follows lastSeen known)
  cases gap with
  | false =>
      have consecutive := consecutive_of_containsGap checked
      refine ⟨by simp, iff_of_false (by simp) fun invalid => present invalid.2,
        iff_of_true rfl ⟨by simp, _, consecutive, follows⟩, by simp⟩
  | true =>
      refine ⟨by simp, iff_of_false (by simp) fun invalid => present invalid.2,
        iff_of_false (by simp) ?_, by simp⟩
      rintro ⟨-, next, consecutive, -⟩
      rw [containsGap_of_consecutive consecutive] at checked
      cases checked

/-- The validation of a nonempty batch that continues the latest index. -/
theorem validContinuation_of_continues
    {latest : Option UInt32}
    {first : RawCommittedMessage}
    {rest : List RawCommittedMessage}
    (continues : (continuesLatest latest (first :: rest) :
      Except (Fault ε) Bool) = .ok true)
    {gap : Bool}
    (checked : (containsGap (first :: rest) : Except (Fault ε) Bool) =
      .ok gap) :
    (validContinuation latest (first :: rest) :
      Except (Fault ε) ListValidity) =
        .ok (if gap then .containsGaps else .valid) := by
  unfold validContinuation
  rw [if_neg (by simp), continues, checked]
  cases gap <;> rfl

/-- Without an underflow, every sorted batch above the latest index is
classified. -/
theorem exists_classifies
    {latest : Option UInt32}
    {messages : List RawCommittedMessage}
    (sorted : messages.Pairwise fun earlier later =>
      earlier.leafIndex ≤ later.leafIndex)
    (above : ∀ lastSeen, latest = some lastSeen →
      ∀ message ∈ messages, lastSeen < message.leafIndex)
    (positive : ∀ message ∈ messages.tail, message.leafIndex ≠ 0) :
    ∃ validity,
      (validContinuation latest messages :
        Except (Fault ε) ListValidity) = .ok validity ∧
      Classifies latest messages validity := by
  cases messages with
  | nil => exact ⟨.empty, rfl, by simp, by simp, by simp, by simp⟩
  | cons first rest =>
      obtain ⟨gap, checked⟩ : ∃ gap,
          (containsGap (first :: rest) : Except (Fault ε) Bool) = .ok gap :=
        exists_containsGap_eq_ok positive
      cases latest with
      | none =>
          have follows : ∀ lastSeen, (none : Option UInt32) = some lastSeen →
              first.leafIndex.toNat = lastSeen.toNat + 1 :=
            nofun
          exact ⟨_, validContinuation_of_continues rfl checked,
            classifies_of_containsGap follows checked⟩
      | some lastSeen =>
          have known := above lastSeen rfl
          have nonzero : ∀ message ∈ first :: rest,
              message.leafIndex ≠ 0 := by
            intro message member zero
            have less := known message member
            rw [zero] at less
            exact absurd less (by simp)
          obtain ⟨desired, searched, found⟩ : ∃ desired,
              (continuesLatest (some lastSeen) (first :: rest) :
                Except (Fault ε) Bool) = .ok desired ∧
              (desired = true ↔ ∃ message ∈ first :: rest,
                message.leafIndex.toNat = lastSeen.toNat + 1) :=
            exists_hasDesiredMessage_eq_ok lastSeen nonzero
          cases desired with
          | true =>
              have head := toNat_head_of_desired sorted
                (known first List.mem_cons_self) (found.mp rfl)
              refine ⟨_, validContinuation_of_continues searched checked,
                classifies_of_containsGap ?_ checked⟩
              intro other same
              rw [← Option.some.inj same]
              exact head
          | false =>
              have missing : ∀ message ∈ first :: rest,
                  message.leafIndex.toNat ≠ lastSeen.toNat + 1 :=
                fun message member following =>
                  absurd (found.mpr ⟨message, member, following⟩) (by simp)
              refine ⟨.invalidContinuation, ?_, by simp,
                iff_of_true rfl ⟨by simp, lastSeen, rfl, missing⟩,
                iff_of_false (by simp) ?_, by simp⟩
              · unfold validContinuation
                rw [if_neg (by simp), searched]
                rfl
              · rintro ⟨-, next, consecutive, follows⟩
                exact missing first List.mem_cons_self
                  (consecutive.1.trans (follows lastSeen rfl))

/-- A sorted batch has at most one message of index zero if all but the first
have positive indices. -/
theorem forall_tail_ne_zero_iff
    {messages : List RawCommittedMessage}
    (sorted : messages.Pairwise fun earlier later =>
      earlier.leafIndex ≤ later.leafIndex) :
    (∀ message ∈ messages.tail, message.leafIndex ≠ 0) ↔
      messages.countP (fun message => message.leafIndex = 0) ≤ 1 := by
  cases messages with
  | nil => simp
  | cons first rest =>
      rw [List.tail_cons, List.countP_cons]
      constructor
      · intro positive
        have none : rest.countP (fun message => message.leafIndex = 0) = 0 :=
          List.countP_eq_zero.mpr (by simpa using positive)
        rw [none]
        split <;> omega
      · intro most message member zero
        have lowest := (List.pairwise_cons.mp sorted).1 message member
        rw [zero] at lowest
        have firstZero : first.leafIndex = 0 := by
          rw [UInt32.le_iff_toNat_le] at lowest
          exact UInt32.toNat_inj.mp (Nat.le_zero.mp lowest)
        have some : 0 <
            rest.countP (fun message => message.leafIndex = 0) :=
          List.countP_pos_iff.mpr ⟨message, member, by simpa using zero⟩
        rw [if_pos (by simpa using firstZero)] at most
        omega

/-- A sorted batch above the latest index is classified exactly if there is a
latest index or at most one of its messages has index zero: two such messages
make the search for a gap underflow. -/
theorem validContinuation_classifies_iff
    {latest : Option UInt32}
    {messages : List RawCommittedMessage}
    (sorted : messages.Pairwise fun earlier later =>
      earlier.leafIndex ≤ later.leafIndex)
    (above : ∀ lastSeen, latest = some lastSeen →
      ∀ message ∈ messages, lastSeen < message.leafIndex) :
    (∃ validity,
      (validContinuation latest messages :
        Except (Fault ε) ListValidity) = .ok validity ∧
      Classifies latest messages validity) ↔
        latest.isSome ∨
          messages.countP (fun message => message.leafIndex = 0) ≤ 1 := by
  rw [← forall_tail_ne_zero_iff sorted]
  constructor
  · rintro ⟨validity, validated, -⟩
    cases latest with
    | some lastSeen => exact .inl rfl
    | none =>
        refine .inr ?_
        match messages with
        | [] => simp
        | [_] => simp
        | first :: second :: rest =>
            have secondPositive : second.leafIndex ≠ 0 := by
              intro zero
              unfold validContinuation at validated
              rw [if_neg (by simp), continuesLatest,
                containsGap_eq_panic zero] at validated
              cases validated
            intro message member zero
            rcases List.mem_cons.mp member with rfl | later
            · exact secondPositive zero
            · have lowest := (List.pairwise_cons.mp
                (List.pairwise_cons.mp sorted).2).1 message later
              rw [zero, UInt32.le_iff_toNat_le] at lowest
              exact secondPositive
                (UInt32.toNat_inj.mp (Nat.le_zero.mp lowest))
  · rintro (known | positive)
    · obtain ⟨lastSeen, rfl⟩ := Option.isSome_iff_exists.mp known
      refine exists_classifies sorted above ?_
      intro message member zero
      have less := above lastSeen rfl message (List.mem_of_mem_tail member)
      rw [zero] at less
      exact absurd less (by simp)
    · exact exists_classifies sorted above positive

/-- Messages of indices `0` and `1`, and none before them. -/
theorem validContinuation_classifies_iff_two :
    (validContinuation none [⟨0, []⟩, ⟨1, []⟩] :
        Except (Fault Report) ListValidity) = .ok .valid ∧
      Classifies none [⟨0, []⟩, ⟨1, []⟩] .valid := by
  have sorted : [(⟨0, []⟩ : RawCommittedMessage), ⟨1, []⟩].Pairwise
      fun earlier later => earlier.leafIndex ≤ later.leafIndex := by
    decide
  have above : ∀ lastSeen, (none : Option UInt32) = some lastSeen →
      ∀ message ∈ [(⟨0, []⟩ : RawCommittedMessage), ⟨1, []⟩],
        lastSeen < message.leafIndex :=
    nofun
  obtain ⟨validity, validated, classifies⟩ :=
    (@validContinuation_classifies_iff Report _ _ sorted above).mpr
      (.inr (by decide))
  have valid : (validContinuation none [⟨0, []⟩, ⟨1, []⟩] :
      Except (Fault Report) ListValidity) = .ok .valid :=
    rfl
  cases valid.symm.trans validated
  exact ⟨valid, classifies⟩

/-- Two messages of index zero, when no message has been seen. -/
theorem validContinuation_underflow :
    [(⟨0, []⟩ : RawCommittedMessage), ⟨0, [1]⟩].Pairwise
        (fun earlier later => earlier.leafIndex ≤ later.leafIndex) ∧
      (validContinuation none [⟨0, []⟩, ⟨0, [1]⟩] :
        Except (Fault Report) ListValidity) = .error (.panic .overflow) ∧
      ¬ ∃ validity,
        (validContinuation none [⟨0, []⟩, ⟨0, [1]⟩] :
          Except (Fault Report) ListValidity) = .ok validity := by
  refine ⟨by decide, rfl, ?_⟩
  rintro ⟨validity, validated⟩
  cases validated

end Abacus
