import Abacus.Base.Multisig
import Abacus.Relayer.CheckpointFetcher
import Abacus.Library.Machine

/-!
# The checkpoints that the fetcher sends

The sent checkpoints have increasing indices. The latest sent index doubles as
the sign that nothing has been sent: it starts at zero and only an index above
it is fetched, so that the checkpoint of index zero is never sent.
-/

namespace Abacus

/-- What happens in one iteration of the fetcher: the latest index that is
reported, the syncer at that time, and whether every receiver of the channel
is gone. -/
structure FetcherPoll where
  latestIndex : Except Report (Option UInt32)
  syncer : MultisigCheckpointSyncer
  rxClosed : Bool

/-- What the syncer answers in an iteration. -/
def FetcherPoll.answers [Crypto] (poll : FetcherPoll) : FetcherAnswers where
  latestIndex := poll.latestIndex
  fetchCheckpoint := poll.syncer.fetchCheckpoint
  rxClosed := poll.rxClosed

namespace CheckpointFetcher

/-- The main loop: the fetcher between two iterations, or the error that has
ended it. -/
abbrev MainLoop := Except FetcherError CheckpointFetcher

section Progress

variable [Crypto]

/-- One iteration of the main loop, unless it has ended. -/
def step (loop : MainLoop) (poll : FetcherPoll) : MainLoop :=
  loop.bind fun fetcher => (fetcher.iteration poll.answers).map Prod.fst

/-- The checkpoint that an iteration sends. -/
def sends (loop : MainLoop) (poll : FetcherPoll) :
    List MultisigSignedCheckpoint :=
  match loop with
  | .error _ => []
  | .ok fetcher =>
      match fetcher.iteration poll.answers with
      | .error _ => []
      | .ok (_, sent) => sent.toList

/-- There is a checkpoint to send: it is the one of the latest index, and the
channel has a receiver. -/
structure Offers (poll : FetcherPoll) (index : UInt32)
    (checkpoint : MultisigSignedCheckpoint) : Prop where
  latest : poll.latestIndex = .ok (some index)
  fetched : poll.syncer.fetchCheckpoint index = .ok (some checkpoint)
  receives : poll.rxClosed = false

/-- While the latest sent index is zero, no checkpoint of index zero is
offered. -/
def SkipsZero (loop : MainLoop) (poll : FetcherPoll) : Prop :=
  ∀ fetcher checkpoint, loop = .ok fetcher →
    fetcher.latestSignedCheckpointIndex = 0 → ¬ Offers poll 0 checkpoint

/-- What an iteration does with an offered checkpoint. -/
theorem iteration_of_offers
    {poll : FetcherPoll}
    {index : UInt32}
    {checkpoint : MultisigSignedCheckpoint}
    (offers : Offers poll index checkpoint)
    (fetcher : CheckpointFetcher) :
    fetcher.iteration poll.answers =
      if index ≤ fetcher.latestSignedCheckpointIndex then .ok (fetcher, none)
      else .ok (⟨checkpoint.checkpoint.index⟩, some checkpoint) := by
  have latest : poll.answers.latestIndex = .ok (some index) := offers.latest
  have fetched : poll.answers.fetchCheckpoint index = .ok (some checkpoint) :=
    offers.fetched
  have receives : poll.answers.rxClosed = false := offers.receives
  simp only [iteration, latest, fetchAndSendSignedCheckpoint, fetched,
    receives, Bool.false_eq_true, if_false]
  split <;> rfl

/-- The sent checkpoints have increasing indices, and the latest index is the
last of them, or zero if there is none. -/
structure Tracks (sent : List MultisigSignedCheckpoint)
    (fetcher : CheckpointFetcher) : Prop where
  bounded : ∀ checkpoint ∈ sent,
    checkpoint.checkpoint.index ≤ fetcher.latestSignedCheckpointIndex
  unsent : sent = [] → fetcher.latestSignedCheckpointIndex = 0
  positive : sent ≠ [] → 0 < fetcher.latestSignedCheckpointIndex
  reached : sent ≠ [] → ∃ checkpoint ∈ sent,
    checkpoint.checkpoint.index = fetcher.latestSignedCheckpointIndex

/-- The invariant of the main loop. -/
def Increasing (sent : List MultisigSignedCheckpoint)
    (loop : MainLoop) : Prop :=
  sent.Pairwise (fun earlier later =>
      earlier.checkpoint.index < later.checkpoint.index) ∧
    ∀ fetcher, loop = .ok fetcher → Tracks sent fetcher

/-- An iteration keeps the indices increasing. -/
theorem increasing_step
    {sent : List MultisigSignedCheckpoint}
    {loop : MainLoop}
    {poll : FetcherPoll}
    (increasing : Increasing sent loop) :
    Increasing (sent ++ sends loop poll) (step loop poll) := by
  cases loop with
  | error error =>
      refine ⟨by simpa [sends] using increasing.1, ?_⟩
      intro fetcher running
      cases running
  | ok fetcher =>
      obtain ⟨ordered, tracks⟩ := increasing
      have tracks := tracks fetcher rfl
      unfold sends step
      cases iterated : fetcher.iteration poll.answers with
      | error error =>
          refine ⟨by simpa [iterated] using ordered, ?_⟩
          intro after running
          simp [Except.bind, iterated, Except.map] at running
      | ok outcome =>
          obtain ⟨after, new⟩ := outcome
          simp only [Except.bind, iterated, Except.map]
          rcases iteration_cases iterated with
            ⟨rfl, rfl⟩ | ⟨requested, checkpoint, rfl, -, above, fetched, last⟩
          · refine ⟨by simpa using ordered, ?_⟩
            rintro _ ⟨⟩
            simpa using tracks
          · have index : checkpoint.checkpoint.index = requested :=
              index_eq_of_fetchCheckpoint fetched
            rw [index] at last
            refine ⟨?_, ?_⟩
            · refine List.pairwise_append.mpr
                ⟨ordered, List.pairwise_singleton _ _, ?_⟩
              intro earlier member later added
              rw [List.mem_singleton.mp added, index]
              exact UInt32.lt_of_le_of_lt (tracks.bounded earlier member)
                above
            · rintro _ ⟨⟩
              constructor
              · intro earlier member
                rw [last]
                rcases List.mem_append.mp member with old | added
                · exact UInt32.le_of_lt (UInt32.lt_of_le_of_lt
                    (tracks.bounded earlier old) above)
                · rw [List.mem_singleton.mp added, index]
                  exact UInt32.le_refl _
              · simp
              · intro _
                rw [last]
                exact UInt32.lt_of_le_of_lt (UInt32.zero_le) above
              · intro _
                exact ⟨checkpoint, by simp, by rw [index, last]⟩

/-- The invariant holds throughout every run. -/
theorem increasing_run (polls : List FetcherPoll) :
    Increasing (Machine.log step sends (.ok new) polls)
      (Machine.run step (.ok new) polls) := by
  have initial : Increasing [] (.ok new) := by
    refine ⟨List.Pairwise.nil, ?_⟩
    rintro fetcher ⟨⟩
    exact ⟨by simp, fun _ => rfl, by simp, by simp⟩
  exact Machine.invariant_log step sends Increasing
    (fun _ _ _ _ => increasing_step) initial
    (Machine.admissibleRun_of_forall step _ fun _ _ => trivial)

/-- In every run of the main loop the sent checkpoints have strictly increasing
indices. An offered checkpoint with an index above those of all checkpoints
sent before is always sent exactly when no checkpoint of index zero is offered
while the latest sent index is zero. -/
theorem sends_iff
    (polls : List FetcherPoll) :
    ((Machine.log step sends (.ok new) polls).Pairwise
        (fun earlier later =>
          earlier.checkpoint.index < later.checkpoint.index) ∧
      ∀ before poll after, polls = before ++ poll :: after →
        ∀ fetcher index checkpoint,
          Machine.run step (.ok new) before = .ok fetcher →
          Offers poll index checkpoint →
          (∀ earlier ∈ Machine.log step sends (.ok new) before,
            earlier.checkpoint.index < index) →
          sends (Machine.run step (.ok new) before) poll = [checkpoint]) ↔
      Machine.AdmissibleRun step SkipsZero (.ok new) polls := by
  constructor
  · rintro ⟨-, complete⟩
    apply Machine.admissibleRun_of_forall_split
    intro before poll after split fetcher checkpoint running zero offers
    obtain ⟨-, tracks⟩ := increasing_run before
    have tracks := tracks fetcher running
    have unsent : Machine.log step sends (.ok new) before = [] := by
      by_contra some
      have positive := tracks.positive some
      rw [zero] at positive
      exact UInt32.lt_irrefl 0 positive
    have sent := complete before poll after split fetcher 0 checkpoint running
      offers (by simp [unsent])
    rw [running] at sent
    simp [sends, iteration_of_offers offers, zero] at sent
  · intro skips
    refine ⟨(increasing_run polls).1, ?_⟩
    intro before poll after split fetcher index checkpoint running offers
      highest
    obtain ⟨-, tracks⟩ := increasing_run before
    have tracks := tracks fetcher running
    rw [split] at skips
    have skipsHere := Machine.AdmissibleRun.at_split step skips
    have above : ¬ index ≤ fetcher.latestSignedCheckpointIndex := by
      rw [UInt32.not_le]
      by_cases unsent : Machine.log step sends (.ok new) before = []
      · have zero := tracks.unsent unsent
        rw [zero]
        by_contra low
        have least : index = 0 :=
          UInt32.le_antisymm (UInt32.not_lt.mp low) UInt32.zero_le
        subst least
        exact skipsHere fetcher checkpoint running zero offers
      · obtain ⟨earlier, member, last⟩ := tracks.reached unsent
        rw [← last]
        exact highest earlier member
    rw [running]
    simp [sends, iteration_of_offers offers, above]

end Progress

/-- One validator has signed the checkpoint of an index, which is the latest. -/
def pollSigned (index : UInt32) : FetcherPoll where
  latestIndex := .ok (some index)
  syncer := {
    threshold := 1
    checkpointSyncers :=
      [(5, .holding index [⟨.sample index, .naming 5⟩])]
    nodup_validators := by simp }
  rxClosed := false

/-- The checkpoint of index zero, which covers the first message, is offered
to a fetcher that has sent nothing, and is not sent. -/
theorem zero_unsent :
    @Offers .transparent (pollSigned 0) 0 ⟨.sample 0, [.naming 5]⟩ ∧
      Machine.log (@step .transparent) (@sends .transparent) (.ok new)
        [pollSigned 0] = [] :=
  ⟨@Offers.mk .transparent _ _ _ rfl (by decide) rfl, by decide⟩

end CheckpointFetcher

end Abacus
