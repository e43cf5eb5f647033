import Abacus.Core.Checkpoint

/-!
# The checkpoint fetcher

The fetcher polls for the latest signed index. An index above the latest one
that it has sent is fetched, and the checkpoint, if there is one, is sent to
the processors.
-/

namespace Abacus

/-- Errors that end the fetcher. -/
inductive FetcherError
  | report (error : Report)
  | sendError
  deriving DecidableEq

/-- What the syncer answers in one iteration, and whether every receiver of
the channel is gone. -/
structure FetcherAnswers where
  latestIndex : Except Report (Option UInt32)
  fetchCheckpoint : UInt32 → Except Report (Option MultisigSignedCheckpoint)
  rxClosed : Bool

/-- The fetcher between two iterations. -/
structure CheckpointFetcher where
  latestSignedCheckpointIndex : UInt32
  deriving DecidableEq

namespace CheckpointFetcher

/-- The fetcher at the start of its main loop. -/
def new : CheckpointFetcher where
  latestSignedCheckpointIndex := 0

/-- Fetch a checkpoint and send it; the result is the latest index, next to
what was sent. -/
def fetchAndSendSignedCheckpoint (answers : FetcherAnswers)
    (latestSignedCheckpointIndex signedCheckpointIndex : UInt32) :
    Except FetcherError (UInt32 × Option MultisigSignedCheckpoint) :=
  match answers.fetchCheckpoint signedCheckpointIndex with
  | .error error => .error (.report error)
  | .ok (some latestSignedCheckpoint) =>
      if answers.rxClosed then .error .sendError
      else
        .ok (latestSignedCheckpoint.checkpoint.index,
          some latestSignedCheckpoint)
  | .ok none => .ok (latestSignedCheckpointIndex, none)

/-- One iteration of the main loop. -/
def iteration (answers : FetcherAnswers) (fetcher : CheckpointFetcher) :
    Except FetcherError (CheckpointFetcher × Option MultisigSignedCheckpoint) :=
  match answers.latestIndex with
  | .error error => .error (.report error)
  | .ok none => .ok (fetcher, none)
  | .ok (some signedCheckpointIndex) =>
      if signedCheckpointIndex ≤ fetcher.latestSignedCheckpointIndex then
        .ok (fetcher, none)
      else do
        let (latest, sent) ← fetchAndSendSignedCheckpoint answers
          fetcher.latestSignedCheckpointIndex signedCheckpointIndex
        return ({ latestSignedCheckpointIndex := latest }, sent)

/-- What an iteration can do: keep the latest index and send nothing, or send
a fetched checkpoint whose requested index is above it. -/
theorem iteration_cases
    {answers : FetcherAnswers}
    {fetcher after : CheckpointFetcher}
    {sent : Option MultisigSignedCheckpoint}
    (iterated : fetcher.iteration answers = .ok (after, sent)) :
    after = fetcher ∧ sent = none ∨
      ∃ requested checkpoint, sent = some checkpoint ∧
        answers.latestIndex = .ok (some requested) ∧
        fetcher.latestSignedCheckpointIndex < requested ∧
        answers.fetchCheckpoint requested = .ok (some checkpoint) ∧
        after.latestSignedCheckpointIndex = checkpoint.checkpoint.index := by
  unfold iteration at iterated
  split at iterated
  · cases iterated
  · cases iterated
    exact .inl ⟨rfl, rfl⟩
  · rename_i requested latest
    split at iterated
    · cases iterated
      exact .inl ⟨rfl, rfl⟩
    · rename_i above
      unfold fetchAndSendSignedCheckpoint at iterated
      split at iterated
      · cases iterated
      · rename_i checkpoint fetched
        split at iterated
        · cases iterated
        · cases iterated
          exact .inr ⟨requested, checkpoint, rfl, latest,
            UInt32.not_le.mp above, fetched, rfl⟩
      · cases iterated
        exact .inl ⟨rfl, rfl⟩

end CheckpointFetcher

end Abacus
