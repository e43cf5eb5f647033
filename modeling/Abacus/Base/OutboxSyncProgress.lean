import Abacus.Base.OutboxSyncCompleteness

/-!
# The outbox loop moves on

Against a complete provider, an iteration of the outbox loop moves its start
forward. The only one that does not finds no window, since the tip is not above
the start, and leaves everything as it is.
-/

namespace Abacus

open Journal (Program)

/-- Below the tip there is a window, or an error. -/
theorem fetchWindow_ne_none
    {poll : Poll}
    {tip : UInt32}
    (finalized : poll.finalizedBlockNumber = .ok tip)
    {state : SyncState}
    (behind : state.fromBlock < tip)
    (chunkSize : UInt32) :
    fetchWindow chunkSize poll state ≠ .ok none := by
  intro nothing
  unfold fetchWindow at nothing
  simp only [finalized, if_neg (UInt32.not_le.mpr behind)] at nothing
  obtain ⟨chunkEnd, -, nothing⟩ := exists_of_bind_eq_ok nothing
  obtain ⟨messages, -, nothing⟩ := exists_of_bind_eq_ok nothing
  cases nothing

section Progress

variable [Crypto]
variable {chain : OutboxChain}

/-- An iteration that returns leaves everything as it is, without a window, or
moves the start of the loop forward. -/
theorem advances_syncIteration
    (distinct : (chain.messages.map RawCommittedMessage.leaf).Nodup)
    (sorted : chain.Sorted)
    {poll : Poll}
    (complete : chain.Complete poll)
    {chunkSize : UInt32}
    {state after : SyncState}
    {db : AbacusDB}
    (held : CompleteBelow chain state db)
    (iterated : (syncIteration chunkSize poll state).result db = .ok after) :
    (fetchWindow chunkSize poll state = .ok none ∧ after = state ∧
        (syncIteration chunkSize poll state).journal db = []) ∨
      state.fromBlock.toNat < after.fromBlock.toNat := by
  unfold syncIteration at iterated ⊢
  cases fetches : fetchWindow chunkSize poll state with
  | error fault =>
      rw [fetches, Program.lift_error_bind] at iterated
      cases iterated
  | ok window =>
      rw [fetches, Program.lift_ok_bind] at iterated
      rw [Program.lift_ok_bind]
      cases window with
      | none =>
          cases iterated
          exact .inl ⟨rfl, rfl, rfl⟩
      | some fetched =>
          obtain ⟨next, stored, reached⟩ := held
          obtain ⟨upper, window⟩ :=
            exists_completeWindow sorted complete fetches reached
          have processed := triple_processWindow_complete distinct window
            reached db stored
          simp only at iterated
          rw [iterated] at processed
          have forward := (of_fetchWindow_eq_some fetches).1
          rw [UInt32.le_iff_toNat_le] at forward
          have moved := processed.2
          exact .inr (by omega)

end Progress

end Abacus
