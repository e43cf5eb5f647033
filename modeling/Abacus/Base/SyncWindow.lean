import Abacus.Base.CheckpointStorage
import Abacus.Base.GasPaymentSyncCorrectness

/-!
# The block arithmetic of the two loops

Both loops fetch the window between the end of a full chunk and the tip or the
end of the next chunk. The window surrounds the blocks that are due if the end
of the chunk is a block number; the block after a window always is one as long
as the tips stay below the highest number.
-/

namespace Abacus

open Journal (Program)

/-! ## Settings -/

/-- The settings of an indexer, as they are written in the configuration. -/
structure IndexSettings where
  fromSetting : Option String
  chunk : Option String
  deriving DecidableEq

/-- Get the `from` setting. -/
def IndexSettings.fromBlock (settings : IndexSettings) : UInt32 :=
  (settings.fromSetting.bind parseU32).getD 0

/-- Get the `chunk_size` setting. -/
def IndexSettings.chunkSize (settings : IndexSettings) : UInt32 :=
  (settings.chunk.bind parseU32).getD 1999

/-- Every pair of numbers can be set. -/
theorem IndexSettings.exists_settings (fromBlock chunkSize : UInt32) :
    ∃ settings : IndexSettings,
      settings.fromBlock = fromBlock ∧ settings.chunkSize = chunkSize := by
  refine ⟨⟨some (u32ToString fromBlock), some (u32ToString chunkSize)⟩, ?_, ?_⟩
  · rw [IndexSettings.fromBlock, Option.bind_some, parseU32_u32ToString,
      Option.getD_some]
  · rw [IndexSettings.chunkSize, Option.bind_some, parseU32_u32ToString,
      Option.getD_some]

/-! ## Windows -/

/-- The window that both loops search when the tip is above a block: its
first and its last block. -/
def syncWindow (chunkSize fromBlock tip : UInt32) :
    Except (Fault Report) (UInt32 × UInt32) := do
  let chunkEnd ← checkedAdd fromBlock chunkSize
  let toBlock := if tip ≤ chunkEnd then tip else chunkEnd
  return (if chunkSize ≤ toBlock then toBlock - chunkSize else 0, toBlock)

/-- The outbox loop searches the window. -/
theorem fetchWindow_eq_syncWindow
    {chunkSize tip : UInt32}
    {poll : Poll}
    {state : SyncState}
    (finalized : poll.finalizedBlockNumber = .ok tip)
    (behind : state.fromBlock < tip) :
    fetchWindow chunkSize poll state =
      (syncWindow chunkSize state.fromBlock tip >>= fun window =>
        ((poll.fetchSortedMessages window.1 window.2).mapError
          Fault.error).map fun sortedMessages =>
            some ⟨window.1, window.2, sortedMessages⟩) := by
  unfold fetchWindow syncWindow
  rw [finalized]
  simp only [UInt32.not_le.mpr behind, if_false]
  cases checkedAdd (ε := Report) state.fromBlock chunkSize <;> rfl

/-- The loop of the gas payments searches the window. -/
theorem fetchGasWindow_eq_syncWindow
    {chunkSize fromBlock tip : UInt32}
    {poll : GasPoll}
    (finalized : poll.finalizedBlockNumber = .ok tip)
    (behind : fromBlock < tip) :
    fetchGasWindow chunkSize poll fromBlock =
      (syncWindow chunkSize fromBlock tip >>= fun window =>
        ((poll.fetchGasPayments window.1 window.2).mapError Fault.error).map
          fun gasPayments => some ⟨window.2, gasPayments⟩) := by
  unfold fetchGasWindow syncWindow
  rw [finalized]
  simp only [UInt32.not_le.mpr behind, if_false]
  cases checkedAdd (ε := Report) fromBlock chunkSize <;> rfl

/-- A window surrounds the blocks that are due and does not reach above the
tip, and there is a block after it. -/
structure Surrounds (fromBlock tip fullChunkFrom toBlock : UInt32) : Prop where
  start_le : fullChunkFrom ≤ fromBlock
  le_stop : fromBlock ≤ toBlock
  stop_le : toBlock ≤ tip
  next : ∃ next, (checkedAdd toBlock 1 : Except (Fault Report) UInt32) =
    .ok next

/-- Behind every block but the last one there is another one. -/
theorem exists_checkedAdd_one
    {block : UInt32}
    (below : block.toNat + 1 < 2 ^ 32) :
    ∃ next, (checkedAdd block 1 : Except (Fault Report) UInt32) =
      .ok next := by
  unfold checkedAdd
  exact ⟨_, if_pos below⟩

/-- A window that is found surrounds the blocks that are due. -/
theorem surrounds_of_syncWindow
    {chunkSize fromBlock tip fullChunkFrom toBlock : UInt32}
    (behind : fromBlock < tip)
    (below : tip.toNat + 1 < 2 ^ 32)
    (found : syncWindow chunkSize fromBlock tip =
      .ok (fullChunkFrom, toBlock)) :
    Surrounds fromBlock tip fullChunkFrom toBlock := by
  obtain ⟨chunkEnd, added, found⟩ := exists_of_bind_eq_ok found
  obtain ⟨le_stop, start_le⟩ := window_bounds added behind
  have stop_le : (if tip ≤ chunkEnd then tip else chunkEnd) ≤ tip := by
    by_cases capped : tip ≤ chunkEnd
    · rw [if_pos capped]
      exact UInt32.le_refl tip
    · rw [if_neg capped]
      exact UInt32.le_of_lt (UInt32.not_le.mp capped)
  cases found
  refine ⟨start_le, le_stop, stop_le, exists_checkedAdd_one ?_⟩
  rw [UInt32.le_iff_toNat_le] at stop_le
  omega

/-- There is a window if the end of the chunk is a block number, and otherwise
the search for it panics. -/
theorem syncWindow_cases (chunkSize fromBlock tip : UInt32) :
    ((∃ window, syncWindow chunkSize fromBlock tip = .ok window) ∧
        fromBlock.toNat + chunkSize.toNat < 2 ^ 32) ∨
      (syncWindow chunkSize fromBlock tip = .error (.panic .overflow) ∧
        2 ^ 32 ≤ fromBlock.toNat + chunkSize.toNat) := by
  by_cases fits : fromBlock.toNat + chunkSize.toNat < 2 ^ 32
  · refine .inl ⟨?_, fits⟩
    unfold syncWindow checkedAdd
    rw [if_pos fits]
    exact ⟨_, rfl⟩
  · refine .inr ⟨?_, Nat.not_lt.mp fits⟩
    unfold syncWindow checkedAdd
    rw [if_neg fits]
    rfl

/-- There is a surrounding window exactly if the end of the chunk is a block
number. -/
theorem exists_surrounding_iff
    {chunkSize fromBlock tip : UInt32}
    (behind : fromBlock < tip)
    (below : tip.toNat + 1 < 2 ^ 32) :
    (∃ fullChunkFrom toBlock,
        syncWindow chunkSize fromBlock tip = .ok (fullChunkFrom, toBlock) ∧
          Surrounds fromBlock tip fullChunkFrom toBlock) ↔
      fromBlock.toNat + chunkSize.toNat < 2 ^ 32 := by
  rcases syncWindow_cases chunkSize fromBlock tip with
    ⟨⟨⟨fullChunkFrom, toBlock⟩, found⟩, fits⟩ | ⟨overflow, high⟩
  · exact iff_of_true ⟨fullChunkFrom, toBlock, found,
      surrounds_of_syncWindow behind below found⟩ fits
  · refine iff_of_false ?_ (Nat.not_lt.mpr high)
    rintro ⟨fullChunkFrom, toBlock, found, -⟩
    rw [overflow] at found
    cases found

/-! ## Runs -/

/-- The tips are below the highest block number. -/
def TipBelowMax (finalizedBlockNumber : Except Report UInt32) : Prop :=
  ∀ tip, finalizedBlockNumber = .ok tip → tip.toNat + 1 < 2 ^ 32

/-- Whenever the outbox loop runs and the tip is above its block, it fetches a
window that surrounds the blocks that are due. -/
def Indexer.SearchesWindow (chunkSize : UInt32) (indexer : Indexer)
    (poll : Poll) : Prop :=
  ∀ state tip, indexer.loop = .ok state →
    poll.finalizedBlockNumber = .ok tip → state.fromBlock < tip →
      ∃ fullChunkFrom toBlock,
        syncWindow chunkSize state.fromBlock tip =
            .ok (fullChunkFrom, toBlock) ∧
          Surrounds state.fromBlock tip fullChunkFrom toBlock ∧
          fetchWindow chunkSize poll state =
            ((poll.fetchSortedMessages fullChunkFrom toBlock).mapError
              Fault.error).map fun sortedMessages =>
                some ⟨fullChunkFrom, toBlock, sortedMessages⟩

/-- Whenever the outbox loop runs and the tip is above its block, the end of
the chunk is a block number. -/
def Indexer.ChunkFits (chunkSize : UInt32) (indexer : Indexer)
    (poll : Poll) : Prop :=
  ∀ state tip, indexer.loop = .ok state →
    poll.finalizedBlockNumber = .ok tip → state.fromBlock < tip →
      state.fromBlock.toNat + chunkSize.toNat < 2 ^ 32

/-- The block arithmetic of the loop of the gas payments at an event: a poll
fetches a window that surrounds the blocks that are due, the end of a window
has a next block, and a restart finds a block to resume from. -/
def GasIndexer.SearchesWindow (configFrom chunkSize : UInt32)
    (indexer : GasIndexer) : GasEvent → Prop
  | .poll poll => ∀ fromBlock tip, indexer.phase = .head fromBlock →
      poll.finalizedBlockNumber = .ok tip → fromBlock < tip →
        ∃ fullChunkFrom toBlock,
          syncWindow chunkSize fromBlock tip = .ok (fullChunkFrom, toBlock) ∧
            Surrounds fromBlock tip fullChunkFrom toBlock ∧
            fetchGasWindow chunkSize poll fromBlock =
              ((poll.fetchGasPayments fullChunkFrom toBlock).mapError
                Fault.error).map fun gasPayments => some ⟨toBlock, gasPayments⟩
  | .operation => ∀ window, indexer.phase = .processing window [] →
      ∃ next, (finishGasWindow window.toBlock).result indexer.db = .ok next
  | .restart =>
      ∃ fromBlock, (resumeBlock configFrom).result indexer.db = .ok fromBlock

/-- Whenever the loop of the gas payments polls at its head and the tip is
above its block, the end of the chunk is a block number. -/
def GasIndexer.ChunkFits (chunkSize : UInt32) (indexer : GasIndexer) :
    GasEvent → Prop
  | .poll poll => ∀ fromBlock tip, indexer.phase = .head fromBlock →
      poll.finalizedBlockNumber = .ok tip → fromBlock < tip →
        fromBlock.toNat + chunkSize.toNat < 2 ^ 32
  | _ => True

/-- The polls of the gas payments have tips below the highest block number. -/
def GasEvent.TipBelowMax : GasEvent → Prop
  | .poll answer => Abacus.TipBelowMax answer.finalizedBlockNumber
  | _ => True

/-- A poll of the outbox loop searches a surrounding window exactly if the
chunk fits. -/
theorem Indexer.searchesWindow_iff
    {chunkSize : UInt32}
    {indexer : Indexer}
    {poll : Poll}
    (below : TipBelowMax poll.finalizedBlockNumber) :
    indexer.SearchesWindow chunkSize poll ↔
      indexer.ChunkFits chunkSize poll := by
  constructor
  · intro searches state tip running finalized behind
    obtain ⟨fullChunkFrom, toBlock, found, surrounds, -⟩ :=
      searches state tip running finalized behind
    exact (exists_surrounding_iff behind (below tip finalized)).mp
      ⟨fullChunkFrom, toBlock, found, surrounds⟩
  · intro fits state tip running finalized behind
    obtain ⟨fullChunkFrom, toBlock, found, surrounds⟩ :=
      (exists_surrounding_iff behind (below tip finalized)).mpr
        (fits state tip running finalized behind)
    refine ⟨fullChunkFrom, toBlock, found, surrounds, ?_⟩
    rw [fetchWindow_eq_syncWindow finalized behind, found]
    rfl

/-- No block that the loop of the gas payments records, or is about to record,
is the highest block number. -/
structure GasIndexer.BelowMax (indexer : GasIndexer) : Prop where
  recorded : ∀ block : UInt32,
    indexer.db .latestIndexedGasPaymentBlock = some block →
      block.toNat + 1 < 2 ^ 32
  pending : ∀ window remaining,
    indexer.phase = .processing window remaining →
      window.toBlock.toNat + 1 < 2 ^ 32

/-- Resuming succeeds exactly if the recorded block is not the highest block
number. -/
theorem exists_resumeBlock_iff
    {configFrom : UInt32}
    {db : AbacusDB} :
    (∃ fromBlock, (resumeBlock configFrom).result db = .ok fromBlock) ↔
      ∀ block : UInt32, db .latestIndexedGasPaymentBlock = some block →
        block.toNat + 1 < 2 ^ 32 := by
  rw [result_resumeBlock]
  cases recorded : (db .latestIndexedGasPaymentBlock : Option UInt32) with
  | none => exact iff_of_true ⟨configFrom, rfl⟩ nofun
  | some block =>
      constructor
      · rintro ⟨fromBlock, resumed⟩ other ⟨⟩
        by_contra highest
        unfold checkedAdd at resumed
        exact absurd (resumed.symm.trans (if_neg highest)) nofun
      · intro below
        exact exists_checkedAdd_one (below block rfl)

/-- The window of a poll ends below the highest block number. -/
theorem GasPhase.toBlock_poll_lt
    {chunkSize : UInt32}
    {poll : GasPoll}
    (below : TipBelowMax poll.finalizedBlockNumber)
    {fromBlock : UInt32}
    {window : GasWindow}
    (fetched : fetchGasWindow chunkSize poll fromBlock = .ok (some window)) :
    window.toBlock.toNat + 1 < 2 ^ 32 := by
  cases finalized : poll.finalizedBlockNumber with
  | error error =>
      unfold fetchGasWindow at fetched
      rw [finalized] at fetched
      cases fetched
  | ok tip =>
      by_cases behind : fromBlock < tip
      · rw [fetchGasWindow_eq_syncWindow finalized behind] at fetched
        obtain ⟨⟨fullChunkFrom, toBlock⟩, found, fetched⟩ :=
          exists_of_bind_eq_ok fetched
        have surrounds :=
          surrounds_of_syncWindow behind (below tip finalized) found
        have stop_le := UInt32.le_iff_toNat_le.mp surrounds.stop_le
        have bound := below tip finalized
        generalize poll.fetchGasPayments _ _ = answer at fetched
        cases answer with
        | error error => cases fetched
        | ok payments =>
            cases fetched
            exact Nat.lt_of_le_of_lt (Nat.succ_le_succ stop_le) bound
      · unfold fetchGasWindow at fetched
        rw [finalized] at fetched
        simp only [UInt32.not_lt.mp behind, if_true] at fetched
        cases fetched

/-- Starting from a record below the highest block number. -/
theorem GasIndexer.BelowMax.start
    {configFrom : UInt32}
    {db : AbacusDB}
    (recorded : ∀ block : UInt32,
      db .latestIndexedGasPaymentBlock = some block →
        block.toNat + 1 < 2 ^ 32) :
    (GasIndexer.start configFrom db).BelowMax where
  recorded := recorded
  pending window remaining same := by
    rw [GasIndexer.start] at same
    cases resumed : (resumeBlock configFrom).result db <;>
      simp [resumed, GasPhase.ofResult] at same

/-- The blocks of the loop of the gas payments stay below the highest block
number. -/
theorem GasIndexer.BelowMax.step
    {configFrom chunkSize : UInt32}
    {indexer : GasIndexer}
    {event : GasEvent}
    (allowed : event.TipBelowMax)
    (below : indexer.BelowMax) :
    (indexer.step configFrom chunkSize event).BelowMax := by
  obtain ⟨db, phase⟩ := indexer
  cases event with
  | restart => exact .start below.recorded
  | poll answer =>
      refine ⟨below.recorded, ?_⟩
      intro window remaining same
      cases phase with
      | head fromBlock =>
          simp only [GasIndexer.step, GasPhase.poll] at same
          cases fetched : fetchGasWindow chunkSize answer fromBlock with
          | error fault => simp [fetched] at same
          | ok outcome =>
              cases outcome with
              | none => simp [fetched] at same
              | some found =>
                  simp only [fetched] at same
                  cases same
                  exact GasPhase.toBlock_poll_lt allowed fetched
      | processing processed left => exact below.pending window remaining same
      | ended fault => cases same
  | operation =>
      cases phase with
      | head fromBlock => exact below
      | ended fault => exact below
      | processing processed left =>
          have bound := below.pending processed left rfl
          cases left with
          | nil =>
              refine ⟨?_, ?_⟩
              · rintro block ⟨⟩
                exact bound
              · intro window remaining same
                simp only [GasIndexer.step, GasIndexer.operation] at same
                cases finished :
                    (finishGasWindow processed.toBlock).result db <;>
                  simp [finished, GasPhase.ofResult] at same
          | cons payment left =>
              refine ⟨?_, ?_⟩
              · intro block recorded
                exact below.recorded block
                  ((latestIndexed_processGasPayment payment db).symm.trans
                    recorded)
              · intro window remaining same
                simp only [GasIndexer.step, GasIndexer.operation] at same
                split at same
                · cases same
                  exact bound
                · cases same

/-- The end of a window has a next block. -/
theorem result_finishGasWindow (toBlock : UInt32) (db : AbacusDB) :
    (finishGasWindow toBlock).result db = checkedAdd toBlock 1 := rfl

/-- Below the highest block number, an event searches a surrounding window
exactly if the chunk fits. -/
theorem GasIndexer.searchesWindow_iff
    {configFrom chunkSize : UInt32}
    {indexer : GasIndexer}
    {event : GasEvent}
    (allowed : event.TipBelowMax)
    (below : indexer.BelowMax) :
    indexer.SearchesWindow configFrom chunkSize event ↔
      indexer.ChunkFits chunkSize event := by
  cases event with
  | restart =>
      exact iff_of_true (exists_resumeBlock_iff.mpr below.recorded) trivial
  | operation =>
      refine iff_of_true (fun window phase => ?_) trivial
      rw [result_finishGasWindow]
      exact exists_checkedAdd_one (below.pending window [] phase)
  | poll answer =>
      constructor
      · intro searches fromBlock tip head finalized behind
        obtain ⟨fullChunkFrom, toBlock, found, surrounds, -⟩ :=
          searches fromBlock tip head finalized behind
        exact (exists_surrounding_iff behind (allowed tip finalized)).mp
          ⟨fullChunkFrom, toBlock, found, surrounds⟩
      · intro fits fromBlock tip head finalized behind
        obtain ⟨fullChunkFrom, toBlock, found, surrounds⟩ :=
          (exists_surrounding_iff behind (allowed tip finalized)).mpr
            (fits fromBlock tip head finalized behind)
        refine ⟨fullChunkFrom, toBlock, found, surrounds, ?_⟩
        rw [fetchGasWindow_eq_syncWindow finalized behind, found]
        rfl

section Runs

variable [Crypto]

/-- The block arithmetic of both loops over a run: every step of the outbox
loop, the block from which the loop of the gas payments starts, and every step
of it. -/
structure SearchesWindows (configFrom chunkSize : UInt32) (db : AbacusDB)
    (polls : List Poll) (events : List GasEvent) : Prop where
  outbox : Machine.AdmissibleRun (Indexer.step chunkSize)
    (Indexer.SearchesWindow chunkSize) (Indexer.start configFrom db) polls
  resumes : ∃ fromBlock,
    (resumeBlock configFrom).result db = .ok fromBlock
  gasPayments : Machine.AdmissibleRun (GasIndexer.step configFrom chunkSize)
    (GasIndexer.SearchesWindow configFrom chunkSize)
    (GasIndexer.start configFrom db) events

/-- The chunks of both loops fit over a run, and the block of the gas payments
that is recorded before it is not the highest block number. -/
structure ChunksFit (configFrom chunkSize : UInt32) (db : AbacusDB)
    (polls : List Poll) (events : List GasEvent) : Prop where
  outbox : Machine.AdmissibleRun (Indexer.step chunkSize)
    (Indexer.ChunkFits chunkSize) (Indexer.start configFrom db) polls
  recorded : ∀ block : UInt32,
    db .latestIndexedGasPaymentBlock = some block →
      block.toNat + 1 < 2 ^ 32
  gasPayments : Machine.AdmissibleRun (GasIndexer.step configFrom chunkSize)
    (GasIndexer.ChunkFits chunkSize) (GasIndexer.start configFrom db) events

/-- The block arithmetic of both loops holds over a run with tips below the
highest block number exactly if the chunks fit. -/
theorem searchesWindows_iff
    (configFrom chunkSize : UInt32)
    (db : AbacusDB)
    {polls : List Poll}
    {events : List GasEvent}
    (pollsBelow : ∀ poll ∈ polls, TipBelowMax poll.finalizedBlockNumber)
    (eventsBelow : ∀ event ∈ events, event.TipBelowMax) :
    SearchesWindows configFrom chunkSize db polls events ↔
      ChunksFit configFrom chunkSize db polls events := by
  have outbox :
      Machine.AdmissibleRun (Indexer.step chunkSize)
          (Indexer.SearchesWindow chunkSize)
          (Indexer.start configFrom db) polls ↔
        Machine.AdmissibleRun (Indexer.step chunkSize)
          (Indexer.ChunkFits chunkSize) (Indexer.start configFrom db) polls :=
    Machine.admissibleRun_iff _ (fun _ => True) (fun _ _ _ _ => trivial)
      (fun _ _ below _ => Indexer.searchesWindow_iff below) trivial
      (Machine.admissibleRun_of_forall _ _ pollsBelow)
  have gasPayments (recorded : ∀ block : UInt32,
        db .latestIndexedGasPaymentBlock = some block →
          block.toNat + 1 < 2 ^ 32) :
      Machine.AdmissibleRun (GasIndexer.step configFrom chunkSize)
          (GasIndexer.SearchesWindow configFrom chunkSize)
          (GasIndexer.start configFrom db) events ↔
        Machine.AdmissibleRun (GasIndexer.step configFrom chunkSize)
          (GasIndexer.ChunkFits chunkSize)
          (GasIndexer.start configFrom db) events :=
    Machine.admissibleRun_iff _ GasIndexer.BelowMax
      (fun _ _ allowed below => below.step allowed)
      (fun _ _ allowed below => GasIndexer.searchesWindow_iff allowed below)
      (.start recorded) (Machine.admissibleRun_of_forall _ _ eventsBelow)
  constructor
  · intro searches
    have recorded := exists_resumeBlock_iff.mp searches.resumes
    exact ⟨outbox.mp searches.outbox, recorded,
      (gasPayments recorded).mp searches.gasPayments⟩
  · intro fits
    exact ⟨outbox.mpr fits.outbox, exists_resumeBlock_iff.mpr fits.recorded,
      (gasPayments fits.recorded).mpr fits.gasPayments⟩

end Runs

/-- A poll of each loop with a tip of twenty. -/
theorem searchesWindows_iff_tip_twenty :
    let polls : List Poll := [⟨.ok 20, fun _ _ => .ok []⟩]
    let events : List GasEvent := [.poll ⟨.ok 20, fun _ _ => .ok []⟩]
    @SearchesWindows .transparent 10 5 Journal.empty polls events ↔
      @ChunksFit .transparent 10 5 Journal.empty polls events :=
  @searchesWindows_iff .transparent 10 5 Journal.empty
    [⟨.ok 20, fun _ _ => .ok []⟩] [.poll ⟨.ok 20, fun _ _ => .ok []⟩]
    (by simp [TipBelowMax]) (by simp [GasEvent.TipBelowMax, TipBelowMax])

/-- With a chunk of the highest number of blocks, the end of the chunk is none
at the first window. -/
theorem searchesWindows_highest_chunk :
    let settings : IndexSettings := ⟨some "10", some "4294967295"⟩
    let poll : Poll := ⟨.ok 11, fun _ _ => .ok []⟩
    fetchWindow settings.chunkSize poll ⟨settings.fromBlock, 10⟩ =
        .error (.panic .overflow) ∧
      ¬ @SearchesWindows .transparent settings.fromBlock settings.chunkSize
        Journal.empty [poll] [] := by
  intro settings poll
  refine ⟨by decide, fun searches => ?_⟩
  have first := (@SearchesWindows.outbox .transparent _ _ _ _ _ searches).1
  obtain ⟨_, _, found, -⟩ := first ⟨10, 10⟩ 11 (by decide) rfl (by decide)
  have overflow : syncWindow settings.chunkSize 10 11 =
      .error (.panic .overflow) := by decide
  cases overflow.symm.trans found

end Abacus
