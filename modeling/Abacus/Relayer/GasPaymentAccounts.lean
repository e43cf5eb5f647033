import Abacus.Base.GasPaymentAccounting
import Abacus.Library.LoopInvariant
import Abacus.Relayer.LoopRefinement

/-!
# The gas payments of a relayer

The gas loop makes its puts one at a time among all other tasks, and the
relayer can be restarted between any two of them. In every run, no payment is
counted twice, and each restart loses at most one.
-/

namespace Abacus

open AbacusDB (gasPaymentProcessed gasPaymentTotal leafTotal)
open Journal (Loop)

namespace Relayer

/-- The restarts among some events. -/
def restarts (events : List Event) : Nat :=
  events.countP fun event =>
    match event with
    | .restart _ => true
    | _ => false

/-- What the events bring to the gas loop: the provider is complete, and the
settings start the loop in front of all payments. -/
def GasAdmissible (chain : GasChain) : Event → Prop
  | .pollGas poll => chain.Complete poll
  | .restart conf => ∀ sent ∈ chain.paid, conf.indexer.fromBlock ≤ sent.1
  | _ => True

/-- The gas records and the gas loop, after a number of restarts. -/
structure GasKept (chain : GasChain) (number : Nat) (relayer : Relayer) :
    Prop where
  records : GasRecords chain (number + 1) relayer.db
  outbox : relayer.outboxSync.Pends fun put => put.key.OfMessages
  gas : ∀ gasSync, relayer.gasSync = some gasSync →
    gasSync.Keeps (GasHead chain number) (GasRecords chain (number + 1))
      relayer.db

section Steps

variable {chain : GasChain}
variable {number : Nat}
variable {relayer : Relayer}

/-- Puts of other records do not matter. -/
theorem GasKept.replay
    (kept : GasKept chain number relayer)
    {puts : List DbPut}
    (outside : ∀ put ∈ puts, ¬ put.key.OfGas)
    {after : Relayer}
    (db : after.db = Journal.replay relayer.db puts)
    (outbox : after.outboxSync.Pends fun put => put.key.OfMessages)
    (gas : after.gasSync = relayer.gasSync) :
    GasKept chain number after where
  records := by
    rw [db]
    exact kept.records.congr (Journal.agreeOn_replay _ outside)
  outbox := outbox
  gas gasSync runs := by
    rw [gas] at runs
    rw [db]
    exact (kept.gas gasSync runs).replay
      (fun _ _ agree records => records.congr agree)
      (fun _ _ _ agree head => head.congr agree) outside

/-- The fetcher and the tasks of the inboxes do not matter. -/
theorem GasKept.frames
    {after : Relayer}
    (kept : GasKept chain number relayer)
    (frames : Frames relayer after) :
    GasKept chain number after := by
  obtain ⟨puts, statuses, db⟩ := frames.exists_puts
  refine kept.replay (fun put member gas => ?_) db ?_ frames.gasSync_eq
  · obtain ⟨index, same⟩ := statuses put member
    rw [same] at gas
    exact gas
  · rw [frames.outboxSync_eq]
    exact kept.outbox

variable [Crypto]

/-- A start on records of which some are lost loses no more. -/
theorem exists_gasKept_start
    {db : AbacusDB}
    (records : GasRecords chain number db)
    {conf : RelayerConf}
    (early : ∀ sent ∈ chain.paid, conf.indexer.fromBlock ≤ sent.1) :
    ∃ started, start conf db = .ok started ∧
      GasKept chain number started := by
  obtain ⟨create, created, -⟩ := exists_new conf
  have all := mapM_eq_ok fun inbox (_ : inbox ∈ conf.inboxes) => created inbox
  have weaker := records.mono (Nat.le_succ number)
  refine ⟨_, by rw [start, all]; rfl, weaker, Loop.pends_start _, ?_⟩
  intro gasSync runs
  dsimp only at runs
  split at runs
  · cases runs
    exact Loop.keeps_start weaker fun fromBlock resumes =>
      gasHead_resumeBlock records early resumes
  · cases runs

/-- Every event keeps the accounts; a restart may lose one more payment. -/
theorem GasKept.step
    (kept : GasKept chain number relayer)
    (bounded : chain.Bounded)
    {event : Event}
    (admissible : GasAdmissible chain event) :
    GasKept chain (number + restarts [event]) (relayer.step event) := by
  cases event with
  | pollOutbox poll =>
      exact ⟨kept.records, kept.outbox.iterate
        (fun state _ => (within_syncIteration _ poll state).writes) _,
        kept.gas⟩
  | writeOutbox =>
      refine kept.replay (fun put member gas => ?_) rfl kept.outbox.rest rfl
      exact gas.not_ofMessages (kept.outbox.of_mem_take put member)
  | pollGas poll =>
      refine ⟨kept.records, kept.outbox, fun after runs => ?_⟩
      obtain ⟨gasSync, earlier, rfl⟩ := Option.map_eq_some_iff.mp runs
      exact (kept.gas gasSync earlier).iterate fun fromBlock =>
        crashTriple_gasIteration bounded admissible _ fromBlock
  | writeGas =>
      cases runs : relayer.gasSync with
      | none =>
          refine kept.replay (List.forall_mem_nil _) ?_ kept.outbox ?_ <;>
            simp [Relayer.step, runs]
      | some gasSync =>
          have written := (kept.gas gasSync runs).write
          simp only [Relayer.step, runs]
          refine ⟨written.holds, kept.outbox, ?_⟩
          rintro after ⟨⟩
          exact written
  | fetch latestIndex syncer =>
      exact kept.frames ⟨rfl, rfl, rfl, [], by simp, rfl⟩
  | process inbox dbFails =>
      exact kept.frames (frames_process relayer inbox dbFails)
  | tick inbox answers => exact kept.frames (frames_tick relayer inbox answers)
  | restart conf =>
      obtain ⟨started, success, fresh⟩ :=
        exists_gasKept_start kept.records admissible
      rw [Relayer.step, success]
      exact fresh

/-- So does every run. -/
theorem GasKept.run
    (kept : GasKept chain number relayer)
    (bounded : chain.Bounded)
    {events : List Event}
    (admissible : ∀ event ∈ events, GasAdmissible chain event) :
    GasKept chain (number + restarts events)
      (Machine.run Relayer.step relayer events) := by
  induction events generalizing number relayer with
  | nil => exact kept
  | cons event events inductionHypothesis =>
      have first := kept.step bounded (admissible event List.mem_cons_self)
      have later := inductionHypothesis first fun other member =>
        admissible other (List.mem_cons_of_mem _ member)
      have sum : number + restarts (event :: events) =
          number + restarts [event] + restarts events := by
        rw [restarts, ← List.singleton_append, List.countP_append,
          Nat.add_assoc]
        rfl
      rw [sum]
      exact later

/-- After every run from the empty database. -/
theorem gasKept_of_started
    (bounded : chain.Bounded)
    {conf : RelayerConf}
    (early : ∀ sent ∈ chain.paid, conf.indexer.fromBlock ≤ sent.1)
    (started : start conf Journal.empty = .ok relayer)
    {events : List Event}
    (admissible : ∀ event ∈ events, GasAdmissible chain event) :
    GasKept chain (restarts events)
      (Machine.run Relayer.step relayer events) := by
  obtain ⟨other, success, kept⟩ :=
    exists_gasKept_start (gasRecords_empty chain 0) early
  rw [started] at success
  cases success
  have reached := kept.run bounded admissible
  rwa [Nat.zero_add] at reached

end Steps

/-! ## Runs -/

section Runs

variable [Crypto]
variable {chain : GasChain}

/-- The gas loop stands between two iterations. -/
def GasLoopHead (relayer : Relayer) (fromBlock : UInt32) : Prop :=
  ∃ gasSync, relayer.gasSync = some gasSync ∧
    gasSync.outcome = .ok fromBlock ∧ gasSync.pending = []

/-- In every run of all tasks from the empty database, with restarts between
any two puts: every total is the sum of distinct payments of the chain. Each
restart loses at most one payment, and at most one more is being processed;
all others up to the latest indexed block are counted. Between two iterations
of the gas loop, none is being processed, and all others below its start are
counted. -/
theorem countsAllBut_of_run
    (bounded : chain.Bounded)
    (conf : RelayerConf)
    (early : ∀ sent ∈ chain.paid, conf.indexer.fromBlock ≤ sent.1)
    (relayer : Relayer)
    (started : start conf Journal.empty = .ok relayer)
    (events : List Event)
    (admissible : ∀ event ∈ events, GasAdmissible chain event) :
    chain.CountsAllBut (restarts events + 1)
        (fun block => ∃ latest,
          AbacusDB.retrieveLatestIndexedGasPaymentBlock.result
              (Machine.run step relayer events).db = .ok (some latest) ∧
            block ≤ latest)
        (Machine.run step relayer events).db ∧
      ∀ fromBlock,
        (Machine.run step relayer events).GasLoopHead fromBlock →
          chain.CountsAllBut (restarts events) (· < fromBlock)
            (Machine.run step relayer events).db := by
  have kept := gasKept_of_started bounded early started admissible
  constructor
  · refine kept.records.countsAllBut ?_
    rintro sent member ⟨latest, indexed, low⟩
    simp only [Journal.Program.result,
      AbacusDB.retrieveLatestIndexedGasPaymentBlock, AbacusDB.run_retrieve,
      Except.ok.injEq] at indexed
    exact kept.records.persisted latest indexed sent member low
  · rintro fromBlock ⟨gasSync, runs, running, quiet⟩
    have head := (kept.gas gasSync runs).stands running quiet
    exact head.toGasRecords.countsAllBut head.below

end Runs

/-- The relayer is restarted between the two puts of the first payment, and
searches the same window again. -/
def lossyEvents : List Event :=
  [.pollGas (GasChain.pair.poll 15), .writeGas, .restart paymasterConf,
    .pollGas (GasChain.pair.poll 15), .writeGas, .writeGas, .writeGas]

/-- The first payment, of seven, is lost; the second one, of nine, is
counted. -/
theorem countsAllBut_of_run_lossy :
    (Machine.run (@step .transparent) paymasterRelayer
        lossyEvents).GasLoopHead 16 ∧
      GasChain.pair.CountsAllBut 1 (· < 16)
        (Machine.run (@step .transparent) paymasterRelayer lossyEvents).db ∧
      (AbacusDB.retrieveGasPaymentForLeaf 0).result
          (Machine.run (@step .transparent) paymasterRelayer
            lossyEvents).db = .ok 9 := by
  have loop : (Machine.run (@step .transparent) paymasterRelayer
      lossyEvents).gasSync.map (fun gasSync =>
        (gasSync.outcome, gasSync.pending.length)) =
      some (.ok 16, 0) := by
    decide +kernel
  obtain ⟨gasSync, runs, same⟩ := Option.map_eq_some_iff.mp loop
  obtain ⟨outcome, quiet⟩ := Prod.mk.inj same
  have head : (Machine.run (@step .transparent) paymasterRelayer
      lossyEvents).GasLoopHead 16 :=
    ⟨gasSync, runs, outcome, List.length_eq_zero_iff.mp quiet⟩
  refine ⟨head, ?_, by decide +kernel⟩
  refine (@countsAllBut_of_run .transparent GasChain.pair
    GasChain.bounded_pair paymasterConf (fun _ _ => UInt32.zero_le)
    paymasterRelayer rfl lossyEvents ?_).2 16 head
  intro event member
  simp only [lossyEvents, List.mem_cons, List.not_mem_nil, or_false] at member
  rcases member with rfl | rfl | rfl | rfl | rfl | rfl | rfl
  · exact GasChain.complete_poll _ _
  · trivial
  · exact fun _ _ => UInt32.zero_le
  · exact GasChain.complete_poll _ _
  all_goals trivial

end Relayer

end Abacus
