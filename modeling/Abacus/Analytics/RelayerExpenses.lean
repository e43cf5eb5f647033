import Abacus.Analytics.Entities
import Abacus.Core.Primitives
import Abacus.Library.Tally

/-!
# Daily expenses of the relayer

The subgraph of the inbox adds up the gas of each day, once for every `Process`
event. These are the expenses for the transactions of the day as long as every
event has a transaction of its own.
-/

namespace Abacus

namespace Subgraph

/-! ## The entity -/

namespace RelayerExpensesDaily

/-- An entity with an id and nothing else. -/
def new (id : String) : Entity := Entity.new id

def load (store : EntityStore) (id : String) : Option Entity := store id

variable (entity : Entity)

def id : Except Abort String := entity.getString .id

def amount : Except Abort BigInt := entity.getBigInt .amount

def setAmount (value : BigInt) : Entity := entity.set .amount (.bigInt value)

def date : Except Abort BigInt := entity.getBigInt .date

def setDate (value : BigInt) : Entity := entity.set .date (.bigInt value)

def transactionAmount : Except Abort BigInt :=
  entity.getBigInt .transactionAmount

def setTransactionAmount (value : BigInt) : Entity :=
  entity.set .transactionAmount (.bigInt value)

/-- The last log entry of the handler reads every field. -/
def logFields : Except Abort Unit := do
  let _ ← id entity
  let _ ← amount entity
  let _ ← transactionAmount entity
  let _ ← date entity

end RelayerExpensesDaily

/-! ## The handler -/

/-- A transaction, with the gas it used where this is known. -/
structure Transaction where
  hash : H256
  gasUsed : Option BigInt
  deriving DecidableEq

/-- A `Process` event: the timestamp of its block, and its transaction. -/
structure Process where
  timestamp : Nat
  transaction : Option Transaction

namespace Process

/-- The day of an event. -/
def day (event : Process) : Nat := event.timestamp / 86400

/-- The gas that the transaction used, unless it or the gas is null. -/
def gasUsed (event : Process) : Option BigInt :=
  event.transaction.bind Transaction.gasUsed

end Process

open RelayerExpensesDaily in
/-- Add an event to the entity of its day. -/
def handleProcess (store : EntityStore) (event : Process) :
    Except Abort EntityStore := do
  let timestamp ← BigInt.toI32 event.timestamp
  let dayID := timestamp / 86400
  let dayIDFormatted := toString (BigInt.fromI32 dayID)
  let day := BigInt.dividedBy event.timestamp (BigInt.fromI32 86400)
  let date := day * BigInt.fromI32 86400
  let dayData ← match load store dayIDFormatted with
    | none =>
        let dayData := new dayIDFormatted
        let dayData := match event.gasUsed with
          | some gasUsed => setAmount dayData gasUsed
          | none => setAmount dayData (BigInt.fromI32 0)
        let dayData := setTransactionAmount dayData (BigInt.fromI32 1)
        pure (setDate dayData date)
    | some dayData => do
        let dayData ← match event.gasUsed with
          | some gasUsed => do
              pure (setAmount dayData ((← amount dayData) + gasUsed))
          | none => pure dayData
        pure (setTransactionAmount dayData
          ((← transactionAmount dayData) + BigInt.fromI32 1))
  logFields dayData
  dayData.save store

/-- The store after some events, or how a handler aborts. -/
def runExpenses (store : EntityStore) (events : List Process) :
    Except Abort EntityStore :=
  events.foldlM handleProcess store

/-! ## The totals of a day -/

/-- The entity of a day with the events so far. -/
abbrev ExpensesTotals := DayTotals BigInt

/-- Add an event to the totals of its day. -/
def addExpenses : Option ExpensesTotals → Process → ExpensesTotals
  | none, event =>
      { amount := event.gasUsed.getD 0
        transactionAmount := 1
        date := (event.day : Int) * 86400 }
  | some totals, event =>
      { totals with
        amount := totals.amount + event.gasUsed.getD 0
        transactionAmount := totals.transactionAmount + 1 }

section Handler

open RelayerExpensesDaily

/-- A new entity with all of its fields. -/
theorem setFields_new (id : String) (totals : ExpensesTotals) :
    setDate (setTransactionAmount (setAmount (new id) totals.amount)
      totals.transactionAmount) totals.date =
        totals.toEntity .bigInt id := by
  funext field
  cases field <;> rfl

/-- The entity of a day with more gas and one more event. -/
theorem setFields_toEntity
    (id : String)
    (totals : ExpensesTotals)
    (amount transactionAmount : BigInt) :
    setTransactionAmount (setAmount (totals.toEntity .bigInt id) amount)
        transactionAmount =
      { totals with
        amount := amount
        transactionAmount := transactionAmount }.toEntity .bigInt id := by
  rw [setAmount, DayTotals.set_amount, setTransactionAmount,
    DayTotals.set_transactionAmount]

/-- The two divisions of the handler agree. -/
theorem dividedBy_86400 (event : Process) :
    BigInt.dividedBy event.timestamp (BigInt.fromI32 86400) *
      BigInt.fromI32 86400 = (event.day : Int) * 86400 := rfl

section Step

variable {event : Process} {table : String → Option ExpensesTotals}

/-- The first event of a day makes a new entity. -/
theorem handleProcess_of_none
    (fits : event.timestamp < 2 ^ 31)
    (fresh : table (dayId event.day) = none) :
    handleProcess (DayTotals.toStore .bigInt table) event =
      .ok (DayTotals.toStore .bigInt (Function.update table (dayId event.day)
        (some (addExpenses none event)))) := by
  have id : toString (BigInt.fromI32 (Int32.ofInt event.timestamp / 86400)) =
      dayId event.day :=
    computedId_of_lt fits
  have created : setDate
      (setTransactionAmount
        (setAmount (new (dayId event.day)) (event.gasUsed.getD 0)) 1)
      ((event.day : Int) * 86400) =
        (addExpenses none event).toEntity .bigInt (dayId event.day) :=
    setFields_new _ (addExpenses none event)
  unfold handleProcess load
  rw [toI32_natCast (by omega), ← DayTotals.save_toEntity, ← created]
  simp only [bind, Except.bind, pure, Except.pure, id, dividedBy_86400,
    DayTotals.toStore_of_eq_none fresh]
  cases event.gasUsed with
  | none => rfl
  | some gasUsed => rfl

/-- A later event of a day is added. -/
theorem handleProcess_of_some
    {totals : ExpensesTotals}
    (fits : event.timestamp < 2 ^ 31)
    (found : table (dayId event.day) = some totals) :
    handleProcess (DayTotals.toStore .bigInt table) event =
      .ok (DayTotals.toStore .bigInt (Function.update table (dayId event.day)
        (some (addExpenses (some totals) event)))) := by
  have id : toString (BigInt.fromI32 (Int32.ofInt event.timestamp / 86400)) =
      dayId event.day :=
    computedId_of_lt fits
  have counted (gas : BigInt) : setTransactionAmount
      (setAmount (totals.toEntity .bigInt (dayId event.day))
        (totals.amount + gas)) (totals.transactionAmount + 1) =
        { totals with
          amount := totals.amount + gas
          transactionAmount := totals.transactionAmount + 1 }.toEntity
            .bigInt (dayId event.day) :=
    setFields_toEntity _ _ _ _
  unfold handleProcess load
  rw [toI32_natCast (by omega), ← DayTotals.save_toEntity, addExpenses, ← counted]
  simp only [bind, Except.bind, pure, Except.pure, id,
    DayTotals.toStore_of_eq_some found]
  cases event.gasUsed with
  | none =>
      -- The amount is not set again.
      rw [Option.getD_none, Int.add_zero, setAmount, DayTotals.set_amount]
      rfl
  | some gasUsed => rfl

/-- The handler adds an event to the totals of its day. -/
theorem handleProcess_toStore
    (fits : event.timestamp < 2 ^ 31)
    (table : String → Option ExpensesTotals) :
    handleProcess (DayTotals.toStore .bigInt table) event =
      .ok (DayTotals.toStore .bigInt (Tally.record
        (fun event => dayId event.day) addExpenses table event)) := by
  rw [Tally.record]
  cases found : table (dayId event.day) with
  | none => exact handleProcess_of_none fits found
  | some totals => exact handleProcess_of_some fits found

end Step

end Handler

/-! ## Runs -/

/-- The totals of the days with events. -/
def talliedExpenses (events : List Process) : String → Option ExpensesTotals :=
  Tally.tally (fun event => dayId event.day) addExpenses (fun _ => none) events

/-- A run whose times fit into 32 bits adds up the events of each day. -/
theorem runExpenses_eq_ok
    {events : List Process}
    (early : ∀ event ∈ events, event.timestamp < 2 ^ 31) :
    runExpenses emptyStore events =
      .ok (DayTotals.toStore .bigInt (talliedExpenses events)) :=
  Tally.foldlM_eq_ok (fun table event member =>
    handleProcess_toStore (early event member) table) fun _ => none

/-- The events of a day. -/
def dayEvents (events : List Process) (day : Nat) : List Process :=
  events.filter fun event => event.day = day

/-- The totals of the events of a day. -/
def expensesOf (day : Nat) (events : List Process) : ExpensesTotals where
  amount := (events.map fun event => event.gasUsed.getD 0).sum
  transactionAmount := events.length
  date := (day : Int) * 86400

/-- The running total over the events of a day. -/
theorem total_addExpenses
    {day : Nat}
    {events : List Process}
    (sameDay : ∀ event ∈ events, event.day = day)
    (occurs : events ≠ []) :
    Tally.total addExpenses none events = some (expensesOf day events) := by
  cases events with
  | nil => exact (occurs rfl).elim
  | cons event events =>
      have first : addExpenses none event = expensesOf day [event] := by
        simp [addExpenses, expensesOf, sameDay event List.mem_cons_self]
      have further : ∀ before current event,
          current = expensesOf day before →
            addExpenses (some current) event =
              expensesOf day (before ++ [event]) := by
        rintro before current event rfl
        simp [addExpenses, expensesOf]
      obtain ⟨after, totals, rfl⟩ := Tally.invariant_total
        (fun before current => current = expensesOf day before) further
        first events
      exact totals

/-- The entity of a day has the totals of its events. -/
theorem talliedExpenses_dayId
    (events : List Process)
    (day : Nat) :
    talliedExpenses events (dayId day) =
      if dayEvents events day = [] then none
      else some (expensesOf day (dayEvents events day)) := by
  have same : (events.filter fun event => dayId event.day = dayId day) =
      dayEvents events day := by
    simp only [dayId_injective.eq_iff, dayEvents]
  rw [talliedExpenses, Tally.tally_apply, same]
  split
  · rename_i none
    rw [none, Tally.total_nil]
  · rename_i occurs
    refine total_addExpenses (fun event member => ?_) occurs
    simpa using (List.mem_filter.mp member).2

/-- There are entities for the days with events and no others. -/
theorem isSome_talliedExpenses_iff
    {events : List Process}
    {id : String} :
    (talliedExpenses events id).isSome ↔
      ∃ event ∈ events, id = dayId event.day := by
  rw [talliedExpenses, Tally.tally_apply, Tally.isSome_total_iff]
  constructor
  · rintro (known | occurs)
    · cases known
    · obtain ⟨event, member⟩ := List.exists_mem_of_ne_nil _ occurs
      obtain ⟨inside, same⟩ := List.mem_filter.mp member
      exact ⟨event, inside, (of_decide_eq_true same).symm⟩
  · rintro ⟨event, inside, rfl⟩
    exact .inr (List.ne_nil_of_mem
      (List.mem_filter.mpr ⟨inside, decide_eq_true rfl⟩))

/-- The entity of a day that has events. -/
theorem toStore_dayId_eq_some_iff
    {events : List Process}
    {day : Nat}
    {entity : Entity} :
    DayTotals.toStore .bigInt (talliedExpenses events) (dayId day) =
        some entity ↔
      dayEvents events day ≠ [] ∧
        entity = (expensesOf day (dayEvents events day)).toEntity .bigInt
          (dayId day) := by
  rw [DayTotals.toStore, talliedExpenses_dayId]
  split
  · rename_i none
    simp [none]
  · rename_i occurs
    simp [occurs, eq_comm]

/-! ## Expenses for transactions -/

/-- The transactions of the events of a day, once for each event. -/
def dayTransactions (events : List Process) (day : Nat) : List Transaction :=
  (dayEvents events day).filterMap Process.transaction

/-- The handler never aborts, and the entities are those of the days with
events, each with the gas and the number of the distinct transactions of its
day and with its date. -/
def CountsExpenses (events : List Process) : Prop :=
  ∃ store, runExpenses emptyStore events = .ok store ∧
    (∀ id, (store id).isSome ↔ ∃ event ∈ events, id = dayId event.day) ∧
    ∀ day entity, store (dayId day) = some entity →
      RelayerExpensesDaily.amount entity = .ok
        (∑ transaction ∈ (dayTransactions events day).toFinset,
          transaction.gasUsed.getD 0) ∧
      RelayerExpensesDaily.transactionAmount entity = .ok
        ((dayTransactions events day).toFinset.card : Nat) ∧
      RelayerExpensesDaily.date entity = .ok (86400 * day : Nat)

/-- Every event has a transaction, and no two events of one day have the same
one. -/
structure SeparateTransactions (events : List Process) : Prop where
  known : ∀ event ∈ events, event.transaction.isSome
  separate : ∀ day, (dayTransactions events day).Nodup

/-- Events without a transaction use no gas. -/
theorem sum_gasUsed_filterMap (events : List Process) :
    ((events.filterMap Process.transaction).map
        fun transaction => transaction.gasUsed.getD 0).sum =
      (events.map fun event => event.gasUsed.getD 0).sum := by
  induction events with
  | nil => rfl
  | cons event events inductionHypothesis =>
      cases known : event.transaction with
      | none =>
          simp [known, Process.gasUsed, inductionHypothesis]
      | some transaction =>
          simp [known, Process.gasUsed, inductionHypothesis]

/-- There are as many distinct transactions as events exactly if each event has
one of its own. -/
theorem card_dayTransactions_eq_iff (events : List Process) (day : Nat) :
    (dayTransactions events day).toFinset.card =
        (dayEvents events day).length ↔
      (∀ event ∈ dayEvents events day, event.transaction.isSome) ∧
        (dayTransactions events day).Nodup := by
  have distinct := List.toFinset_card_le (dayTransactions events day)
  have shorter : (dayTransactions events day).length ≤
      (dayEvents events day).length :=
    List.length_filterMap_le _ _
  rw [← List.filterMap_length_eq_length, ← dayTransactions,
    ← Tally.card_toFinset_eq_length_iff]
  omega

/-- Expenses are counted only if the events of each day have transactions of
their own. -/
theorem CountsExpenses.separateTransactions
    {events : List Process}
    (early : ∀ event ∈ events, event.timestamp < 2 ^ 31)
    (counts : CountsExpenses events) :
    SeparateTransactions events := by
  obtain ⟨store, returned, -, totals⟩ := counts
  rw [runExpenses_eq_ok early] at returned
  cases returned
  have own : ∀ day, (∀ event ∈ dayEvents events day,
      event.transaction.isSome) ∧ (dayTransactions events day).Nodup := by
    intro day
    rw [← card_dayTransactions_eq_iff]
    by_cases occurs : dayEvents events day = []
    · rw [dayTransactions, occurs]
      rfl
    · obtain ⟨-, counted, -⟩ :=
        totals day _ (toStore_dayId_eq_some_iff.mpr ⟨occurs, rfl⟩)
      exact (Int.ofNat_inj.mp (Except.ok.inj counted)).symm
  refine ⟨fun event member => (own event.day).1 event ?_,
    fun day => (own day).2⟩
  exact List.mem_filter.mpr ⟨member, decide_eq_true rfl⟩

/-- The daily expenses are those for the distinct transactions of each day
exactly if the events of the day have transactions of their own. -/
theorem countsExpenses_iff
    (events : List Process)
    (early : ∀ event ∈ events, event.timestamp < 2 ^ 31) :
    CountsExpenses events ↔ SeparateTransactions events := by
  refine ⟨fun counts => counts.separateTransactions early, ?_⟩
  rintro ⟨known, separate⟩
  refine ⟨_, runExpenses_eq_ok early, fun id => ?_, fun day entity found => ?_⟩
  · rw [DayTotals.toStore, Option.isSome_map, isSome_talliedExpenses_iff]
  · obtain ⟨-, rfl⟩ := toStore_dayId_eq_some_iff.mp found
    have card : (dayTransactions events day).toFinset.card =
        (dayEvents events day).length :=
      (card_dayTransactions_eq_iff events day).mpr
        ⟨fun event member => known event (List.mem_filter.mp member).1,
          separate day⟩
    refine ⟨congrArg Except.ok ?_, congrArg Except.ok ?_,
      congrArg Except.ok ?_⟩
    · rw [List.sum_toFinset _ (separate day)]
      exact (sum_gasUsed_filterMap (dayEvents events day)).symm
    · rw [card]
      rfl
    · rw [expensesOf, Int.natCast_mul, Int.mul_comm]
      rfl

/-- The events of two transactions on one day. -/
theorem countsExpenses_iff_two_transactions :
    let first : Process := ⟨0, some ⟨H256.zero, some 21000⟩⟩
    let second : Process :=
      ⟨1, some ⟨⟨List.replicate 32 1, rfl⟩, some 50000⟩⟩
    CountsExpenses [first, second] ↔ SeparateTransactions [first, second] :=
  countsExpenses_iff _ (by decide)

/-- The gas of a transaction with two events is counted twice. -/
theorem countsExpenses_two_events :
    let event : Process := ⟨0, some ⟨H256.zero, some 21000⟩⟩
    (∀ other ∈ [event, event], other.timestamp < 2 ^ 31) ∧
      ¬ CountsExpenses [event, event] := by
  intro event
  have early : ∀ other ∈ [event, event], other.timestamp < 2 ^ 31 := by
    decide
  refine ⟨early, fun counts => ?_⟩
  have separate := (counts.separateTransactions early).separate 0
  exact absurd separate (by decide)

end Subgraph

end Abacus
