import Abacus.Analytics.Entities
import Abacus.Core.Primitives
import Abacus.Library.Tally

/-!
# Daily earnings of the relayer

The subgraph of the outbox adds up the gas payments of each day. Whether the
date of a day still has to be set is decided by reading it, and the date of a
new entity is not set: the first payment of a day aborts the handler.
-/

namespace Abacus

namespace Subgraph

/-! ## The entity -/

namespace RelayerEarningsDaily

/-- An entity with an id and nothing else. -/
def new (id : String) : Entity := Entity.new id

def load (store : EntityStore) (id : String) : Option Entity := store id

variable (entity : Entity)

def amount : Except Abort BigInt := entity.getBigInt .amount

def setAmount (value : BigInt) : Entity := entity.set .amount (.bigInt value)

def date : Except Abort Int32 := entity.getI32 .date

def setDate (value : Int32) : Entity := entity.set .date (.int value)

def transactionAmount : Except Abort BigInt :=
  entity.getBigInt .transactionAmount

def setTransactionAmount (value : BigInt) : Entity :=
  entity.set .transactionAmount (.bigInt value)

end RelayerEarningsDaily

/-! ## The handler -/

/-- A `GasPayment` event: the timestamp of its block, and the amount. -/
structure GasPayment where
  timestamp : Nat
  amount : BigInt

open RelayerEarningsDaily in
/-- Add a payment to the entity of its day. -/
def handleGasPayment (store : EntityStore) (event : GasPayment) :
    Except Abort EntityStore := do
  let timestamp ← BigInt.toI32 event.timestamp
  let dayID := timestamp / 86400
  let dayIDFormatted := toString (BigInt.fromI32 dayID)
  let day := (← BigInt.toI32 event.timestamp) / 86400
  let date := day * 86400
  let mut dayData ← match load store dayIDFormatted with
    | none =>
        let dayData := setAmount (new dayIDFormatted) event.amount
        pure (setTransactionAmount dayData (BigInt.fromI32 1))
    | some dayData => do
        let dayData := setAmount dayData ((← amount dayData) + event.amount)
        pure (setTransactionAmount dayData
          ((← transactionAmount dayData) + BigInt.fromI32 1))
  -- `!dayData.date`: the getter runs also if the date has never been set.
  if (← RelayerEarningsDaily.date dayData) == 0 then
    dayData := setDate dayData date
  dayData.save store

/-- The store after some events, or how a handler aborts. -/
def runEarnings (store : EntityStore) (events : List GasPayment) :
    Except Abort EntityStore :=
  events.foldlM handleGasPayment store

/-- The day of a payment. -/
def GasPayment.day (event : GasPayment) : Nat := event.timestamp / 86400

/-- The id of the entity to which the handler adds a payment. -/
def GasPayment.dayID (event : GasPayment) : String :=
  computedId event.timestamp

/-! ## Entities with a date -/

/-- The entity of a day with the payments so far, its date included. -/
abbrev EarningsTotals := DayTotals Int32

/-- Add a payment to the totals of its day. -/
def EarningsTotals.add (totals : EarningsTotals) (event : GasPayment) :
    EarningsTotals where
  amount := totals.amount + event.amount
  transactionAmount := totals.transactionAmount + 1
  date :=
    if totals.date == 0 then Int32.ofInt event.timestamp / 86400 * 86400
    else totals.date

section Handler

variable {event : GasPayment}

/-- A time of more than four bytes aborts the handler. -/
theorem handleGasPayment_of_late
    (late : 2 ^ 32 ≤ event.timestamp)
    (store : EntityStore) :
    handleGasPayment store event = .error .outOfRange := by
  unfold handleGasPayment
  rw [toI32_natCast_of_le late]
  rfl

/-- The id that the handler computes for a payment. -/
theorem toString_dayID :
    toString (BigInt.fromI32 (Int32.ofInt event.timestamp / 86400)) =
      event.dayID := rfl

/-- As long as its time does not wrap around, a payment is added to the entity
of its day. -/
theorem GasPayment.dayID_of_lt
    (fits : event.timestamp < 2 ^ 31) :
    event.dayID = dayId event.day :=
  computedId_of_lt fits

/-- The first payment of an entity aborts the handler. -/
theorem handleGasPayment_of_none
    {store : EntityStore}
    (fits : event.timestamp < 2 ^ 32)
    (fresh : store event.dayID = none) :
    handleGasPayment store event = .error .nullValue := by
  unfold handleGasPayment RelayerEarningsDaily.load
  rw [toI32_natCast fits]
  simp only [bind, Except.bind, toString_dayID, fresh]
  rfl

/-- A later payment of an entity is added. -/
theorem handleGasPayment_of_some
    {table : String → Option EarningsTotals}
    {totals : EarningsTotals}
    (fits : event.timestamp < 2 ^ 32)
    (found : table event.dayID = some totals) :
    handleGasPayment (DayTotals.toStore .int table) event =
      .ok (DayTotals.toStore .int (Function.update table event.dayID
        (some (totals.add event)))) := by
  let entity := totals.toEntity .int event.dayID
  let counted : EarningsTotals :=
    { totals with
      amount := totals.amount + event.amount
      transactionAmount := totals.transactionAmount + 1 }
  have loaded : DayTotals.toStore .int table event.dayID = some entity :=
    DayTotals.toStore_of_eq_some found
  have amounts : RelayerEarningsDaily.amount entity = .ok totals.amount := rfl
  have counts : RelayerEarningsDaily.transactionAmount
      (RelayerEarningsDaily.setAmount entity (totals.amount + event.amount)) =
        .ok totals.transactionAmount := rfl
  have added : RelayerEarningsDaily.setTransactionAmount
      (RelayerEarningsDaily.setAmount entity (totals.amount + event.amount))
      (totals.transactionAmount + BigInt.fromI32 1) =
        counted.toEntity .int event.dayID := by
    rw [RelayerEarningsDaily.setAmount, DayTotals.set_amount,
      RelayerEarningsDaily.setTransactionAmount,
      DayTotals.set_transactionAmount]
    rfl
  have dated : RelayerEarningsDaily.date
      (counted.toEntity .int event.dayID) = .ok totals.date := rfl
  unfold handleGasPayment RelayerEarningsDaily.load
  rw [toI32_natCast fits]
  simp only [bind, Except.bind, pure, Except.pure, toString_dayID, loaded,
    amounts, counts, added, dated]
  rw [EarningsTotals.add]
  split
  · rw [RelayerEarningsDaily.setDate, DayTotals.set_date,
      DayTotals.save_toEntity]
  · exact DayTotals.save_toEntity .int table _ counted

/-- The table of the entities with some more payments. -/
def talliedEarnings (table : String → Option EarningsTotals)
    (events : List GasPayment) : String → Option EarningsTotals :=
  Tally.tally GasPayment.dayID
    (fun totals event => (totals.getD ⟨0, 0, 0⟩).add event) table events

/-- The handler returns exactly if the time of the payment has four bytes and
there is an entity to which the payment is added. -/
theorem handleGasPayment_toStore_eq_ok_iff
    {table : String → Option EarningsTotals}
    {store : EntityStore} :
    handleGasPayment (DayTotals.toStore .int table) event = .ok store ↔
      event.timestamp < 2 ^ 32 ∧
        ∃ totals, table event.dayID = some totals ∧
          store = DayTotals.toStore .int (Function.update table event.dayID
            (some (totals.add event))) := by
  by_cases fits : event.timestamp < 2 ^ 32
  · cases found : table event.dayID with
    | none =>
        rw [handleGasPayment_of_none fits (DayTotals.toStore_of_eq_none found)]
        simp
    | some totals =>
        rw [handleGasPayment_of_some fits found]
        constructor
        · intro returned
          cases returned
          exact ⟨fits, totals, rfl, rfl⟩
        · rintro ⟨-, _, ⟨⟩, rfl⟩
          rfl
  · rw [handleGasPayment_of_late (Nat.not_lt.mp fits)]
    exact iff_of_false (fun returned => by cases returned)
      fun due => fits due.1

/-- The table after the first of some payments. -/
theorem talliedEarnings_cons
    {table : String → Option EarningsTotals}
    {totals : EarningsTotals}
    (found : table event.dayID = some totals)
    (events : List GasPayment) :
    talliedEarnings table (event :: events) =
      talliedEarnings (Function.update table event.dayID
        (some (totals.add event))) events := by
  simp only [talliedEarnings, Tally.tally, List.foldl_cons, Tally.record, found,
    Option.getD_some]

/-- A run returns exactly if its times have four bytes and every payment has an
entity with a date from the start, and then it adds up the payments. -/
theorem runEarnings_toStore_eq_ok_iff
    {table : String → Option EarningsTotals}
    {events : List GasPayment}
    {store : EntityStore} :
    runEarnings (DayTotals.toStore .int table) events = .ok store ↔
      (∀ event ∈ events, event.timestamp < 2 ^ 32 ∧
        (table event.dayID).isSome) ∧
      store = DayTotals.toStore .int (talliedEarnings table events) := by
  induction events generalizing table with
  | nil =>
      constructor
      · intro returned
        cases returned
        exact ⟨by simp, rfl⟩
      · rintro ⟨-, rfl⟩
        rfl
  | cons event events inductionHypothesis =>
      rw [runEarnings, List.foldlM_cons]
      constructor
      · intro returned
        obtain ⟨next, stepped, later⟩ := exists_of_bind_eq_ok returned
        obtain ⟨fits, totals, found, rfl⟩ :=
          handleGasPayment_toStore_eq_ok_iff.mp stepped
        obtain ⟨dated, rfl⟩ := inductionHypothesis.mp later
        have known := Option.isSome_of_eq_some found
        simp only [Tally.isSome_update known] at dated
        refine ⟨List.forall_mem_cons.mpr ⟨⟨fits, known⟩, dated⟩, ?_⟩
        rw [talliedEarnings_cons found]
      · rintro ⟨dated, tallied⟩
        obtain ⟨⟨fits, known⟩, later⟩ := List.forall_mem_cons.mp dated
        obtain ⟨totals, found⟩ := Option.isSome_iff_exists.mp known
        let next :=
          Function.update table event.dayID (some (totals.add event))
        have kept : ∀ later ∈ events, later.timestamp < 2 ^ 32 ∧
            (next later.dayID).isSome := by
          simpa only [next, Tally.isSome_update known] using later
        rw [talliedEarnings_cons found] at tallied
        rw [handleGasPayment_of_some fits found]
        exact (@inductionHypothesis next).mpr ⟨kept, tallied⟩

end Handler

/-- The handler never aborts, and the entities are those of the days with
payments, each with the sum and number of the payments of its day and with its
date, in whatever order the payments come. -/
def CountsEarnings (events : List GasPayment) : Prop :=
  ∃ store, runEarnings emptyStore events = .ok store ∧
    (∀ id, (store id).isSome ↔ ∃ event ∈ events, id = dayId event.day) ∧
    (∀ day entity, store (dayId day) = some entity →
      RelayerEarningsDaily.amount entity = .ok
        ((events.filter fun event => event.day = day).map
          GasPayment.amount).sum ∧
      RelayerEarningsDaily.transactionAmount entity = .ok
        (events.filter fun event => event.day = day).length ∧
      (RelayerEarningsDaily.date entity).map Int32.toInt =
        .ok (86400 * day : Nat)) ∧
    ∀ reordered, reordered.Perm events →
      runEarnings emptyStore reordered = .ok store

/-- The first event of all aborts the handler: the payments are counted exactly
if there are none. -/
theorem countsEarnings_iff (events : List GasPayment) :
    CountsEarnings events ↔ events = [] := by
  constructor
  · rintro ⟨store, returned, -⟩
    have undated : emptyStore =
        DayTotals.toStore .int fun _ => (none : Option EarningsTotals) := rfl
    rw [undated] at returned
    have dated := (runEarnings_toStore_eq_ok_iff.mp returned).1
    cases events with
    | nil => rfl
    | cons event events => exact absurd (dated event (by simp)).2 (by simp)
  · rintro rfl
    refine ⟨emptyStore, rfl, fun id => ?_, ?_, ?_⟩
    · simp [emptyStore]
    · intro day entity found
      cases found
    · intro reordered permuted
      rw [permuted.eq_nil]
      rfl

/-- A payment of one unit at the epoch aborts the handler. -/
theorem runEarnings_first_payment :
    let event : GasPayment := { timestamp := 0, amount := 1 }
    runEarnings emptyStore [event] = .error .nullValue ∧
      ¬ CountsEarnings [event] := by
  intro event
  have aborts : runEarnings emptyStore [event] = .error .nullValue := by
    rw [runEarnings, List.foldlM_cons,
      handleGasPayment_of_none (by decide) rfl]
    rfl
  refine ⟨aborts, ?_⟩
  rintro ⟨store, returned, -⟩
  rw [aborts] at returned
  cases returned

end Subgraph

end Abacus
