import Mathlib.Algebra.Order.Ring.Int
import Abacus.Library.Bytes

/-!
# Entities of the subgraphs

A subgraph keeps one entity for every day. An entity is a map from the names of
fields to values: a new one has no field but its id, and reading a field that
is not set aborts the handler, as reading one of another kind does.
-/

namespace Abacus

namespace Subgraph

/-- How a handler aborts: by `value!` on null, by a conversion of a value of
another kind or of a number that does not fit, or by an assertion about the id
of an entity that is saved. -/
inductive Abort
  | nullValue
  | wrongKind
  | outOfRange
  | invalidId
  deriving DecidableEq

/-! ## Numbers -/

/-- Integers of any size. -/
abbrev BigInt := Int

namespace BigInt

def fromI32 (x : Int32) : BigInt := x.toInt

/-- Convert to 32 bits, or abort. Only the bytes above the fourth one are
checked, so the numbers from `2 ^ 31` to `2 ^ 32 - 1` wrap around. -/
def toI32 (x : BigInt) : Except Abort Int32 :=
  if -2 ^ 32 ≤ x ∧ x < 2 ^ 32 then .ok (Int32.ofInt x)
  else .error .outOfRange

/-- The quotient, rounded towards zero. -/
def dividedBy (x y : BigInt) : BigInt := Int.tdiv x y

end BigInt

/-- A time of four bytes is converted. -/
theorem toI32_natCast
    {timestamp : Nat}
    (fits : timestamp < 2 ^ 32) :
    BigInt.toI32 (timestamp : Int) = .ok (Int32.ofInt timestamp) := by
  have bounds : -2 ^ 32 ≤ (timestamp : Int) ∧ (timestamp : Int) < 2 ^ 32 := by
    omega
  rw [BigInt.toI32, if_pos bounds]

/-- A later time is not. -/
theorem toI32_natCast_of_le
    {timestamp : Nat}
    (late : 2 ^ 32 ≤ timestamp) :
    BigInt.toI32 (timestamp : Int) = .error .outOfRange := by
  have beyond : ¬ (-2 ^ 32 ≤ (timestamp : Int) ∧
      (timestamp : Int) < 2 ^ 32) := by
    omega
  rw [BigInt.toI32, if_neg beyond]

/-- Dividing 32-bit numbers counts whole days. -/
theorem toInt_div_86400
    {timestamp : Nat}
    (fits : timestamp < 2 ^ 31) :
    (Int32.ofInt timestamp / 86400).toInt = (timestamp / 86400 : Nat) := by
  rw [Int32.toInt_div_of_ne_right _ _ (by decide),
    Int32.toInt_ofInt_of_le (by omega) (by omega)]
  rfl

/-! ## Values -/

/-- The kinds of values that the entities contain. -/
inductive Value
  | string (s : String)
  | int (n : Int32)
  | bigInt (n : BigInt)
  deriving DecidableEq

namespace Value

def toString : Value → Except Abort String
  | .string s => .ok s
  | _ => .error .wrongKind

def toI32 : Value → Except Abort Int32
  | .int n => .ok n
  | _ => .error .wrongKind

def toBigInt : Value → Except Abort BigInt
  | .bigInt n => .ok n
  | _ => .error .wrongKind

end Value

/-! ## Entities -/

/-- The fields of the entities. -/
inductive Field
  | id
  | amount
  | date
  | transactionAmount
  deriving DecidableEq

/-- An entity: the values of the fields that are set. -/
abbrev Entity := Field → Option Value

/-- The entities of a subgraph by their ids. -/
abbrev EntityStore := String → Option Entity

/-- The store of a new subgraph. -/
def emptyStore : EntityStore := fun _ => none

namespace Entity

variable (entity : Entity)

/-- `this.set(..)` -/
def set (field : Field) (value : Value) : Entity :=
  Function.update entity field (some value)

/-- An entity with an id and nothing else. -/
def new (id : String) : Entity := set (fun _ => none) .id (.string id)

/-- `this.get(..)!` -/
def get (field : Field) : Except Abort Value :=
  match entity field with
  | some value => .ok value
  | none => .error .nullValue

def getString (field : Field) : Except Abort String := do
  (← entity.get field).toString

def getI32 (field : Field) : Except Abort Int32 := do
  (← entity.get field).toI32

def getBigInt (field : Field) : Except Abort BigInt := do
  (← entity.get field).toBigInt

/-- Store the entity under its id, which must be a string. -/
def save (store : EntityStore) : Except Abort EntityStore :=
  match entity .id with
  | some (.string id) => .ok (Function.update store id (some entity))
  | _ => .error .invalidId

end Entity

/-! ## Complete entities -/

/-- What the entity of a day says, with its date in the type the subgraph
stores it in. -/
structure DayTotals (Date : Type) where
  amount : BigInt
  transactionAmount : BigInt
  date : Date

namespace DayTotals

variable {Date : Type}

/-- The entity of a day with all of its fields. -/
def toEntity (toValue : Date → Value) (id : String)
    (totals : DayTotals Date) : Entity
  | .id => some (.string id)
  | .amount => some (.bigInt totals.amount)
  | .date => some (toValue totals.date)
  | .transactionAmount => some (.bigInt totals.transactionAmount)

section Fields

variable (toValue : Date → Value) (id : String) (totals : DayTotals Date)

/-- Setting a field of the entity of a day sets it in the totals. -/
theorem set_amount (amount : BigInt) :
    (totals.toEntity toValue id).set .amount (.bigInt amount) =
      { totals with amount := amount }.toEntity toValue id := by
  funext field
  cases field <;> rfl

theorem set_transactionAmount (transactionAmount : BigInt) :
    (totals.toEntity toValue id).set .transactionAmount
        (.bigInt transactionAmount) =
      { totals with transactionAmount := transactionAmount }.toEntity
        toValue id := by
  funext field
  cases field <;> rfl

theorem set_date (date : Date) :
    (totals.toEntity toValue id).set .date (toValue date) =
      { totals with date := date }.toEntity toValue id := by
  funext field
  cases field <;> rfl

end Fields

/-- The store of the entities of a table. -/
def toStore (toValue : Date → Value)
    (table : String → Option (DayTotals Date)) : EntityStore :=
  fun id => (table id).map (toEntity toValue id)

section Table

variable {toValue : Date → Value} {table : String → Option (DayTotals Date)}
  {id : String}

/-- The entity of a day in the table is loaded. -/
theorem toStore_of_eq_some
    {totals : DayTotals Date}
    (found : table id = some totals) :
    toStore toValue table id = some (totals.toEntity toValue id) := by
  rw [toStore, found, Option.map_some]

/-- There is none to load for another day. -/
theorem toStore_of_eq_none
    (fresh : table id = none) :
    toStore toValue table id = none := by
  rw [toStore, fresh, Option.map_none]

end Table

/-- Saving the entity of a day records it in the table. -/
theorem save_toEntity
    (toValue : Date → Value)
    (table : String → Option (DayTotals Date))
    (id : String)
    (totals : DayTotals Date) :
    (totals.toEntity toValue id).save (toStore toValue table) =
      .ok (toStore toValue (Function.update table id (some totals))) := by
  change Except.ok (Function.update _ id _) = _
  congr 1
  funext other
  by_cases same : other = id
  · subst same
    rw [toStore, Function.update_self, Function.update_self, Option.map_some]
  · rw [toStore, Function.update_of_ne same, toStore,
      Function.update_of_ne same]

end DayTotals

/-- The id of the entity of a day. -/
def dayId (day : Nat) : String := toString day

theorem dayId_injective : Function.Injective dayId :=
  fun _ _ same => Bytes.decimal_injective (congrArg String.toList same)

/-- The id that the handlers compute from a time of four bytes. -/
def computedId (timestamp : Nat) : String :=
  toString (BigInt.fromI32 (Int32.ofInt timestamp / 86400))

/-- As long as the time does not wrap around, it is the id of its day. -/
theorem computedId_of_lt
    {timestamp : Nat}
    (fits : timestamp < 2 ^ 31) :
    computedId timestamp = dayId (timestamp / 86400) := by
  rw [computedId, BigInt.fromI32, toInt_div_86400 fits]
  rfl

end Subgraph

end Abacus
