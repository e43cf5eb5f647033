import Abacus.Core.Primitives
import Abacus.Library.Tally

/-!
# Fees of the relayer by calendar day

The chart of the app adds up what the relayer has spent on every calendar day,
once for every `Process` event, and takes the gas from the counter of the whole
block up to the transaction. The sums are the fees of the transactions of a day
only where neither makes a difference.
-/

namespace Abacus

namespace InboxFees

/-! ## Numbers -/

/-- The number that is nearest to a natural number, of two the one with the
even significand of 53 bits. -/
def toNearest (n : Nat) : Nat :=
  let unit := 2 ^ (Nat.log2 n - 52)
  let significand := n / unit
  if unit < 2 * (n % unit) ∨ (2 * (n % unit) = unit ∧ significand % 2 = 1) then
    (significand + 1) * unit
  else significand * unit

/-- Numbers are added exactly and then rounded. -/
def addNumbers (x y : Nat) : Nat := toNearest (x + y)

/-- The error of `toNumber` for an integer that is not safe. -/
structure UnsafeInteger where
  value : Nat

/-- Convert an integer of any size to a number. -/
def toNumber (value : Nat) : Except UnsafeInteger Nat :=
  if value < 2 ^ 53 then .ok value else .error ⟨value⟩

/-- Small integers are numbers. -/
theorem toNearest_of_lt {n : Nat} (small : n < 2 ^ 53) : toNearest n = n := by
  have unit : Nat.log2 n - 52 = 0 := by
    by_cases zero : n = 0
    · subst zero
      rfl
    · have bits := (Nat.log2_lt zero).mpr small
      omega
  simp [toNearest, unit, Nat.mod_one]

/-- Rounding a large integer leaves it large. -/
theorem le_toNearest {n : Nat} (large : 2 ^ 53 ≤ n) : 2 ^ 53 ≤ toNearest n := by
  have positive : n ≠ 0 := by omega
  have bits : 53 ≤ Nat.log2 n := (Nat.le_log2 positive).mpr large
  let unit := 2 ^ (Nat.log2 n - 52)
  have leading : 2 ^ 52 * unit = 2 ^ Nat.log2 n := by
    rw [← Nat.pow_add]
    congr 1
    omega
  have significand : 2 ^ 52 ≤ n / unit := by
    rw [Nat.le_div_iff_mul_le (Nat.two_pow_pos _), leading]
    exact Nat.log2_self_le positive
  have kept : 2 ^ 53 ≤ n / unit * unit :=
    calc 2 ^ 53
        ≤ 2 ^ Nat.log2 n := Nat.pow_le_pow_right (by decide) bits
      _ = 2 ^ 52 * unit := leading.symm
      _ ≤ n / unit * unit := Nat.mul_le_mul_right unit significand
  unfold toNearest
  dsimp only
  split
  · exact kept.trans (Nat.mul_le_mul_right unit (Nat.le_succ _))
  · exact kept

/-! ## Days -/

/-- The parts of a date in local time that a key consists of. -/
structure LocalDate where
  fullYear : Nat
  month : Nat
  date : Nat
  deriving DecidableEq

/-- The key of a calendar day. -/
def LocalDate.dtKey (dt : LocalDate) : String :=
  toString dt.fullYear ++ "/" ++ toString (dt.month + 1) ++ "/" ++
    toString dt.date

/-- A numeral contains no slash. -/
theorem slash_not_mem (n : Nat) : '/' ∉ (toString n).toList := by
  intro member
  have digit : '/' ∈ Nat.toDigits 10 n := by
    rwa [← Nat.toList_repr]
  exact absurd (Nat.isDigit_of_mem_toDigits (by decide) (by decide) digit)
    (by decide)

/-- Different calendar days have different keys. -/
theorem LocalDate.dtKey_injective : Function.Injective LocalDate.dtKey := by
  intro first second same
  have characters := congrArg String.toList same
  simp only [LocalDate.dtKey, String.toList_append, List.append_assoc]
    at characters
  obtain ⟨years, rest⟩ := Bytes.append_separator_inj (slash_not_mem _)
    (slash_not_mem _) characters
  obtain ⟨months, dates⟩ := Bytes.append_separator_inj (slash_not_mem _)
    (slash_not_mem _) rest
  obtain ⟨fullYear, month, date⟩ := first
  obtain rfl := Bytes.decimal_injective years
  obtain rfl := Nat.succ.inj (Bytes.decimal_injective months)
  obtain rfl := Bytes.decimal_injective dates
  rfl

/-! ## Events and receipts -/

/-- What is used of the receipt of a transaction: the price of its gas, the gas
it used, and the gas that its block used up to it. -/
structure Receipt where
  effectiveGasPrice : Nat
  gasUsed : Nat
  cumulativeGasUsed : Nat
  gasUsed_le : gasUsed ≤ cumulativeGasUsed

/-- A `Process` event. -/
structure Event where
  blockNumber : Nat
  transactionHash : H256

/-- What the provider answers: the timestamp of a block, and the receipt of a
transaction. -/
structure Provider where
  timestamp : Nat → Nat
  receipt : H256 → Receipt

namespace Receipt

variable (receipt : Receipt)

/-- What is added up for an event, in gwei. -/
def spent : Nat :=
  receipt.effectiveGasPrice * receipt.cumulativeGasUsed / 10 ^ 9

/-- The fee that is paid for the transaction, in gwei. -/
def fee : Nat := receipt.effectiveGasPrice * receipt.gasUsed / 10 ^ 9

theorem fee_le_spent : receipt.fee ≤ receipt.spent :=
  Nat.div_le_div_right (Nat.mul_le_mul_left _ receipt.gasUsed_le)

end Receipt

/-- The sum of a day with more spent on it. A sum of zero counts as none. -/
def addSpent : Option Nat → Nat → Nat
  | some total, spent => if total ≠ 0 then addNumbers total spent else spent
  | none, spent => spent

section Fees

variable (provider : Provider) (localDate : Nat → LocalDate)

/-- `getAllInboxFees`: the sum of each day by its key. -/
def getAllInboxFees (events : List Event) :
    Except UnsafeInteger (String → Option Nat) :=
  events.foldlM (fun days event => do
    let timestamp := provider.timestamp event.blockNumber
    let dt := localDate timestamp
    let dtKey := dt.dtKey
    let tx := provider.receipt event.transactionHash
    let spent ← toNumber tx.spent
    return Function.update days dtKey (some (addSpent (days dtKey) spent)))
    fun _ => none

/-- The calendar day of an event. -/
def eventDate (event : Event) : LocalDate :=
  localDate (provider.timestamp event.blockNumber)

/-- The transactions of the events of a day, once for each event. -/
def dayTransactions (events : List Event) (date : LocalDate) : List H256 :=
  (events.filter fun event => eventDate provider localDate event = date).map
    Event.transactionHash

/-- The fees of the distinct transactions of a day. -/
def dailyFees (events : List Event) (date : LocalDate) : Nat :=
  ∑ hash ∈ (dayTransactions provider localDate events date).toFinset,
    (provider.receipt hash).fee

/-- The sum for every day with events is that of the fees of its distinct
transactions, and other days have none. -/
def ReturnsFees (events : List Event) : Prop :=
  ∃ days, getAllInboxFees provider localDate events = .ok days ∧
    ∀ date : LocalDate, days date.dtKey =
      if dayTransactions provider localDate events date = [] then none
      else some (dailyFees provider localDate events date)

/-- The gas used by the block before a transaction costs nothing, and neither
does a transaction that has several events on a day. -/
def ChargesOnce (events : List Event) : Prop :=
  ∀ date, ∀ hash ∈ dayTransactions provider localDate events date,
    (provider.receipt hash).spent = (provider.receipt hash).fee ∧
      ((dayTransactions provider localDate events date).count hash = 1 ∨
        (provider.receipt hash).fee = 0)

/-- What is added up for an event. -/
def spentOn (event : Event) : Nat :=
  (provider.receipt event.transactionHash).spent

/-! ## Sums of numbers -/

/-- A total is exact as long as it is safe, and large from then on. -/
structure Approximates (sum total : Nat) : Prop where
  exact_of_lt : sum < 2 ^ 53 → total = sum
  large : 2 ^ 53 ≤ sum → 2 ^ 53 ≤ total

/-- Adding keeps a total exact or makes it large. -/
theorem Approximates.addSpent
    {sum total : Nat}
    (approximates : Approximates sum total)
    (spent : Nat) :
    Approximates (sum + spent) (addSpent (some total) spent) := by
  obtain ⟨exact_of_lt, large⟩ := approximates
  rw [InboxFees.addSpent]
  split
  · refine ⟨fun small => ?_, fun sumLarge => le_toNearest ?_⟩
    · rw [exact_of_lt (by omega), addNumbers, toNearest_of_lt small]
    · by_cases small : sum < 2 ^ 53
      · rwa [exact_of_lt small]
      · have totalLarge := large (Nat.not_lt.mp small)
        omega
  · refine ⟨fun small => ?_, fun sumLarge => ?_⟩
    · have exact := exact_of_lt (by omega)
      omega
    · by_cases small : sum < 2 ^ 53
      · have exact := exact_of_lt small
        omega
      · have totalLarge := large (Nat.not_lt.mp small)
        omega

variable {provider localDate}

/-- The running total of some events. -/
theorem exists_total_addSpent
    {events : List Event}
    (occurs : events ≠ []) :
    ∃ total,
      Tally.total (fun sum event => addSpent sum (spentOn provider event))
          none events = some total ∧
        Approximates (events.map (spentOn provider)).sum total := by
  cases events with
  | nil => exact (occurs rfl).elim
  | cons event events =>
      have first : Approximates ([event].map (spentOn provider)).sum
          (addSpent none (spentOn provider event)) := by
        rw [List.map_singleton, List.sum_singleton]
        exact ⟨fun _ => rfl, fun large => large⟩
      have further : ∀ (before : List Event) current event,
          Approximates (before.map (spentOn provider)).sum current →
            Approximates ((before ++ [event]).map (spentOn provider)).sum
              (addSpent (some current) (spentOn provider event)) := by
        intro before current event approximates
        rw [List.map_append, List.sum_append, List.map_singleton,
          List.sum_singleton]
        exact approximates.addSpent _
      exact Tally.invariant_total
        (fun before current =>
          Approximates (before.map (spentOn provider)).sum current)
        further first events

/-! ## The sums of all days -/

/-- The totals of all days. -/
def talliedFees (provider : Provider) (localDate : Nat → LocalDate)
    (events : List Event) : String → Option Nat :=
  Tally.tally (fun event => (eventDate provider localDate event).dtKey)
    (fun sum event => addSpent sum (spentOn provider event)) (fun _ => none)
    events

/-- Every event is added if its amount is a safe integer. -/
theorem getAllInboxFees_eq_ok
    {events : List Event}
    (safe : ∀ event ∈ events, spentOn provider event < 2 ^ 53) :
    getAllInboxFees provider localDate events =
      .ok (talliedFees provider localDate events) := by
  refine Tally.foldlM_eq_tally (fun days event member => ?_) fun _ => none
  have converted : toNumber (spentOn provider event) =
      .ok (spentOn provider event) :=
    if_pos (safe event member)
  change (toNumber (spentOn provider event) >>= _) = _
  rw [converted]
  rfl

/-- An amount that is no safe integer is an error. -/
theorem safe_of_getAllInboxFees_eq_ok
    {events : List Event}
    {days : String → Option Nat}
    (returned : getAllInboxFees provider localDate events = .ok days) :
    ∀ event ∈ events, spentOn provider event < 2 ^ 53 := by
  unfold getAllInboxFees at returned
  generalize (fun _ => none : String → Option Nat) = initial at returned
  induction events generalizing initial with
  | nil => simp
  | cons event events inductionHypothesis =>
      rw [List.foldlM_cons] at returned
      obtain ⟨next, stepped, later⟩ := exists_of_bind_eq_ok returned
      obtain ⟨spent, converted, -⟩ := exists_of_bind_eq_ok stepped
      have safe : spentOn provider event < 2 ^ 53 := by
        by_contra large
        rw [spentOn] at large
        rw [toNumber, if_neg large] at converted
        cases converted
      exact List.forall_mem_cons.mpr ⟨safe, inductionHypothesis next later⟩

/-- What is added up for the transactions of a day is what is spent on its
events. -/
theorem map_spent_dayTransactions (events : List Event) (date : LocalDate) :
    (dayTransactions provider localDate events date).map
        (fun hash => (provider.receipt hash).spent) =
      (events.filter fun event => eventDate provider localDate event = date).map
        (spentOn provider) := by
  rw [dayTransactions, List.map_map]
  rfl

/-- The sum of a day approximates what is spent on its events. -/
theorem talliedFees_dtKey (events : List Event) (date : LocalDate) :
    (dayTransactions provider localDate events date = [] →
        talliedFees provider localDate events date.dtKey = none) ∧
      (dayTransactions provider localDate events date ≠ [] →
        ∃ total, talliedFees provider localDate events date.dtKey =
            some total ∧
          Approximates
            ((dayTransactions provider localDate events date).map fun hash =>
              (provider.receipt hash).spent).sum total) := by
  let ofDay := events.filter fun event =>
    eventDate provider localDate event = date
  have same : (events.filter fun event =>
      (eventDate provider localDate event).dtKey = date.dtKey) = ofDay := by
    simp only [LocalDate.dtKey_injective.eq_iff, ofDay]
  rw [talliedFees, Tally.tally_apply, same, map_spent_dayTransactions,
    dayTransactions, ne_eq, List.map_eq_nil_iff]
  refine ⟨fun none => ?_, exists_total_addSpent⟩
  have empty : ofDay = [] := none
  rw [empty, Tally.total_nil]

/-- The sum of what is spent on the events of a day is that of the fees of its
distinct transactions exactly if the gas in front of them and their repetitions
cost nothing. -/
theorem sum_spent_eq_dailyFees_iff (events : List Event) (date : LocalDate) :
    ((dayTransactions provider localDate events date).map fun hash =>
        (provider.receipt hash).spent).sum =
          dailyFees provider localDate events date ↔
      ∀ hash ∈ dayTransactions provider localDate events date,
        (provider.receipt hash).spent = (provider.receipt hash).fee ∧
          ((dayTransactions provider localDate events date).count hash = 1 ∨
            (provider.receipt hash).fee = 0) :=
  Tally.sum_map_eq_sum_toFinset_iff fun hash _ =>
    (provider.receipt hash).fee_le_spent

/-- The fees of a day are at most what is spent on all events. -/
theorem dailyFees_le (events : List Event) (date : LocalDate) :
    dailyFees provider localDate events date ≤
      (events.map (spentOn provider)).sum :=
  calc dailyFees provider localDate events date
      ≤ ((dayTransactions provider localDate events date).map fun hash =>
          (provider.receipt hash).spent).sum :=
        Tally.sum_toFinset_le fun hash _ => (provider.receipt hash).fee_le_spent
    _ = ((events.filter fun event =>
          eventDate provider localDate event = date).map
            (spentOn provider)).sum := by
        rw [map_spent_dayTransactions]
    _ ≤ (events.map (spentOn provider)).sum :=
        (List.filter_sublist.map _).sum_le_sum fun _ _ => Nat.zero_le _

/-- Sums that are those of the fees are returned only if what is added up for
the events of a day is what the transactions cost. -/
theorem ReturnsFees.chargesOnce
    {events : List Event}
    (small : ∀ date, dailyFees provider localDate events date < 2 ^ 53)
    (returnsFees : ReturnsFees provider localDate events) :
    ChargesOnce provider localDate events := by
  obtain ⟨days, returned, sums⟩ := returnsFees
  rw [getAllInboxFees_eq_ok (safe_of_getAllInboxFees_eq_ok returned)]
    at returned
  cases returned
  intro date
  by_cases occurs : dayTransactions provider localDate events date = []
  · simp [occurs]
  · obtain ⟨total, found, approximates⟩ :=
      (talliedFees_dtKey events date).2 occurs
    have due : total = dailyFees provider localDate events date := by
      have sum := sums date
      rw [found, if_neg occurs] at sum
      exact Option.some.inj sum
    refine (sum_spent_eq_dailyFees_iff events date).mp ?_
    have bound := small date
    rw [← due] at bound ⊢
    by_contra different
    by_cases safe : ((dayTransactions provider localDate events date).map
        fun hash => (provider.receipt hash).spent).sum < 2 ^ 53
    · exact different (approximates.exact_of_lt safe).symm
    · exact Nat.not_le.mpr bound (approximates.large (Nat.not_lt.mp safe))

/-- The sums of the days are those of the fees of their distinct transactions
exactly if the gas that a block used before a transaction costs nothing, and
neither does a transaction with several events on a day. -/
theorem returnsFees_iff
    (provider : Provider)
    (localDate : Nat → LocalDate)
    (events : List Event)
    (small : ∀ date, dailyFees provider localDate events date < 2 ^ 53) :
    ReturnsFees provider localDate events ↔
      ChargesOnce provider localDate events := by
  refine ⟨fun returnsFees => returnsFees.chargesOnce small, ?_⟩
  intro chargesOnce
  have safe : ∀ event ∈ events, spentOn provider event < 2 ^ 53 := by
    intro event member
    let date := eventDate provider localDate event
    have occurs : event.transactionHash ∈
        dayTransactions provider localDate events date :=
      List.mem_map_of_mem
        (List.mem_filter.mpr ⟨member, decide_eq_true rfl⟩)
    calc spentOn provider event
        = (provider.receipt event.transactionHash).fee :=
          (chargesOnce date _ occurs).1
      _ ≤ dailyFees provider localDate events date :=
          Finset.single_le_sum
            (f := fun hash => (provider.receipt hash).fee)
            (fun hash _ => Nat.zero_le _) (List.mem_toFinset.mpr occurs)
      _ < 2 ^ 53 := small date
  refine ⟨_, getAllInboxFees_eq_ok safe, fun date => ?_⟩
  split
  · rename_i none
    exact (talliedFees_dtKey events date).1 none
  · rename_i occurs
    obtain ⟨total, found, approximates⟩ :=
      (talliedFees_dtKey events date).2 occurs
    have sum := (sum_spent_eq_dailyFees_iff events date).mpr
      (chargesOnce date)
    rw [found, approximates.exact_of_lt (sum ▸ small date), sum]

end Fees

/-- A block of transactions at the epoch that pay one gwei for a unit of gas, of
which they use 21000 each. -/
def Provider.ofBlock (cumulativeGasUsed : Nat)
    (least : 21000 ≤ cumulativeGasUsed) : Provider where
  timestamp _ := 0
  receipt _ :=
    { effectiveGasPrice := 10 ^ 9
      gasUsed := 21000
      cumulativeGasUsed := cumulativeGasUsed
      gasUsed_le := least }

/-- Of two transactions on one day, each the first one of its block, the fees
are returned, but not if one of them has two events. -/
theorem returnsFees_iff_shared :
    let provider := Provider.ofBlock 21000 le_rfl
    let localDate : Nat → LocalDate := fun _ => ⟨1970, 0, 1⟩
    let first : Event := ⟨0, H256.zero⟩
    let second : Event := ⟨1, ⟨List.replicate 32 1, rfl⟩⟩
    ReturnsFees provider localDate [first, second] ∧
      ¬ ReturnsFees provider localDate [first, second, first] := by
  intro provider localDate first second
  refine ⟨(returnsFees_iff _ _ _ fun date =>
    (dailyFees_le _ date).trans_lt (by decide)).mpr ?_, fun returnsFees => ?_⟩
  · intro date hash member
    have distinct : (dayTransactions provider localDate [first, second]
        date).Nodup :=
      (List.filter_sublist.map Event.transactionHash).nodup (by decide)
    exact ⟨rfl, .inl (List.count_eq_one_of_mem distinct member)⟩
  · have chargesOnce := (returnsFees_iff _ _ _ fun date =>
      (dailyFees_le _ date).trans_lt (by decide)).mp returnsFees
    exact absurd (chargesOnce ⟨1970, 0, 1⟩ H256.zero (by decide)).2
      (by decide)

/-- The second transaction of a block, whose fee of 21000 gwei is returned as
42000 gwei. -/
theorem getAllInboxFees_second :
    let provider := Provider.ofBlock 42000 (by decide)
    let localDate : Nat → LocalDate := fun _ => ⟨1970, 0, 1⟩
    let events : List Event := [⟨0, H256.zero⟩]
    (∀ date, dailyFees provider localDate events date < 2 ^ 53) ∧
      (getAllInboxFees provider localDate events).map
          (fun days => days (LocalDate.dtKey ⟨1970, 0, 1⟩)) =
        .ok (some 42000) ∧
      ¬ ReturnsFees provider localDate events := by
  intro provider localDate events
  have small : ∀ date, dailyFees provider localDate events date < 2 ^ 53 :=
    fun date => (dailyFees_le _ date).trans_lt (by decide)
  refine ⟨small, ?_, ?_⟩
  · rw [getAllInboxFees_eq_ok (by decide)]
    have occurs : dayTransactions provider localDate events ⟨1970, 0, 1⟩ ≠
        [] := by
      decide
    obtain ⟨total, found, approximates⟩ :=
      (talliedFees_dtKey events ⟨1970, 0, 1⟩).2 occurs
    have exact : total = 42000 :=
      (approximates.exact_of_lt (by decide)).trans (by decide)
    rw [Except.map, found, exact]
  · intro returnsFees
    have charges := (returnsFees.chargesOnce small ⟨1970, 0, 1⟩ H256.zero
      (by decide)).1
    exact absurd charges (by decide)

end InboxFees

end Abacus
