import Mathlib.Algebra.Order.BigOperators.Group.Finset
import Mathlib.Algebra.Order.Ring.Nat
import Mathlib.Data.List.Dedup
import Mathlib.Logic.Function.Basic

/-!
# Tallies

A tally keeps one total for each key that has occurred. Its total for a key is
the running total over the events of this key alone, in their order. Running
totals over the events of a list are compared with sums over the distinct
elements of the list: they agree exactly if what is counted again does not
weigh.
-/

namespace Tally

universe u v w x

variable {ε : Type u} {κ : Type v} {σ : Type w}

/-- Add an event to the total of its key. -/
def record [DecidableEq κ] (key : ε → κ) (add : Option σ → ε → σ)
    (table : κ → Option σ) (event : ε) : κ → Option σ :=
  Function.update table (key event) (some (add (table (key event)) event))

/-- Add events in order. -/
def tally [DecidableEq κ] (key : ε → κ) (add : Option σ → ε → σ)
    (table : κ → Option σ) (events : List ε) : κ → Option σ :=
  events.foldl (record key add) table

/-- The running total over some events. -/
def total (add : Option σ → ε → σ) (initial : Option σ) (events : List ε) :
    Option σ :=
  events.foldl (fun current event => some (add current event)) initial

section Total

variable {add : Option σ → ε → σ}

@[simp] theorem total_nil (initial : Option σ) :
    total add initial [] = initial := rfl

@[simp] theorem total_cons (initial : Option σ) (event : ε) (events : List ε) :
    total add initial (event :: events) =
      total add (some (add initial event)) events := rfl

/-- There is a total as soon as there is an event. -/
theorem isSome_total_iff {initial : Option σ} {events : List ε} :
    (total add initial events).isSome ↔ initial.isSome ∨ events ≠ [] := by
  induction events generalizing initial with
  | nil => simp
  | cons event events inductionHypothesis =>
      rw [total_cons, inductionHypothesis]
      simp

/-- An invariant of the total that every event preserves. -/
theorem invariant_total
    (Invariant : List ε → σ → Prop)
    (preserved : ∀ before current event, Invariant before current →
      Invariant (before ++ [event]) (add (some current) event))
    {before : List ε}
    {current : σ}
    (initial : Invariant before current)
    (events : List ε) :
    ∃ after, total add (some current) events = some after ∧
      Invariant (before ++ events) after := by
  induction events generalizing before current with
  | nil => exact ⟨current, rfl, by simpa using initial⟩
  | cons event events inductionHypothesis =>
      obtain ⟨after, totals, holds⟩ :=
        inductionHypothesis (preserved before current event initial)
      exact ⟨after, totals, by simpa using holds⟩

end Total

/-- The total of a key is the running total over the events of the key. -/
theorem tally_apply [DecidableEq κ]
    (keyOf : ε → κ)
    (add : Option σ → ε → σ)
    (table : κ → Option σ)
    (events : List ε)
    (key : κ) :
    tally keyOf add table events key =
      total add (table key) (events.filter fun event => keyOf event = key) := by
  induction events generalizing table with
  | nil => rfl
  | cons event events inductionHypothesis =>
      have later : tally keyOf add table (event :: events) key =
          total add (record keyOf add table event key)
            (events.filter fun event => keyOf event = key) :=
        inductionHypothesis (record keyOf add table event)
      rw [later, record]
      by_cases same : keyOf event = key
      · subst same
        rw [Function.update_self, List.filter_cons_of_pos (by simp),
          total_cons]
      · rw [Function.update_of_ne (Ne.symm same),
          List.filter_cons_of_neg (by simpa using same)]

/-- Changing the total of a known key adds no key. -/
theorem isSome_update [DecidableEq κ]
    {table : κ → Option σ}
    {key : κ}
    (known : (table key).isSome)
    (total : σ)
    (other : κ) :
    (Function.update table key (some total) other).isSome =
      (table other).isSome := by
  by_cases same : other = key
  · rw [same, Function.update_self, known]
    rfl
  · rw [Function.update_of_ne same]

/-- A fallible step that succeeds on what represents a state, and leaves what
represents the next one. -/
theorem foldlM_eq_ok
    {δ : Type} {ρ : Type x}
    {step : ρ → ε → Except δ ρ}
    {next : σ → ε → σ}
    {represent : σ → ρ}
    {events : List ε}
    (each : ∀ state, ∀ event ∈ events,
      step (represent state) event = .ok (represent (next state event)))
    (state : σ) :
    events.foldlM step (represent state) =
      .ok (represent (events.foldl next state)) := by
  induction events generalizing state with
  | nil => rfl
  | cons event events inductionHypothesis =>
      rw [List.foldlM_cons, each state event List.mem_cons_self]
      exact inductionHypothesis
        (fun current later member =>
          each current later (List.mem_cons_of_mem _ member))
        (next state event)

/-- A fallible step that succeeds in recording every event tallies them. -/
theorem foldlM_eq_tally [DecidableEq κ]
    {δ : Type}
    {step : (κ → Option σ) → ε → Except δ (κ → Option σ)}
    {key : ε → κ}
    {add : Option σ → ε → σ}
    {events : List ε}
    (each : ∀ table, ∀ event ∈ events,
      step table event = .ok (record key add table event))
    (table : κ → Option σ) :
    events.foldlM step table = .ok (tally key add table events) :=
  @foldlM_eq_ok ε (κ → Option σ) δ (κ → Option σ) step (record key add)
    (fun current => current) events each table

/-! ## Distinct elements -/

section Distinct

variable [DecidableEq ε]

/-- A list is as long as it has distinct elements exactly if it has no
repetitions. -/
theorem card_toFinset_eq_length_iff {list : List ε} :
    list.toFinset.card = list.length ↔ list.Nodup := by
  rw [List.card_toFinset, ← List.dedup_eq_self]
  constructor
  · intro lengths
    exact (List.dedup_sublist list).eq_of_length lengths
  · intro same
    rw [same]

/-- What is counted several times weighs what it should if it is counted once
or weighs nothing. -/
theorem eq_mul_iff
    {count due paid : Nat}
    (positive : 0 < count)
    (most : due ≤ paid) :
    due = count * paid ↔ paid = due ∧ (count = 1 ∨ due = 0) := by
  constructor
  · intro agree
    have once : paid ≤ count * paid := Nat.le_mul_of_pos_left paid positive
    have same : paid = due := Nat.le_antisymm (once.trans agree.ge) most
    refine ⟨same, or_iff_not_imp_left.mpr fun several => ?_⟩
    have twice : 2 * due ≤ count * due :=
      Nat.mul_le_mul_right due (by omega)
    rw [same] at agree
    omega
  · rintro ⟨rfl, rfl | rfl⟩
    · rw [Nat.one_mul]
    · rw [Nat.mul_zero]

variable {list : List ε} {due paid : ε → Nat}

theorem due_le_count_mul
    (most : ∀ element ∈ list, due element ≤ paid element) :
    ∀ element ∈ list.toFinset,
      due element ≤ list.count element * paid element := by
  intro element member
  have inside := List.mem_toFinset.mp member
  exact (most element inside).trans
    (Nat.le_mul_of_pos_left _ (List.count_pos_iff.mpr inside))

/-- A sum over a list in which every element weighs at least what it should is
at least the sum over its distinct elements. -/
theorem sum_toFinset_le
    (most : ∀ element ∈ list, due element ≤ paid element) :
    ∑ element ∈ list.toFinset, due element ≤ (list.map paid).sum := by
  rw [Finset.sum_list_map_count]
  exact Finset.sum_le_sum (due_le_count_mul most)

/-- The two sums agree exactly if every element weighs what it should, and
those that occur again weigh nothing. -/
theorem sum_map_eq_sum_toFinset_iff
    (most : ∀ element ∈ list, due element ≤ paid element) :
    (list.map paid).sum = ∑ element ∈ list.toFinset, due element ↔
      ∀ element ∈ list, paid element = due element ∧
        (list.count element = 1 ∨ due element = 0) := by
  simp only [Finset.sum_list_map_count, nsmul_eq_mul, Nat.cast_id]
  rw [eq_comm, Finset.sum_eq_sum_iff_of_le (due_le_count_mul most)]
  constructor
  · intro agree element inside
    exact (eq_mul_iff (List.count_pos_iff.mpr inside) (most element inside)).mp
      (agree element (List.mem_toFinset.mpr inside))
  · intro exact element member
    have inside := List.mem_toFinset.mp member
    exact (eq_mul_iff (List.count_pos_iff.mpr inside)
      (most element inside)).mpr (exact element inside)

end Distinct

end Tally
