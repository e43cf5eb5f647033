import Abacus.Library.Within

/-!
# Loops over a shared store

The iterations of a loop are programs. When several tasks share the store, the
puts of an iteration are made one at a time, and other tasks act in between.
As long as no other task puts the keys that the loop reads, the puts and the
result of an iteration are those that its program has at its start.
-/

namespace Journal

universe u

variable {Key : Type u} {Value : Key → Type}

/-- A loop: its variables or the error that ends it, and the puts of the last
iteration that have not been made yet. -/
structure Loop (Key : Type u) (Value : Key → Type) (ε σ : Type) where
  outcome : Except ε σ
  pending : List (Put Key Value)

namespace Loop

variable {ε σ : Type}

/-- A loop before its first iteration, or one that cannot start. -/
def start (outcome : Except ε σ) : Loop Key Value ε σ where
  outcome := outcome
  pending := []

/-- The error of a loop that has ended, once all its puts are made. -/
def ended (loop : Loop Key Value ε σ) : Option ε :=
  match loop.outcome, loop.pending with
  | .error error, [] => some error
  | _, _ => none

/-- Begin the next iteration, once all puts of the last one are made. All reads
of the iteration are taken here, from the store as it is when it begins; only
its puts are made later, one at a time. -/
def iterate (program : σ → Program Key Value ε σ) (store : Store Key Value)
    (loop : Loop Key Value ε σ) : Loop Key Value ε σ :=
  match loop.outcome, loop.pending with
  | .ok state, [] => {
      outcome := (program state).result store
      pending := (program state).journal store }
  | _, _ => loop

/-- The loop after its next put. -/
def rest (loop : Loop Key Value ε σ) : Loop Key Value ε σ :=
  { loop with pending := loop.pending.tail }

section Writing

variable [DecidableEq Key]

/-- The store after the next put of the loop. -/
def write (loop : Loop Key Value ε σ) (store : Store Key Value) :
    Store Key Value :=
  replay store (loop.pending.take 1)

end Writing

/-! ## What a loop puts -/

/-- All pending puts of a loop are allowed. -/
def Pends (allowed : Put Key Value → Prop) (loop : Loop Key Value ε σ) :
    Prop :=
  ∀ put ∈ loop.pending, allowed put

variable {allowed : Put Key Value → Prop}

theorem pends_start (outcome : Except ε σ) :
    Pends allowed (start outcome : Loop Key Value ε σ) := by
  intro put member
  cases member

/-- An iteration pends the puts of its program. -/
theorem Pends.iterate
    {loop : Loop Key Value ε σ}
    (pends : Pends allowed loop)
    {program : σ → Program Key Value ε σ}
    (writes : ∀ state, loop.outcome = .ok state →
      (program state).Writes allowed)
    (store : Store Key Value) :
    Pends allowed (loop.iterate program store) := by
  unfold Loop.iterate
  split
  · rename_i state running quiet
    exact writes state running store
  · exact pends

theorem Pends.rest
    {loop : Loop Key Value ε σ}
    (pends : Pends allowed loop) :
    Pends allowed loop.rest :=
  fun put member => pends put (List.mem_of_mem_tail member)

/-- The next put, if there is one, is allowed. -/
theorem Pends.of_mem_take
    {loop : Loop Key Value ε σ}
    (pends : Pends allowed loop) :
    ∀ put ∈ loop.pending.take 1, allowed put :=
  fun put member => pends put (List.mem_of_mem_take member)

/-! ## Atomic iterations -/

section Atomic

variable [DecidableEq Key]

/-- An iteration of a loop that has its store for itself. -/
def iterateAlone (program : σ → Program Key Value ε σ) :
    Except ε σ × Store Key Value → Except ε σ × Store Key Value
  | (.ok state, store) =>
      ((program state).result store, (program state).final store)
  | (.error error, store) => (.error error, store)

/-- A loop over a shared store looks at some keys like one that has the store
for itself, and is ahead by the pending puts. -/
structure Refines (keys : Key → Prop) (loop : Loop Key Value ε σ)
    (store : Store Key Value) (alone : Except ε σ × Store Key Value) :
    Prop where
  outcome_eq : loop.outcome = alone.1
  agree : AgreeOn keys (replay store loop.pending) alone.2

variable {keys : Key → Prop} {loop : Loop Key Value ε σ}
variable {store : Store Key Value} {alone : Except ε σ × Store Key Value}

theorem refines_start (outcome : Except ε σ) (store : Store Key Value) :
    Refines keys (start outcome) store (outcome, store) :=
  ⟨rfl, .refl store⟩

/-- Without pending puts, an iteration is one of the loop alone. -/
theorem Refines.iterate
    (refines : Refines keys loop store alone)
    (quiet : loop.pending = [])
    {program : σ → Program Key Value ε σ}
    (within : ∀ state, (program state).Within keys) :
    Refines keys (loop.iterate program store) store
      (iterateAlone program alone) := by
  obtain ⟨outcome, pending⟩ := loop
  obtain ⟨aloneOutcome, aloneStore⟩ := alone
  obtain rfl : pending = [] := quiet
  obtain rfl : outcome = aloneOutcome := refines.outcome_eq
  cases outcome with
  | error error => exact refines
  | ok state =>
      have agree : AgreeOn keys store aloneStore := refines.agree
      have same := (within state).agrees store aloneStore agree
      exact {
        outcome_eq := congrArg Prod.fst same
        agree := by
          change AgreeOn keys (replay store (program state store).2)
            (replay aloneStore (program state aloneStore).2)
          rw [← same]
          exact agree.replay _ }

omit [DecidableEq Key] in
/-- With pending puts, there is no iteration. -/
theorem iterate_of_pending
    (busy : loop.pending ≠ [])
    (program : σ → Program Key Value ε σ)
    (store : Store Key Value) :
    loop.iterate program store = loop := by
  unfold Loop.iterate
  split
  · rename_i quiet
    exact absurd quiet busy
  · rfl

/-- To make the next put is no step of the loop alone. -/
theorem Refines.write
    (refines : Refines keys loop store alone) :
    Refines keys loop.rest (loop.write store) alone where
  outcome_eq := refines.outcome_eq
  agree := by
    change AgreeOn keys (replay (replay store (loop.pending.take 1))
      loop.pending.tail) alone.2
    rw [← replay_append, ← List.drop_one, List.take_append_drop]
    exact refines.agree

/-- The puts of other tasks are no steps of the loop alone. -/
theorem Refines.replay
    (refines : Refines keys loop store alone)
    {puts : List (Put Key Value)}
    (outside : ∀ put ∈ puts, ¬ keys put.key) :
    Refines keys loop (Journal.replay store puts) alone where
  outcome_eq := refines.outcome_eq
  agree := ((agreeOn_replay store outside).replay loop.pending).trans
    refines.agree

end Atomic

end Loop

end Journal
