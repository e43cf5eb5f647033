import Abacus.Library.Journal

/-!
# What a program can write

A program is bounded by a predicate of puts if it makes no other puts, from
whatever store it starts. Such a bound follows the structure of the program,
and what holds of all puts holds of all entries of the store.
-/

namespace Journal

universe u

variable {Key : Type u} {Value : Key → Type}

/-- Every entry of a store, as a put, satisfies a predicate. -/
def Entries (holds : Put Key Value → Prop) (store : Store Key Value) : Prop :=
  ∀ key value, store key = some value → holds ⟨key, value⟩

theorem entries_empty (holds : Put Key Value → Prop) : Entries holds empty := by
  intro key value found
  cases found

section Replay

variable [DecidableEq Key] {holds : Put Key Value → Prop}
variable {store : Store Key Value}

theorem Entries.apply
    (entries : Entries holds store)
    {put : Put Key Value}
    (satisfied : holds put) :
    Entries holds (put.apply store) := by
  intro key value found
  by_cases same : key = put.key
  · subst same
    rw [Put.apply_key] at found
    cases found
    exact satisfied
  · rw [Put.apply_of_ne same] at found
    exact entries key value found

/-- Puts that satisfy the predicate keep it for all entries. -/
theorem Entries.replay
    (entries : Entries holds store)
    {puts : List (Put Key Value)}
    (satisfied : ∀ put ∈ puts, holds put) :
    Entries holds (replay store puts) := by
  induction puts generalizing store with
  | nil => exact entries
  | cons put puts inductionHypothesis =>
      rw [replay_cons]
      apply inductionHypothesis
      · exact entries.apply (satisfied put List.mem_cons_self)
      · intro later member
        exact satisfied later (List.mem_cons_of_mem _ member)

end Replay

namespace Program

variable {ε α β : Type}

/-- The program makes no other puts than those that are allowed. -/
def Writes (allowed : Put Key Value → Prop) (program : Program Key Value ε α) :
    Prop :=
  ∀ store, ∀ put ∈ program.journal store, allowed put

variable {allowed : Put Key Value → Prop}

theorem Writes.mono
    {program : Program Key Value ε α}
    {wider : Put Key Value → Prop}
    (writes : Writes allowed program)
    (implies : ∀ put, allowed put → wider put) :
    Writes wider program := by
  intro store put member
  exact implies put (writes store put member)

theorem Writes.lift (outcome : Except ε α) :
    Writes allowed (lift outcome : Program Key Value ε α) := by
  intro store put member
  cases member

theorem Writes.get (key : Key) :
    Writes allowed (get key : Program Key Value ε _) := by
  intro store put member
  cases member

theorem Writes.put
    {key : Key}
    {value : Value key}
    (permitted : allowed ⟨key, value⟩) :
    Writes allowed (put key value : Program Key Value ε Unit) := by
  intro store made member
  obtain rfl := List.mem_singleton.mp member
  exact permitted

section Sequencing

variable [DecidableEq Key]

theorem Writes.pure (value : α) :
    Writes allowed (Pure.pure value : Program Key Value ε α) := by
  intro store put member
  cases member

theorem Writes.bind
    {program : Program Key Value ε α}
    {next : α → Program Key Value ε β}
    (first : Writes allowed program)
    (second : ∀ value, Writes allowed (next value)) :
    Writes allowed (program >>= next) := by
  intro store put member
  cases returned : program store with
  | mk outcome puts =>
      have before : ∀ put ∈ puts, allowed put := by
        intro put made
        apply first store put
        rwa [journal, returned]
      cases outcome with
      | error error =>
          rw [journal, run_bind_error returned] at member
          exact before put member
      | ok value =>
          rw [journal, run_bind_ok returned] at member
          rcases List.mem_append.mp member with made | made
          · exact before put made
          · exact second value _ put made

/-- What holds of all puts that are allowed is kept for all entries. -/
theorem Writes.entries
    {program : Program Key Value ε α}
    (writes : Writes allowed program)
    {store : Store Key Value}
    (entries : Entries allowed store) :
    Entries allowed (program.final store) :=
  entries.replay (writes store)

end Sequencing

end Program

end Journal
