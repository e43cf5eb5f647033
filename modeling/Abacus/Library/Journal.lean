import Mathlib.Logic.Function.Basic
import Mathlib.Data.List.Basic

/-!
# Programs over a keyed store, with the journal of their puts

The store maps each key to an optional value whose type may depend on the key.
A program reads the store and returns a result together with the list of puts
it made, in order. The final store replays the whole list; the store that
survives a crash replays a prefix of it, since each put is atomic and durable
in program order.
-/

namespace Journal

universe u

variable {Key : Type u} {Value : Key → Type}

/-- Contents of a keyed store. -/
abbrev Store (Key : Type u) (Value : Key → Type) : Type u :=
  (key : Key) → Option (Value key)

/-- One atomic write. -/
structure Put (Key : Type u) (Value : Key → Type) where
  key : Key
  value : Value key

/-- The store that holds nothing. -/
def empty : Store Key Value := fun _ => none

section Replay

variable [DecidableEq Key]

/-- Effect of one put. -/
def Put.apply (put : Put Key Value) (store : Store Key Value) :
    Store Key Value :=
  Function.update store put.key (some put.value)

@[simp] theorem Put.apply_key (put : Put Key Value) (store : Store Key Value) :
    put.apply store put.key = some put.value := by
  simp [Put.apply]

@[simp] theorem Put.apply_mk_self
    (key : Key)
    (value : Value key)
    (store : Store Key Value) :
    (Put.mk key value).apply store key = some value :=
  Put.apply_key ⟨key, value⟩ store

/-- A put changes no other key. -/
theorem Put.apply_of_ne
    {put : Put Key Value}
    {key : Key}
    (different : key ≠ put.key)
    (store : Store Key Value) :
    put.apply store key = store key := by
  simp [Put.apply, Function.update_of_ne different]

/-- Replay a list of puts in order. -/
def replay (store : Store Key Value) (puts : List (Put Key Value)) :
    Store Key Value :=
  puts.foldl (fun current put => put.apply current) store

@[simp] theorem replay_nil (store : Store Key Value) :
    replay store [] = store := rfl

@[simp] theorem replay_cons
    (store : Store Key Value)
    (put : Put Key Value)
    (puts : List (Put Key Value)) :
    replay store (put :: puts) = replay (put.apply store) puts := rfl

theorem replay_append
    (store : Store Key Value)
    (first second : List (Put Key Value)) :
    replay store (first ++ second) = replay (replay store first) second := by
  simp [replay, List.foldl_append]

/-- Puts to other keys leave a key alone. -/
theorem replay_of_forall_ne
    (store : Store Key Value)
    (puts : List (Put Key Value))
    {key : Key}
    (different : ∀ put ∈ puts, key ≠ put.key) :
    replay store puts key = store key := by
  induction puts generalizing store with
  | nil => rfl
  | cons put puts inductionHypothesis =>
      rw [replay_cons, inductionHypothesis _ fun later member =>
        different later (by simp [member]),
        Put.apply_of_ne (different put (by simp))]

/-- A present key stays present. -/
theorem isSome_replay
    {store : Store Key Value}
    (puts : List (Put Key Value))
    {key : Key}
    (present : (store key).isSome) :
    (replay store puts key).isSome := by
  induction puts generalizing store with
  | nil => exact present
  | cons put puts inductionHypothesis =>
      rw [replay_cons]
      apply inductionHypothesis
      by_cases same : key = put.key
      · subst same
        simp
      · rwa [Put.apply_of_ne same]

end Replay

/-! ## Programs -/

/-- A program over a store: its result, and the puts it made in order. -/
def Program (Key : Type u) (Value : Key → Type) (ε α : Type) : Type u :=
  Store Key Value → Except ε α × List (Put Key Value)

namespace Program

variable {ε α β : Type}

/-- The value a program returns or the error it stops with. -/
def result (program : Program Key Value ε α) (store : Store Key Value) :
    Except ε α :=
  (program store).1

/-- The puts a program makes, in order. -/
def journal (program : Program Key Value ε α) (store : Store Key Value) :
    List (Put Key Value) :=
  (program store).2

/-- Return a value without touching the store. -/
def pure (value : α) : Program Key Value ε α := fun _ => (.ok value, [])

/-- Stop with an error. -/
def fail (error : ε) : Program Key Value ε α := fun _ => (.error error, [])

/-- A computation that does not touch the store. -/
def lift (outcome : Except ε α) : Program Key Value ε α :=
  fun _ => (outcome, [])

/-- Read one key. -/
def get (key : Key) : Program Key Value ε (Option (Value key)) :=
  fun store => (.ok (store key), [])

/-- Write one key. -/
def put (key : Key) (value : Value key) : Program Key Value ε Unit :=
  fun _ => (.ok (), [⟨key, value⟩])

@[simp] theorem run_fail (error : ε) (store : Store Key Value) :
    (fail error : Program Key Value ε α) store = (.error error, []) := rfl

@[simp] theorem run_lift (outcome : Except ε α) (store : Store Key Value) :
    (lift outcome : Program Key Value ε α) store = (outcome, []) := rfl

@[simp] theorem run_get (key : Key) (store : Store Key Value) :
    (get key : Program Key Value ε _) store = (.ok (store key), []) := rfl

@[simp] theorem run_put
    (key : Key)
    (value : Value key)
    (store : Store Key Value) :
    (put key value : Program Key Value ε Unit) store =
      (.ok (), [⟨key, value⟩]) := rfl

variable [DecidableEq Key]

/-- The store after the whole program. -/
def final (program : Program Key Value ε α) (store : Store Key Value) :
    Store Key Value :=
  replay store (program.journal store)

/-- The store that survives a crash after a number of puts. -/
def crashed (program : Program Key Value ε α) (store : Store Key Value)
    (count : Nat) : Store Key Value :=
  replay store ((program.journal store).take count)

/-- Run one program and, if it returns, the next one on the store it left. -/
def bind (program : Program Key Value ε α)
    (next : α → Program Key Value ε β) : Program Key Value ε β :=
  fun store =>
    match program store with
    | (.error error, puts) => (.error error, puts)
    | (.ok value, puts) =>
        let later := next value (replay store puts)
        (later.1, puts ++ later.2)

instance : Monad (Program Key Value ε) where
  pure := Program.pure
  bind := Program.bind

@[simp] theorem run_pure (value : α) (store : Store Key Value) :
    (Pure.pure value : Program Key Value ε α) store = (.ok value, []) := rfl

/-- A program whose first part returns. -/
theorem run_bind_ok
    {program : Program Key Value ε α}
    {store : Store Key Value}
    {value : α}
    {puts : List (Put Key Value)}
    (returned : program store = (.ok value, puts))
    (next : α → Program Key Value ε β) :
    (program >>= next) store =
      ((next value (replay store puts)).1,
        puts ++ (next value (replay store puts)).2) := by
  simp only [Bind.bind, bind, returned]

/-- A program whose first part stops with an error. -/
theorem run_bind_error
    {program : Program Key Value ε α}
    {store : Store Key Value}
    {error : ε}
    {puts : List (Put Key Value)}
    (stopped : program store = (.error error, puts))
    (next : α → Program Key Value ε β) :
    (program >>= next) store = (.error error, puts) := by
  simp only [Bind.bind, bind, stopped]

/-- A value that is lifted is passed on. -/
theorem lift_ok_bind
    (value : α)
    (next : α → Program Key Value ε β) :
    (lift (.ok value) >>= next) = next value := rfl

/-- An error that is lifted stops the program. -/
theorem lift_error_bind
    (error : ε)
    (next : α → Program Key Value ε β) :
    (lift (.error error) >>= next) = fail error := rfl

/-- Sequencing is associative. -/
theorem bind_assoc
    {γ : Type}
    (program : Program Key Value ε α)
    (next : α → Program Key Value ε β)
    (last : β → Program Key Value ε γ) :
    (program >>= next) >>= last =
      program >>= fun value => next value >>= last := by
  funext store
  cases first : program store with
  | mk outcome puts =>
      cases outcome with
      | error error =>
          rw [run_bind_error (run_bind_error first _),
            run_bind_error first]
      | ok value =>
          rw [run_bind_ok first]
          cases second : next value (replay store puts) with
          | mk outcome later =>
              have both := run_bind_ok first next
              rw [second] at both
              cases outcome with
              | error error =>
                  rw [run_bind_error both, run_bind_error second]
              | ok middle =>
                  rw [run_bind_ok both, run_bind_ok second, replay_append,
                    List.append_assoc]

/-! ## Pre- and postconditions -/

/-- From every store that satisfies the precondition, the program either
returns a value and leaves a store that satisfy the postcondition, or stops
with an error and leaves a store that satisfies the exit condition. -/
def Triple (pre : Store Key Value → Prop) (program : Program Key Value ε α)
    (post : α → Store Key Value → Prop) (exit : Store Key Value → Prop) :
    Prop :=
  ∀ store, pre store →
    match program.result store with
    | .ok value => post value (program.final store)
    | .error _ => exit (program.final store)

section Rules

variable {pre exit : Store Key Value → Prop}
variable {post : α → Store Key Value → Prop}

theorem Triple.pure
    {value : α}
    (holds : ∀ store, pre store → post value store) :
    Triple pre (Pure.pure value : Program Key Value ε α) post exit :=
  holds

theorem Triple.fail
    {error : ε}
    (holds : ∀ store, pre store → exit store) :
    Triple pre (fail error : Program Key Value ε α) post exit :=
  holds

/-- A computation that is known to return. -/
theorem Triple.lift_ok
    {outcome : Except ε α}
    {value : α}
    (returned : outcome = .ok value)
    (holds : ∀ store, pre store → post value store) :
    Triple pre (lift outcome : Program Key Value ε α) post exit := by
  subst returned
  exact holds

theorem Triple.lift
    {outcome : Except ε α}
    (returns : ∀ value, outcome = .ok value →
      ∀ store, pre store → post value store)
    (stops : ∀ store, pre store → exit store) :
    Triple pre (lift outcome : Program Key Value ε α) post exit := by
  intro store holds
  cases outcome with
  | ok value => exact returns value rfl store holds
  | error error => exact stops store holds

theorem Triple.get
    {key : Key}
    {post : Option (Value key) → Store Key Value → Prop}
    (holds : ∀ store, pre store → post (store key) store) :
    Triple pre (get key : Program Key Value ε _) post exit :=
  holds

theorem Triple.put
    {key : Key}
    {value : Value key}
    {post : Unit → Store Key Value → Prop}
    (holds : ∀ store, pre store → post () (Put.apply ⟨key, value⟩ store)) :
    Triple pre (put key value : Program Key Value ε Unit) post exit :=
  holds

/-- Sequencing through an intermediate condition. -/
theorem Triple.bind
    {program : Program Key Value ε α}
    {next : α → Program Key Value ε β}
    {middle : α → Store Key Value → Prop}
    {post : β → Store Key Value → Prop}
    (first : Triple pre program middle exit)
    (second : ∀ value, Triple (middle value) (next value) post exit) :
    Triple pre (program >>= next) post exit := by
  intro store holds
  have reached := first store holds
  cases returned : program store with
  | mk outcome puts =>
      cases outcome with
      | error error =>
          simp only [result, final, journal, run_bind_error returned]
          simpa only [result, final, journal, returned] using reached
      | ok value =>
          simp only [result, final, journal, returned] at reached
          have continued := second value _ reached
          simp only [result, final, journal, run_bind_ok returned,
            replay_append]
          exact continued

/-- Strengthening the precondition. -/
theorem Triple.weaken
    {program : Program Key Value ε α}
    {stronger : Store Key Value → Prop}
    (triple : Triple pre program post exit)
    (implies : ∀ store, stronger store → pre store) :
    Triple stronger program post exit :=
  fun store holds => triple store (implies store holds)

/-- Weakening the postcondition and the exit condition. -/
theorem Triple.conseq
    {program : Program Key Value ε α}
    {weakerPost : α → Store Key Value → Prop}
    {weakerExit : Store Key Value → Prop}
    (triple : Triple pre program post exit)
    (returned : ∀ value store, post value store → weakerPost value store)
    (stopped : ∀ store, exit store → weakerExit store) :
    Triple pre program weakerPost weakerExit := by
  intro store holds
  have reached := triple store holds
  cases outcome : program.result store with
  | ok value =>
      rw [outcome] at reached
      exact returned value _ reached
  | error error =>
      rw [outcome] at reached
      exact stopped _ reached

/-- An invariant of the store that is left, whatever the result is. -/
theorem Triple.of_final
    {program : Program Key Value ε α}
    {invariant : Store Key Value → Prop}
    (holds : ∀ store, pre store → invariant (program.final store)) :
    Triple pre program (fun _ => invariant) invariant := by
  intro store required
  cases program.result store with
  | ok value => exact holds store required
  | error error => exact holds store required

/-- What a triple says about the store that is left in either case. -/
theorem Triple.final
    {program : Program Key Value ε α}
    {invariant : Store Key Value → Prop}
    (triple : Triple pre program (fun _ => invariant) invariant)
    {store : Store Key Value}
    (holds : pre store) :
    invariant (program.final store) := by
  have reached := triple store holds
  cases outcome : program.result store with
  | ok value => simpa only [outcome] using reached
  | error error => simpa only [outcome] using reached

end Rules

end Program

end Journal
