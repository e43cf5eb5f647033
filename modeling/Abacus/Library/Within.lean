import Abacus.Library.Writes

/-!
# Programs within some keys

A program stays within some keys if it does the same on all stores that agree
on these keys, and puts no other key. Such a bound follows the structure of the
program. Programs within disjoint keys do not disturb each other.
-/

namespace Journal

universe u

variable {Key : Type u} {Value : Key → Type}

/-- Two stores have the same values at some keys. -/
def AgreeOn (keys : Key → Prop) (first second : Store Key Value) : Prop :=
  ∀ key, keys key → first key = second key

variable {keys : Key → Prop}
variable {first second third : Store Key Value}

theorem AgreeOn.refl (store : Store Key Value) : AgreeOn keys store store :=
  fun _ _ => rfl

theorem AgreeOn.trans
    (left : AgreeOn keys first second)
    (right : AgreeOn keys second third) :
    AgreeOn keys first third :=
  fun key inside => (left key inside).trans (right key inside)

section Replay

variable [DecidableEq Key]

theorem AgreeOn.apply
    (agree : AgreeOn keys first second)
    (put : Put Key Value) :
    AgreeOn keys (put.apply first) (put.apply second) := by
  intro key inside
  by_cases same : key = put.key
  · subst same
    rw [Put.apply_key, Put.apply_key]
  · rw [Put.apply_of_ne same, Put.apply_of_ne same, agree key inside]

/-- The same puts keep stores in agreement. -/
theorem AgreeOn.replay
    (agree : AgreeOn keys first second)
    (puts : List (Put Key Value)) :
    AgreeOn keys (replay first puts) (replay second puts) := by
  induction puts generalizing first second with
  | nil => exact agree
  | cons put puts inductionHypothesis =>
      exact inductionHypothesis (agree.apply put)

/-- Puts of other keys change nothing. -/
theorem agreeOn_replay
    (store : Store Key Value)
    {puts : List (Put Key Value)}
    (outside : ∀ put ∈ puts, ¬ keys put.key) :
    AgreeOn keys (Journal.replay store puts) store := by
  intro key inside
  refine replay_of_forall_ne store puts fun put member same => ?_
  exact outside put member (same ▸ inside)

end Replay

namespace Program

variable {ε α β : Type}

/-- The program does the same on all stores that agree on some keys, and puts
only these. -/
structure Within (keys : Key → Prop) (program : Program Key Value ε α) :
    Prop where
  agrees : ∀ first second, AgreeOn keys first second →
    program first = program second
  writes : program.Writes fun put => keys put.key

theorem Within.lift (outcome : Except ε α) :
    Within keys (lift outcome : Program Key Value ε α) :=
  ⟨fun _ _ _ => rfl, .lift outcome⟩

theorem Within.get
    {key : Key}
    (inside : keys key) :
    Within keys (get key : Program Key Value ε _) where
  agrees first second agree := by
    rw [run_get, run_get, agree key inside]
  writes := .get key

theorem Within.put
    {key : Key}
    (inside : keys key)
    (value : Value key) :
    Within keys (put key value : Program Key Value ε Unit) :=
  ⟨fun _ _ _ => rfl, .put inside⟩

section Sequencing

variable [DecidableEq Key]

theorem Within.pure (value : α) :
    Within keys (Pure.pure value : Program Key Value ε α) :=
  ⟨fun _ _ _ => rfl, .pure value⟩

theorem Within.bind
    {program : Program Key Value ε α}
    {next : α → Program Key Value ε β}
    (within : Within keys program)
    (rest : ∀ value, Within keys (next value)) :
    Within keys (program >>= next) where
  agrees first second agree := by
    have same := within.agrees first second agree
    cases returned : program first with
    | mk outcome puts =>
        rw [returned] at same
        cases outcome with
        | error error =>
            rw [run_bind_error returned, run_bind_error same.symm]
        | ok value =>
            rw [run_bind_ok returned, run_bind_ok same.symm,
              (rest value).agrees _ _ (agree.replay puts)]
  writes := within.writes.bind fun value => (rest value).writes

end Sequencing

end Program

end Journal
