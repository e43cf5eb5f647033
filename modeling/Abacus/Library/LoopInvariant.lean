import Abacus.Library.CrashTriple
import Abacus.Library.Loop

/-!
# Invariants of loops over a shared store

The puts of an iteration are made one at a time, and the process can end
between any two of them. A crash triple of each iteration, whose precondition
and postcondition is the condition at the head of the loop, yields an invariant
of the store at every point.
-/

namespace Journal

universe u

variable {Key : Type u} {Value : Key → Type} [DecidableEq Key]
variable {ε σ : Type}

namespace Loop

/-- After any number of the pending puts, the store satisfies the invariant;
once all of them are made, the condition at the head of the loop holds. -/
structure Keeps (head : σ → Store Key Value → Prop)
    (invariant : Store Key Value → Prop) (loop : Loop Key Value ε σ)
    (store : Store Key Value) : Prop where
  crash : ∀ count, invariant (replay store (loop.pending.take count))
  arrive : ∀ state, loop.outcome = .ok state →
    head state (replay store loop.pending)

variable {head : σ → Store Key Value → Prop}
variable {invariant : Store Key Value → Prop}
variable {loop : Loop Key Value ε σ}
variable {store : Store Key Value}

theorem keeps_start
    {outcome : Except ε σ}
    (holds : invariant store)
    (stands : ∀ state, outcome = .ok state → head state store) :
    Keeps head invariant (start outcome) store where
  crash count := by
    rw [start, List.take_nil]
    exact holds
  arrive := stands

/-- The store satisfies the invariant at every point. -/
theorem Keeps.holds
    (keeps : Keeps head invariant loop store) :
    invariant store := by
  have now := keeps.crash 0
  rwa [List.take_zero] at now

/-- Between two iterations, the condition at the head of the loop holds. -/
theorem Keeps.stands
    (keeps : Keeps head invariant loop store)
    {state : σ}
    (running : loop.outcome = .ok state)
    (quiet : loop.pending = []) :
    head state store := by
  have arrived := keeps.arrive state running
  rwa [quiet, replay_nil] at arrived

/-- An iteration keeps what its crash triple says. -/
theorem Keeps.iterate
    (keeps : Keeps head invariant loop store)
    {program : σ → Program Key Value ε σ}
    (triple : ∀ state, Program.CrashTriple (head state) (program state) head
      invariant) :
    Keeps head invariant (loop.iterate program store) store := by
  unfold Loop.iterate
  split
  · rename_i state running quiet
    obtain ⟨safe, reaches⟩ := triple state store (keeps.stands running quiet)
    exact ⟨safe, reaches⟩
  · exact keeps

/-- To make the next put is to be one put further. -/
theorem Keeps.write
    (keeps : Keeps head invariant loop store) :
    Keeps head invariant loop.rest (loop.write store) where
  crash count := by
    have later := keeps.crash (count + 1)
    rw [Nat.add_comm, List.take_add, List.drop_one, replay_append] at later
    exact later
  arrive state running := by
    change head state (replay (replay store (loop.pending.take 1))
      loop.pending.tail)
    rw [← replay_append, ← List.drop_one, List.take_append_drop]
    exact keeps.arrive state running

/-- The puts of other tasks do not matter, if the conditions only look at keys
that they do not put. -/
theorem Keeps.replay
    {keys : Key → Prop}
    (keeps : Keeps head invariant loop store)
    (invariants : ∀ first second, AgreeOn keys first second →
      invariant second → invariant first)
    (heads : ∀ state first second, AgreeOn keys first second →
      head state second → head state first)
    {puts : List (Put Key Value)}
    (outside : ∀ put ∈ puts, ¬ keys put.key) :
    Keeps head invariant loop (Journal.replay store puts) where
  crash count := invariants _ _ ((agreeOn_replay store outside).replay _)
    (keeps.crash count)
  arrive state running := heads state _ _
    ((agreeOn_replay store outside).replay _) (keeps.arrive state running)

end Loop

end Journal
