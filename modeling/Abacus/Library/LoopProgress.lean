import Abacus.Library.Loop
import Abacus.Library.Progress

/-!
# Loops that move forward

The variables of a loop have a mark that its iterations move forward. If the
loop goes on, its puts are made again and again, and so are iterations that
find something to do, it gets past every goal.
-/

namespace Journal

universe u

variable {Key : Type u} {Value : Key → Type}
variable {ε σ : Type}

namespace Loop

open Machine (LeadsTo Recurs)

/-- An iteration that moves the mark of a loop forward. -/
def Advances (mark : σ → Nat) (before after : Loop Key Value ε σ) : Prop :=
  ∃ state next, before.outcome = .ok state ∧ before.pending = [] ∧
    after.outcome = .ok next ∧ mark state < mark next

/-- A loop at the points of an infinite run, in which it goes on: each step
leaves it as it is, makes its next put, or moves its mark forward. -/
structure Marches (mark : σ → Nat) (loops : Nat → Loop Key Value ε σ) :
    Prop where
  running : ∀ now, ∃ state, (loops now).outcome = .ok state
  each : ∀ now, loops (now + 1) = loops now ∨
    loops (now + 1) = (loops now).rest ∨
    Advances mark (loops now) (loops (now + 1))
  writes : Recurs fun now => loops (now + 1) = (loops now).rest

/-- The loop stands between two iterations, with its work done. -/
def Done (done : σ → Prop) (loop : Loop Key Value ε σ) : Prop :=
  ∃ state, loop.outcome = .ok state ∧ loop.pending = [] ∧ done state

/-! ## What is left to do -/

/-- What is left of a loop: the way of its mark to a bound, and the pending
puts. -/
def left (mark : σ → Nat) (bound : Nat) (loop : Loop Key Value ε σ) :
    Nat × Nat :=
  match loop.outcome with
  | .ok state => (bound - mark state, loop.pending.length)
  | .error _ => (0, loop.pending.length)

/-- The order of what is left. -/
def Below : Nat × Nat → Nat × Nat → Prop :=
  Prod.Lex (· < ·) (· < ·)

theorem wellFounded_below : WellFounded Below :=
  WellFounded.prod_lex Nat.lt_wfRel.wf Nat.lt_wfRel.wf

variable {mark : σ → Nat} {bound : Nat}
variable {loop : Loop Key Value ε σ}

/-- Without a put that is left, there is none to make. -/
theorem rest_of_quiet (quiet : loop.pending = []) : loop.rest = loop := by
  unfold rest
  rw [quiet]
  exact congrArg (Loop.mk loop.outcome) quiet.symm

/-- The next put brings down what is left. -/
theorem left_rest (busy : loop.pending ≠ []) :
    Below (left mark bound loop.rest) (left mark bound loop) := by
  have shorter : loop.pending.tail.length < loop.pending.length := by
    have length := List.length_pos_iff.mpr busy
    rw [List.length_tail]
    omega
  unfold left rest
  cases loop.outcome with
  | ok state => exact Prod.Lex.right _ shorter
  | error error => exact Prod.Lex.right _ shorter

/-- An iteration that moves the mark forward brings down what is left. -/
theorem Advances.left
    {before after : Loop Key Value ε σ}
    (bounded : ∀ state, mark state ≤ bound)
    (advances : Advances mark before after) :
    Below (left mark bound after) (left mark bound before) := by
  obtain ⟨state, next, first, -, second, forward⟩ := advances
  have limit := bounded next
  simp only [Loop.left, first, second]
  exact Prod.Lex.left _ _ (by omega)

/-! ## Infinite runs -/

variable {loops : Nat → Loop Key Value ε σ}

/-- A step keeps or brings down what is left. -/
theorem Marches.left_succ
    (marches : Marches mark loops)
    (bounded : ∀ state, mark state ≤ bound)
    (now : Nat) :
    left mark bound (loops (now + 1)) = left mark bound (loops now) ∨
      Below (left mark bound (loops (now + 1)))
        (left mark bound (loops now)) := by
  rcases marches.each now with same | rested | advances
  · exact .inl (congrArg (left mark bound) same)
  · rw [rested]
    by_cases quiet : (loops now).pending = []
    · exact .inl (congrArg (left mark bound) (rest_of_quiet quiet))
    · exact .inr (left_rest quiet)
  · exact .inr (advances.left bounded)

/-- As long as the work is not done, there is a step that brings down what is
left. -/
theorem Marches.exists_moves
    (marches : Marches mark loops)
    (bounded : ∀ state, mark state ≤ bound)
    {done : σ → Prop}
    (moves : Recurs fun now => ∀ state, (loops now).outcome = .ok state →
      (loops now).pending = [] → ¬ done state →
        Advances mark (loops now) (loops (now + 1)))
    (now : Nat) :
    ∃ later, now ≤ later ∧ (¬ (loops later).Done done →
      left mark bound (loops later) = left mark bound (loops now) →
        Below (left mark bound (loops (later + 1)))
          (left mark bound (loops later))) := by
  obtain ⟨state, running⟩ := marches.running now
  by_cases quiet : (loops now).pending = []
  · -- the next iteration that finds something to do
    obtain ⟨later, after, advances⟩ := moves now
    refine ⟨later, after, fun ahead same => ?_⟩
    obtain ⟨reached, runs⟩ := marches.running later
    simp only [left, running, runs, Prod.mk.injEq] at same
    rw [quiet, List.length_nil, List.length_eq_zero_iff] at same
    exact (advances reached runs same.2 fun arrived =>
      ahead ⟨reached, runs, same.2, arrived⟩).left bounded
  · -- the next put
    obtain ⟨later, after, rested⟩ := marches.writes now
    refine ⟨later, after, fun _ same => ?_⟩
    rw [rested]
    refine left_rest fun empty => ?_
    obtain ⟨reached, runs⟩ := marches.running later
    simp only [left, running, runs, Prod.mk.injEq] at same
    rw [empty, List.length_nil] at same
    exact quiet (List.length_eq_zero_iff.mp same.2.symm)

/-- A loop that goes on gets its work done, if again and again there is an
iteration that moves its mark forward unless the work is done. -/
theorem Marches.exists_done
    (marches : Marches mark loops)
    (bounded : ∀ state, mark state ≤ bound)
    {done : σ → Prop}
    (moves : Recurs fun now => ∀ state, (loops now).outcome = .ok state →
      (loops now).pending = [] → ¬ done state →
        Advances mark (loops now) (loops (now + 1))) :
    ∃ now, (loops now).Done done := by
  have leads : LeadsTo (fun now => ¬ (loops now).Done done)
      (fun now => (loops now).Done done) := by
    refine LeadsTo.of_variant wellFounded_below
      (fun now => left mark bound (loops now)) ?_ ?_
    · intro now _
      by_cases arrived : (loops (now + 1)).Done done
      · exact .inl arrived
      · exact .inr ⟨arrived, marches.left_succ bounded now⟩
    · intro now _
      obtain ⟨later, after, lower⟩ := marches.exists_moves bounded moves now
      exact ⟨later, after, fun ahead same => .inr (lower ahead same)⟩
  by_cases arrived : (loops 0).Done done
  · exact ⟨0, arrived⟩
  · obtain ⟨later, -, reached⟩ := leads 0 arrived
    exact ⟨later, reached⟩

end Loop

end Journal
