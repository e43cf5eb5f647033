import Mathlib.Algebra.Order.Ring.Nat
import Mathlib.Data.List.Basic

/-!
# Bounded retries with exponential backoff

Attempts are numbered from one. The last attempt is the first one with a
terminal outcome, or the one at the limit. The delay after an attempt is a base
that is doubled with every attempt.
-/

namespace Retry

/-- The last attempt: no attempt before it is terminal, and it is terminal or
at the limit. -/
structure IsLast (terminal : Nat → Prop) (limit last : Nat) : Prop where
  positive : 1 ≤ last
  le_limit : last ≤ limit
  earlier : ∀ attempt, 1 ≤ attempt → attempt < last → ¬ terminal attempt
  stops : terminal last ∨ last = limit

/-- There is one last attempt only. -/
theorem IsLast.unique
    {terminal : Nat → Prop}
    {limit first second : Nat}
    (firstLast : IsLast terminal limit first)
    (secondLast : IsLast terminal limit second) :
    first = second := by
  -- An attempt before another last one is neither terminal nor at the limit.
  have no_earlier {one two : Nat} (oneLast : IsLast terminal limit one)
      (twoLast : IsLast terminal limit two) : ¬ one < two := by
    intro before
    rcases oneLast.stops with stops | atLimit
    · exact twoLast.earlier one oneLast.positive before stops
    · have bound := twoLast.le_limit
      omega
  exact Nat.le_antisymm
    (Nat.not_lt.mp (no_earlier secondLast firstLast))
    (Nat.not_lt.mp (no_earlier firstLast secondLast))

/-- There is a last attempt if any attempt is allowed. -/
theorem exists_isLast
    (terminal : Nat → Prop)
    {limit : Nat}
    (positive : 1 ≤ limit) :
    ∃ last, IsLast terminal limit last := by
  induction limit, positive using Nat.le_induction with
  | base => exact ⟨1, Nat.le_refl 1, Nat.le_refl 1, by omega, .inr rfl⟩
  | succ limit positive inductionHypothesis =>
      obtain ⟨last, isLast⟩ := inductionHypothesis
      by_cases stops : terminal last
      · exact ⟨last, isLast.positive, Nat.le_succ_of_le isLast.le_limit,
          isLast.earlier, .inl stops⟩
      · have atLimit := isLast.stops.resolve_left stops
        subst atLimit
        refine ⟨last + 1, Nat.le_add_left 1 last, Nat.le_refl _, ?_, .inr rfl⟩
        intro attempt first below
        rcases Nat.lt_succ_iff_lt_or_eq.mp below with earlier | rfl
        · exact isLast.earlier attempt first earlier
        · exact stops

/-! ## Delays -/

/-- The delay after an attempt. -/
def delay (base attempt : Nat) : Nat := base * 2 ^ (attempt - 1)

/-- The delays after a number of attempts. -/
def delays (base count : Nat) : List Nat :=
  (List.range' 1 count).map (delay base)

/-- There is one delay after every attempt. -/
theorem length_delays (base count : Nat) :
    (delays base count).length = count := by
  rw [delays, List.length_map, List.length_range']

/-- A later delay is not shorter. -/
theorem delay_mono
    (base : Nat)
    {first second : Nat}
    (before : first ≤ second) :
    delay base first ≤ delay base second :=
  Nat.mul_le_mul_left base
    (Nat.pow_le_pow_right (by decide) (Nat.sub_le_sub_right before 1))

/-- A later delay is longer, if the base is positive. -/
theorem delay_lt
    {base : Nat}
    (positive : 1 ≤ base)
    {first second : Nat}
    (one : 1 ≤ first)
    (before : first < second) :
    delay base first < delay base second := by
  refine Nat.mul_lt_mul_of_pos_left ?_ positive
  exact Nat.pow_lt_pow_right (by decide) (by omega)

/-- The delays are increasing. -/
theorem pairwise_delays
    {base : Nat}
    (positive : 1 ≤ base)
    (count : Nat) :
    (delays base count).Pairwise (· < ·) := by
  refine List.pairwise_map.mpr ?_
  refine (List.pairwise_lt_range' (s := 1)).imp_of_mem ?_
  intro first second firstMember _ before
  exact delay_lt positive (List.mem_range'_1.mp firstMember).1 before

end Retry
