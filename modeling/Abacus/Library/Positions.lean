import Mathlib.Data.List.Basic

/-!
# Lists by position

Filters that depend on the position of an element alone, and properties that
hold of the elements up to some position of an ordered list.
-/

namespace Positions

universe u

variable {α : Type u}

/-- Elements that are kept by their position form a segment. -/
theorem filter_eq_drop_take
    {elements : List α}
    {keep : α → Bool}
    {low high : Nat}
    (positions : ∀ position, ∀ inside : position < elements.length,
      keep elements[position] = true ↔ low ≤ position ∧ position < high) :
    elements.filter keep = (elements.take high).drop low := by
  induction elements generalizing low high with
  | nil => simp
  | cons element elements inductionHypothesis =>
      have head : keep element = true ↔ low ≤ 0 ∧ 0 < high :=
        positions 0 (by simp)
      have tail : elements.filter keep =
          (elements.take (high - 1)).drop (low - 1) := by
        apply inductionHypothesis
        intro position inside
        have shifted := positions (position + 1) (by simpa using inside)
        rw [List.getElem_cons_succ] at shifted
        rw [shifted]
        omega
      cases high with
      | zero =>
          rw [List.filter_cons_of_neg (by simp [head]), tail]
          simp
      | succ high =>
          rw [List.take_succ_cons]
          cases low with
          | zero =>
              rw [List.filter_cons_of_pos (by simp [head]), tail]
              rfl
          | succ low =>
              rw [List.filter_cons_of_neg (by simp [head]), tail]
              rfl

/-- A property that holds of all elements before one that has it holds of the
elements up to some position. -/
theorem exists_position_iff
    {elements : List α}
    {holds : α → Prop}
    (downward : elements.Pairwise fun earlier later =>
      holds later → holds earlier) :
    ∃ bound, bound ≤ elements.length ∧
      ∀ position, ∀ inside : position < elements.length,
        holds elements[position] ↔ position < bound := by
  induction elements with
  | nil => exact ⟨0, Nat.le_refl 0, fun _ inside => absurd inside (by simp)⟩
  | cons element elements inductionHypothesis =>
      obtain ⟨first, rest⟩ := List.pairwise_cons.mp downward
      by_cases now : holds element
      · obtain ⟨bound, most, positions⟩ := inductionHypothesis rest
        refine ⟨bound + 1, by simpa using most, fun position inside => ?_⟩
        cases position with
        | zero => exact iff_of_true now (Nat.succ_pos _)
        | succ position =>
            rw [List.getElem_cons_succ, positions]
            omega
      · refine ⟨0, Nat.zero_le _, fun position inside => ?_⟩
        refine iff_of_false ?_ (Nat.not_lt_zero _)
        cases position with
        | zero => exact now
        | succ position =>
            rw [List.getElem_cons_succ]
            exact fun later => now (first _ (List.getElem_mem _) later)

end Positions
