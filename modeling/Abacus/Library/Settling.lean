import Mathlib.Data.List.Basic
import Mathlib.Logic.Relation

/-!
# Lists that settle

A list changes at its end: a bounded number of its last elements is replaced by
at least as many new ones, and its first element stays. What is further from
the end than the bound is settled, and stays for good.
-/

namespace Settling

universe u

variable {α : Type u} {depth : Nat} {first second last : List α}

/-- The end of a list is replaced. -/
inductive Replaces (depth : Nat) : List α → List α → Prop
  | intro {kept old new : List α}
      (rooted : kept ≠ [])
      (shallow : old.length ≤ depth)
      (longer : old.length ≤ new.length) :
      Replaces depth (kept ++ old) (kept ++ new)

/-- Ends are replaced any number of times. -/
def Evolves (depth : Nat) : List α → List α → Prop :=
  Relation.ReflTransGen (Replaces depth)

/-- The part of a list that is further from its end than the bound; the first
element always belongs to it. -/
def settled (depth : Nat) (list : List α) : List α :=
  list.take (max 1 (list.length - depth))

theorem settled_prefix (depth : Nat) (list : List α) :
    settled depth list <+: list :=
  List.take_prefix _ _

/-- What is settled stays. -/
theorem Replaces.settled_prefix (replaces : Replaces depth first second) :
    settled depth first <+: settled depth second := by
  obtain ⟨rooted, shallow, longer⟩ := replaces
  rename_i kept old new
  have nonempty : 0 < kept.length := List.length_pos_iff.mpr rooted
  have fits : max 1 ((kept ++ old).length - depth) ≤ kept.length := by
    rw [List.length_append]
    omega
  have grows : max 1 ((kept ++ old).length - depth) ≤
      max 1 ((kept ++ new).length - depth) := by
    rw [List.length_append, List.length_append]
    omega
  have same : settled depth (kept ++ old) =
      (kept ++ new).take (max 1 ((kept ++ old).length - depth)) := by
    rw [settled, List.take_append_of_le_length fits,
      List.take_append_of_le_length fits]
  rw [same]
  exact List.take_prefix_take_left grows

/-- What is settled stays for good. -/
theorem Evolves.settled_prefix (evolves : Evolves depth first last) :
    settled depth first <+: settled depth last := by
  induction evolves with
  | refl => exact List.prefix_refl _
  | tail _ replaces inductionHypothesis =>
      exact inductionHypothesis.trans replaces.settled_prefix

/-- A list and one that it evolves to begin with what is settled. -/
theorem Evolves.exists_settled (evolves : Evolves depth first last) :
    ∃ rest other, first = settled depth first ++ rest ∧
      last = settled depth first ++ other := by
  obtain ⟨rest, whole⟩ := Settling.settled_prefix depth first
  obtain ⟨other, later⟩ :=
    evolves.settled_prefix.trans (Settling.settled_prefix depth last)
  exact ⟨rest, other, whole.symm, later.symm⟩

theorem length_settled (nonempty : first ≠ []) :
    (settled depth first).length = max 1 (first.length - depth) := by
  have positive : 0 < first.length := List.length_pos_iff.mpr nonempty
  rw [settled, List.length_take]
  omega

end Settling
