import Abacus.Library.Journal
import Mathlib.Data.List.Dedup
import Mathlib.Data.List.Sort

/-!
# Walks over a keyed store

An ordered store is read by walking its entries in the order of their keys,
from the first key that is not below a given one. A store with finitely many
keys has such a walk, and every program keeps the number of keys finite.
-/

namespace Journal

universe u

variable {Key : Type u} {Content : Type}

/-- All keys of a store are among those of a list. -/
def KeysAmong (keys : List Key) (store : Store Key fun _ => Content) : Prop :=
  ∀ key, (store key).isSome → key ∈ keys

theorem keysAmong_empty :
    KeysAmong [] (empty : Store Key fun _ => Content) := by
  intro key present
  cases present

/-- A replay adds the keys of its puts. -/
theorem KeysAmong.replay [DecidableEq Key]
    {keys : List Key}
    {store : Store Key fun _ => Content}
    (among : KeysAmong keys store)
    (puts : List (Put Key fun _ => Content)) :
    KeysAmong (keys ++ puts.map Put.key) (replay store puts) := by
  intro key present
  by_cases written : key ∈ puts.map Put.key
  · exact List.mem_append_right keys written
  · have different : ∀ put ∈ puts, key ≠ put.key := by
      rintro put member rfl
      exact written (List.mem_map_of_mem member)
    rw [replay_of_forall_ne store puts different] at present
    exact List.mem_append_left _ (among key present)

variable [LT Key] [LE Key]

/-- The entries from a key on, in the order of their keys. -/
structure WalksFrom (start : Key) (store : Store Key fun _ => Content)
    (entries : List (Key × Content)) : Prop where
  ascending : entries.Pairwise fun earlier later => earlier.1 < later.1
  mem_iff : ∀ key content,
    (key, content) ∈ entries ↔ start ≤ key ∧ store key = some content

variable [Std.IsLinearOrder Key] [Std.LawfulOrderLT Key] [DecidableLE Key]

/-- Keys without repetitions, sorted. -/
theorem pairwise_lt_mergeSort {keys : List Key} (distinct : keys.Nodup) :
    (keys.mergeSort fun left right => decide (left ≤ right)).Pairwise
      (· < ·) := by
  have sorted : (keys.mergeSort fun left right =>
      decide (left ≤ right)).Pairwise fun left right =>
        decide (left ≤ right) = true := by
    apply List.pairwise_mergeSort
    · intro left middle right first second
      simp only [decide_eq_true_eq] at first second ⊢
      exact Std.le_trans first second
    · intro left right
      simpa using Std.le_total
  have distinctSorted : (keys.mergeSort fun left right =>
      decide (left ≤ right)).Pairwise (· ≠ ·) :=
    (List.mergeSort_perm keys _).nodup_iff.mpr distinct
  refine (sorted.and distinctSorted).imp ?_
  rintro left right ⟨below, different⟩
  exact Std.lt_of_le_of_ne (of_decide_eq_true below) different

/-- A store with finitely many keys can be walked from every key. -/
theorem exists_walksFrom [DecidableEq Key]
    {keys : List Key}
    {store : Store Key fun _ => Content}
    (among : KeysAmong keys store)
    (start : Key) :
    ∃ entries, WalksFrom start store entries := by
  let entryAt (key : Key) : Option (Key × Content) :=
    if start ≤ key then (store key).map (Prod.mk key) else none
  have entryAt_iff : ∀ key entry, entryAt key = some entry ↔
      entry.1 = key ∧ start ≤ key ∧ store key = some entry.2 := by
    rintro key ⟨own, content⟩
    by_cases above : start ≤ key <;>
      simp [entryAt, above, and_comm, eq_comm]
  refine ⟨(keys.dedup.mergeSort fun left right =>
    decide (left ≤ right)).filterMap entryAt, ?_, ?_⟩
  · refine (pairwise_lt_mergeSort keys.nodup_dedup).filterMap entryAt ?_
    intro left right below first firstAt second secondAt
    rw [((entryAt_iff _ _).mp firstAt).1, ((entryAt_iff _ _).mp secondAt).1]
    exact below
  · intro key content
    rw [List.mem_filterMap]
    constructor
    · rintro ⟨own, -, at_own⟩
      obtain ⟨rfl, found⟩ := (entryAt_iff _ _).mp at_own
      exact found
    · rintro ⟨above, found⟩
      refine ⟨key, ?_, (entryAt_iff _ _).mpr ⟨rfl, above, found⟩⟩
      rw [List.mem_mergeSort, List.mem_dedup]
      exact among key (by simp [found])

end Journal
