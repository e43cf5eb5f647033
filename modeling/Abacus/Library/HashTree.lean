import Mathlib.Data.List.Basic
import Mathlib.Data.Set.Function
import Mathlib.Tactic.Ring

/-!
# Perfect hash trees over an arbitrary node operation

A perfect binary tree of a given height is described by its leaf function
alone. This module computes its root, the roots of its aligned subtrees, and
the value obtained by climbing from a leaf along a list of siblings, and shows
when that climb reaches the root. Nothing is assumed of the node operation
except, in the uniqueness results, that it is injective on the pairs which the
tree and the climb are made of.
-/

namespace HashTree

universe u

variable {α : Type u} (node : α → α → α)

/-- Root of the perfect tree of a given height over the leaves
`leaf 0, ..., leaf (2 ^ height - 1)`. -/
def root : Nat → (Nat → α) → α
  | 0, leaf => leaf 0
  | height + 1, leaf =>
      node (root height leaf)
        (root height fun position => leaf (2 ^ height + position))

/-- Root of the aligned subtree number `index` at a given height. -/
def subtree (leaf : Nat → α) (height index : Nat) : α :=
  root node height fun position => leaf (index * 2 ^ height + position)

/-- Leaf function of a list, completed on the right by a padding leaf. -/
def pad (padding : α) (leaves : List α) (position : Nat) : α :=
  leaves.getD position padding

/-- The other child of the parent of a node. -/
def neighbour (index : Nat) : Nat :=
  if index % 2 = 1 then index - 1 else index + 1

/-- Roots of the subtrees met as siblings on the way up from a position,
lowest level first. -/
def siblings (leaf : Nat → α) (height position : Nat) : List α :=
  (List.range height).map fun level =>
    subtree node leaf level (neighbour (position / 2 ^ level))

/-- Climb from a value along a list of siblings, lowest level first. The bits
of the index choose the side of each sibling. -/
def climb (value : α) : List α → Nat → α
  | [], _ => value
  | sibling :: rest, index =>
      climb
        (if index % 2 = 1 then node sibling value else node value sibling)
        rest (index / 2)

/-- The pairs that a climb is made of, lowest level first. -/
def climbed (value : α) : List α → Nat → List (α × α)
  | [], _ => []
  | sibling :: rest, index =>
      if index % 2 = 1 then
        (sibling, value) :: climbed (node sibling value) rest (index / 2)
      else
        (value, sibling) :: climbed (node value sibling) rest (index / 2)

/-- The pairs that the inner nodes of a tree are made of belong to a set. -/
def Builds (hashed : Set (α × α)) (leaf : Nat → α) (height : Nat) : Prop :=
  ∀ level < height, ∀ index < 2 ^ (height - (level + 1)),
    (subtree node leaf level (2 * index),
      subtree node leaf level (2 * index + 1)) ∈ hashed

/-! ## Roots and subtrees -/

@[simp] theorem root_zero (leaf : Nat → α) : root node 0 leaf = leaf 0 := rfl

theorem root_succ (height : Nat) (leaf : Nat → α) :
    root node (height + 1) leaf =
      node (root node height leaf)
        (root node height fun position => leaf (2 ^ height + position)) := rfl

/-- The root depends only on the leaves below the capacity. -/
theorem root_congr
    (height : Nat)
    {left right : Nat → α}
    (agree : ∀ position, position < 2 ^ height →
      left position = right position) :
    root node height left = root node height right := by
  induction height generalizing left right with
  | zero => exact agree 0 (by simp)
  | succ height inductionHypothesis =>
      have capacity : 2 ^ (height + 1) = 2 ^ height + 2 ^ height := by ring
      rw [root_succ, root_succ,
        inductionHypothesis fun position below =>
          agree position (by omega),
        inductionHypothesis fun position below =>
          agree (2 ^ height + position) (by omega)]

@[simp] theorem subtree_zero (leaf : Nat → α) (index : Nat) :
    subtree node leaf 0 index = leaf index := by
  simp [subtree]

@[simp] theorem subtree_first (leaf : Nat → α) (height : Nat) :
    subtree node leaf height 0 = root node height leaf := by
  simp [subtree]

/-- A subtree is the node over its two halves. -/
theorem subtree_succ (leaf : Nat → α) (height index : Nat) :
    subtree node leaf (height + 1) index =
      node (subtree node leaf height (2 * index))
        (subtree node leaf height (2 * index + 1)) := by
  have leftStart : index * 2 ^ (height + 1) = 2 * index * 2 ^ height := by
    ring
  have rightStart (position : Nat) :
      2 * index * 2 ^ height + (2 ^ height + position) =
        (2 * index + 1) * 2 ^ height + position := by
    ring
  simp only [subtree, root_succ, leftStart, rightStart]

/-- A subtree depends only on the leaves of its own range. -/
theorem subtree_congr
    {left right : Nat → α}
    (height index : Nat)
    (agree : ∀ position, position < (index + 1) * 2 ^ height →
      left position = right position) :
    subtree node left height index = subtree node right height index := by
  apply root_congr
  intro position below
  apply agree
  rw [Nat.add_mul, Nat.one_mul]
  omega

/-- A subtree of the right half, seen from the whole tree. -/
theorem subtree_shift (leaf : Nat → α) (height level half index : Nat)
    (below : level ≤ height) :
    subtree node (fun position => leaf (half * 2 ^ height + position))
        level index =
      subtree node leaf level (half * 2 ^ (height - level) + index) := by
  have split : 2 ^ height = 2 ^ (height - level) * 2 ^ level := by
    rw [← Nat.pow_add, Nat.sub_add_cancel below]
  have start (position : Nat) :
      half * 2 ^ height + (index * 2 ^ level + position) =
        (half * 2 ^ (height - level) + index) * 2 ^ level + position := by
    rw [split]
    ring
  simp only [subtree, start]

/-! ## Padding -/

/-- Padding beyond the list. -/
theorem pad_of_length_le
    (padding : α)
    {leaves : List α}
    {position : Nat}
    (beyond : leaves.length ≤ position) :
    pad padding leaves position = padding := by
  simp [pad, List.getElem?_eq_none beyond]

/-- The leaves of a list are read in order. -/
theorem pad_of_lt
    (padding : α)
    (leaves : List α)
    {position : Nat}
    (below : position < leaves.length) :
    pad padding leaves position = leaves[position] := by
  simp [pad, List.getElem?_eq_getElem below]

/-- Appending a leaf changes no earlier leaf. -/
theorem pad_append_of_lt
    (padding : α)
    (leaves more : List α)
    {position : Nat}
    (below : position < leaves.length) :
    pad padding (leaves ++ more) position = pad padding leaves position := by
  simp [pad, List.getElem?_append_left below]

/-- An appended leaf stands right after the earlier ones. -/
@[simp] theorem pad_append_length
    (padding value : α)
    (leaves : List α) :
    pad padding (leaves ++ [value]) leaves.length = value := by
  simp [pad]

/-- Padding that is written out changes nothing. -/
theorem pad_append_replicate
    (padding : α)
    (leaves : List α)
    (more : Nat) :
    pad padding (leaves ++ List.replicate more padding) =
      pad padding leaves := by
  funext position
  rcases Nat.lt_or_ge position leaves.length with below | beyond
  · exact pad_append_of_lt padding leaves _ below
  · rw [pad_of_length_le padding beyond, pad, List.getD_eq_getElem?_getD,
      List.getElem?_append_right beyond, List.getElem?_replicate]
    split <;> rfl

/-- The first half of a list, when the whole list need not fit in it. -/
theorem root_pad_take
    (padding : α)
    (leaves : List α)
    (height : Nat) :
    root node height (pad padding (leaves.take (2 ^ height))) =
      root node height (pad padding leaves) := by
  apply root_congr
  intro position below
  simp [pad, List.getElem?_take_of_lt below]

/-- The remaining leaves, read from the capacity on. -/
theorem pad_drop
    (padding : α)
    (leaves : List α)
    (start : Nat) :
    pad padding (leaves.drop start) =
      fun position => pad padding leaves (start + position) := by
  funext position
  simp [pad]

/-- The root over a padded list, split at half of the capacity. -/
theorem root_pad_succ
    (padding : α)
    (leaves : List α)
    (height : Nat) :
    root node (height + 1) (pad padding leaves) =
      node
        (root node height (pad padding (leaves.take (2 ^ height))))
        (root node height (pad padding (leaves.drop (2 ^ height)))) := by
  rw [root_succ, root_pad_take, pad_drop]

/-- A subtree that starts beyond the list holds padding only. -/
theorem subtree_pad_of_length_le
    (padding : α)
    {leaves : List α}
    {height index : Nat}
    (beyond : leaves.length ≤ index * 2 ^ height) :
    subtree node (pad padding leaves) height index =
      root node height (pad padding []) := by
  apply root_congr
  intro position _
  rw [pad_of_length_le padding (by omega), pad_of_length_le padding (by simp)]

/-! ## Frontiers -/

/-- The slots of a frontier, one for each level from `level` on, where `count`
subtrees of the first level are complete: whenever the number of complete
subtrees of a level is odd, its slot holds the last of them. -/
def Frontier (leaf : Nat → α) : Nat → List α → Nat → Prop
  | _, [], _ => True
  | level, slot :: slots, count =>
      (count % 2 = 1 → slot = subtree node leaf level (count - 1)) ∧
        Frontier leaf (level + 1) slots (count / 2)

/-- A frontier depends only on the leaves of its complete subtrees. -/
theorem Frontier.congr
    {left right : Nat → α}
    {level count : Nat}
    {slots : List α}
    (agree : ∀ position, position < count * 2 ^ level →
      left position = right position)
    (frontier : Frontier node left level slots count) :
    Frontier node right level slots count := by
  induction slots generalizing level count with
  | nil => trivial
  | cons slot slots inductionHypothesis =>
      obtain ⟨held, rest⟩ := frontier
      refine ⟨fun odd => ?_, inductionHypothesis ?_ rest⟩
      · rw [held odd]
        apply subtree_congr
        rwa [Nat.sub_add_cancel (by omega)]
      · intro position below
        apply agree
        have shrink : count / 2 * 2 ^ (level + 1) ≤ count * 2 ^ level := by
          rw [Nat.pow_succ', ← Nat.mul_assoc]
          exact Nat.mul_le_mul_right _ (Nat.div_mul_le_self count 2)
        omega

/-- Any slots form a frontier without leaves. -/
theorem Frontier.zero (leaf : Nat → α) (level : Nat) (slots : List α) :
    Frontier node leaf level slots 0 := by
  induction slots generalizing level with
  | nil => trivial
  | cons slot slots inductionHypothesis =>
      exact ⟨by simp, inductionHypothesis (level + 1)⟩

/-! ## Climbing -/

/-- Neighbours stay in place when an even number of nodes is inserted to their
left. -/
theorem neighbour_even_add (half index : Nat) :
    neighbour (2 * half + index) = 2 * half + neighbour index := by
  unfold neighbour
  split <;> split <;> omega

@[simp] theorem climb_nil (value : α) (index : Nat) :
    climb node value [] index = value := rfl

/-- The low bits of an index, split at the lowest one. -/
private theorem mod_two_pow_succ (index count : Nat) :
    index % 2 ^ (count + 1) % 2 = index % 2 ∧
      index % 2 ^ (count + 1) / 2 = index / 2 % 2 ^ count := by
  rw [Nat.pow_succ, Nat.mul_comm]
  exact ⟨Nat.mod_mul_right_mod index 2 _, Nat.mod_mul_right_div_self index 2 _⟩

/-- Only the low bits of the index choose sides. -/
theorem climb_mod (value : α) (branch : List α) (index : Nat) :
    climb node value branch (index % 2 ^ branch.length) =
      climb node value branch index := by
  induction branch generalizing value index with
  | nil => rfl
  | cons sibling rest inductionHypothesis =>
      obtain ⟨side, above⟩ := mod_two_pow_succ index rest.length
      rw [climb, climb, List.length_cons, side, above, inductionHypothesis]

/-- The pairs of a climb depend on the low bits only. -/
theorem climbed_mod (value : α) (branch : List α) (index : Nat) :
    climbed node value branch (index % 2 ^ branch.length) =
      climbed node value branch index := by
  induction branch generalizing value index with
  | nil => rfl
  | cons sibling rest inductionHypothesis =>
      obtain ⟨side, above⟩ := mod_two_pow_succ index rest.length
      rw [climbed, climbed, List.length_cons, side, above,
        inductionHypothesis, inductionHypothesis]

/-- The siblings met from one level on, seen from the next level. -/
private theorem map_siblings_succ
    (leaf : Nat → α)
    (level index count : Nat) :
    (List.range (count + 1)).map (fun step =>
        subtree node leaf (level + step) (neighbour (index / 2 ^ step))) =
      subtree node leaf level (neighbour index) ::
        (List.range count).map (fun step =>
          subtree node leaf (level + 1 + step)
            (neighbour (index / 2 / 2 ^ step))) := by
  rw [List.range_succ_eq_map, List.map_cons, List.map_map]
  congr 1
  · simp
  · apply List.map_congr_left
    intro step _
    simp only [Function.comp_apply, Nat.succ_eq_add_one]
    congr 1
    · omega
    · rw [Nat.div_div_eq_div_mul, Nat.pow_succ, Nat.mul_comm (2 ^ step)]

/-- Climbing along the true siblings reaches the enclosing subtree. -/
theorem climb_siblings_from
    (leaf : Nat → α)
    (level index count : Nat) :
    climb node (subtree node leaf level index)
        ((List.range count).map fun step =>
          subtree node leaf (level + step) (neighbour (index / 2 ^ step)))
        index =
      subtree node leaf (level + count) (index / 2 ^ count) := by
  induction count generalizing level index with
  | zero => simp
  | succ count inductionHypothesis =>
      have parent :
          (if index % 2 = 1 then
              node (subtree node leaf level (neighbour index))
                (subtree node leaf level index)
            else
              node (subtree node leaf level index)
                (subtree node leaf level (neighbour index))) =
            subtree node leaf (level + 1) (index / 2) := by
        rw [subtree_succ]
        unfold neighbour
        split
        · rw [show 2 * (index / 2) + 1 = index by omega,
            show 2 * (index / 2) = index - 1 by omega]
        · rw [show 2 * (index / 2) = index by omega]
      rw [map_siblings_succ, climb, parent, inductionHypothesis,
        Nat.div_div_eq_div_mul, Nat.pow_succ, Nat.mul_comm (2 ^ count)]
      congr 1
      omega

/-- If the node operation is injective on the pairs of the climb and of the
tree, the enclosing subtree determines both the starting value and every
sibling. -/
theorem eq_of_climb_eq_subtree
    {hashed : Set (α × α)}
    (injective : Set.InjOn (Function.uncurry node) hashed)
    (leaf : Nat → α)
    (branch : List α)
    (value : α)
    (level index : Nat)
    (builds : ∀ step < branch.length,
      (subtree node leaf (level + step) (2 * (index / 2 ^ (step + 1))),
        subtree node leaf (level + step) (2 * (index / 2 ^ (step + 1)) + 1)) ∈
          hashed)
    (climbs : ∀ pair ∈ climbed node value branch index, pair ∈ hashed)
    (reached : climb node value branch index =
      subtree node leaf (level + branch.length)
        (index / 2 ^ branch.length)) :
    value = subtree node leaf level index ∧
      branch = (List.range branch.length).map fun step =>
        subtree node leaf (level + step) (neighbour (index / 2 ^ step)) := by
  induction branch generalizing value level index with
  | nil => simpa using reached
  | cons sibling rest inductionHypothesis =>
      have above (count : Nat) : index / 2 / 2 ^ count =
          index / 2 ^ (count + 1) := by
        rw [Nat.div_div_eq_div_mul, Nat.pow_succ, Nat.mul_comm (2 ^ count)]
      have built : (subtree node leaf level (2 * (index / 2)),
          subtree node leaf level (2 * (index / 2) + 1)) ∈ hashed := by
        simpa using builds 0 (by simp)
      have shifted : ∀ step < rest.length,
          (subtree node leaf (level + 1 + step)
              (2 * (index / 2 / 2 ^ (step + 1))),
            subtree node leaf (level + 1 + step)
              (2 * (index / 2 / 2 ^ (step + 1)) + 1)) ∈ hashed := by
        intro step below
        rw [above, Nat.add_assoc, Nat.add_comm 1 step]
        exact builds (step + 1) (by simpa using below)
      have onward : ∀ pair ∈ climbed node
          (if index % 2 = 1 then node sibling value else node value sibling)
          rest (index / 2), pair ∈ hashed := by
        intro pair member
        apply climbs
        rw [climbed]
        by_cases odd : index % 2 = 1
        · rw [if_pos odd] at member ⊢
          exact List.mem_cons_of_mem _ member
        · rw [if_neg odd] at member ⊢
          exact List.mem_cons_of_mem _ member
      rw [climb, List.length_cons, ← above, ← Nat.add_assoc,
        Nat.add_right_comm] at reached
      obtain ⟨parent, restEq⟩ :=
        inductionHypothesis _ (level + 1) (index / 2) shifted onward reached
      rw [subtree_succ] at parent
      rw [List.length_cons, map_siblings_succ, ← restEq]
      by_cases odd : index % 2 = 1
      · rw [climbed, if_pos odd] at climbs
        rw [if_pos odd] at parent
        obtain ⟨siblingEq, valueEq⟩ := Prod.mk.inj
          (injective (climbs _ List.mem_cons_self) built parent)
        refine ⟨?_, ?_⟩
        · rw [valueEq, show 2 * (index / 2) + 1 = index by omega]
        · rw [siblingEq, neighbour, if_pos odd,
            show 2 * (index / 2) = index - 1 by omega]
      · rw [climbed, if_neg odd] at climbs
        rw [if_neg odd] at parent
        obtain ⟨valueEq, siblingEq⟩ := Prod.mk.inj
          (injective (climbs _ List.mem_cons_self) built parent)
        refine ⟨?_, ?_⟩
        · rw [valueEq, show 2 * (index / 2) = index by omega]
        · rw [siblingEq, neighbour, if_neg odd,
            show 2 * (index / 2) = index by omega]

@[simp] theorem length_siblings (leaf : Nat → α) (height position : Nat) :
    (siblings node leaf height position).length = height := by
  simp [siblings]

/-- Climbing from a leaf along its siblings reaches the root. -/
theorem climb_siblings
    (leaf : Nat → α)
    {height position : Nat}
    (below : position < 2 ^ height) :
    climb node (leaf position) (siblings node leaf height position)
        position =
      root node height leaf := by
  have reached := climb_siblings_from node leaf 0 position height
  simp only [subtree_zero, Nat.zero_add,
    Nat.div_eq_of_lt below, subtree_first] at reached
  exact reached

/-- If the node operation is injective on the pairs of the climb and of the
tree, the climb reaches the root exactly if it is the one from a leaf along its
own siblings. -/
theorem climb_eq_root_iff
    {hashed : Set (α × α)}
    (injective : Set.InjOn (Function.uncurry node) hashed)
    (leaf : Nat → α)
    (value : α)
    (branch : List α)
    (index : Nat)
    (builds : Builds node hashed leaf branch.length)
    (climbs : ∀ pair ∈ climbed node value branch index, pair ∈ hashed) :
    climb node value branch index = root node branch.length leaf ↔
      value = leaf (index % 2 ^ branch.length) ∧
        branch = siblings node leaf branch.length
          (index % 2 ^ branch.length) := by
  have below : index % 2 ^ branch.length < 2 ^ branch.length :=
    Nat.mod_lt _ (Nat.two_pow_pos _)
  constructor
  · intro reached
    rw [← climb_mod, ← subtree_first] at reached
    rw [← climbed_mod] at climbs
    have unique := eq_of_climb_eq_subtree node injective leaf branch value 0
      (index % 2 ^ branch.length) ?_ climbs
      (by simpa [Nat.div_eq_of_lt below] using reached)
    · simpa [siblings] using unique
    · intro step inside
      rw [Nat.zero_add]
      apply builds step inside
      rw [Nat.div_lt_iff_lt_mul (Nat.two_pow_pos _), ← Nat.pow_add,
        Nat.sub_add_cancel inside]
      exact below
  · rintro ⟨valueEq, branchEq⟩
    rw [← climb_mod, valueEq]
    conv_lhs => arg 3; rw [branchEq]
    exact climb_siblings node leaf below

/-- The siblings of a position, split at the top level. -/
theorem siblings_succ
    (leaf : Nat → α)
    (height position : Nat) :
    siblings node leaf (height + 1) position =
      siblings node
          (fun offset =>
            leaf (position / 2 ^ height * 2 ^ height + offset))
          height (position % 2 ^ height) ++
        [subtree node leaf height (neighbour (position / 2 ^ height))] := by
  rw [siblings, List.range_succ, List.map_append, List.map_singleton]
  congr 1
  apply List.map_congr_left
  intro level member
  have levelBelow : level < height := List.mem_range.mp member
  rw [subtree_shift node leaf height level _ _ levelBelow.le]
  have powers : 2 ^ height = 2 ^ level * (2 * 2 ^ (height - level - 1)) := by
    rw [← Nat.pow_succ', ← Nat.pow_add]
    congr 1
    omega
  have halfPower : 2 ^ (height - level) = 2 * 2 ^ (height - level - 1) := by
    rw [← Nat.pow_succ']
    congr 1
    omega
  have quotient : position / 2 ^ level =
      position / 2 ^ height * 2 ^ (height - level) +
        position % 2 ^ height / 2 ^ level := by
    have decomposition := Nat.div_add_mod position (2 ^ height)
    conv_lhs => rw [← decomposition]
    rw [show 2 ^ height * (position / 2 ^ height) =
        2 ^ level * (position / 2 ^ height * 2 ^ (height - level)) by
      rw [halfPower, powers]; ring,
      Nat.mul_add_div (Nat.two_pow_pos level)]
  have even : position / 2 ^ height * 2 ^ (height - level) =
      2 * (position / 2 ^ height * 2 ^ (height - level - 1)) := by
    rw [halfPower]
    ring
  rw [quotient, even, neighbour_even_add]

end HashTree
