import Abacus.Db.HandleWrites
import Abacus.Library.KeyWalk

/-!
# The iterator over the leaves

Leaves are stored behind the name of their entity, and the iterator over the
leaves looks for keys that begin with a text of its own, without the name of
any entity. It finds no leaf that a handle has stored, unless the names of
entities happen to begin with this text, and then it stops at the latest index
that is stored beside every message.
-/

namespace Abacus

open Journal (Program WalksFrom)

/-! ## Iterators over a prefix -/

/-- The panic of `expect("!corrupt")`, with the error it shows. -/
structure Corrupt where
  error : Report

/-- An iterator over a prefix: the entries that it has not visited yet. -/
structure PrefixIterator (V : Type) where
  iter : List (List UInt8 × List UInt8)
  keyPrefix : List UInt8

namespace PrefixIterator

variable {V : Type} [Decode V]

/-- Find the next key with the prefix and decode its value. -/
def next (iterator : PrefixIterator V) :
    Except Corrupt (Option V × PrefixIterator V) :=
  match iterator.iter.dropWhile fun entry =>
      !iterator.keyPrefix.isPrefixOf entry.1 with
  | [] => .ok (none, { iterator with iter := [] })
  | (_, bytes) :: rest =>
      match readFromSlice bytes with
      | .ok value => .ok (some value, { iterator with iter := rest })
      | .error error => .error ⟨error⟩

/-- The values of an iterator that reaches its end without a panic. -/
inductive Yields : PrefixIterator V → List V → Prop
  | done {iterator rest : PrefixIterator V}
      (ended : iterator.next = .ok (none, rest)) :
      Yields iterator []
  | item {iterator rest : PrefixIterator V} {value : V} {values : List V}
      (yielded : iterator.next = .ok (some value, rest))
      (later : Yields rest values) :
      Yields iterator (value :: values)

variable {keyPrefix key : List UInt8}

/-- A key without the prefix is passed over. -/
theorem next_cons_of_not_isPrefix
    (other : ¬ keyPrefix <+: key)
    (bytes : List UInt8)
    (rest : List (List UInt8 × List UInt8)) :
    (⟨(key, bytes) :: rest, keyPrefix⟩ : PrefixIterator V).next =
      (⟨rest, keyPrefix⟩ : PrefixIterator V).next := by
  have passed : keyPrefix.isPrefixOf key = false := by
    rwa [← Bool.not_eq_true, List.isPrefixOf_iff_prefix]
  simp only [next, List.dropWhile_cons, passed, Bool.not_false, if_true]

/-- A key with the prefix is found. -/
theorem next_cons_of_isPrefix
    (found : keyPrefix <+: key)
    (bytes : List UInt8)
    (rest : List (List UInt8 × List UInt8)) :
    (⟨(key, bytes) :: rest, keyPrefix⟩ : PrefixIterator V).next =
      match readFromSlice bytes with
      | .ok value => .ok (some value, ⟨rest, keyPrefix⟩)
      | .error error => .error ⟨error⟩ := by
  have taken : keyPrefix.isPrefixOf key = true :=
    List.isPrefixOf_iff_prefix.mpr found
  simp only [next, List.dropWhile_cons, taken, Bool.not_true,
    Bool.false_eq_true, if_false]

/-- Iterators with the same next value yield the same. -/
theorem Yields.congr
    {first second : PrefixIterator V}
    (same : first.next = second.next)
    {values : List V}
    (yields : Yields first values) :
    Yields second values := by
  cases yields with
  | done ended => exact .done (same ▸ ended)
  | item yielded later => exact .item (same ▸ yielded) later

/-- An iterator yields the decoded values of the entries with its prefix. -/
theorem yields_iff
    {entries : List (List UInt8 × List UInt8)}
    {values : List V} :
    Yields ⟨entries, keyPrefix⟩ values ↔
      List.Forall₂ (fun entry value => readFromSlice entry.2 = .ok value)
        (entries.filter fun entry => keyPrefix.isPrefixOf entry.1) values := by
  induction entries generalizing values with
  | nil =>
      rw [List.filter_nil, List.forall₂_nil_left_iff]
      constructor
      · intro yields
        cases yields with
        | done ended => rfl
        | item yielded later => cases yielded
      · rintro rfl
        exact .done rfl
  | cons entry rest inductionHypothesis =>
      obtain ⟨key, bytes⟩ := entry
      by_cases found : keyPrefix <+: key
      · have step := next_cons_of_isPrefix (V := V) found bytes rest
        rw [List.filter_cons,
          if_pos (List.isPrefixOf_iff_prefix.mpr found),
          List.forall₂_cons_left_iff]
        constructor
        · intro yields
          cases yields with
          | done ended =>
              rw [step] at ended
              split at ended <;> cases ended
          | item yielded later =>
              rw [step] at yielded
              split at yielded
              · rename_i decoded
                cases yielded
                exact ⟨_, _, decoded, inductionHypothesis.mp later, rfl⟩
              · cases yielded
        · rintro ⟨value, values, decoded, later, rfl⟩
          refine .item ?_ (inductionHypothesis.mpr later)
          rw [step, decoded]
      · have same := next_cons_of_not_isPrefix (V := V) found bytes rest
        rw [List.filter_cons,
          if_neg (mt List.isPrefixOf_iff_prefix.mp found),
          ← inductionHypothesis]
        exact ⟨Yields.congr same, Yields.congr same.symm⟩

/-- Every entry with the prefix has been decoded. -/
theorem Yields.exists_decoded
    {entries : List (List UInt8 × List UInt8)}
    {values : List V}
    (yields : Yields ⟨entries, keyPrefix⟩ values)
    {bytes : List UInt8}
    (begins : keyPrefix <+: key)
    (member : (key, bytes) ∈ entries) :
    ∃ value ∈ values, readFromSlice bytes = .ok value := by
  have decoded := yields_iff.mp yields
  have found : (key, bytes) ∈ entries.filter
      fun entry => keyPrefix.isPrefixOf entry.1 :=
    List.mem_filter.mpr ⟨member, List.isPrefixOf_iff_prefix.mpr begins⟩
  obtain ⟨position, inside, same⟩ := List.mem_iff_getElem.mp found
  have insideValues : position < values.length := decoded.length_eq ▸ inside
  refine ⟨values[position], List.getElem_mem insideValues, ?_⟩
  have read := decoded.get inside insideValues
  rwa [List.get_eq_getElem, same] at read

end PrefixIterator

/-! ## The keys it finds -/

namespace DbHandle

/-- `LEAF_IDX`: what the iterator over the leaves looks for. -/
def leafIdxPrefix : List UInt8 := utf8 "leaf_index_"

/-- Iterate over all leaves. The shared store is walked from the prefix, and
the name of an entity plays no part. -/
def leafIterator
    (prefixIterator : List UInt8 → List (List UInt8 × List UInt8)) :
    PrefixIterator H256 :=
  ⟨prefixIterator leafIdxPrefix, leafIdxPrefix⟩

variable (db : DbHandle)

/-- The name of an entity, with the underscore behind it, begins with the
prefix of the iterator. -/
def IsLeafIndex : Prop := leafIdxPrefix <+: utf8 db.entity ++ [95]

instance : Decidable db.IsLeafIndex :=
  inferInstanceAs (Decidable (_ <+: _))

/-- No key of a record begins as `index_` does. -/
theorem head_key_ne (key : Record) :
    (key.keyPrefix ++ key.keyBytes).head? ≠ some 105 := by
  have heads : ∀ {front : List UInt8} {byte : UInt8} (rest : List UInt8),
      front.head? = some byte → byte ≠ 105 →
        (front ++ rest).head? ≠ some 105 := by
    intro front byte rest head different same
    rw [List.head?_append, head] at same
    exact different (Option.some.inj same)
  cases key with
  | leaf leafIndex =>
      exact heads _ (show leafPrefix.head? = some 108 by decide) (by decide)
  | proof leafIndex =>
      exact heads _ (show proofPrefix.head? = some 112 by decide) (by decide)
  | message hash =>
      exact heads _ (show messagePrefix.head? = some 109 by decide)
        (by decide)
  | latestLeafIndexForDestination destination =>
      exact heads _ (show latestLeafIndexForDestinationPrefix.head? = some 108
        by decide) (by decide)
  | leafProcessStatus leafIndex =>
      exact heads _ (show leafProcessStatusPrefix.head? = some 108 by decide)
        (by decide)
  | gasPaymentForLeaf leafIndex =>
      exact heads _ (show gasPaymentForLeafPrefix.head? = some 103 by decide)
        (by decide)
  | gasPaymentMetaProcessed paymentMeta =>
      exact heads _ (show gasPaymentMetaProcessedPrefix.head? = some 103
        by decide) (by decide)
  | latestLeafIndex => decide
  | latestValidMessageRangeStartBlock => decide
  | latestIndexedGasPaymentBlock => decide

/-- A key of a record begins with the prefix of the iterator only if the name
of the entity does. -/
theorem isPrefix_key_iff (key : Record) :
    leafIdxPrefix <+: db.fullPrefix key.keyPrefix ++ key.keyBytes ↔
      db.IsLeafIndex := by
  have split : db.fullPrefix key.keyPrefix ++ key.keyBytes =
      (utf8 db.entity ++ [95]) ++ (key.keyPrefix ++ key.keyBytes) := by
    simp [TypedDB.fullPrefix]
  rw [split]
  constructor
  · intro begins
    by_contra other
    have name : utf8 db.entity ++ [95] <+: leafIdxPrefix := by
      by_contra longer
      exact (List.prefix_or_prefix_of_prefix begins
        (List.prefix_append _ _)).elim other longer
    -- The only underscore of the text in front of its last byte is the fifth.
    have fifth : ∀ length < 11,
        (leafIdxPrefix.take length).getLast? = some 95 → length = 5 := by
      decide
    have short : (utf8 db.entity ++ [95]).length < 11 := by
      by_contra long
      have whole := name.eq_of_length_le (Nat.not_lt.mp long)
      exact other (show leafIdxPrefix <+: _ from whole ▸ List.prefix_rfl)
    have front := List.prefix_iff_eq_take.mp name
    have five := fifth _ short (by rw [← front, List.getLast?_concat])
    rw [five] at front
    obtain ⟨rest, same⟩ := begins
    rw [front] at same
    have parts : leafIdxPrefix = leafIdxPrefix.take 5 ++ utf8 "index_" := by
      decide
    rw [parts, List.append_assoc, ← parts] at same
    apply head_key_ne key
    rw [← List.append_cancel_left same]
    rfl
  · intro begins
    exact begins.trans (List.prefix_append _ _)

/-- The name of an entity without underscores does not begin with the
prefix. -/
theorem not_isLeafIndex_of_plain
    {db : DbHandle}
    (plain : 95 ∉ utf8 db.entity) :
    ¬ db.IsLeafIndex := by
  rintro ⟨rest, same⟩
  have parts : leafIdxPrefix = utf8 "leaf" ++ 95 :: utf8 "index_" := by
    decide
  rw [parts, List.append_assoc, List.cons_append] at same
  have nothing : utf8 "index_" ++ rest = [] :=
    (Bytes.append_separator_inj (by decide) plain same).2
  exact absurd (List.append_eq_nil_iff.mp nothing).1 (by decide)

end DbHandle

end Abacus
