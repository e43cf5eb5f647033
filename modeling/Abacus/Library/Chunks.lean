import Mathlib.Data.List.Basic

/-!
# Input that arrives in chunks

One read delivers symbols of the first chunk only, and possibly fewer than
asked for. Reading on until enough symbols are there, or until the end, gives
the same for every division into chunks; readers that are composed of such
reads agree with the readers of the whole input.
-/

namespace Chunks

variable {β ε α γ : Type}

/-- An input in non-empty chunks. -/
structure Chunked (β : Type) where
  chunks : List (List β)
  nonempty_chunks : ∀ chunk ∈ chunks, chunk ≠ []

namespace Chunked

/-- The symbols of an input. -/
def contents (input : Chunked β) : List β := input.chunks.flatten

/-- Drop symbols off the front of the chunks. -/
def dropSymbols : Nat → List (List β) → List (List β)
  | _, [] => []
  | count, chunk :: rest =>
      if chunk.length ≤ count then dropSymbols (count - chunk.length) rest
      else chunk.drop count :: rest

/-- What is left is in non-empty chunks. -/
theorem nonempty_dropSymbols
    {chunks : List (List β)}
    (nonempty : ∀ chunk ∈ chunks, chunk ≠ [])
    (count : Nat) :
    ∀ chunk ∈ dropSymbols count chunks, chunk ≠ [] := by
  induction chunks generalizing count with
  | nil => exact nonempty
  | cons chunk rest inductionHypothesis =>
      have later := fun other member =>
        nonempty other (List.mem_cons_of_mem chunk member)
      unfold dropSymbols
      split
      · exact inductionHypothesis later _
      · rename_i longer
        intro other member
        rcases List.mem_cons.mp member with rfl | member
        · simpa using longer
        · exact later other member

/-- The input behind a number of symbols. -/
def advance (count : Nat) (input : Chunked β) : Chunked β where
  chunks := dropSymbols count input.chunks
  nonempty_chunks := nonempty_dropSymbols input.nonempty_chunks count

@[simp] theorem contents_advance (count : Nat) (input : Chunked β) :
    (input.advance count).contents = input.contents.drop count := by
  obtain ⟨chunks, nonempty⟩ := input
  change (dropSymbols count chunks).flatten = chunks.flatten.drop count
  clear nonempty
  induction chunks generalizing count with
  | nil => simp [dropSymbols]
  | cons chunk rest inductionHypothesis =>
      unfold dropSymbols
      split
      · rename_i whole
        rw [inductionHypothesis, List.flatten_cons, List.drop_append,
          List.drop_of_length_le whole, List.nil_append]
      · rename_i longer
        rw [List.flatten_cons, List.flatten_cons, List.drop_append,
          Nat.sub_eq_zero_of_le (Nat.le_of_not_le longer), List.drop_zero]

@[simp] theorem advance_zero (input : Chunked β) : input.advance 0 = input := by
  obtain ⟨chunks, nonempty⟩ := input
  cases chunks with
  | nil => rfl
  | cons chunk rest =>
      have some : ¬ chunk.length ≤ 0 := by
        simpa using nonempty chunk (by simp)
      simp only [advance, dropSymbols, if_neg some, List.drop_zero]

@[simp] theorem advance_advance
    (first second : Nat)
    (input : Chunked β) :
    (input.advance first).advance second = input.advance (first + second) := by
  obtain ⟨chunks, nonempty⟩ := input
  have chunkwise : dropSymbols second (dropSymbols first chunks) =
      dropSymbols (first + second) chunks := by
    clear nonempty
    induction chunks generalizing first with
    | nil => rfl
    | cons chunk rest inductionHypothesis =>
        by_cases whole : chunk.length ≤ first
        · have more : chunk.length ≤ first + second := by omega
          rw [dropSymbols, if_pos whole, inductionHypothesis, dropSymbols,
            if_pos more, Nat.sub_add_comm whole]
        · rw [dropSymbols, if_neg whole, dropSymbols, dropSymbols,
            List.length_drop, List.drop_drop]
          by_cases more : chunk.length ≤ first + second
          · rw [if_pos more, if_pos (by omega)]
            congr 1
            omega
          · rw [if_neg more, if_neg (by omega)]
  simp only [advance, chunkwise]

/-- One read of at most `count` symbols; it ends with the first chunk. -/
def read (count : Nat) (input : Chunked β) : List β × Chunked β :=
  match input.chunks with
  | [] => ([], input)
  | chunk :: _ => (chunk.take count, input.advance (chunk.take count).length)

/-- How many symbols one read delivers. -/
def delivered (count : Nat) (input : Chunked β) : Nat :=
  min count (input.chunks.head?.getD []).length

/-- A read delivers symbols of the front and leaves the others. -/
theorem read_eq (count : Nat) (input : Chunked β) :
    input.read count =
      (input.contents.take (input.delivered count),
        input.advance (input.delivered count)) := by
  obtain ⟨chunks, nonempty⟩ := input
  cases chunks with
  | nil => simp [read, delivered, contents]
  | cons chunk rest =>
      have inside : min count chunk.length ≤ chunk.length :=
        Nat.min_le_right count chunk.length
      have front : (chunk :: rest).flatten.take (min count chunk.length) =
          chunk.take count := by
        rw [List.flatten_cons, List.take_append_of_le_length inside,
          ← List.take_eq_take_min]
      simp only [read, delivered, contents, List.head?_cons,
        Option.getD_some, List.length_take, front]

/-- No more symbols are delivered than asked for or than there are. -/
theorem delivered_le (count : Nat) (input : Chunked β) :
    input.delivered count ≤ count ∧
      input.delivered count ≤ input.contents.length := by
  obtain ⟨chunks, nonempty⟩ := input
  cases chunks with
  | nil => simp [delivered, contents]
  | cons chunk rest =>
      simp only [delivered, contents, List.head?_cons, Option.getD_some,
        List.flatten_cons, List.length_append]
      omega

/-- Some symbol is delivered unless none is asked for or the input has
ended. -/
theorem delivered_eq_zero_iff
    {count : Nat}
    {input : Chunked β} :
    input.delivered count = 0 ↔ count = 0 ∨ input.contents = [] := by
  obtain ⟨chunks, nonempty⟩ := input
  cases chunks with
  | nil => simp [delivered, contents]
  | cons chunk rest =>
      have some : chunk ≠ [] := nonempty chunk (by simp)
      have length : chunk.length ≠ 0 := by simpa using some
      simp only [delivered, contents, List.head?_cons, Option.getD_some,
        List.flatten_cons, List.append_eq_nil_iff, some, false_and, or_false]
      omega

/-- Read on until exactly `count` symbols are there, or the input has
ended. -/
def readExactly (count : Nat) (input : Chunked β) :
    Option (List β × Chunked β) :=
  if count = 0 then some ([], input)
  else if _ : input.delivered count = 0 then none
  else
    (readExactly (count - input.delivered count)
      (input.read count).2).map fun later =>
        ((input.read count).1 ++ later.1, later.2)
termination_by count
decreasing_by
  have bound := (input.delivered_le count).1
  omega

/-- Reading exactly depends on the contents only. -/
theorem readExactly_eq (count : Nat) (input : Chunked β) :
    input.readExactly count =
      if count ≤ input.contents.length then
        some (input.contents.take count, input.advance count)
      else none := by
  fun_induction readExactly count input with
  | case1 input => simp
  | case2 count input positive ended =>
      have empty := (delivered_eq_zero_iff.mp ended).resolve_left positive
      rw [empty, if_neg (by simpa using positive)]
  | case3 count input positive some later =>
      obtain ⟨asked, there⟩ := input.delivered_le count
      rw [later, read_eq, contents_advance, List.length_drop,
        advance_advance, Nat.add_sub_cancel' asked]
      by_cases enough : count ≤ input.contents.length
      · rw [if_pos enough, if_pos (by omega), Option.map_some,
          ← List.take_add, Nat.add_sub_cancel' asked]
      · rw [if_neg enough, if_neg (by omega), Option.map_none]

/-- Read on until the input has ended; how many symbols are asked for depends
on how many have been read. -/
def readToEnd (request : Nat → Nat) (before : Nat) (input : Chunked β) :
    List β × Chunked β :=
  if _ : input.delivered (request before + 1) = 0 then ([], input)
  else
    let later := readToEnd request
      (before + input.delivered (request before + 1))
      (input.read (request before + 1)).2
    ((input.read (request before + 1)).1 ++ later.1, later.2)
termination_by input.contents.length
decreasing_by
  have bound := (input.delivered_le (request before + 1)).2
  rw [read_eq, contents_advance, List.length_drop]
  omega

/-- Reading to the end depends on the contents only. -/
theorem readToEnd_eq
    (request : Nat → Nat)
    (before : Nat)
    (input : Chunked β) :
    input.readToEnd request before =
      (input.contents, input.advance input.contents.length) := by
  fun_induction readToEnd request before input with
  | case1 before input ended =>
      have empty := (delivered_eq_zero_iff.mp ended).resolve_left (by simp)
      rw [empty, List.length_nil, advance_zero]
  | case2 before input some later inductionHypothesis =>
      have there := (input.delivered_le (request before + 1)).2
      have rest : later = (input.contents.drop
            (input.delivered (request before + 1)),
          input.advance input.contents.length) := by
        refine inductionHypothesis.trans ?_
        rw [read_eq, contents_advance, List.length_drop, advance_advance,
          Nat.add_sub_cancel' there]
      rw [rest, read_eq, List.take_append_drop]

end Chunked

/-! ## Readers -/

open Chunked (contents advance)

/-- A reader of chunks does what a reader of the whole input does: it returns
the same value and takes the same number of symbols, or fails in the same
way. -/
def Agrees (chunked : StateT (Chunked β) (Except ε) α)
    (whole : StateT (List β) (Except ε) α) : Prop :=
  ∀ input,
    (∃ value count, count ≤ input.contents.length ∧
      chunked input = .ok (value, input.advance count) ∧
      whole input.contents = .ok (value, input.contents.drop count)) ∨
    ∃ error, chunked input = .error error ∧
      whole input.contents = .error error

theorem Agrees.pure (value : α) :
    Agrees (Pure.pure value : StateT (Chunked β) (Except ε) α)
      (Pure.pure value) :=
  fun input => .inl ⟨value, 0, Nat.zero_le _,
    by rw [Chunked.advance_zero]; rfl, rfl⟩

theorem Agrees.throw (error : ε) :
    Agrees (throw error : StateT (Chunked β) (Except ε) α) (throw error) :=
  fun _ => .inr ⟨error, rfl, rfl⟩

/-- Readers in sequence. -/
theorem Agrees.bind
    {chunked : StateT (Chunked β) (Except ε) α}
    {whole : StateT (List β) (Except ε) α}
    {chunkedNext : α → StateT (Chunked β) (Except ε) γ}
    {wholeNext : α → StateT (List β) (Except ε) γ}
    (first : Agrees chunked whole)
    (second : ∀ value, Agrees (chunkedNext value) (wholeNext value)) :
    Agrees (chunked >>= chunkedNext) (whole >>= wholeNext) := by
  intro input
  simp only [Bind.bind, StateT.bind, Except.bind]
  rcases first input with
    ⟨value, count, there, read, wholeRead⟩ | ⟨error, failed, wholeFailed⟩
  · rw [read, wholeRead]
    rcases second value (input.advance count) with
      ⟨result, more, there', later, wholeLater⟩ |
        ⟨error, failed, wholeFailed⟩
    · rw [Chunked.contents_advance, List.length_drop] at there'
      rw [Chunked.contents_advance, List.drop_drop] at wholeLater
      refine .inl ⟨result, count + more, by omega, ?_, wholeLater⟩
      rw [← Chunked.advance_advance]
      exact later
    · rw [Chunked.contents_advance] at wholeFailed
      exact .inr ⟨error, failed, wholeFailed⟩
  · rw [failed, wholeFailed]
    exact .inr ⟨error, rfl, rfl⟩

/-- A reader that agrees with a reader of the whole input returns what that
returns. -/
theorem Agrees.map_fst
    {chunked : StateT (Chunked β) (Except ε) α}
    {whole : StateT (List β) (Except ε) α}
    (agrees : Agrees chunked whole)
    (input : Chunked β) :
    (chunked input).map Prod.fst = (whole input.contents).map Prod.fst := by
  rcases agrees input with
    ⟨value, count, -, read, wholeRead⟩ | ⟨error, failed, wholeFailed⟩
  · rw [read, wholeRead]
    rfl
  · rw [failed, wholeFailed]
    rfl

end Chunks
