import Mathlib.Data.List.Basic

/-!
# Byte offsets of strings

Parts of a string before and after a byte offset. An offset inside of the
encoding of a character has no parts. Strings of ASCII characters have as many
bytes as characters.
-/

namespace Utf8

/-- A byte offset stands before a character or at the end. -/
def IsBoundary (s : String) (offset : Nat) : Prop :=
  String.Pos.Raw.IsValid s ⟨offset⟩

instance decidableIsBoundary (s : String) (offset : Nat) :
    Decidable (IsBoundary s offset) :=
  inferInstanceAs (Decidable (String.Pos.Raw.IsValid s ⟨offset⟩))

/-- The part of a string before a byte offset. -/
def sliceTo (s : String) (offset : Nat) : Option String :=
  if boundary : IsBoundary s offset then
    some (s.sliceTo (s.pos ⟨offset⟩ boundary)).copy
  else none

/-- The part of a string from a byte offset on. -/
def sliceFrom (s : String) (offset : Nat) : Option String :=
  if boundary : IsBoundary s offset then
    some (s.sliceFrom (s.pos ⟨offset⟩ boundary)).copy
  else none

/-- Where two parts of a string meet, there is a boundary. -/
theorem isBoundary_append (left right : String) :
    IsBoundary (left ++ right) left.utf8ByteSize :=
  String.Pos.Raw.isValid_iff_exists_append.mpr ⟨left, right, rfl, rfl⟩

/-- At a boundary, a string has two parts. -/
theorem exists_append_of_isBoundary
    {s : String}
    {offset : Nat}
    (boundary : IsBoundary s offset) :
    ∃ left right, s = left ++ right ∧ left.utf8ByteSize = offset := by
  obtain ⟨left, right, parts, reached⟩ :=
    String.Pos.Raw.isValid_iff_exists_append.mp boundary
  exact ⟨left, right, parts, (congrArg String.Pos.Raw.byteIdx reached).symm⟩

/-- The boundary where two parts meet splits the string into these parts. -/
theorem splits_append (left right : String) :
    ((left ++ right).pos ⟨left.utf8ByteSize⟩
      (isBoundary_append left right)).Splits left right :=
  ⟨rfl, rfl⟩

/-- The part before the offset where two parts meet. -/
@[simp] theorem sliceTo_append (left right : String) :
    sliceTo (left ++ right) left.utf8ByteSize = some left := by
  rw [sliceTo, dif_pos (isBoundary_append left right),
    (String.Pos.splits _).eq_left (splits_append left right)]

/-- The part from the offset on where two parts meet. -/
@[simp] theorem sliceFrom_append (left right : String) :
    sliceFrom (left ++ right) left.utf8ByteSize = some right := by
  rw [sliceFrom, dif_pos (isBoundary_append left right),
    (String.Pos.splits _).eq_right (splits_append left right)]

/-- Inside of a character, there is no part. -/
theorem sliceTo_of_not_isBoundary
    {s : String}
    {offset : Nat}
    (inside : ¬ IsBoundary s offset) :
    sliceTo s offset = none :=
  dif_neg inside

/-- A string of one-byte characters has as many bytes as characters. -/
theorem utf8ByteSize_eq_length
    {s : String}
    (ascii : ∀ c ∈ s.toList, c.utf8Size = 1) :
    s.utf8ByteSize = s.toList.length := by
  induction s using String.push_induction with
  | empty => rfl
  | push s c inductionHypothesis =>
      rw [String.toList_push] at ascii ⊢
      have earlier := inductionHypothesis fun other member =>
        ascii other (List.mem_append_left _ member)
      have last := ascii c (List.mem_append_right _ List.mem_cons_self)
      rw [String.utf8ByteSize_push, earlier, last, List.length_append]
      rfl

end Utf8
