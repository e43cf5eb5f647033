import Abacus.Core.Primitives
import Abacus.Library.Hex
import Abacus.Library.Utf8

/-!
# Hex strings

Strings of a fixed number of hexadecimal digits, as private keys are given in
the settings. A leading `0x` is removed by slicing the string at byte offset
two, which panics if that offset is inside of a character.
-/

namespace Abacus

open Utf8 (IsBoundary sliceTo sliceFrom)

/-- A string of a fixed number of bytes. -/
structure HexString (n : Nat) where
  text : String
  utf8ByteSize_text : text.utf8ByteSize = n
  deriving DecidableEq

/-- Remove a leading `0x`. No result stands for a panic of a slice. -/
def strip0xPrefix (s : String) : Option String :=
  if s.utf8ByteSize < 2 then some s
  else do
    let start ← sliceTo s 2
    if start ≠ "0x" then some s else sliceFrom s 2

namespace HexString

variable {n : Nat}

/-- A hex string from a candidate, with or without a leading `0x`, given the
decoder of hexadecimal strings. No result stands for a panic. -/
def fromString (decode : String → Option (List UInt8)) (candidate : String) :
    Option (Except Report (HexString n)) := do
  let s ← strip0xPrefix candidate
  if size : s.utf8ByteSize = n then
    if (decode s).isNone then
      return .error (.message "String is not hex")
    return .ok ⟨s, size⟩
  else
    return .error (.message ("Expected string of length " ++ toString n ++
      ", got " ++ toString s.utf8ByteSize))

/-! ## Grammar -/

/-- A string without a leading `0x`. -/
def without0x (s : String) : String :=
  match s.toList with
  | '0' :: 'x' :: rest => String.ofList rest
  | _ => s

/-- A number of hexadecimal digits, in pairs. -/
structure IsHex (n : Nat) (text : String) : Prop where
  even : Even n
  length : text.toList.length = n
  digits : ∀ c ∈ text.toList, c.isHexDigit

/-- A decoder accepts exactly the pairs of hexadecimal digits. -/
def DecodesHex (decode : String → Option (List UInt8)) : Prop :=
  ∀ text, (decode text).isSome ↔
    Even text.toList.length ∧ ∀ c ∈ text.toList, c.isHexDigit

@[simp] theorem without0x_append (rest : String) :
    without0x ("0x" ++ rest) = rest := by
  rw [without0x, String.toList_append]
  exact String.ofList_toList

theorem without0x_of_forall_ne
    {s : String}
    (bare : ∀ rest, s ≠ "0x" ++ rest) :
    without0x s = s := by
  unfold without0x
  split
  · rename_i rest starts
    refine absurd ?_ (bare (String.ofList rest))
    rw [← String.toList_inj, starts, String.toList_append,
      String.toList_ofList (l := rest)]
    rfl
  · rfl

/-- A number of digits has as many bytes. -/
theorem utf8ByteSize_of_digits
    {text : String}
    (digits : ∀ c ∈ text.toList, c.isHexDigit) :
    text.utf8ByteSize = text.toList.length :=
  Utf8.utf8ByteSize_eq_length fun c member =>
    Hex.utf8Size_of_isHexDigit (digits c member)

/-- A decoder accepts the digits of its length. -/
theorem isHex_iff
    {decode : String → Option (List UInt8)}
    (decodes : DecodesHex decode)
    (text : String) :
    IsHex n text ↔ text.utf8ByteSize = n ∧ (decode text).isSome := by
  rw [decodes text]
  constructor
  · intro ⟨even, length, digits⟩
    exact ⟨(utf8ByteSize_of_digits digits).trans length, length ▸ even, digits⟩
  · rintro ⟨size, even, digits⟩
    have length := (utf8ByteSize_of_digits digits).symm.trans size
    exact ⟨length ▸ even, length, digits⟩

/-! ## Slices -/

/-- The prefix is removed if the slices are at a boundary. -/
theorem strip0xPrefix_of_boundary
    {s : String}
    (boundary : s.utf8ByteSize < 2 ∨ IsBoundary s 2) :
    strip0xPrefix s = some (without0x s) := by
  by_cases starts : ∃ rest, s = "0x" ++ rest
  · obtain ⟨rest, rfl⟩ := starts
    have long : ¬ ("0x" ++ rest).utf8ByteSize < 2 := by
      rw [String.utf8ByteSize_append]
      exact Nat.not_lt.mpr (Nat.le_add_right 2 _)
    have start : sliceTo ("0x" ++ rest) 2 = some "0x" :=
      Utf8.sliceTo_append "0x" rest
    have later : sliceFrom ("0x" ++ rest) 2 = some rest :=
      Utf8.sliceFrom_append "0x" rest
    rw [strip0xPrefix, if_neg long, start, without0x_append, ← later]
    rfl
  · have bare : ∀ rest, s ≠ "0x" ++ rest :=
      fun rest same => starts ⟨rest, same⟩
    rw [without0x_of_forall_ne bare, strip0xPrefix]
    split
    · rfl
    · rename_i long
      obtain ⟨left, right, rfl, two⟩ :=
        Utf8.exists_append_of_isBoundary (boundary.resolve_left long)
      have other : left ≠ "0x" := by
        rintro rfl
        exact bare right rfl
      rw [← two, Utf8.sliceTo_append]
      exact if_pos other

/-- Inside of a character, the slice panics. -/
theorem strip0xPrefix_of_not_boundary
    {s : String}
    (inside : ¬ (s.utf8ByteSize < 2 ∨ IsBoundary s 2)) :
    strip0xPrefix s = none := by
  obtain ⟨long, outside⟩ := not_or.mp inside
  rw [strip0xPrefix, if_neg long, Utf8.sliceTo_of_not_isBoundary outside]
  rfl

/-! ## Accepted strings -/

/-- A candidate is accepted if its digits are; the refusal says what is wrong
with it. -/
theorem fromString_of_boundary
    (decode : String → Option (List UInt8))
    {s : String}
    (boundary : s.utf8ByteSize < 2 ∨ IsBoundary s 2) :
    (fromString decode s : Option (Except Report (HexString n))) =
      if size : (without0x s).utf8ByteSize = n then
        if (decode (without0x s)).isSome then some (.ok ⟨without0x s, size⟩)
        else some (.error (.message "String is not hex"))
      else some (.error (.message ("Expected string of length " ++
        toString n ++ ", got " ++ toString (without0x s).utf8ByteSize))) := by
  rw [fromString, strip0xPrefix_of_boundary boundary]
  simp only [Option.bind_eq_bind, Option.bind_some]
  split
  · cases decode (without0x s) <;> rfl
  · rfl

/-- What is to hold of a candidate: there is no panic, it is accepted exactly
if it consists of digits, and the digits are what is stored. -/
structure FollowsGrammar (decode : String → Option (List UInt8)) (n : Nat)
    (s : String) : Prop where
  returns : (fromString decode s : Option (Except Report (HexString n))) ≠ none
  accepted : (∃ hex : HexString n, fromString decode s = some (.ok hex)) ↔
    IsHex n (without0x s)
  stored : ∀ hex : HexString n, fromString decode s = some (.ok hex) →
    hex.text = without0x s

/-- The grammar is followed if the slices are at a boundary. -/
theorem followsGrammar_of_boundary
    {decode : String → Option (List UInt8)}
    (decodes : DecodesHex decode)
    {s : String}
    (boundary : s.utf8ByteSize < 2 ∨ IsBoundary s 2) :
    FollowsGrammar decode n s := by
  have result := fromString_of_boundary (n := n) decode boundary
  refine ⟨?_, ?_, ?_⟩
  · rw [result]
    split
    · split <;> exact Option.some_ne_none _
    · exact Option.some_ne_none _
  · rw [isHex_iff decodes, result]
    constructor
    · rintro ⟨hex, accepted⟩
      split at accepted
      · rename_i size
        split at accepted
        · rename_i decoded
          exact ⟨size, decoded⟩
        · cases accepted
      · cases accepted
    · rintro ⟨size, decoded⟩
      exact ⟨_, by rw [dif_pos size, if_pos decoded]⟩
  · intro hex accepted
    rw [result] at accepted
    split at accepted
    · split at accepted
      · cases accepted
        rfl
      · cases accepted
    · cases accepted

/-- Candidates follow the grammar exactly if they have fewer than two bytes or
byte offset two is a boundary. -/
theorem followsGrammar_iff
    {decode : String → Option (List UInt8)}
    (decodes : DecodesHex decode)
    (n : Nat)
    (s : String) :
    FollowsGrammar decode n s ↔ s.utf8ByteSize < 2 ∨ IsBoundary s 2 := by
  constructor
  · intro follows
    by_contra inside
    refine follows.returns ?_
    rw [fromString, strip0xPrefix_of_not_boundary inside]
    rfl
  · exact followsGrammar_of_boundary decodes

/-! ## Fixed candidates -/

/-- The bytes of a hexadecimal string. -/
def decodeHex (text : String) : Option (List UInt8) := Hex.decode text.toList

theorem decodesHex_decodeHex : DecodesHex decodeHex :=
  fun text => Hex.isSome_decode_iff text.toList

theorem followsGrammar_iff_four :
    FollowsGrammar decodeHex 4 "0xBeeF" ↔
      "0xBeeF".utf8ByteSize < 2 ∨ IsBoundary "0xBeeF" 2 :=
  followsGrammar_iff decodesHex_decodeHex 4 "0xBeeF"

/-- A candidate with a character of three bytes at the offset panics. -/
theorem fromString_inside_character :
    (fromString decodeHex "a€" : Option (Except Report (HexString 4))) =
        none ∧
      ¬ FollowsGrammar decodeHex 4 "a€" := by
  have panicked : (fromString decodeHex "a€" :
      Option (Except Report (HexString 4))) = none := by
    rw [fromString, strip0xPrefix_of_not_boundary (by decide)]
    rfl
  exact ⟨panicked, fun follows => follows.returns panicked⟩

end HexString

end Abacus
