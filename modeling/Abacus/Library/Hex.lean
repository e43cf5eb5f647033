import Mathlib.Algebra.Group.Nat.Even
import Mathlib.Data.List.Basic

/-!
# Hexadecimal digits

The value of a digit and of a sequence of digits, and the bytes of pairs of
digits.
-/

namespace Hex

/-- The value of a hexadecimal digit. -/
def digitValue (c : Char) : Nat :=
  if c ≤ '9' then c.toNat - '0'.toNat
  else if c ≤ 'F' then c.toNat - 'A'.toNat + 10
  else c.toNat - 'a'.toNat + 10

/-- The number of a sequence of digits, most significant first. -/
def value (digits : List Char) : Nat :=
  digits.foldl (fun number c => 16 * number + digitValue c) 0

/-- The bytes of pairs of digits. -/
def decode : List Char → Option (List UInt8)
  | [] => some []
  | [_] => none
  | high :: low :: rest =>
      if high.isHexDigit && low.isHexDigit then
        (decode rest).map
          (UInt8.ofNat (16 * digitValue high + digitValue low) :: ·)
      else none

/-- Exactly the sequences of pairs of digits have bytes. -/
theorem isSome_decode_iff (chars : List Char) :
    (decode chars).isSome ↔
      Even chars.length ∧ ∀ c ∈ chars, c.isHexDigit := by
  induction chars using decode.induct with
  | case1 => simp [decode]
  | case2 c => simp [decode]
  | case3 high low rest digits inductionHypothesis =>
      rw [Bool.and_eq_true] at digits
      simp [decode, digits, inductionHypothesis, Nat.even_add_one]
  | case4 high low rest digits =>
      rw [Bool.and_eq_true] at digits
      simp only [decode, Bool.and_eq_true, if_neg digits,
        Option.isSome_none, Bool.false_eq_true, false_iff]
      intro decoded
      exact digits ⟨decoded.2 high (by simp), decoded.2 low (by simp)⟩

/-- A hexadecimal digit is a character of one byte. -/
theorem utf8Size_of_isHexDigit
    {c : Char}
    (digit : c.isHexDigit) : c.utf8Size = 1 := by
  rw [Char.utf8Size_eq_one_iff]
  simp only [Char.isHexDigit, Char.isDigit, Bool.or_eq_true, Bool.and_eq_true,
    decide_eq_true_eq, ge_iff_le] at digit
  rcases digit with (⟨-, below⟩ | ⟨-, below⟩) | ⟨-, below⟩
  · exact UInt32.le_trans below (by decide)
  · exact UInt32.le_trans below (by decide)
  · exact UInt32.le_trans below (by decide)

end Hex
