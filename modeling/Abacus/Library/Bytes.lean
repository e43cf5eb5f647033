import Mathlib.Algebra.Ring.Nat
import Mathlib.Data.List.Induction

/-!
# Big-endian byte strings

Natural numbers as byte strings of a fixed width, most significant byte first,
and the two round trips between them. Strings that a separator ends, and decimal
numerals, can be told apart.
-/

namespace Bytes

/-- The last `width` base-256 digits of a number, most significant first. -/
def bigEndian : Nat → Nat → List UInt8
  | 0, _ => []
  | width + 1, value => bigEndian width (value / 256) ++ [UInt8.ofNat value]

/-- The number that a byte string denotes, most significant byte first. -/
def toNat (bytes : List UInt8) : Nat :=
  bytes.foldl (fun value byte => value * 256 + byte.toNat) 0

@[simp] theorem length_bigEndian (width value : Nat) :
    (bigEndian width value).length = width := by
  induction width generalizing value with
  | zero => rfl
  | succ width inductionHypothesis =>
      simp [bigEndian, inductionHypothesis]

@[simp] theorem toNat_nil : toNat [] = 0 := rfl

@[simp] theorem toNat_append_singleton (bytes : List UInt8) (byte : UInt8) :
    toNat (bytes ++ [byte]) = toNat bytes * 256 + byte.toNat := by
  simp [toNat, List.foldl_append]

/-- A byte string is below the power of its length. -/
theorem toNat_lt (bytes : List UInt8) : toNat bytes < 256 ^ bytes.length := by
  induction bytes using List.reverseRecOn with
  | nil => simp
  | append_singleton bytes byte inductionHypothesis =>
      have byteBound := byte.toNat_lt
      rw [toNat_append_singleton, List.length_append, List.length_singleton,
        Nat.pow_succ]
      omega

/-- Writing and reading back keeps the value modulo the capacity. -/
theorem toNat_bigEndian (width value : Nat) :
    toNat (bigEndian width value) = value % 256 ^ width := by
  induction width generalizing value with
  | zero => simp [bigEndian, Nat.mod_one]
  | succ width inductionHypothesis =>
      have digits := Nat.mod_mul (x := value) (a := 256) (b := 256 ^ width)
      rw [bigEndian, toNat_append_singleton, inductionHypothesis,
        UInt8.toNat_ofNat', Nat.pow_succ' (n := width), digits]
      omega

/-- A value that fits is read back. -/
theorem toNat_bigEndian_of_lt
    {width value : Nat}
    (fits : value < 256 ^ width) :
    toNat (bigEndian width value) = value := by
  rw [toNat_bigEndian, Nat.mod_eq_of_lt fits]

/-- Reading and writing back restores the byte string. -/
theorem bigEndian_toNat (bytes : List UInt8) :
    bigEndian bytes.length (toNat bytes) = bytes := by
  induction bytes using List.reverseRecOn with
  | nil => rfl
  | append_singleton bytes byte inductionHypothesis =>
      have byteBound := byte.toNat_lt
      have high : (toNat bytes * 256 + byte.toNat) / 256 = toNat bytes := by
        omega
      have low : UInt8.ofNat (toNat bytes * 256 + byte.toNat) = byte := by
        apply UInt8.toNat_inj.mp
        rw [UInt8.toNat_ofNat']
        omega
      rw [List.length_append, List.length_singleton, bigEndian,
        toNat_append_singleton, high, low, inductionHypothesis]

/-- Two strings without a separator, of bytes or of other symbols, each followed
by the separator and a rest, are told apart by what stands in front of the
separator. -/
theorem append_separator_inj
    {α : Type}
    {separator : α}
    {first second firstRest secondRest : List α}
    (firstPlain : separator ∉ first)
    (secondPlain : separator ∉ second)
    (same : first ++ separator :: firstRest =
      second ++ separator :: secondRest) :
    first = second ∧ firstRest = secondRest := by
  induction first generalizing second with
  | nil =>
      cases second with
      | nil => exact ⟨rfl, List.tail_eq_of_cons_eq same⟩
      | cons byte second =>
          rw [List.head_eq_of_cons_eq same] at secondPlain
          exact absurd List.mem_cons_self secondPlain
  | cons byte first inductionHypothesis =>
      cases second with
      | nil =>
          rw [List.head_eq_of_cons_eq same] at firstPlain
          exact absurd List.mem_cons_self firstPlain
      | cons other second =>
          obtain ⟨rfl, rests⟩ := List.cons.inj same
          obtain ⟨rfl, after⟩ := inductionHypothesis
            (fun member => firstPlain (List.mem_cons_of_mem _ member))
            (fun member => secondPlain (List.mem_cons_of_mem _ member)) rests
          exact ⟨rfl, after⟩

/-- The characters of a decimal numeral determine its number. -/
theorem decimal_injective :
    Function.Injective fun value : Nat => (toString value).toList := by
  intro first second same
  have digits := congrArg
    (fun characters => Nat.ofDigitChars 10 characters 0) same
  simpa [Nat.toString_eq_repr] using digits

end Bytes
