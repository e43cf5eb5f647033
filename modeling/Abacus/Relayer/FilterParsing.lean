import Abacus.Library.Hex
import Abacus.Relayer.MatchingList

/-!
# Parsing of domain filters

A filter for domains is read from a wildcard, from one domain or from a list of
domains. One domain and the elements of a list are read by different parsers.
Domains are documented in decimal and in hexadecimal digits; both parsers read
decimal digits only, and the elements of a list are borrowed from the input,
which a string with escapes cannot be.
-/

namespace Abacus

/-! ## Parsing of `u32` -/

/-- Why a text is not a `u32`. -/
inductive ParseIntError
  | empty
  | invalidDigit
  | posOverflow
  deriving DecidableEq

/-- The text of an error. -/
def ParseIntError.toString : ParseIntError → String
  | .empty => "cannot parse integer from empty string"
  | .invalidDigit => "invalid digit found in string"
  | .posOverflow => "number too large to fit in target type"

/-- Append one digit to a number. -/
def pushDigit (result : UInt32) (c : Char) : Except ParseIntError UInt32 :=
  if c.isDigit then
    let next := 10 * result.toNat + (c.toNat - '0'.toNat)
    if next < 2 ^ 32 then .ok (UInt32.ofNat next) else .error .posOverflow
  else .error .invalidDigit

/-- `str::parse::<u32>`, with its errors. -/
def parse (src : String) : Except ParseIntError UInt32 :=
  match src.toList with
  | [] => .error .empty
  | ['+'] => .error .invalidDigit
  | '+' :: digits => digits.foldlM pushDigit 0
  | digits => digits.foldlM pushDigit 0

/-- A number grows with its digits. -/
theorem le_ofDigitChars (digits : List Char) (init : Nat) :
    init ≤ Nat.ofDigitChars 10 digits init := by
  rw [Nat.ofDigitChars_eq_ofDigitChars_zero]
  have scaled := Nat.le_mul_of_pos_left init
    (Nat.pow_pos (n := digits.length) (show 0 < 10 by decide))
  omega

/-- Digits are appended as long as the number fits. -/
theorem toOption_foldlM_pushDigit (digits : List Char) (result : UInt32) :
    (digits.foldlM pushDigit result).toOption =
      if digits.all Char.isDigit ∧
          Nat.ofDigitChars 10 digits result.toNat < 2 ^ 32 then
        some (UInt32.ofNat (Nat.ofDigitChars 10 digits result.toNat))
      else none := by
  induction digits generalizing result with
  | nil => simp [Except.toOption, pure, Except.pure, result.toNat_lt]
  | cons c rest inductionHypothesis =>
      rw [List.foldlM_cons, List.all_cons, Nat.ofDigitChars_cons]
      by_cases digit : c.isDigit
      · by_cases small : 10 * result.toNat + (c.toNat - '0'.toNat) < 2 ^ 32
        · have pushed : pushDigit result c =
              .ok (UInt32.ofNat
                (10 * result.toNat + (c.toNat - '0'.toNat))) := by
            rw [pushDigit, if_pos digit, if_pos small]
          have number := UInt32.toNat_ofNat_of_lt' small
          rw [pushed]
          change (rest.foldlM pushDigit _).toOption = _
          rw [inductionHypothesis, number, digit, Bool.true_and]
        · have pushed : pushDigit result c = .error .posOverflow := by
            rw [pushDigit, if_pos digit, if_neg small]
          have grown := le_ofDigitChars rest
            (10 * result.toNat + (c.toNat - '0'.toNat))
          rw [pushed, if_neg (fun fits => small (by omega))]
          rfl
      · have pushed : pushDigit result c = .error .invalidDigit :=
          if_neg digit
        rw [pushed, if_neg]
        · rfl
        · rw [Bool.and_eq_true]
          exact fun fits => digit fits.1.1

/-- A text that starts with a digit is read as digits. -/
theorem toOption_parse_of_isDigit
    {c : Char}
    (digit : c.isDigit)
    (rest : List Char) :
    (parse (String.ofList (c :: rest))).toOption =
      if (c :: rest).all Char.isDigit ∧
          Nat.ofDigitChars 10 (c :: rest) 0 < 2 ^ 32 then
        some (UInt32.ofNat (Nat.ofDigitChars 10 (c :: rest) 0))
      else none := by
  have unsigned : c ≠ '+' := by
    rintro rfl
    exact absurd digit (by decide)
  have read : parse (String.ofList (c :: rest)) =
      (c :: rest).foldlM pushDigit 0 := by
    rw [parse, String.toList_ofList]
    split
    · rename_i chars
      cases chars
    · rename_i chars
      cases chars
      exact (unsigned rfl).elim
    · rename_i chars
      cases chars
      exact (unsigned rfl).elim
    · rfl
  rw [read]
  exact toOption_foldlM_pushDigit (c :: rest) 0

/-! ## Input -/

/-- A JSON value, as the deserializer shows it to a visitor. A string with
escapes is not borrowed from the input. -/
inductive JsonValue
  | null
  | bool (value : Bool)
  | unsigned (value : UInt64)
  | signed (value : Int64)
  | float (literal : String)
  | string (text : String) (escaped : Bool)
  | array (items : List JsonValue)
  | object (fields : List (String × JsonValue))

/-- An error of the deserializer: a text, or a value of another type than the
one a visitor expects. -/
inductive DeError
  | custom (text : String)
  | invalidType (unexpected : JsonValue) (expected : String)

/-- An error of a parser, as one of the deserializer. -/
def toSerdeErr (error : ParseIntError) : DeError := .custom error.toString

/-! ## Elements of a list -/

/-- A borrowed string or an integer. -/
inductive StrOrInt
  | str (text : String)
  | int (value : UInt32)

/-- The first variant that a value fits: a string that is borrowed from the
input, or an integer of 32 bits. -/
def StrOrInt.deserialize : JsonValue → Except DeError StrOrInt
  | .string text false => .ok (.str text)
  | .unsigned value =>
      if value.toNat < 2 ^ 32 then .ok (.int value.toUInt32)
      else .error
        (.custom "data did not match any variant of untagged enum StrOrInt")
  | _ => .error
      (.custom "data did not match any variant of untagged enum StrOrInt")

/-- The domain of a string or an integer. -/
def StrOrInt.tryInto : StrOrInt → Except ParseIntError UInt32
  | .str text => parse text
  | .int value => .ok value

/-! ## Filters -/

namespace FilterVisitor

/-- What the visitor of a domain filter expects. -/
def expecting : String :=
  "Expecting either a wildcard \"*\", decimal/hex value string, " ++
    "or list of decimal/hex value strings"

/-- The filter of an integer. -/
def visitU64 (v : UInt64) : Except DeError (Filter UInt32) :=
  if v ≤ 0xFFFFFFFF then .ok (.enumerated [v.toUInt32])
  else .error (.custom "Domain Id must fit within a u32 value")

/-- The filter of a string. -/
def visitStr (v : String) : Except DeError (Filter UInt32) :=
  if v = "*" then .ok .wildcard
  else do
    let value ← (parse v).mapError toSerdeErr
    return .enumerated [value]

/-- The domain of an element of a list. -/
def nextValue (item : JsonValue) : Except DeError UInt32 := do
  let i ← StrOrInt.deserialize item
  i.tryInto.mapError toSerdeErr

/-- The filter of a list. -/
def visitSeq (items : List JsonValue) : Except DeError (Filter UInt32) := do
  let values ← items.mapM nextValue
  return .enumerated values

end FilterVisitor

/-- A domain filter from a JSON value of any type. -/
def Filter.deserialize : JsonValue → Except DeError (Filter UInt32)
  | .unsigned v => FilterVisitor.visitU64 v
  | .string v _ => FilterVisitor.visitStr v
  | .array items => FilterVisitor.visitSeq items
  | other => .error (.invalidType other FilterVisitor.expecting)

/-! ## Spellings -/

/-- A numeral: at least one digit, of a number of 32 bits. -/
structure Numeral (isDigit : Char → Bool) (number : List Char → Nat) where
  first : Char
  rest : List Char
  digits : (first :: rest).all isDigit
  small : number (first :: rest) < 2 ^ 32

/-- The number of a numeral. -/
def Numeral.value {isDigit : Char → Bool} {number : List Char → Nat}
    (numeral : Numeral isDigit number) : UInt32 :=
  UInt32.ofNat (number (numeral.first :: numeral.rest))

/-- A documented spelling of a domain: decimal digits, hexadecimal digits after
`0x`, or an integer. -/
inductive Spelling
  | decimal
      (numeral : Numeral Char.isDigit (Nat.ofDigitChars 10 · 0))
      (escaped : Bool)
  | hex
      (numeral : Numeral Char.isHexDigit Hex.value)
      (escaped : Bool)
  | integer (value : UInt32)

namespace Spelling

/-- The domain that is spelled. -/
def value : Spelling → UInt32
  | .decimal numeral _ => numeral.value
  | .hex numeral _ => numeral.value
  | .integer value => value

/-- The JSON value that spells the domain. -/
def json : Spelling → JsonValue
  | .decimal numeral escaped =>
      .string (String.ofList (numeral.first :: numeral.rest)) escaped
  | .hex numeral escaped =>
      .string (String.ofList ('0' :: 'x' :: numeral.first :: numeral.rest))
        escaped
  | .integer value => .unsigned value.toUInt64

/-- A spelling in hexadecimal digits. -/
def IsHex : Spelling → Prop
  | .hex _ _ => True
  | _ => False

/-- A spelling that is a JSON string with escapes. -/
def IsEscaped : Spelling → Prop
  | .decimal _ escaped => escaped = true
  | .hex _ escaped => escaped = true
  | .integer _ => False

end Spelling

/-- Decimal digits are read as their number. -/
theorem parse_decimal
    (numeral : Numeral Char.isDigit (Nat.ofDigitChars 10 · 0)) :
    parse (String.ofList (numeral.first :: numeral.rest)) =
      .ok numeral.value := by
  have digit : numeral.first.isDigit :=
    List.all_eq_true.mp numeral.digits _ List.mem_cons_self
  have read := toOption_parse_of_isDigit digit numeral.rest
  rw [if_pos ⟨numeral.digits, numeral.small⟩] at read
  cases parsed : parse (String.ofList (numeral.first :: numeral.rest)) with
  | error error =>
      rw [parsed] at read
      cases read
  | ok value =>
      rw [parsed] at read
      exact congrArg Except.ok (Option.some.inj read)

/-- Digits after `0x` are not read. -/
theorem parse_hex (digits : List Char) :
    parse (String.ofList ('0' :: 'x' :: digits)) = .error .invalidDigit := by
  rw [parse, String.toList_ofList]
  rfl

/-- A text that starts with a digit is not the wildcard. -/
theorem ofList_ne_wildcard
    {c : Char}
    (digit : c.isDigit)
    (rest : List Char) :
    String.ofList (c :: rest) ≠ "*" := by
  intro same
  have chars := congrArg String.toList same
  rw [String.toList_ofList] at chars
  cases chars
  exact absurd digit (by decide)

/-! ## Filters of spellings -/

/-- An enumeration matches its elements. -/
theorem matches_enumerated_iff (list : List UInt32) (v : UInt32) :
    (Filter.enumerated list).matches v ↔ v ∈ list := by
  rw [Filter.matches, List.any_eq_true]
  simp

/-- A value is read as a filter that matches exactly some domains. -/
def Denotes (json : JsonValue) (domains : List UInt32) : Prop :=
  ∃ filter, Filter.deserialize json = .ok filter ∧
    ∀ v : UInt32, filter.matches v ↔ v ∈ domains

/-- An enumeration that is read matches its elements. -/
theorem denotes_of_enumerated
    {json : JsonValue}
    {domains : List UInt32}
    (read : Filter.deserialize json = .ok (.enumerated domains)) :
    Denotes json domains :=
  ⟨_, read, matches_enumerated_iff domains⟩

/-- The filter of a decimal string. -/
theorem visitStr_decimal
    (numeral : Numeral Char.isDigit (Nat.ofDigitChars 10 · 0)) :
    FilterVisitor.visitStr
        (String.ofList (numeral.first :: numeral.rest)) =
      .ok (.enumerated [numeral.value]) := by
  have digit : numeral.first.isDigit :=
    List.all_eq_true.mp numeral.digits _ List.mem_cons_self
  rw [FilterVisitor.visitStr, if_neg (ofList_ne_wildcard digit _),
    parse_decimal]
  rfl

/-- A hexadecimal string is refused. -/
theorem visitStr_hex (digits : List Char) :
    FilterVisitor.visitStr (String.ofList ('0' :: 'x' :: digits)) =
      .error (toSerdeErr .invalidDigit) := by
  rw [FilterVisitor.visitStr, if_neg (ofList_ne_wildcard (by decide) _),
    parse_hex]
  rfl

/-- The filter of an integer. -/
theorem visitU64_toUInt64 (value : UInt32) :
    FilterVisitor.visitU64 value.toUInt64 = .ok (.enumerated [value]) := by
  have small : value.toUInt64 ≤ 0xFFFFFFFF := by
    rw [UInt64.le_iff_toNat_le, UInt32.toNat_toUInt64]
    exact Nat.le_of_lt_succ value.toNat_lt
  rw [FilterVisitor.visitU64, if_pos small, UInt32.toUInt32_toUInt64]

/-- A single spelling is read as its domain exactly if it is not
hexadecimal. -/
theorem denotes_json_iff (spelling : Spelling) :
    Denotes spelling.json [spelling.value] ↔ ¬ spelling.IsHex := by
  match spelling with
  | .decimal numeral escaped =>
      exact iff_of_true (denotes_of_enumerated (visitStr_decimal numeral)) id
  | .hex numeral escaped =>
      refine iff_of_false ?_ (not_not_intro trivial)
      rintro ⟨filter, read, -⟩
      cases (visitStr_hex _).symm.trans read
  | .integer value =>
      exact iff_of_true (denotes_of_enumerated (visitU64_toUInt64 value)) id

/-- An element is read as its domain if it is neither hexadecimal nor a string
with escapes. -/
theorem nextValue_json
    {spelling : Spelling}
    (plain : ¬ spelling.IsHex ∧ ¬ spelling.IsEscaped) :
    FilterVisitor.nextValue spelling.json = .ok spelling.value := by
  match spelling with
  | .decimal numeral true => exact (plain.2 rfl).elim
  | .decimal numeral false =>
      change (parse _).mapError toSerdeErr = _
      rw [parse_decimal]
      rfl
  | .hex numeral escaped => exact (plain.1 trivial).elim
  | .integer value =>
      have small : value.toUInt64.toNat < 2 ^ 32 := by
        rw [UInt32.toNat_toUInt64]
        exact value.toNat_lt
      rw [FilterVisitor.nextValue, Spelling.json, StrOrInt.deserialize,
        if_pos small, UInt32.toUInt32_toUInt64]
      rfl

/-- Any other element is refused. -/
theorem nextValue_json_ne_ok
    (spelling : Spelling)
    (special : ¬ (¬ spelling.IsHex ∧ ¬ spelling.IsEscaped))
    (value : UInt32) :
    FilterVisitor.nextValue spelling.json ≠ .ok value := by
  match spelling with
  | .decimal numeral true => exact fun read => nomatch read
  | .decimal numeral false => exact (special ⟨id, Bool.false_ne_true⟩).elim
  | .hex numeral true => exact fun read => nomatch read
  | .hex numeral false =>
      change (parse _).mapError toSerdeErr ≠ _
      rw [parse_hex]
      exact fun read => nomatch read
  | .integer value => exact (special ⟨id, id⟩).elim

/-- A list of spellings is read as its domains exactly if no element is
hexadecimal or a string with escapes. -/
theorem denotes_array_iff (spellings : List Spelling) :
    Denotes (.array (spellings.map Spelling.json))
        (spellings.map Spelling.value) ↔
      ∀ spelling ∈ spellings, ¬ spelling.IsHex ∧ ¬ spelling.IsEscaped := by
  constructor
  · rintro ⟨filter, read, -⟩ spelling member
    by_contra special
    obtain ⟨values, converted, -⟩ := exists_of_bind_eq_ok read
    obtain ⟨value, accepted⟩ := exists_of_mapM_eq_ok converted spelling.json
      (List.mem_map_of_mem member)
    exact nextValue_json_ne_ok spelling special value accepted
  · intro plain
    have converted :
        (spellings.map Spelling.json).mapM FilterVisitor.nextValue =
          .ok (spellings.map Spelling.value) := by
      rw [List.mapM_map]
      exact mapM_eq_ok fun spelling member =>
        nextValue_json (plain spelling member)
    refine denotes_of_enumerated ?_
    rw [Filter.deserialize, FilterVisitor.visitSeq, converted]
    rfl

/-- Single spellings and lists of spellings: which of them are read as the
domains they spell. -/
theorem denotes_spellings_iff
    (spelling : Spelling)
    (spellings : List Spelling) :
    (Denotes spelling.json [spelling.value] ↔ ¬ spelling.IsHex) ∧
      (Denotes (.array (spellings.map Spelling.json))
          (spellings.map Spelling.value) ↔
        ∀ element ∈ spellings, ¬ element.IsHex ∧ ¬ element.IsEscaped) :=
  ⟨denotes_json_iff spelling, denotes_array_iff spellings⟩

/-- A hexadecimal domain is refused, alone and in a list. -/
theorem denotes_hex_false :
    let spelling : Spelling :=
      .hex ⟨'3', ['4', '3', 'C'], by decide, by decide⟩ false
    spelling.value = 13372 ∧ ¬ Denotes spelling.json [13372] ∧
      ¬ Denotes (.array [spelling.json]) [13372] := by
  intro spelling
  refine ⟨by decide, ?_, ?_⟩
  · rintro ⟨filter, read, -⟩
    cases (visitStr_hex _).symm.trans read
  · rintro ⟨filter, read, -⟩
    obtain ⟨values, converted, -⟩ := exists_of_bind_eq_ok read
    obtain ⟨value, accepted⟩ := exists_of_mapM_eq_ok converted spelling.json
      List.mem_cons_self
    exact nextValue_json_ne_ok spelling
      (not_and_of_not_left _ (not_not_intro trivial)) value accepted

end Abacus
