import Mathlib.Data.List.Basic
import Mathlib.Data.List.Infix

/-!
# Readers and the encodings they read

A reader takes a value off the front of a list of symbols, or fails. It reads
an encoding exactly if it returns the value whatever follows, leaves what
follows, and fails on every proper prefix. Exact readers compose. A reader of
a whole input is canonical if its encoder inverts it in both directions.
-/

namespace Codec

variable {β ε α γ : Type}

/-- A reader takes an encoding off its input, and nothing less. -/
structure ReadsExactly (reader : StateT (List β) (Except ε) α)
    (encoding : List β) (value : α) : Prop where
  reads : ∀ rest, reader (encoding ++ rest) = .ok (value, rest)
  refuses : ∀ front, front <+: encoding → front ≠ encoding →
    ∃ error, reader front = .error error

/-- A reader that reads nothing. -/
theorem ReadsExactly.pure (value : α) :
    ReadsExactly (Pure.pure value : StateT (List β) (Except ε) α) []
      value where
  reads _ := rfl
  refuses _ front proper := absurd (List.prefix_nil.mp front) proper

/-- Readers in sequence read the encodings in sequence: a proper prefix ends
inside the first encoding or inside the second. -/
theorem ReadsExactly.bind
    {reader : StateT (List β) (Except ε) α}
    {next : α → StateT (List β) (Except ε) γ}
    {first second : List β}
    {value : α}
    {result : γ}
    (readsFirst : ReadsExactly reader first value)
    (readsSecond : ReadsExactly (next value) second result) :
    ReadsExactly (reader >>= next) (first ++ second) result where
  reads rest := by
    have read := readsFirst.reads (second ++ rest)
    have nextRead := readsSecond.reads rest
    rw [List.append_assoc]
    simp only [Bind.bind, StateT.bind, Except.bind, read, nextRead]
  refuses front inside proper := by
    by_cases whole : first <+: front
    · obtain ⟨later, rfl⟩ := whole
      have read := readsFirst.reads later
      obtain ⟨error, refused⟩ := readsSecond.refuses later
        ((List.prefix_append_right_inj first).mp inside)
        fun same => proper (by rw [same])
      refine ⟨error, ?_⟩
      simp only [Bind.bind, StateT.bind, Except.bind, read, refused]
    · have within : front <+: first :=
        (List.prefix_or_prefix_of_prefix inside
          (List.prefix_append first second)).resolve_right whole
      obtain ⟨error, refused⟩ := readsFirst.refuses front within
        fun same => whole (by rw [same])
      refine ⟨error, ?_⟩
      simp only [Bind.bind, StateT.bind, Except.bind, refused]

/-- A reader whose value is converted. -/
theorem ReadsExactly.bind_pure
    {reader : StateT (List β) (Except ε) α}
    {encoding : List β}
    {value : α}
    (reads : ReadsExactly reader encoding value)
    (convert : α → γ)
    {result : γ}
    (same : convert value = result) :
    ReadsExactly (reader >>= fun read => Pure.pure (convert read)) encoding
      result := by
  have converted : ReadsExactly
      (reader >>= fun read => Pure.pure (convert read)) (encoding ++ [])
      (convert value) :=
    reads.bind (ReadsExactly.pure (convert value))
  rwa [List.append_nil, same] at converted

/-- No encoding continues another one. -/
theorem ReadsExactly.eq_of_isPrefix
    {reader : StateT (List β) (Except ε) α}
    {first second : List β}
    {value other : α}
    (readsFirst : ReadsExactly reader first value)
    (readsSecond : ReadsExactly reader second other)
    (continues : first <+: second) :
    value = other := by
  have whole : first = second := by
    by_contra differ
    obtain ⟨error, refused⟩ := readsSecond.refuses first continues differ
    have read := readsFirst.reads []
    rw [List.append_nil, refused] at read
    cases read
  have read := readsFirst.reads []
  rw [whole, readsSecond.reads []] at read
  exact (Prod.mk.inj (Except.ok.inj read)).1.symm

/-- A reader of a whole input that accepts what has a least length: the encoder
inverts it on every input that it accepts, and it inverts the encoder. -/
structure Canonical (reader : StateT (List β) (Except ε) α)
    (encode : α → List β) (least : Nat) : Prop where
  reads : ∀ value, reader (encode value) = .ok (value, [])
  accepts_iff : ∀ input,
    (∃ value rest, reader input = .ok (value, rest)) ↔ least ≤ input.length
  restores : ∀ input value rest, reader input = .ok (value, rest) →
    encode value = input ∧ rest = []

/-- A reader that accepts the encodings and nothing else is canonical if the
encodings are the inputs of at least some length. -/
theorem Canonical.of_eq_ok_iff
    {reader : StateT (List β) (Except ε) α}
    {encode : α → List β}
    {least : Nat}
    (eq_ok_iff : ∀ input value rest,
      reader input = .ok (value, rest) ↔ input = encode value ∧ rest = [])
    (encodes_iff : ∀ input,
      (∃ value, input = encode value) ↔ least ≤ input.length) :
    Canonical reader encode least where
  reads value := (eq_ok_iff _ value []).mpr ⟨rfl, rfl⟩
  accepts_iff input := by
    rw [← encodes_iff]
    constructor
    · rintro ⟨value, rest, read⟩
      exact ⟨value, ((eq_ok_iff input value rest).mp read).1⟩
    · rintro ⟨value, same⟩
      exact ⟨value, [], (eq_ok_iff input value []).mpr ⟨same, rfl⟩⟩
  restores input value rest read := by
    obtain ⟨same, nothing⟩ := (eq_ok_iff input value rest).mp read
    exact ⟨same.symm, nothing⟩

/-! ## Writers -/

/-- A writer appends an output and returns a value. -/
def Appends (writer : StateT (List β) (Except ε) α) (output : List β)
    (value : α) : Prop :=
  ∀ buffer, writer buffer = .ok (value, buffer ++ output)

/-- A writer that writes nothing. -/
theorem Appends.pure (value : α) :
    Appends (Pure.pure value : StateT (List β) (Except ε) α) [] value :=
  fun buffer => by rw [List.append_nil]; rfl

/-- Writers in sequence append their outputs in sequence. -/
theorem Appends.bind
    {writer : StateT (List β) (Except ε) α}
    {next : α → StateT (List β) (Except ε) γ}
    {first second : List β}
    {value : α}
    {result : γ}
    (appendsFirst : Appends writer first value)
    (appendsSecond : Appends (next value) second result) :
    Appends (writer >>= next) (first ++ second) result := by
  intro buffer
  have wrote := appendsFirst buffer
  have nextWrote := appendsSecond (buffer ++ first)
  rw [← List.append_assoc]
  simp only [Bind.bind, StateT.bind, Except.bind, wrote, nextWrote]

/-- A writer whose value is converted. -/
theorem Appends.bind_pure
    {writer : StateT (List β) (Except ε) α}
    {output : List β}
    {value : α}
    (appends : Appends writer output value)
    (convert : α → γ) :
    Appends (writer >>= fun written => Pure.pure (convert written)) output
      (convert value) := by
  have both : Appends
      (writer >>= fun written => Pure.pure (convert written)) (output ++ [])
      (convert value) :=
    appends.bind (Appends.pure (convert value))
  rwa [List.append_nil] at both

/-- Writing every element of a list. -/
theorem Appends.forM
    {δ : Type}
    {write : δ → StateT (List β) (Except ε) PUnit}
    {output : δ → List β}
    (appends : ∀ element, Appends (write element) (output element) ⟨⟩)
    (elements : List δ) :
    Appends (elements.forM write) (elements.flatMap output) ⟨⟩ := by
  induction elements with
  | nil => exact .pure _
  | cons element elements inductionHypothesis =>
      rw [List.flatMap_cons]
      exact (appends element).bind inductionHypothesis

/-- A writer appends one output only, and returns one value. -/
theorem Appends.unique
    {writer : StateT (List β) (Except ε) α}
    {first second : List β}
    {value other : α}
    (appendsFirst : Appends writer first value)
    (appendsSecond : Appends writer second other) :
    value = other ∧ first = second := by
  have same := (appendsFirst []).symm.trans (appendsSecond [])
  exact Prod.mk.inj (Except.ok.inj same)

end Codec
