import Abacus.Library.Journal

/-!
# Typed stores in one flat store

Several typed stores, one for each space, are laid out in one flat store: each
pair of a space and a key has an address of its own, and values are encoded.
A program over the flat store simulates one over the typed store of a space if
both return the same and the flat store keeps representing the typed ones. The
rules follow the structure of a program.
-/

namespace Journal

variable {Space Key Address Content δ : Type} {Value : Key → Type}

/-- The addresses and the codecs of typed stores in a flat one. -/
structure Layout (Space Key : Type) (Value : Key → Type)
    (Address Content δ : Type) where
  address : Space → Key → Address
  encode : (key : Key) → Value key → Content
  decode : (key : Key) → Content → Except δ (Value key)
  address_injective : ∀ {space other : Space} {key otherKey : Key},
    address space key = address other otherKey →
      space = other ∧ key = otherKey

namespace Layout

variable (layout : Layout Space Key Value Address Content δ)

/-- A value is read back from its encoding. -/
def Decodes (key : Key) (value : Value key) : Prop :=
  layout.decode key (layout.encode key value) = .ok value

/-- The flat store holds the encodings of the typed stores and nothing else,
and all of them can be read back. -/
structure Represents (flat : Store Address fun _ => Content)
    (stores : Space → Store Key Value) : Prop where
  content : ∀ space key, flat (layout.address space key) =
    (stores space key).map (layout.encode key)
  decodes : ∀ space key value, stores space key = some value →
    layout.Decodes key value
  addressed : ∀ address content, flat address = some content →
    ∃ space key, address = layout.address space key

/-- Empty stores are represented by the empty store. -/
theorem represents_empty :
    layout.Represents empty fun _ => empty where
  content _ _ := rfl
  decodes _ _ _ contrary := by cases contrary
  addressed _ _ contrary := by cases contrary

/-- What the flat store holds is the encoding of a value that is read back. -/
theorem Represents.exists_decode
    {layout : Layout Space Key Value Address Content δ}
    {flat : Store Address fun _ => Content}
    {stores : Space → Store Key Value}
    (represents : layout.Represents flat stores)
    {address : Address}
    {content : Content}
    (present : flat address = some content) :
    ∃ space key value, address = layout.address space key ∧
      layout.decode key content = .ok value := by
  obtain ⟨space, key, rfl⟩ := represents.addressed address content present
  rw [represents.content, Option.map_eq_some_iff] at present
  obtain ⟨value, stored, rfl⟩ := present
  exact ⟨space, key, value, rfl, represents.decodes space key value stored⟩

variable {layout}
variable {ε α β : Type}

/-! ## Reading -/

variable {space : Space}

/-- A program over the flat store returns a value that is read off the typed
store of a space, and neither fails nor writes. -/
def Reads (layout : Layout Space Key Value Address Content δ) (space : Space)
    (program : Program Address (fun _ => Content) ε α)
    (value : Store Key Value → α) : Prop :=
  ∀ flat stores, layout.Represents flat stores →
    program flat = (.ok (value (stores space)), [])

/-- What a read returns where the value is known. -/
theorem Reads.returns
    {program : Program Address (fun _ => Content) ε α}
    {value : Store Key Value → α}
    (reads : layout.Reads space program value)
    {flat : Store Address fun _ => Content}
    {stores : Space → Store Key Value}
    (represents : layout.Represents flat stores)
    {expected : α}
    (same : value (stores space) = expected) :
    program flat = (.ok expected, []) := by
  rw [reads flat stores represents, same]

variable [DecidableEq Address]

theorem Reads.pure (value : α) :
    layout.Reads space (Pure.pure value : Program Address _ ε α)
      fun _ => value :=
  fun _ _ _ => rfl

/-- Reads in sequence. -/
theorem Reads.bind
    {program : Program Address (fun _ => Content) ε α}
    {value : Store Key Value → α}
    {next : α → Program Address (fun _ => Content) ε β}
    {nextValue : α → Store Key Value → β}
    (first : layout.Reads space program value)
    (second : ∀ found, layout.Reads space (next found) (nextValue found)) :
    layout.Reads space (program >>= next)
      fun store => nextValue (value store) store := by
  intro flat stores represents
  rw [Program.run_bind_ok (first flat stores represents), replay_nil,
    second _ flat stores represents]
  rfl

/-! ## Writing -/

variable [DecidableEq Space] [DecidableEq Key]

/-- Writing an encoded value at its address is writing the value in its
space. -/
theorem Represents.put
    {flat : Store Address fun _ => Content}
    {stores : Space → Store Key Value}
    (represents : layout.Represents flat stores)
    (space : Space)
    {key : Key}
    {value : Value key}
    (decodes : layout.Decodes key value) :
    layout.Represents
      (Put.apply ⟨layout.address space key, layout.encode key value⟩ flat)
      (Function.update stores space
        (Put.apply ⟨key, value⟩ (stores space))) := by
  have apart : ∀ {other otherKey}, ¬ (other = space ∧ otherKey = key) →
      layout.address other otherKey ≠ layout.address space key ∧
        Function.update stores space
          (Put.apply ⟨key, value⟩ (stores space)) other otherKey =
            stores other otherKey := by
    intro other otherKey different
    refine ⟨fun equal => different (layout.address_injective equal), ?_⟩
    by_cases sameSpace : other = space
    · subst sameSpace
      rw [Function.update_self]
      exact Put.apply_of_ne (fun sameKey => different ⟨rfl, sameKey⟩) _
    · rw [Function.update_of_ne sameSpace]
  constructor
  · intro other otherKey
    by_cases same : other = space ∧ otherKey = key
    · obtain ⟨rfl, rfl⟩ := same
      rw [Function.update_self, Put.apply_mk_self, Put.apply_mk_self]
      rfl
    · rw [Put.apply_of_ne (apart same).1, (apart same).2]
      exact represents.content other otherKey
  · intro other otherKey found stored
    by_cases same : other = space ∧ otherKey = key
    · obtain ⟨rfl, rfl⟩ := same
      rw [Function.update_self, Put.apply_mk_self] at stored
      obtain rfl := Option.some.inj stored
      exact decodes
    · rw [(apart same).2] at stored
      exact represents.decodes other otherKey found stored
  · intro address content present
    by_cases same : address = layout.address space key
    · exact ⟨space, key, same⟩
    · rw [Put.apply_of_ne same] at present
      exact represents.addressed address content present

/-! ## Simulation -/

/-- A program over the flat store returns what a program over the typed store
of a space returns, and has the same effect. -/
def Simulates (layout : Layout Space Key Value Address Content δ)
    (space : Space) (low : Program Address (fun _ => Content) ε α)
    (high : Program Key Value ε α) : Prop :=
  ∀ flat stores, layout.Represents flat stores →
    low.result flat = high.result (stores space) ∧
      layout.Represents (low.final flat)
        (Function.update stores space (high.final (stores space)))

/-- Programs that do not touch the store. -/
theorem Simulates.lift (outcome : Except ε α) :
    layout.Simulates space (Program.lift outcome) (Program.lift outcome) := by
  intro flat stores represents
  refine ⟨rfl, ?_⟩
  change layout.Represents flat (Function.update stores space (stores space))
  rwa [Function.update_eq_self]

theorem Simulates.pure (value : α) :
    layout.Simulates space (Pure.pure value : Program Address _ ε α)
      (Pure.pure value) :=
  Simulates.lift (.ok value)

/-- Programs in sequence. -/
theorem Simulates.bind
    {low : Program Address (fun _ => Content) ε α}
    {high : Program Key Value ε α}
    {lowNext : α → Program Address (fun _ => Content) ε β}
    {highNext : α → Program Key Value ε β}
    (first : layout.Simulates space low high)
    (second : ∀ value,
      layout.Simulates space (lowNext value) (highNext value)) :
    layout.Simulates space (low >>= lowNext) (high >>= highNext) := by
  intro flat stores represents
  obtain ⟨same, after⟩ := first flat stores represents
  cases lowRun : low flat with
  | mk lowOutcome lowPuts =>
      cases highRun : high (stores space) with
      | mk highOutcome highPuts =>
          simp only [Program.result, Program.final, Program.journal, lowRun,
            highRun] at same after
          subst same
          cases lowOutcome with
          | error error =>
              simp only [Program.result, Program.final, Program.journal,
                Program.run_bind_error lowRun, Program.run_bind_error highRun]
              exact ⟨trivial, after⟩
          | ok value =>
              obtain ⟨same, last⟩ := second value _ _ after
              simp only [Function.update_self, Function.update_idem,
                Program.result, Program.final, Program.journal] at same last
              simp only [Program.result, Program.final, Program.journal,
                Program.run_bind_ok lowRun, Program.run_bind_ok highRun,
                replay_append]
              exact ⟨same, last⟩

/-- Writing. -/
theorem Simulates.store
    {key : Key}
    {value : Value key}
    (decodes : layout.Decodes key value) :
    layout.Simulates space
      (Program.put (layout.address space key) (layout.encode key value) :
        Program Address (fun _ => Content) ε Unit)
      (Program.put key value) :=
  fun _ _ represents => ⟨rfl, represents.put space decodes⟩

/-- A read simulates a program over the typed store that returns the same. -/
theorem Reads.simulates
    {program : Program Address (fun _ => Content) ε α}
    {high : Program Key Value ε α}
    {value : Store Key Value → α}
    (reads : layout.Reads space program value)
    (run : ∀ store, high store = (.ok (value store), [])) :
    layout.Simulates space program high := by
  intro flat stores represents
  have low := reads flat stores represents
  simp only [Program.result, Program.final, Program.journal, low, run,
    replay_nil, Function.update_eq_self]
  exact ⟨trivial, represents⟩

end Layout

end Journal
