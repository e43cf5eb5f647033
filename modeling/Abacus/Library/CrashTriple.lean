import Abacus.Library.Journal

/-!
# Crash conditions of programs over a keyed store

A crash triple states, next to a postcondition for a program that returns, an
invariant of every store that can survive a crash in the middle of it. The
rules follow the structure of a program as those of ordinary triples do.
-/

namespace Journal

namespace Program

universe u

variable {Key : Type u} {Value : Key → Type} [DecidableEq Key]
variable {ε α β : Type}

/-- From every store that satisfies the precondition, a crash of the program
after any number of puts leaves a store that satisfies the invariant; if the
program returns, the value and the store it leaves satisfy the
postcondition. -/
def CrashTriple (pre : Store Key Value → Prop)
    (program : Program Key Value ε α)
    (post : α → Store Key Value → Prop)
    (invariant : Store Key Value → Prop) : Prop :=
  ∀ store, pre store →
    (∀ count, invariant (program.crashed store count)) ∧
      ∀ value, program.result store = .ok value →
        post value (program.final store)

section Rules

variable {pre invariant : Store Key Value → Prop}
variable {post : α → Store Key Value → Prop}

theorem CrashTriple.pure
    {value : α}
    (kept : ∀ store, pre store → invariant store)
    (holds : ∀ store, pre store → post value store) :
    CrashTriple pre (Pure.pure value : Program Key Value ε α) post
      invariant := by
  intro store required
  refine ⟨fun count => ?_, ?_⟩
  · simpa [crashed, journal] using kept store required
  · rintro returned ⟨⟩
    exact holds store required

theorem CrashTriple.fail
    {error : ε}
    (kept : ∀ store, pre store → invariant store) :
    CrashTriple pre (fail error : Program Key Value ε α) post invariant := by
  intro store required
  refine ⟨fun count => ?_, ?_⟩
  · simpa [crashed, journal] using kept store required
  · rintro value ⟨⟩

theorem CrashTriple.lift
    {outcome : Except ε α}
    (kept : ∀ store, pre store → invariant store)
    (returns : ∀ value, outcome = .ok value →
      ∀ store, pre store → post value store) :
    CrashTriple pre (lift outcome : Program Key Value ε α) post
      invariant := by
  intro store required
  refine ⟨fun count => ?_, fun value returned => ?_⟩
  · simpa [crashed, journal] using kept store required
  · exact returns value returned store required

theorem CrashTriple.get
    {key : Key}
    {post : Option (Value key) → Store Key Value → Prop}
    (kept : ∀ store, pre store → invariant store)
    (holds : ∀ store, pre store → post (store key) store) :
    CrashTriple pre (get key : Program Key Value ε _) post invariant := by
  intro store required
  refine ⟨fun count => ?_, ?_⟩
  · simpa [crashed, journal] using kept store required
  · rintro value ⟨⟩
    exact holds store required

/-- A crash falls before the one put or after it. -/
theorem CrashTriple.put
    {key : Key}
    {value : Value key}
    {post : Unit → Store Key Value → Prop}
    (kept : ∀ store, pre store → invariant store)
    (keeps : ∀ store, pre store →
      invariant (Put.apply ⟨key, value⟩ store))
    (holds : ∀ store, pre store → post () (Put.apply ⟨key, value⟩ store)) :
    CrashTriple pre (put key value : Program Key Value ε Unit) post
      invariant := by
  intro store required
  refine ⟨fun count => ?_, ?_⟩
  · cases count with
    | zero => simpa [crashed] using kept store required
    | succ count => simpa [crashed, journal] using keeps store required
  · rintro ⟨⟩ -
    exact holds store required

/-- Sequencing through an intermediate condition. -/
theorem CrashTriple.bind
    {program : Program Key Value ε α}
    {next : α → Program Key Value ε β}
    {middle : α → Store Key Value → Prop}
    {post : β → Store Key Value → Prop}
    (first : CrashTriple pre program middle invariant)
    (second : ∀ value, CrashTriple (middle value) (next value) post
      invariant) :
    CrashTriple pre (program >>= next) post invariant := by
  intro store required
  obtain ⟨safe, reaches⟩ := first store required
  cases returned : program store with
  | mk outcome puts =>
      cases outcome with
      | error error =>
          refine ⟨fun count => ?_, fun value contrary => ?_⟩
          · have early := safe count
            simp only [crashed, journal, returned] at early
            simpa only [crashed, journal, run_bind_error returned] using early
          · rw [result, run_bind_error returned] at contrary
            cases contrary
      | ok value =>
          have reached := reaches value (by rw [result, returned])
          obtain ⟨laterSafe, laterReaches⟩ := second value _ reached
          simp only [final, journal, returned] at laterSafe laterReaches
          refine ⟨fun count => ?_, fun last finished => ?_⟩
          · simp only [crashed, journal, run_bind_ok returned,
              List.take_append, replay_append]
            rcases Nat.lt_or_ge count puts.length with inside | past
            · have early := safe count
              simp only [crashed, journal, returned] at early
              rw [Nat.sub_eq_zero_of_le (Nat.le_of_lt inside),
                List.take_zero, replay_nil]
              exact early
            · rw [List.take_of_length_le past]
              exact laterSafe _
          · simp only [result, run_bind_ok returned] at finished
            simp only [final, journal, run_bind_ok returned, replay_append]
            exact laterReaches last finished

/-- Strengthening the precondition. -/
theorem CrashTriple.weaken
    {program : Program Key Value ε α}
    {stronger : Store Key Value → Prop}
    (triple : CrashTriple pre program post invariant)
    (implies : ∀ store, stronger store → pre store) :
    CrashTriple stronger program post invariant :=
  fun store required => triple store (implies store required)

/-- Weakening the postcondition and the invariant. -/
theorem CrashTriple.conseq
    {program : Program Key Value ε α}
    {weakerPost : α → Store Key Value → Prop}
    {weaker : Store Key Value → Prop}
    (triple : CrashTriple pre program post invariant)
    (posts : ∀ value store, post value store → weakerPost value store)
    (invariants : ∀ store, invariant store → weaker store) :
    CrashTriple pre program weakerPost weaker := by
  intro store required
  obtain ⟨safe, reaches⟩ := triple store required
  exact ⟨fun count => invariants _ (safe count),
    fun value returned => posts value _ (reaches value returned)⟩

/-- A loop over a list, one element after the other. -/
theorem CrashTriple.foldlM
    {step : α → β → Program Key Value ε α}
    {elements : List β}
    (kept : ∀ store, pre store → invariant store)
    (each : ∀ element ∈ elements, ∀ value,
      CrashTriple pre (step value element) (fun _ => pre) invariant)
    (value : α) :
    CrashTriple pre (elements.foldlM step value) (fun _ => pre)
      invariant := by
  induction elements generalizing value with
  | nil => exact CrashTriple.pure kept fun _ required => required
  | cons element elements inductionHypothesis =>
      rw [List.foldlM_cons]
      exact (each element (by simp) value).bind fun next =>
        inductionHypothesis
          (fun later member => each later (List.mem_cons_of_mem _ member))
          next

/-- A loop over a list for its puts only. -/
theorem CrashTriple.forM
    {step : β → Program Key Value ε PUnit}
    {elements : List β}
    (kept : ∀ store, pre store → invariant store)
    (each : ∀ element ∈ elements,
      CrashTriple pre (step element) (fun _ => pre) invariant) :
    CrashTriple pre (elements.forM step) (fun _ => pre) invariant := by
  induction elements with
  | nil => exact CrashTriple.pure kept fun _ required => required
  | cons element elements inductionHypothesis =>
      exact (each element (by simp)).bind fun _ =>
        inductionHypothesis
          fun later member => each later (List.mem_cons_of_mem _ member)

end Rules

/-- A crash after all puts leaves the final store. -/
theorem crashed_length
    (program : Program Key Value ε α)
    (store : Store Key Value) :
    program.crashed store (program.journal store).length =
      program.final store := by
  rw [crashed, final, List.take_length]

/-- The store that is left satisfies the invariant, whatever the result is. -/
theorem CrashTriple.final
    {program : Program Key Value ε α}
    {pre invariant : Store Key Value → Prop}
    {post : α → Store Key Value → Prop}
    (triple : CrashTriple pre program post invariant)
    {store : Store Key Value}
    (required : pre store) :
    invariant (program.final store) := by
  rw [← crashed_length]
  exact (triple store required).1 _

end Program

end Journal
