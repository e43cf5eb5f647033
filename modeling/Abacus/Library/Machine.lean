import Mathlib.Data.List.Basic

/-!
# Runs of event-driven state machines

A machine is a total step function on a state and an event; a run consumes a
list of events from left to right. The rules below carry a one-step fact to
every run: an invariant under admissible events, with or without what the run
has put out so far, a relation between the two ends of a run, and the step at
which a slow counter moves past a value.
-/

namespace Machine

universe u v

variable {σ : Type u} {ε : Type v} (step : σ → ε → σ)

/-- State reached from `state` by consuming a list of events. -/
def run (state : σ) (events : List ε) : σ :=
  events.foldl step state

@[simp] theorem run_nil (state : σ) : run step state [] = state := rfl

@[simp] theorem run_cons (state : σ) (event : ε) (events : List ε) :
    run step state (event :: events) = run step (step state event) events :=
  rfl

theorem run_append (state : σ) (first second : List ε) :
    run step state (first ++ second) =
      run step (run step state first) second := by
  simp [run, List.foldl_append]

theorem run_concat (state : σ) (events : List ε) (event : ε) :
    run step state (events ++ [event]) =
      step (run step state events) event := by
  simp [run_append]

/-- Every event of a run is admissible in the state in which it is consumed. -/
def AdmissibleRun (Admissible : σ → ε → Prop) : σ → List ε → Prop
  | _, [] => True
  | state, event :: events =>
      Admissible state event ∧
        AdmissibleRun Admissible (step state event) events

/-- Admissibility that does not depend on the state. -/
theorem admissibleRun_of_forall
    {Admissible : ε → Prop}
    (state : σ)
    {events : List ε}
    (admissible : ∀ event ∈ events, Admissible event) :
    AdmissibleRun step (fun _ => Admissible) state events := by
  induction events generalizing state with
  | nil => trivial
  | cons event events inductionHypothesis =>
      exact ⟨admissible event (by simp), inductionHypothesis _
        fun later member => admissible later (List.mem_cons_of_mem _ member)⟩

/-- The event at any point of an admissible run is admissible there. -/
theorem AdmissibleRun.at_split
    {Admissible : σ → ε → Prop}
    {state : σ}
    {before after : List ε}
    {event : ε}
    (admissible :
      AdmissibleRun step Admissible state (before ++ event :: after)) :
    Admissible (run step state before) event := by
  induction before generalizing state with
  | nil => exact admissible.1
  | cons first before inductionHypothesis =>
      exact inductionHypothesis admissible.2

/-- A run is admissible if the event at every point of it is. -/
theorem admissibleRun_of_forall_split
    {Admissible : σ → ε → Prop}
    {state : σ}
    {events : List ε}
    (admissible : ∀ before event after, events = before ++ event :: after →
      Admissible (run step state before) event) :
    AdmissibleRun step Admissible state events := by
  induction events generalizing state with
  | nil => trivial
  | cons event events inductionHypothesis =>
      refine ⟨admissible [] event events rfl, inductionHypothesis ?_⟩
      intro before later after split
      exact admissible (event :: before) later after (by rw [split]; rfl)

/-- The first part of an admissible run is admissible. -/
theorem AdmissibleRun.left
    {Admissible : σ → ε → Prop}
    {state : σ}
    {first second : List ε}
    (admissible : AdmissibleRun step Admissible state (first ++ second)) :
    AdmissibleRun step Admissible state first := by
  induction first generalizing state with
  | nil => trivial
  | cons event first inductionHypothesis =>
      exact ⟨admissible.1, inductionHypothesis admissible.2⟩

/-- Admissible runs compose. -/
theorem AdmissibleRun.append
    {Admissible : σ → ε → Prop}
    {state : σ}
    {first second : List ε}
    (earlier : AdmissibleRun step Admissible state first)
    (later :
      AdmissibleRun step Admissible (run step state first) second) :
    AdmissibleRun step Admissible state (first ++ second) := by
  induction first generalizing state with
  | nil => exact later
  | cons event first inductionHypothesis =>
      exact ⟨earlier.1, inductionHypothesis earlier.2 later⟩

/-- Two kinds of admissibility together. -/
theorem AdmissibleRun.and
    {First Second : σ → ε → Prop}
    {state : σ}
    {events : List ε}
    (first : AdmissibleRun step First state events)
    (second : AdmissibleRun step Second state events) :
    AdmissibleRun step (fun state event => First state event ∧
      Second state event) state events := by
  induction events generalizing state with
  | nil => trivial
  | cons event events inductionHypothesis =>
      exact ⟨⟨first.1, second.1⟩, inductionHypothesis first.2 second.2⟩

/-- An invariant that every admissible event preserves holds after every run
of admissible events. -/
theorem invariant_run
    (Invariant : σ → Prop)
    {Admissible : σ → ε → Prop}
    (preserved : ∀ state event, Admissible state event → Invariant state →
      Invariant (step state event))
    {state : σ}
    (initial : Invariant state)
    {events : List ε}
    (admissible : AdmissibleRun step Admissible state events) :
    Invariant (run step state events) := by
  induction events generalizing state with
  | nil => exact initial
  | cons event events inductionHypothesis =>
      exact inductionHypothesis
        (preserved state event admissible.1 initial) admissible.2

/-- An invariant of the state and of the events so far that every admissible
event preserves holds after every run of admissible events. -/
theorem invariant_run_past
    (Invariant : List ε → σ → Prop)
    {Admissible : ε → Prop}
    (preserved : ∀ past state event, Admissible event →
      Invariant past state → Invariant (past ++ [event]) (step state event))
    {past : List ε}
    {state : σ}
    (initial : Invariant past state)
    {events : List ε}
    (admissible : ∀ event ∈ events, Admissible event) :
    Invariant (past ++ events) (run step state events) := by
  induction events generalizing past state with
  | nil => simpa using initial
  | cons event events inductionHypothesis =>
      rw [List.append_cons]
      exact inductionHypothesis
        (preserved past state event (admissible event (by simp)) initial)
        fun later member => admissible later (List.mem_cons_of_mem _ member)

/-- Two kinds of admissibility that agree wherever an invariant holds admit
the same runs of allowed events. -/
theorem admissibleRun_iff
    (Invariant : σ → Prop)
    {Allowed First Second : σ → ε → Prop}
    (preserved : ∀ state event, Allowed state event → Invariant state →
      Invariant (step state event))
    (agree : ∀ state event, Allowed state event → Invariant state →
      (First state event ↔ Second state event))
    {state : σ}
    (initial : Invariant state)
    {events : List ε}
    (allowed : AdmissibleRun step Allowed state events) :
    AdmissibleRun step First state events ↔
      AdmissibleRun step Second state events := by
  induction events generalizing state with
  | nil => exact Iff.rfl
  | cons event events inductionHypothesis =>
      exact and_congr (agree state event allowed.1 initial)
        (inductionHypothesis (preserved state event allowed.1 initial)
          allowed.2)

/-- Two machines whose steps respect a relation between their states are
related after every run of admissible events. -/
theorem simulation_run
    {τ : Type*}
    {other : τ → ε → τ}
    (Related : σ → τ → Prop)
    {Admissible : τ → ε → Prop}
    (respected : ∀ state specification event,
      Admissible specification event → Related state specification →
        Related (step state event) (other specification event))
    {state : σ}
    {specification : τ}
    (initial : Related state specification)
    {events : List ε}
    (admissible : AdmissibleRun other Admissible specification events) :
    Related (run step state events) (run other specification events) := by
  induction events generalizing state specification with
  | nil => exact initial
  | cons event events inductionHypothesis =>
      exact inductionHypothesis
        (respected state specification event admissible.1 initial)
        admissible.2

/-- A reflexive and transitive relation that every step respects relates the
two ends of every run. -/
theorem relation_run
    {Relation : σ → σ → Prop}
    (reflexive : ∀ state, Relation state state)
    (transitive : ∀ first second third,
      Relation first second → Relation second third → Relation first third)
    (respected : ∀ state event, Relation state (step state event))
    (state : σ)
    (events : List ε) :
    Relation state (run step state events) := by
  induction events generalizing state with
  | nil => exact reflexive state
  | cons event events inductionHypothesis =>
      exact transitive _ _ _ (respected state event)
        (inductionHypothesis (step state event))

/-- What does not hold before a run and holds after it is brought about by
some event of the run. -/
theorem exists_first_step
    (Reached : σ → Prop)
    {state : σ}
    {events : List ε}
    (unreached : ¬ Reached state)
    (reached : Reached (run step state events)) :
    ∃ before event after,
      events = before ++ event :: after ∧
        ¬ Reached (run step state before) ∧
        Reached (step (run step state before) event) := by
  induction events generalizing state with
  | nil => exact absurd reached unreached
  | cons event events inductionHypothesis =>
      by_cases now : Reached (step state event)
      · exact ⟨[], event, events, rfl, unreached, now⟩
      · obtain ⟨before, cause, after, split, earlier, later⟩ :=
          inductionHypothesis now reached
        exact ⟨event :: before, cause, after, by rw [split]; rfl, earlier,
          later⟩

/-- A counter that no step lowers and no step raises by more than one moves
past every value below its final one at some event of the run. -/
theorem exists_crossing
    (counter : σ → Nat)
    (slow : ∀ state event,
      counter (step state event) = counter state ∨
        counter (step state event) = counter state + 1)
    {state : σ}
    {events : List ε}
    {value : Nat}
    (above : counter state ≤ value)
    (below : value < counter (run step state events)) :
    ∃ before event after,
      events = before ++ event :: after ∧
        counter (run step state before) = value ∧
        counter (step (run step state before) event) = value + 1 := by
  obtain ⟨before, event, after, split, earlier, later⟩ :=
    exists_first_step step (fun state => value < counter state)
      (Nat.not_lt.mpr above) below
  refine ⟨before, event, after, split, ?_, ?_⟩ <;>
    rcases slow (run step state before) event with same | raised <;>
    omega

/-! ## Logs -/

section Log

variable {ω : Type*} (output : σ → ε → List ω)

/-- What a run puts out, in order. -/
def log : σ → List ε → List ω
  | _, [] => []
  | state, event :: events =>
      output state event ++ log (step state event) events

@[simp] theorem log_nil (state : σ) : log step output state [] = [] := rfl

@[simp] theorem log_cons (state : σ) (event : ε) (events : List ε) :
    log step output state (event :: events) =
      output state event ++ log step output (step state event) events := rfl

/-- What holds of all that the events of a run put out holds of its log. -/
theorem forall_mem_log
    {Holds : ω → Prop}
    {events : List ε}
    (puts : ∀ event ∈ events, ∀ state, ∀ put ∈ output state event, Holds put)
    (state : σ) :
    ∀ put ∈ log step output state events, Holds put := by
  induction events generalizing state with
  | nil => exact fun put member => by cases member
  | cons event events inductionHypothesis =>
      intro put member
      rcases List.mem_append.mp member with now | later
      · exact puts event List.mem_cons_self state put now
      · exact inductionHypothesis (fun other inside =>
          puts other (List.mem_cons_of_mem _ inside)) _ put later

/-- An invariant of the state and of the log so far that every admissible
event preserves holds after every run of admissible events. -/
theorem invariant_log
    (Invariant : List ω → σ → Prop)
    {Admissible : σ → ε → Prop}
    (preserved : ∀ past state event, Admissible state event →
      Invariant past state →
        Invariant (past ++ output state event) (step state event))
    {past : List ω}
    {state : σ}
    (initial : Invariant past state)
    {events : List ε}
    (admissible : AdmissibleRun step Admissible state events) :
    Invariant (past ++ log step output state events)
      (run step state events) := by
  induction events generalizing past state with
  | nil => simpa using initial
  | cons event events inductionHypothesis =>
      rw [log_cons, ← List.append_assoc]
      exact inductionHypothesis
        (preserved past state event admissible.1 initial) admissible.2

/-- If an allowed event preserves an invariant exactly when it meets a
requirement, a run of allowed events keeps the invariant throughout exactly
when all of its events meet the requirement. -/
theorem forall_prefix_iff
    (Invariant : List ω → σ → Prop)
    {Allowed Required : σ → ε → Prop}
    (preserved_iff : ∀ past state event, Allowed state event →
      Invariant past state →
        (Invariant (past ++ output state event) (step state event) ↔
          Required state event))
    {past : List ω}
    {state : σ}
    (initial : Invariant past state)
    {events : List ε}
    (allowed : AdmissibleRun step Allowed state events) :
    (∀ before after, events = before ++ after →
        Invariant (past ++ log step output state before)
          (run step state before)) ↔
      AdmissibleRun step Required state events := by
  induction events generalizing past state with
  | nil =>
      refine iff_of_true ?_ trivial
      intro before after split
      obtain ⟨rfl, -⟩ := List.append_eq_nil_iff.mp split.symm
      simpa using initial
  | cons event events inductionHypothesis =>
      have one := preserved_iff past state event allowed.1 initial
      constructor
      · intro throughout
        have first := throughout [event] events rfl
        rw [log_cons, log_nil, List.append_nil, run_cons, run_nil] at first
        refine ⟨one.mp first, (inductionHypothesis first allowed.2).mp ?_⟩
        intro before after split
        have later := throughout (event :: before) after (by rw [split]; rfl)
        rwa [log_cons, ← List.append_assoc, run_cons] at later
      · rintro ⟨now, later⟩ before after split
        cases before with
        | nil => simpa using initial
        | cons first before =>
            obtain ⟨rfl, rest⟩ := List.cons.inj split
            rw [log_cons, ← List.append_assoc, run_cons]
            exact (inductionHypothesis (one.mpr now) allowed.2).mpr later
              before after rest

end Log

/-! ## Fallible runs -/

/-- A fallible step that succeeds below a capacity, and keeps a description of
the elements consumed so far, consumes every list that fits. -/
theorem exists_foldlM_eq_ok
    {ε σ α : Type}
    (step : σ → α → Except ε σ)
    (Holds : List α → σ → Prop)
    {capacity : Nat}
    (succeeds : ∀ consumed state element,
      Holds consumed state → consumed.length < capacity →
        ∃ after, step state element = .ok after ∧
          Holds (consumed ++ [element]) after)
    {consumed : List α}
    {state : σ}
    (holds : Holds consumed state)
    (elements : List α)
    (fits : consumed.length + elements.length ≤ capacity) :
    ∃ after, elements.foldlM step state = .ok after ∧
      Holds (consumed ++ elements) after := by
  induction elements generalizing consumed state with
  | nil => exact ⟨state, rfl, by simpa using holds⟩
  | cons element elements inductionHypothesis =>
      rw [List.length_cons] at fits
      obtain ⟨next, stepped, nextHolds⟩ :=
        succeeds consumed state element holds (by omega)
      have nextFits :
          (consumed ++ [element]).length + elements.length ≤ capacity := by
        simp
        omega
      obtain ⟨after, finished, afterHolds⟩ :=
        inductionHypothesis nextHolds nextFits
      refine ⟨after, ?_, by simpa using afterHolds⟩
      rw [List.foldlM_cons, stepped]
      exact finished

end Machine
