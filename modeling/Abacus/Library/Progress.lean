import Abacus.Library.Machine
import Mathlib.Order.WellFounded

/-!
# What a machine does sooner or later

An infinite run consumes one event at each of the points `0, 1, 2, …`. One
property of the points leads to another one if wherever the first holds, the
second holds there or later. The rule of the variant proves it: some value
stays the same or goes down at every point, and it never stays the same
forever.
-/

namespace Machine

universe u v w

section Infinite

variable {σ : Type u} {ε : Type v} (step : σ → ε → σ)

/-- The state at a point of an infinite run. -/
def stateAt (state : σ) (events : Nat → ε) : Nat → σ
  | 0 => state
  | now + 1 => step (stateAt state events now) (events now)

/-- The events before a point of an infinite run. -/
def eventsBefore (events : Nat → ε) (now : Nat) : List ε :=
  (List.range now).map events

/-- An infinite run is at each point where the finite one ends that consumes
the events before the point. -/
theorem stateAt_eq_run (state : σ) (events : Nat → ε) (now : Nat) :
    stateAt step state events now =
      run step state (eventsBefore events now) := by
  induction now with
  | zero => rfl
  | succ now inductionHypothesis =>
      rw [eventsBefore, List.range_succ, List.map_append, List.map_singleton,
        run_concat, stateAt, inductionHypothesis, eventsBefore]

/-- What holds of every event holds of the ones before a point. -/
theorem forall_mem_eventsBefore
    {Holds : ε → Prop}
    {events : Nat → ε}
    (holds : ∀ now, Holds (events now))
    (now : Nat) :
    ∀ event ∈ eventsBefore events now, Holds event := by
  intro event member
  obtain ⟨earlier, -, rfl⟩ := List.mem_map.mp member
  exact holds earlier

/-- An event before a point, with the events before it. -/
theorem eq_of_eventsBefore_eq_append
    {events : Nat → ε}
    {now : Nat}
    {before after : List ε}
    {event : ε}
    (split : eventsBefore events now = before ++ event :: after) :
    ∃ earlier, earlier < now ∧ before = eventsBefore events earlier ∧
      event = events earlier := by
  obtain ⟨first, rest, whole, rfl, others⟩ := List.map_eq_append_iff.mp split
  rw [List.range_eq_range'] at whole
  obtain ⟨earlier, inside, rfl, rfl⟩ := List.range'_eq_append_iff.mp whole
  obtain ⟨next, later, points, rfl, -⟩ := List.map_eq_cons_iff.mp others
  obtain ⟨rfl, positive, -⟩ := List.range'_eq_cons_iff.mp points
  refine ⟨earlier, by omega, ?_, by simp⟩
  rw [eventsBefore, List.range_eq_range']

end Infinite

/-- Wherever the first holds, the second holds there or later. -/
def LeadsTo (first second : Nat → Prop) : Prop :=
  ∀ now, first now → ∃ later, now ≤ later ∧ second later

/-- It happens again and again. -/
def Recurs (happens : Nat → Prop) : Prop :=
  ∀ now, ∃ later, now ≤ later ∧ happens later

variable {first second third : Nat → Prop}

theorem LeadsTo.trans
    (leads : LeadsTo first second)
    (further : LeadsTo second third) :
    LeadsTo first third := by
  intro now holds
  obtain ⟨later, after, reached⟩ := leads now holds
  obtain ⟨goal, beyond, arrives⟩ := further later reached
  exact ⟨goal, after.trans beyond, arrives⟩

/-- What holds at a point and is kept by every later step holds at all later
points. -/
theorem holds_of_kept
    (property : Nat → Prop)
    {start now : Nat}
    (after : start ≤ now)
    (holds : property start)
    (kept : ∀ now, start ≤ now → property now → property (now + 1)) :
    property now := by
  induction now, after using Nat.le_induction with
  | base => exact holds
  | succ now after inductionHypothesis =>
      exact kept now after inductionHypothesis

/-- Finitely many things that come to stay are all there in the end. -/
theorem exists_forall_lt
    (stays : Nat → Nat → Prop)
    (kept : ∀ index now later, now ≤ later → stays index now →
      stays index later)
    {bound : Nat}
    (comes : ∀ index, index < bound → ∃ now, stays index now)
    (start : Nat) :
    ∃ now, start ≤ now ∧ ∀ index, index < bound → stays index now := by
  induction bound with
  | zero => exact ⟨start, le_rfl, fun _ nothing => by omega⟩
  | succ bound inductionHypothesis =>
      obtain ⟨now, after, earlier⟩ :=
        inductionHypothesis fun index below => comes index (by omega)
      obtain ⟨arrival, last⟩ := comes bound (by omega)
      refine ⟨max now arrival, after.trans (le_max_left _ _), ?_⟩
      intro index below
      rcases Nat.lt_succ_iff_lt_or_eq.mp below with smaller | rfl
      · exact kept index now _ (le_max_left _ _) (earlier index smaller)
      · exact kept index arrival _ (le_max_right _ _) last

/-- The rule of the variant: every step reaches the goal, or keeps the variant,
or brings it down, and from every point on there is a step that does not keep
it. -/
theorem LeadsTo.of_variant
    {α : Type w}
    {below : α → α → Prop}
    (wellFounded : WellFounded below)
    (variant : Nat → α)
    (each : ∀ now, first now → second (now + 1) ∨
      first (now + 1) ∧ (variant (now + 1) = variant now ∨
        below (variant (now + 1)) (variant now)))
    (moves : ∀ now, first now → ∃ later, now ≤ later ∧
      (first later → variant later = variant now →
        second (later + 1) ∨
          below (variant (later + 1)) (variant later))) :
    LeadsTo first second := by
  intro now holds
  generalize stands : variant now = value
  induction value using wellFounded.induction generalizing now with
  | _ value inductionHypothesis =>
      obtain ⟨later, after, moved⟩ := moves now holds
      -- up to the step that moves, the variant is kept or has gone down
      have waits : ∀ point, now ≤ point →
          (∃ reached, now ≤ reached ∧ second reached) ∨
            first point ∧ variant point = value := by
        intro point between
        induction point, between using Nat.le_induction with
        | base => exact .inr ⟨holds, stands⟩
        | succ point between earlier =>
            rcases earlier with done | ⟨keeps, same⟩
            · exact .inl done
            · rcases each point keeps with reached | ⟨next, kept | lower⟩
              · exact .inl ⟨point + 1, by omega, reached⟩
              · exact .inr ⟨next, kept.trans same⟩
              · obtain ⟨goal, beyond, reached⟩ := inductionHypothesis _
                  (same ▸ lower) (point + 1) next rfl
                exact .inl ⟨goal, by omega, reached⟩
      rcases waits later after with done | ⟨keeps, same⟩
      · exact done
      · rcases moved keeps (same.trans stands.symm) with reached | lower
        · exact ⟨later + 1, by omega, reached⟩
        · rcases each later keeps with reached | ⟨next, -⟩
          · exact ⟨later + 1, by omega, reached⟩
          · obtain ⟨goal, beyond, reached⟩ := inductionHypothesis _
              (same ▸ lower) (later + 1) next rfl
            exact ⟨goal, by omega, reached⟩

end Machine
