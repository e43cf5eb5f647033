import Abacus.Library.Progress
import Abacus.Relayer.RelayerConservation
import Abacus.Relayer.ScanProgress

/-!
# Every covered message is processed in the end

In an infinite run in which the tasks of an inbox do not end, its processor
makes steps again and again, and its inbox takes messages again and again,
everything that a published checkpoint covers is recorded as processed in the
end. New messages go first in the run queue, but there are only so many leaf
indices that a message can be overtaken.
-/

namespace Abacus

open Machine (stateAt eventsBefore LeadsTo Recurs)

/-- The inbox takes every message, and the database every record. -/
structure TickAnswers.Accepts (answers : TickAnswers) : Prop where
  process : ∀ checkpoint message proof, ∃ outcome,
    answers.process checkpoint message proof = .ok outcome
  markLeaf : answers.markLeaf = .ok ()

/-- Whether the channel is closed makes no difference to the inbox. -/
theorem TickAnswers.Accepts.answers
    {answers : TickAnswers}
    (accepts : answers.Accepts)
    (tasks : InboxTasks) :
    (tasks.answers answers).Accepts :=
  ⟨accepts.process, accepts.markLeaf⟩

section Queue

variable [Crypto]

/-! ## One inbox -/

namespace SerialSubmitter

/-- A message that is taken is not put back into the run queue. -/
theorem runQueue_handle_of_accepts
    {answers : TickAnswers}
    (accepts : answers.Accepts)
    (msg : SubmitMessageArgs)
    (submitter : SerialSubmitter) :
    (handle answers msg submitter).2.rx = submitter.rx ∧
      (handle answers msg submitter).2.waitQueue = submitter.waitQueue ∧
      (handle answers msg submitter).2.runQueue = submitter.runQueue := by
  obtain ⟨outcome, taken⟩ := accepts.process msg.checkpoint
    msg.committedMessage.message msg.proof
  unfold handle
  cases answers.messageStatus msg.committedMessage.toLeaf with
  | error error => exact ⟨rfl, rfl, rfl⟩
  | ok status =>
      cases status with
      | processed => exact ⟨rfl, rfl, rfl⟩
      | none =>
          simp [attempt, processMessage, taken, recordMessageProcessSuccess,
            accepts.markLeaf]

end SerialSubmitter

namespace InboxTasks

/-- Neither of the two tasks has ended. -/
structure Running (tasks : InboxTasks) : Prop where
  submitter : tasks.submitterEnd = none
  processor : Pipeline.ended tasks.processor.phase = false

/-- A bound of the ticks that are left: every message in the queue takes one,
and so does every index that the scan has not moved past. -/
def ticksLeft (tasks : InboxTasks) : Nat :=
  2 * (2 ^ 32 - tasks.processor.messageLeafIndex.toNat) + tasks.queue.length

/-- A step of the processor takes an index for every message that it puts in
the queue. -/
theorem ticksLeft_process_le
    {around : Surroundings}
    {tasks : InboxTasks}
    (running : (tasks.process around).Running) :
    (tasks.process around).ticksLeft ≤ tasks.ticksLeft := by
  have transition := MessageProcessor.transition_step around tasks.processor
  cases stepped : tasks.processor.step around with
  | mk after sent =>
      rw [stepped] at transition
      have forward := transition.index_le
      cases sent with
      | none =>
          rw [process_of_unsent stepped]
          simp only [ticksLeft, queue] at forward ⊢
          omega
      | some sent =>
          obtain ⟨moved, perm⟩ := queue_process_of_sent stepped
          have length := perm.length_eq
          rw [List.length_cons] at length
          have going := running.processor
          simp only [ticksLeft, moved, length] at going ⊢
          cases transition with
          | @send message checkpoint proof next sends successor =>
              have bound := next.toNat_lt
              simp only [successor]
              omega
          | sendLast sends last => cases going

/-- A tick adds nothing to the queue. -/
theorem ticksLeft_tick_le
    (answers : TickAnswers)
    (db : AbacusDB)
    (tasks : InboxTasks) :
    (tasks.tick answers db).1.ticksLeft ≤ tasks.ticksLeft := by
  have ticks := ticks_tick answers db tasks
  have length := ticks.remains.length_le
  rw [List.length_map, List.length_map] at length
  rw [ticksLeft, ticksLeft, ticks.processor_eq]
  omega

/-- A tick that goes on and can record its message takes it from the queue. -/
theorem ticksLeft_tick_lt
    {answers : TickAnswers}
    {db : AbacusDB}
    {tasks : InboxTasks}
    (accepts : answers.Accepts)
    (before : tasks.submitterEnd = none)
    (after : (tasks.tick answers db).1.submitterEnd = none)
    (waiting : tasks.queue ≠ []) :
    (tasks.tick answers db).1.ticksLeft < tasks.ticksLeft := by
  by_cases gelato : tasks.gelato = true
  · simp [tick, before, gelato] at after
  simp only [tick, before, gelato, Option.isSome_none, Bool.false_eq_true,
    if_false] at after ⊢
  unfold SerialSubmitter.tick at after ⊢
  by_cases closed : (tasks.answers answers).disconnected = true
  · simp [closed] at after
  have listed : (tasks.submitter db).waitQueue ++ (tasks.submitter db).rx ++
      (tasks.submitter db).runQueue = tasks.queue := rfl
  simp only [closed, Bool.false_eq_true, if_false, listed] at after ⊢
  cases queued : tasks.queue with
  | nil => exact absurd queued waiting
  | cons msg rest =>
      obtain ⟨rx, waitQueue, runQueue⟩ :=
        SerialSubmitter.runQueue_handle_of_accepts (accepts.answers tasks) msg
          { tasks.submitter db with
            rx := [], waitQueue := [], runQueue := rest }
      simp only [ticksLeft, queue] at queued ⊢
      simp only [queued, rx, waitQueue, runQueue, List.length_cons,
        List.nil_append]
      omega

/-- The tasks of an inbox after an event. -/
def after (number : Nat) (relayer : Relayer) (tasks : InboxTasks) :
    Relayer.Event → InboxTasks
  | .process position dbFails =>
      if position = number then tasks.process (relayer.around tasks dbFails)
      else tasks
  | .tick position answers =>
      if position = number then (tasks.tick answers relayer.db).1 else tasks
  | _ => tasks

/-- An event is a step of the processor of an inbox, a tick of its submitter,
or none of its business. -/
theorem after_cases
    (number : Nat)
    (relayer : Relayer)
    (tasks : InboxTasks)
    (event : Relayer.Event) :
    (∃ dbFails, event = .process number dbFails ∧
        tasks.after number relayer event =
          tasks.process (relayer.around tasks dbFails)) ∨
      (∃ answers, event = .tick number answers ∧
        tasks.after number relayer event =
          (tasks.tick answers relayer.db).1) ∨
      tasks.after number relayer event = tasks := by
  cases event with
  | process position dbFails =>
      by_cases same : position = number
      · exact .inl ⟨dbFails, by rw [same], if_pos same⟩
      · exact .inr (.inr (if_neg same))
  | tick position answers =>
      by_cases same : position = number
      · exact .inr (.inl ⟨answers, by rw [same], if_pos same⟩)
      · exact .inr (.inr (if_neg same))
  | _ => exact .inr (.inr rfl)

/-- An event after which both tasks go on does not add to the ticks that are
left. -/
theorem ticksLeft_after_le
    {number : Nat}
    {relayer : Relayer}
    {tasks : InboxTasks}
    {event : Relayer.Event}
    (running : (tasks.after number relayer event).Running) :
    (tasks.after number relayer event).ticksLeft ≤ tasks.ticksLeft := by
  rcases after_cases number relayer tasks event with
    ⟨dbFails, -, same⟩ | ⟨answers, -, same⟩ | same
  · rw [same] at running ⊢
    exact ticksLeft_process_le running
  · rw [same]
    exact ticksLeft_tick_le answers relayer.db tasks
  · rw [same]

/-- Only the processor itself changes it. -/
theorem processor_after
    (number : Nat)
    (relayer : Relayer)
    (tasks : InboxTasks)
    (event : Relayer.Event) :
    (tasks.after number relayer event).processor = tasks.processor ∨
      ∃ dbFails, (tasks.after number relayer event).processor =
        (tasks.processor.step (relayer.around tasks dbFails)).1 := by
  rcases after_cases number relayer tasks event with
    ⟨dbFails, -, same⟩ | ⟨answers, -, same⟩ | same
  · exact .inr ⟨dbFails, by rw [same]; rfl⟩
  · rw [same]
    exact .inl (ticks_tick answers relayer.db tasks).processor_eq
  · rw [same]
    exact .inl rfl

end InboxTasks

end Queue

namespace Relayer

/-- What a change of the tasks of one inbox does to another one. -/
theorem inboxes_modifyInbox
    {relayer : Relayer}
    {number : Nat}
    {tasks : InboxTasks}
    (found : relayer.inboxes[number]? = some tasks)
    (position : Nat)
    (change : InboxTasks → InboxTasks × AbacusDB) :
    (relayer.modifyInbox position change).inboxes[number]? =
      some (if position = number then (change tasks).1 else tasks) := by
  unfold modifyInbox
  by_cases same : position = number
  · subst same
    obtain ⟨inside, -⟩ := List.getElem?_eq_some_iff.mp found
    simp only [found, if_true]
    exact List.getElem?_set_self inside
  · rw [if_neg same]
    split
    · exact found
    · exact (List.getElem?_set_ne same).trans found

section Liveness

variable [Crypto]

/-- What an event does to the tasks of an inbox. -/
theorem inboxes_step
    {relayer : Relayer}
    {number : Nat}
    {tasks : InboxTasks}
    (found : relayer.inboxes[number]? = some tasks)
    {event : Event}
    (continues : event.Continues) :
    (relayer.step event).inboxes[number]? =
      some (tasks.after number relayer event) := by
  cases event with
  | process position dbFails =>
      exact inboxes_modifyInbox found position _
  | tick position answers => exact inboxes_modifyInbox found position _
  | restart conf => exact continues.elim
  | _ => exact found

section Step

variable {chain : OutboxChain}
variable {Fetched : MultisigSignedCheckpoint → Prop}
variable {relayer : Relayer}

/-- The puts of the tasks keep what is stored. -/
theorem stores_replay
    (distinct : chain.Distinct)
    {db : AbacusDB}
    (fills : chain.Fills db)
    {puts : List DbPut}
    (allowed : ∀ put ∈ puts, TaskPut chain put)
    {index : UInt32}
    (stores : db.Stores index) :
    AbacusDB.Stores (Journal.replay db puts) index := by
  induction puts generalizing db with
  | nil => exact stores
  | cons put puts inductionHypothesis =>
      have made := allowed put List.mem_cons_self
      have keeps := keeps_of_taskPut fills distinct made
      obtain ⟨leaf, raw, leafStored, rawStored⟩ := stores
      exact inductionHypothesis (fills.apply made)
        (fun later member => allowed later (List.mem_cons_of_mem _ member))
        ⟨leaf, raw, keeps.leaf leafStored, keeps.message rawStored⟩

/-- The newest published checkpoint covers an index. -/
def Covers (relayer : Relayer) (index : UInt32) : Prop :=
  ∃ newest, relayer.ckpt = some newest ∧ index ≤ newest.checkpoint.index

/-- An index stays covered: the fetcher sends increasing indices. -/
theorem Covers.step
    {index : UInt32}
    (covers : relayer.Covers index)
    (invariant : Invariant chain Fetched relayer)
    {number : Nat}
    {tasks : InboxTasks}
    (found : relayer.inboxes[number]? = some tasks)
    {event : Event}
    (admissible : Admissible chain event)
    (continues : event.Continues) :
    (relayer.step event).Covers index := by
  obtain ⟨newest, published, below⟩ := covers
  cases event with
  | fetch latestIndex syncer =>
      simp only [Covers, Relayer.step, Relayer.fetch]
      split
      · rename_i checkpoint last
        refine ⟨checkpoint, rfl, UInt32.le_trans below ?_⟩
        have sound := invariant.sound tasks (List.mem_of_getElem? found)
        have sent := List.mem_of_getLast? last
        cases running : relayer.fetcher with
        | error error =>
            rw [running] at sent
            cases sent
        | ok fetcher =>
            have latest := sound.pipeline.latest fetcher newest
              (by simp only [Relayer.pipeline, running]; rfl) published
            rw [running] at sent
            unfold CheckpointFetcher.sends at sent
            simp only at sent
            split at sent
            · cases sent
            · rename_i after outcome iterated
              obtain rfl := Option.mem_toList.mp sent
              rcases CheckpointFetcher.iteration_cases iterated with
                ⟨-, nothing⟩ | ⟨requested, other, same, -, above, answer, -⟩
              · cases nothing
              · cases same
                rw [← index_eq_of_fetchCheckpoint answer] at above
                exact UInt32.le_trans latest (UInt32.le_of_lt above)
      · exact ⟨newest, published, below⟩
  | restart conf => exact continues.elim
  | process position dbFails =>
      simp only [Covers, Relayer.step, modifyInbox]
      split <;> exact ⟨newest, published, below⟩
  | tick position answers =>
      simp only [Covers, Relayer.step, modifyInbox]
      split <;> exact ⟨newest, published, below⟩
  | _ => exact ⟨newest, published, below⟩

end Step

/-! ## Infinite runs -/

section Runs

variable {chain : OutboxChain}

/-- The relayer at a point of an infinite run. -/
abbrev atPoint (relayer : Relayer) (events : Nat → Event) (now : Nat) :
    Relayer :=
  stateAt step relayer events now

/-- An infinite run of all tasks, and what holds at its points. -/
structure Lawful (chain : OutboxChain) (relayer : Relayer)
    (events : Nat → Event) : Prop where
  distinct : chain.Distinct
  admissible : ∀ now, Admissible chain (events now)
  invariant : ∀ now,
    Invariant chain (fun _ => True) (relayer.atPoint events now)
  accounted : ∀ now, AllAccounted chain (relayer.atPoint events now)

/-- Both tasks of an inbox go on from some point on. -/
structure GoesOn (relayer : Relayer) (events : Nat → Event) (number since : Nat)
    (tasks : Nat → InboxTasks) : Prop where
  continues : ∀ now, since ≤ now → (events now).Continues
  found : ∀ now, since ≤ now →
    (relayer.atPoint events now).inboxes[number]? = some (tasks now)
  running : ∀ now, since ≤ now → (tasks now).Running

variable {relayer : Relayer}
variable {events : Nat → Event}

/-- What holds at the points of a run from the empty database. -/
theorem lawful_of_started
    (distinct : chain.Distinct)
    {conf : RelayerConf}
    (started : start conf Journal.empty = .ok relayer)
    (admissible : ∀ now, Admissible chain (events now)) :
    Lawful chain relayer events := by
  have allowed (now : Nat) := Machine.forall_mem_eventsBefore admissible now
  refine ⟨distinct, admissible, fun now => ?_, fun now => ?_⟩
  · rw [atPoint, Machine.stateAt_eq_run]
    exact (invariant_start started).run distinct (allowed now)
      fun _ _ _ _ _ _ => trivial
  · rw [atPoint, Machine.stateAt_eq_run]
    exact allAccounted_of_started distinct started (allowed now)

section Laws

variable (lawful : Lawful chain relayer events)
include lawful

/-- All that happens to the database between two points is that a task makes
puts. -/
theorem Lawful.exists_puts (now : Nat) :
    ∃ puts, (∀ put ∈ puts, TaskPut chain put) ∧
      (relayer.atPoint events (now + 1)).db =
        Journal.replay (relayer.atPoint events now).db puts :=
  exists_puts_step (lawful.invariant now) (lawful.admissible now)

/-- What is stored stays stored. -/
theorem Lawful.stores_later
    {index : UInt32}
    {now later : Nat}
    (after : now ≤ later)
    (stores : (relayer.atPoint events now).db.Stores index) :
    (relayer.atPoint events later).db.Stores index := by
  refine Machine.holds_of_kept
    (fun now => (relayer.atPoint events now).db.Stores index) after
    stores fun point _ earlier => ?_
  obtain ⟨puts, made, db⟩ := lawful.exists_puts point
  rw [db]
  exact stores_replay lawful.distinct (lawful.invariant point).fills made
    earlier

/-- What is recorded stays recorded. -/
theorem Lawful.recorded_later
    {index : UInt32}
    {now later : Nat}
    (after : now ≤ later)
    (recorded : (relayer.atPoint events now).db.Recorded index) :
    (relayer.atPoint events later).db.Recorded index := by
  refine Machine.holds_of_kept
    (fun now => (relayer.atPoint events now).db.Recorded index) after
    recorded fun point _ earlier => ?_
  obtain ⟨puts, made, db⟩ := lawful.exists_puts point
  rw [db]
  exact recorded_replay made earlier

variable {number since : Nat}
variable {tasks : Nat → InboxTasks}
variable (goes : GoesOn relayer events number since tasks)
include goes

omit lawful in
/-- The tasks at the next point. -/
theorem GoesOn.tasks_succ
    {now : Nat}
    (after : since ≤ now) :
    tasks (now + 1) =
      (tasks now).after number (relayer.atPoint events now) (events now) := by
  have next := inboxes_step (goes.found now after) (goes.continues now after)
  have found := goes.found (now + 1) (by omega)
  exact Option.some.inj (found.symm.trans next)

/-- What is covered stays covered. -/
theorem Lawful.covers_later
    {index : UInt32}
    {now later : Nat}
    (since_le : since ≤ now)
    (after : now ≤ later)
    (covers : (relayer.atPoint events now).Covers index) :
    (relayer.atPoint events later).Covers index :=
  Machine.holds_of_kept
    (fun now => (relayer.atPoint events now).Covers index) after
    covers fun point between earlier =>
      have reached := since_le.trans between
      Covers.step earlier (lawful.invariant point) (goes.found point reached)
        (lawful.admissible point) (goes.continues point reached)

omit lawful in
/-- The settings of the inbox stay the same. -/
theorem GoesOn.sameSettings
    {now later : Nat}
    (since_le : since ≤ now)
    (after : now ≤ later) :
    Relay.SameSettings (tasks now).processor (tasks later).processor := by
  refine Machine.holds_of_kept
    (fun point => Relay.SameSettings (tasks now).processor
      (tasks point).processor) after ⟨rfl, rfl, rfl⟩
    fun point between earlier => earlier.trans ?_
  rw [goes.tasks_succ (since_le.trans between)]
  rcases InboxTasks.processor_after number (relayer.atPoint events point)
    (tasks point) (events point) with same | ⟨dbFails, stepped⟩
  · rw [same]
    exact ⟨rfl, rfl, rfl⟩
  · rw [stepped]
    exact Relay.sameSettings_transition
      (MessageProcessor.transition_step _ _)

omit lawful in
/-- The scan does not move back. -/
theorem GoesOn.index_le
    {now later : Nat}
    (since_le : since ≤ now)
    (after : now ≤ later) :
    (tasks now).processor.messageLeafIndex.toNat ≤
      (tasks later).processor.messageLeafIndex.toNat := by
  refine Machine.holds_of_kept
    (fun point => (tasks now).processor.messageLeafIndex.toNat ≤
      (tasks point).processor.messageLeafIndex.toNat) after le_rfl
    fun point between earlier => earlier.trans ?_
  rw [goes.tasks_succ (since_le.trans between)]
  rcases InboxTasks.processor_after number (relayer.atPoint events point)
    (tasks point) (events point) with same | ⟨dbFails, stepped⟩
  · rw [same]
  · rw [stepped]
    exact (MessageProcessor.transition_step _ _).index_le

/-! ## The scan gets past what is covered -/

/-- What the processor waits for comes in the end. -/
theorem Lawful.exists_supplied
    (arrives : ∀ now index, since ≤ now →
      (relayer.atPoint events now).Covers index →
        ∃ later, (relayer.atPoint events later).db.Stores index)
    {now : Nat}
    (since_le : since ≤ now)
    (covers : (relayer.atPoint events now).Covers
      (tasks now).processor.messageLeafIndex) :
    ∃ supply, now ≤ supply ∧ ∀ later dbFails, supply ≤ later →
      (tasks now).processor.Supplied ((relayer.atPoint events later).around
        (tasks later) dbFails) := by
  unfold MessageProcessor.Supplied
  cases phase : (tasks now).processor.phase with
  | starting =>
      refine ⟨now, le_rfl, fun later dbFails after => ?_⟩
      obtain ⟨newest, published, -⟩ :=
        lawful.covers_later goes since_le after covers
      exact ⟨newest, published⟩
  | awaiting message =>
      exact ⟨now, le_rfl, fun later dbFails after =>
        lawful.covers_later goes since_le after covers⟩
  | updating message checkpoint next =>
      by_cases below : next ≤ checkpoint.checkpoint.index.toNat
      · have sound := (lawful.invariant now).sound (tasks now)
          (List.mem_of_getElem? (goes.found now since_le))
        have invariant := sound.pipeline.synced.phase
        simp only [Pipeline.PhaseInvariant, Relayer.pipeline, phase]
          at invariant
        -- the newest checkpoint is the one of the update, or a later one
        obtain ⟨newest, published, order⟩ := invariant.1.current
        have bound := checkpoint.checkpoint.index.toNat_lt
        have position : (UInt32.ofNat next).toNat = next :=
          UInt32.toNat_ofNat_of_lt' (Nat.lt_of_le_of_lt below bound)
        have covered : (relayer.atPoint events now).Covers
            (UInt32.ofNat next) := by
          refine ⟨newest, published, ?_⟩
          rw [UInt32.le_iff_toNat_le, position]
          rcases order with rfl | later
          · exact below
          · rw [UInt32.lt_iff_toNat_lt] at later
            omega
        obtain ⟨arrival, stored⟩ := arrives now _ since_le covered
        refine ⟨max now arrival, le_max_left _ _, ?_⟩
        intro later dbFails after _
        obtain ⟨leaf, -, found, -⟩ :=
          lawful.stores_later ((le_max_right _ _).trans after) stored
        exact ⟨leaf, found⟩
      · exact ⟨now, le_rfl, fun _ _ _ reached => absurd reached below⟩
  | failed error =>
      have going := (goes.running now since_le).processor
      rw [phase] at going
      cases going
  | panicked reason =>
      have going := (goes.running now since_le).processor
      rw [phase] at going
      cases going
  | _ => exact ⟨now, le_rfl, fun _ _ _ => trivial⟩

omit goes in
/-- What is covered is all stored from some point on. -/
theorem Lawful.exists_stored
    (arrives : ∀ now index, since ≤ now →
      (relayer.atPoint events now).Covers index →
        ∃ later, (relayer.atPoint events later).db.Stores index)
    {now : Nat}
    (since_le : since ≤ now)
    {index : UInt32}
    (covers : (relayer.atPoint events now).Covers index) :
    ∃ start, now ≤ start ∧ ∀ point, start ≤ point → ∀ smaller ≤ index,
      (relayer.atPoint events point).db.Stores smaller := by
  obtain ⟨newest, published, covered⟩ := covers
  obtain ⟨start, after, stored⟩ := Machine.exists_forall_lt
    (fun position point =>
      (relayer.atPoint events point).db.Stores (UInt32.ofNat position))
    (fun _ _ _ between stores => lawful.stores_later between stores)
    (fun position (inside : position < index.toNat + 1) => by
      refine arrives now _ since_le ⟨newest, published, ?_⟩
      refine UInt32.le_trans ?_ covered
      have inside := Nat.lt_succ_iff.mp inside
      rw [UInt32.le_iff_toNat_le, UInt32.toNat_ofNat_of_lt'
        (Nat.lt_of_le_of_lt inside index.toNat_lt)]
      exact inside) now
  refine ⟨start, after, fun point onward smaller below => ?_⟩
  have stores := stored smaller.toNat
    (Nat.lt_succ_of_le (UInt32.le_iff_toNat_le.mp below))
  rw [UInt32.ofNat_toNat] at stores
  exact lawful.stores_later onward stores

/-- The scan moves past every index that is covered. -/
theorem Lawful.exists_index_gt
    (processes : Recurs fun now =>
      ∃ dbFails, events now = .process number dbFails)
    (arrives : ∀ now index, since ≤ now →
      (relayer.atPoint events now).Covers index →
        ∃ later, (relayer.atPoint events later).db.Stores index)
    {now : Nat}
    (since_le : since ≤ now)
    {index : UInt32}
    (covers : (relayer.atPoint events now).Covers index) :
    ∃ later, now ≤ later ∧
      index.toNat < (tasks later).processor.messageLeafIndex.toNat := by
  have below {smaller : UInt32} (le : smaller ≤ index) :
      (relayer.atPoint events now).Covers smaller := by
    obtain ⟨newest, published, covered⟩ := covers
    exact ⟨newest, published, UInt32.le_trans le covered⟩
  obtain ⟨start, after, stored⟩ :=
    lawful.exists_stored arrives since_le covers
  have lowers {point : Nat} {dbFails : Bool} (onward : start ≤ point)
      (ahead : (tasks point).processor.messageLeafIndex.toNat <
        index.toNat + 1)
      (stepped : (tasks (point + 1)).processor =
        ((tasks point).processor.step ((relayer.atPoint events
          point).around (tasks point) dbFails)).1) :
      (tasks (point + 1)).processor = (tasks point).processor ∨
        (tasks (point + 1)).processor.stepsTo (index.toNat + 1) <
          (tasks point).processor.stepsTo (index.toNat + 1) := by
    have going := (goes.running (point + 1) (by omega)).processor
    rw [stepped] at going ⊢
    exact (MessageProcessor.transition_step _ _).eq_or_stepsTo_lt going
      (stored point onward _
        (UInt32.le_iff_toNat_le.mpr (Nat.lt_succ_iff.mp ahead))) ahead
  have leads : LeadsTo
      (fun point => start ≤ point ∧
        (tasks point).processor.messageLeafIndex.toNat < index.toNat + 1)
      (fun point => index.toNat <
        (tasks point).processor.messageLeafIndex.toNat) := by
    refine LeadsTo.of_variant
      (InvImage.wf (MessageProcessor.stepsTo (index.toNat + 1))
        Nat.lt_wfRel.wf)
      (fun point => (tasks point).processor) ?_ ?_
    · rintro point ⟨onward, ahead⟩
      refine (Nat.lt_or_ge index.toNat
        (tasks (point + 1)).processor.messageLeafIndex.toNat).imp_right
        fun behind => ⟨⟨by omega, by omega⟩, ?_⟩
      have next := goes.tasks_succ (since_le.trans (after.trans onward))
      rcases InboxTasks.processor_after number (relayer.atPoint events point)
        (tasks point) (events point) with same | ⟨dbFails, stepped⟩
      · exact .inl (next ▸ same)
      · exact lowers onward ahead (next ▸ stepped)
    · rintro point ⟨onward, ahead⟩
      have covered := lawful.covers_later goes since_le (after.trans onward)
        (below (UInt32.le_iff_toNat_le.mpr (Nat.lt_succ_iff.mp ahead)))
      obtain ⟨supply, wait, supplied⟩ := lawful.exists_supplied goes arrives
        (since_le.trans (after.trans onward)) covered
      obtain ⟨later, reached, dbFails, event⟩ := processes supply
      refine ⟨later, wait.trans reached, fun stays same => .inr ?_⟩
      have next := goes.tasks_succ (since_le.trans (after.trans stays.1))
      rw [event] at next
      have stepped : (tasks (later + 1)).processor =
          ((tasks later).processor.step ((relayer.atPoint events
            later).around (tasks later) dbFails)).1 := by
        rw [next, InboxTasks.after, if_pos rfl]
        rfl
      refine (lowers stays.1 stays.2 stepped).resolve_left ?_
      rw [stepped]
      refine MessageProcessor.step_ne_self ?_
      rw [same]
      exact supplied later dbFails reached
  by_cases passed : index.toNat <
      (tasks start).processor.messageLeafIndex.toNat
  · exact ⟨start, after, passed⟩
  · obtain ⟨later, beyond, reached⟩ := leads start ⟨le_rfl, by omega⟩
    exact ⟨later, after.trans beyond, reached⟩

omit lawful in
/-- The queue gets empty: every tick that records a message brings down what
is left. -/
theorem GoesOn.exists_queue_nil
    (submits : Recurs fun now =>
      ∃ answers, events now = .tick number answers ∧ answers.Accepts)
    {now : Nat}
    (since_le : since ≤ now) :
    ∃ later, now ≤ later ∧ (tasks later).queue = [] := by
  have leads : LeadsTo (fun point => since ≤ point ∧ (tasks point).queue ≠ [])
      (fun point => (tasks point).queue = []) := by
    refine LeadsTo.of_variant Nat.lt_wfRel.wf
      (fun point => (tasks point).ticksLeft) ?_ ?_
    · rintro point ⟨onward, waiting⟩
      by_cases empty : (tasks (point + 1)).queue = []
      · exact .inl empty
      · have next := goes.tasks_succ onward
        have running := goes.running (point + 1) (by omega)
        rw [next] at running
        have bound := InboxTasks.ticksLeft_after_le running
        rw [← next] at bound
        exact .inr ⟨⟨by omega, empty⟩, Nat.eq_or_lt_of_le bound⟩
    · rintro point ⟨onward, waiting⟩
      obtain ⟨later, reached, answers, event, accepts⟩ := submits point
      refine ⟨later, reached, fun stays _ => .inr ?_⟩
      have next := goes.tasks_succ stays.1
      rw [event, InboxTasks.after, if_pos rfl] at next
      have running := goes.running (later + 1) (by omega)
      rw [next] at running
      rw [next]
      exact InboxTasks.ticksLeft_tick_lt accepts
        (goes.running later stays.1).submitter running.submitter stays.2
  by_cases empty : (tasks now).queue = []
  · exact ⟨now, le_rfl, empty⟩
  · exact leads now ⟨since_le, empty⟩

/-- Everything that is covered is recorded from some point on. -/
theorem Lawful.exists_recorded
    (processes : Recurs fun now =>
      ∃ dbFails, events now = .process number dbFails)
    (submits : Recurs fun now =>
      ∃ answers, events now = .tick number answers ∧ answers.Accepts)
    (arrives : ∀ now index, since ≤ now →
      (relayer.atPoint events now).Covers index →
        ∃ later, (relayer.atPoint events later).db.Stores index)
    {now : Nat}
    (since_le : since ≤ now)
    {last : UInt32}
    (covers : (relayer.atPoint events now).Covers last) :
    ∃ later, now ≤ later ∧ ∀ point, later ≤ point →
      ∀ index message, index ≤ last →
        chain.Addresses (tasks point).processor index message →
          (relayer.atPoint events point).db.Recorded index := by
  obtain ⟨past, after, passed⟩ :=
    lawful.exists_index_gt goes processes arrives since_le covers
  obtain ⟨later, beyond, empty⟩ :=
    goes.exists_queue_nil submits (since_le.trans after)
  refine ⟨later, after.trans beyond, fun point onward index message below
    addresses => lawful.recorded_later onward ?_⟩
  have reached : since ≤ later := since_le.trans (after.trans beyond)
  have addressed :=
    (goes.sameSettings reached onward).addresses addresses
  have behind : index < (tasks later).processor.messageLeafIndex := by
    have forward := goes.index_le (since_le.trans after) beyond
    rw [UInt32.le_iff_toNat_le] at below
    rw [UInt32.lt_iff_toNat_lt]
    omega
  have accounted := lawful.accounted later (tasks later)
    (List.mem_of_getElem? (goes.found later reached))
  rcases accounted (goes.running later reached).submitter index message behind
      addressed with recorded | ⟨args, queued, -⟩
  · exact recorded
  · rw [empty] at queued
    cases queued

end Laws

/-- From some point on, both tasks of an inbox go on, its processor makes steps
again and again, and again and again its inbox takes what is submitted. -/
structure RelaysOn (relayer : Relayer) (events : Nat → Event)
    (number since : Nat) : Prop where
  continues : ∀ now, since ≤ now → (events now).Continues
  running : ∀ now, since ≤ now → ∃ tasks,
    (relayer.atPoint events now).inboxes[number]? = some tasks ∧
      tasks.Running
  processes : Recurs fun now => ∃ dbFails, events now = .process number dbFails
  submits : Recurs fun now =>
    ∃ answers, events now = .tick number answers ∧ answers.Accepts

/-- The tasks at every point. -/
theorem RelaysOn.exists_goesOn
    {number since : Nat}
    (relays : RelaysOn relayer events number since) :
    ∃ tasks, GoesOn relayer events number since tasks := by
  choose tasks found running using relays.running
  refine ⟨fun now => if after : since ≤ now then tasks now after
      else tasks since le_rfl,
    relays.continues, fun now after => ?_, fun now after => ?_⟩
  · rw [dif_pos after]
    exact found now after
  · rw [dif_pos after]
    exact running now after

/-- What is covered at a point, is covered by a checkpoint that was published
before. -/
theorem exists_publishes_of_covers
    (distinct : chain.Distinct)
    {conf : RelayerConf}
    (started : start conf Journal.empty = .ok relayer)
    (admissible : ∀ now, Admissible chain (events now))
    {now : Nat}
    {index : UInt32}
    (covers : (relayer.atPoint events now).Covers index) :
    ∃ earlier checkpoint, earlier < now ∧
      (relayer.atPoint events earlier).Publishes (events earlier) checkpoint ∧
      index ≤ checkpoint.checkpoint.index := by
  obtain ⟨newest, covering, below⟩ := covers
  have invariant := invariant_of_started distinct started
    (Machine.forall_mem_eventsBefore admissible now)
  rw [atPoint, Machine.stateAt_eq_run] at covering
  obtain ⟨before, event, after, split, publishes⟩ :=
    invariant.published newest covering
  obtain ⟨earlier, past, rfl, rfl⟩ :=
    Machine.eq_of_eventsBefore_eq_append split
  rw [← Machine.stateAt_eq_run] at publishes
  exact ⟨earlier, newest, past, publishes, below⟩

end Runs

end Liveness

/-! ## An infinite run -/

theorem accepts_executedAnswers : SerialSubmitter.executedAnswers.Accepts :=
  ⟨fun _ _ _ => ⟨_, rfl⟩, rfl⟩

/-- The tasks in turn. -/
def turnEvent (now : Nat) : Event :=
  match now % 4 with
  | 0 => .tick 0 SerialSubmitter.executedAnswers
  | 1 => .process 0 false
  | 2 => .pollOutbox (OutboxChain.pair.pollFrom 0)
  | _ => .writeOutbox

/-- Once the first message is sent, the tasks take turns forever. -/
def foreverEvents (now : Nat) : Event :=
  sendingEvents[now]?.getD (turnEvent now)

theorem forall_foreverEvents
    {Holds : Event → Prop}
    (poll : Holds (.pollOutbox (OutboxChain.pair.pollFrom 0)))
    (write : Holds .writeOutbox)
    (fetch : Holds (.fetch (.ok (some 1)) sampleSyncer))
    (process : Holds (.process 0 false))
    (tick : Holds (.tick 0 SerialSubmitter.executedAnswers))
    (now : Nat) :
    Holds (foreverEvents now) := by
  unfold foreverEvents
  cases sent : sendingEvents[now]? with
  | some event =>
      exact forall_mem_sendingEvents poll write fetch process event
        (List.mem_of_getElem? sent)
  | none =>
      rw [Option.getD_none]
      unfold turnEvent
      split
      · exact tick
      · exact process
      · exact poll
      · exact write

theorem admissible_foreverEvents (now : Nat) :
    @Admissible .transparent OutboxChain.pair (foreverEvents now) :=
  forall_foreverEvents (OutboxChain.pair.faithful_pollFrom 0) trivial
    admissible_fetch_sampleSyncer trivial trivial now

/-- Behind the first message, the tasks take turns. -/
theorem foreverEvents_of_le
    {now : Nat}
    (beyond : 22 ≤ now) :
    foreverEvents now = turnEvent now := by
  have length : sendingEvents.length = 22 := rfl
  rw [foreverEvents, List.getElem?_eq_none (by omega), Option.getD_none]

/-- Every turn comes again. -/
theorem foreverEvents_turn (now turn : Nat) :
    foreverEvents (24 + 4 * now + turn) = turnEvent turn := by
  have same : (24 + 4 * now + turn) % 4 = turn % 4 := by omega
  rw [foreverEvents_of_le (by omega), turnEvent, turnEvent, same]

theorem recurs_turn
    {happens : Event → Prop}
    (turn : Nat)
    (taken : happens (turnEvent turn)) :
    Recurs fun now => happens (foreverEvents now) :=
  fun now => ⟨24 + 4 * now + turn, by omega,
    (congrArg happens (foreverEvents_turn now turn)).mpr taken⟩

/-- The two messages are processed, and nothing else is there to do. -/
structure Resting (relayer : Relayer) (tasks : InboxTasks) : Prop where
  outboxSync_eq : relayer.outboxSync = .start (.ok ⟨11, 0⟩)
  inboxes_eq : relayer.inboxes = [tasks]
  submitter : tasks.submitterEnd = none
  gelato : tasks.gelato = false
  queue_eq : tasks.queue = []
  phase : tasks.processor.phase = .idle ∨ tasks.processor.phase = .reading
  status : relayer.db
    (.leafProcessStatus tasks.processor.messageLeafIndex) = none
  leaf : relayer.db (.leaf tasks.processor.messageLeafIndex) = none

/-- There is nothing to submit. -/
theorem Resting.tick
    {relayer : Relayer}
    {tasks : InboxTasks}
    (rests : Resting relayer tasks) :
    @InboxTasks.tick .transparent SerialSubmitter.executedAnswers relayer.db
      tasks = (tasks, relayer.db) := by
  obtain ⟨processor, gelato, rx, waitQueue, runQueue, submitterEnd⟩ := tasks
  obtain ⟨-, -, rfl, rfl, empty, phase, -, -⟩ := rests
  simp only [InboxTasks.queue, List.append_eq_nil_iff] at empty
  obtain ⟨⟨rfl, rfl⟩, rfl⟩ := empty
  have going : Pipeline.ended processor.phase = false := by
    rcases phase with idle | reading
    · exact congrArg Pipeline.ended idle
    · exact congrArg Pipeline.ended reading
  simp [InboxTasks.tick, InboxTasks.submitter, InboxTasks.answers,
    SerialSubmitter.tick, going]

/-- There is nothing to read. -/
theorem Resting.process
    {relayer : Relayer}
    {tasks : InboxTasks}
    (rests : Resting relayer tasks) :
    ∃ phase, (phase = .idle ∨ phase = .reading) ∧
      @InboxTasks.process .transparent (relayer.around tasks false) tasks =
        { tasks with processor := { tasks.processor with phase := phase } } := by
  rcases rests.phase with idle | reading
  · refine ⟨.reading, .inr rfl, ?_⟩
    have status : (AbacusDB.retrieveLeafProcessingStatus
        tasks.processor.messageLeafIndex).result relayer.db = .ok none := by
      rw [Journal.Program.result,
        AbacusDB.run_retrieveLeafProcessingStatus, rests.status]
      rfl
    simp [InboxTasks.process, MessageProcessor.step, MessageProcessor.advance,
      idle, MessageProcessor.checkStatus, Surroundings.read, Relayer.around,
      status, Except.mapError, bind, Except.bind, MessageProcessor.goto,
      MessageProcessor.settle]
  · refine ⟨.idle, .inl rfl, ?_⟩
    have message : (AbacusDB.messageByLeafIndex
        tasks.processor.messageLeafIndex).result relayer.db = .ok none := by
      rw [Journal.Program.result, AbacusDB.run_messageByLeafIndex, rests.leaf]
      rfl
    simp [InboxTasks.process, MessageProcessor.step, MessageProcessor.advance,
      reading, MessageProcessor.readMessage, Surroundings.read,
      Relayer.around, message, Except.mapError, bind, Except.bind,
      MessageProcessor.goto, MessageProcessor.settle]

/-- Nothing comes to be done. -/
theorem Resting.turn
    {relayer : Relayer}
    {tasks : InboxTasks}
    (rests : Resting relayer tasks)
    (now : Nat) :
    ∃ after, Resting (@step .transparent relayer (turnEvent now)) after := by
  have modified (change : InboxTasks → InboxTasks × AbacusDB) :
      relayer.modifyInbox 0 change = { relayer with
        db := (change tasks).2, inboxes := [(change tasks).1] } := by
    have first : relayer.inboxes[0]? = some tasks := by
      rw [rests.inboxes_eq]
      rfl
    rw [modifyInbox, first]
    simp only [rests.inboxes_eq, List.set_cons_zero]
  unfold turnEvent
  split
  · refine ⟨tasks, ?_⟩
    simp only [step, modified, rests.tick]
    exact { rests with inboxes_eq := rfl }
  · obtain ⟨phase, idles, processed⟩ := rests.process
    refine ⟨{ tasks with
      processor := { tasks.processor with phase := phase } }, ?_⟩
    simp only [step, modified, processed]
    exact { rests with inboxes_eq := rfl, phase := idles }
  · refine ⟨tasks, { rests with outboxSync_eq := ?_ }⟩
    simp only [step, rests.outboxSync_eq]
    rfl
  · refine ⟨tasks, ?_⟩
    simp only [step, rests.outboxSync_eq]
    exact { rests with outboxSync_eq := rfl }

/-- The relayer at a point of the run. -/
def foreverPoint (now : Nat) : Relayer :=
  @Machine.run _ _ (@step .transparent) sampleRelayer
    (eventsBefore foreverEvents now)

theorem atPoint_foreverEvents (now : Nat) :
    @atPoint .transparent sampleRelayer foreverEvents now =
      foreverPoint now :=
  Machine.stateAt_eq_run _ _ _ _

/-- In front of point `42`, all tasks go on. -/
theorem going_foreverPoint :
    ∀ now < 42, (foreverPoint now).outboxSync.outcome.isOk = true ∧
      (foreverPoint now).inboxes.map (fun tasks =>
        (tasks.submitterEnd.isNone, Pipeline.ended tasks.processor.phase)) =
          [(true, false)] := by
  decide +kernel

/-- At point `42`, both messages are processed. -/
theorem exists_resting : ∃ tasks, Resting (foreverPoint 42) tasks := by
  have inboxes : (foreverPoint 42).inboxes.map (fun tasks =>
      (tasks.submitterEnd.isNone, tasks.gelato, tasks.queue.isEmpty,
        tasks.processor.phase, tasks.processor.messageLeafIndex)) =
      [(true, false, true, .reading, 2)] := by
    decide +kernel
  obtain ⟨tasks, only, same⟩ := List.map_eq_singleton_iff.mp inboxes
  obtain ⟨submitter, gelato, queue, phase, cursor⟩ : _ ∧ _ ∧ _ ∧ _ ∧ _ := by
    simpa using same
  have outcome : (foreverPoint 42).outboxSync.outcome = .ok ⟨11, 0⟩ := by
    decide +kernel
  have pending : (foreverPoint 42).outboxSync.pending = [] := by
    decide +kernel
  refine ⟨tasks, ⟨congrArg₂ Journal.Loop.mk outcome pending, only, submitter,
    gelato, queue, .inr phase, ?_, ?_⟩⟩
  · rw [cursor]
    decide +kernel
  · rw [cursor]
    decide +kernel

/-- All tasks go on, at every point. -/
theorem runs_foreverPoint (now : Nat) :
    (∃ state, (foreverPoint now).outboxSync.outcome = .ok state) ∧
      ∃ tasks, (foreverPoint now).inboxes = [tasks] ∧ tasks.Running := by
  by_cases early : now < 42
  · obtain ⟨runs, inboxes⟩ := going_foreverPoint now early
    obtain ⟨tasks, only, same⟩ := List.map_eq_singleton_iff.mp inboxes
    obtain ⟨submitter, processor⟩ : _ ∧ _ := by simpa using same
    refine ⟨?_, tasks, only, submitter, processor⟩
    cases outcome : (foreverPoint now).outboxSync.outcome with
    | ok state => exact ⟨state, rfl⟩
    | error fault =>
        rw [outcome] at runs
        cases runs
  · have rests : ∃ tasks, Resting (foreverPoint now) tasks := by
      refine Machine.holds_of_kept
        (fun point => ∃ tasks, Resting (foreverPoint point) tasks)
        (Nat.not_lt.mp early) exists_resting fun point after rests => ?_
      obtain ⟨tasks, rests⟩ := rests
      have next := rests.turn point
      rw [← foreverEvents_of_le (by omega)] at next
      rw [← atPoint_foreverEvents] at next ⊢
      exact next
    obtain ⟨tasks, rests⟩ := rests
    refine ⟨⟨⟨11, 0⟩, ?_⟩, tasks, rests.inboxes_eq, rests.submitter, ?_⟩
    · rw [rests.outboxSync_eq]
      rfl
    · rcases rests.phase with idle | reading
      · exact congrArg Pipeline.ended idle
      · exact congrArg Pipeline.ended reading

/-- The inbox is relayed from every point on. -/
theorem relaysOn_foreverEvents (since : Nat) :
    @RelaysOn .transparent sampleRelayer foreverEvents 0 since := by
  refine @RelaysOn.mk .transparent _ _ _ _ ?_ ?_ ?_ ?_
  · exact fun now _ => forall_foreverEvents trivial trivial trivial trivial
      trivial now
  · intro now _
    obtain ⟨-, tasks, only, running⟩ := runs_foreverPoint now
    rw [atPoint_foreverEvents, only]
    exact ⟨tasks, rfl, running⟩
  · exact @recurs_turn (fun event => ∃ dbFails, event = .process 0 dbFails) 1
      ⟨false, rfl⟩
  · exact @recurs_turn (fun event => ∃ answers, event = .tick 0 answers ∧
      answers.Accepts) 0 ⟨_, rfl, accepts_executedAnswers⟩

/-- Whatever checkpoint is published has index `1`. -/
theorem index_of_publishes_foreverEvents
    {relayer : Relayer}
    {now : Nat}
    {checkpoint : MultisigSignedCheckpoint}
    (publishes : @Publishes .transparent relayer (foreverEvents now)
      checkpoint) :
    checkpoint.checkpoint.index = 1 := by
  refine @forall_foreverEvents
    (fun event => @Publishes .transparent relayer event checkpoint →
      checkpoint.checkpoint.index = 1) ?_ ?_ ?_ ?_ ?_ now publishes
  · exact fun nothing => by cases nothing
  · exact fun nothing => by cases nothing
  · rintro ⟨fetched⟩
    exact @index_eq_of_fetchCheckpoint .transparent _ _ _ fetched
  · exact fun nothing => by cases nothing
  · exact fun nothing => by cases nothing

/-- The checkpoint covers the two messages. -/
theorem covers_forever :
    (@atPoint .transparent sampleRelayer foreverEvents 22).Covers 1 := by
  rw [atPoint_foreverEvents]
  have index : (foreverPoint 22).ckpt.map (fun newest =>
      newest.checkpoint.index) = some 1 := by
    decide +kernel
  obtain ⟨newest, published, same⟩ := Option.map_eq_some_iff.mp index
  exact ⟨newest, published, same ▸ UInt32.le_refl _⟩

/-- Both messages are stored. -/
theorem stores_forever
    {index : UInt32}
    (below : index ≤ 1) :
    (@atPoint .transparent sampleRelayer foreverEvents 22).db.Stores
      index := by
  rw [atPoint_foreverEvents]
  have found : ∀ index < 2, ((foreverPoint 22).db
      (.leaf (UInt32.ofNat index))).any (fun leaf =>
        ((foreverPoint 22).db (.message leaf)).isSome) = true := by
    decide +kernel
  have inside : index.toNat < 2 := by
    rw [UInt32.le_iff_toNat_le] at below
    exact Nat.lt_succ_of_le below
  have stored := found index.toNat inside
  rw [UInt32.ofNat_toNat] at stored
  obtain ⟨leaf, leafStored, body⟩ := Option.any_eq_true _ _ |>.mp stored
  obtain ⟨raw, rawStored⟩ := Option.isSome_iff_exists.mp body
  exact ⟨leaf, raw, leafStored, rawStored⟩

section Recorded

variable [Crypto]
variable {chain : OutboxChain}

/-- In every infinite run of all tasks from the empty database in which an
inbox is relayed from some point on, whatever happened before: if all messages
that a published checkpoint covers get into the database, those of them that
are for the inbox are recorded as processed from some point on. -/
theorem recorded_of_covered
    (distinct : chain.Distinct)
    (conf : RelayerConf)
    (relayer : Relayer)
    (started : start conf Journal.empty = .ok relayer)
    (events : Nat → Event)
    (admissible : ∀ now, Admissible chain (events now))
    (number since : Nat)
    (relays : RelaysOn relayer events number since)
    (arrives : ∀ now index, since ≤ now →
      (relayer.atPoint events now).Covers index →
        ∃ later, (relayer.atPoint events later).db.Stores index)
    (now : Nat)
    (after : since ≤ now)
    (last : UInt32)
    (covers : (relayer.atPoint events now).Covers last) :
    ∃ later, now ≤ later ∧ ∀ point, later ≤ point → ∀ tasks,
      (relayer.atPoint events point).inboxes[number]? = some tasks →
        ∀ index message, index ≤ last →
          chain.Addresses tasks.processor index message →
            (relayer.atPoint events point).db.Recorded index := by
  obtain ⟨tasks, goes⟩ := relays.exists_goesOn
  have lawful := lawful_of_started distinct started admissible
  obtain ⟨later, beyond, recorded⟩ := lawful.exists_recorded goes
    relays.processes relays.submits arrives after covers
  refine ⟨later, beyond, fun point onward other found => ?_⟩
  have same := goes.found point (after.trans (beyond.trans onward))
  rw [found] at same
  cases same
  exact recorded point onward

end Recorded

/-- Both messages are recorded from some point on. -/
theorem recorded_of_covered_forever :
    ∃ later, 22 ≤ later ∧ ∀ point, later ≤ point → ∀ tasks,
      (@atPoint .transparent sampleRelayer foreverEvents
          point).inboxes[0]? = some tasks →
        ∀ index message, index ≤ 1 →
          OutboxChain.pair.Addresses tasks.processor index message →
            (@atPoint .transparent sampleRelayer foreverEvents
              point).db.Recorded index := by
  refine @recorded_of_covered .transparent OutboxChain.pair distinct_pair
    sampleConf sampleRelayer rfl foreverEvents admissible_foreverEvents 0 22
    (relaysOn_foreverEvents 22) ?_ 22 le_rfl 1 covers_forever
  intro now index _ covers
  obtain ⟨earlier, checkpoint, -, publishes, below⟩ :=
    @exists_publishes_of_covers .transparent OutboxChain.pair _ _
      distinct_pair sampleConf rfl admissible_foreverEvents _ _ covers
  rw [index_of_publishes_foreverEvents publishes] at below
  exact ⟨22, stores_forever below⟩

end Relayer

end Abacus
