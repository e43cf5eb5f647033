import Abacus.Relayer.SubmitterTransitions

/-!
# The order in which messages are attempted

Messages that have failed stand behind those that have never been attempted,
in every state that the submitter reaches. The messages that have never been
attempted stand in the order of their leaf indices as long as no tick promotes
new ones while older ones still wait in the run queue: the new ones are put in
front of them.
-/

namespace Abacus

namespace SerialSubmitter

/-! ## Fresh messages before failed ones -/

/-- Behind a message that has failed there are only such messages. -/
def RetriesLast (queue : List SubmitMessageArgs) : Prop :=
  queue.Pairwise fun earlier later =>
    0 < earlier.numRetries → 0 < later.numRetries

/-- Messages that have not failed can be put in front. -/
theorem RetriesLast.append_left
    {front queue : List SubmitMessageArgs}
    (fresh : ∀ msg ∈ front, msg.numRetries = 0)
    (last : RetriesLast queue) :
    RetriesLast (front ++ queue) := by
  have impossible : ∀ msg ∈ front, ¬ 0 < msg.numRetries := by
    intro msg member
    rw [fresh msg member]
    exact UInt32.lt_irrefl 0
  refine List.pairwise_append.mpr ⟨?_, last, ?_⟩
  · exact List.pairwise_of_forall_mem_list fun earlier member _ _ failed =>
      absurd failed (impossible earlier member)
  · exact fun earlier member _ _ failed =>
      absurd failed (impossible earlier member)

/-- A message that has failed can be put at the back. -/
theorem RetriesLast.concat
    {queue : List SubmitMessageArgs}
    {msg : SubmitMessageArgs}
    (last : RetriesLast queue)
    (failed : 0 < msg.numRetries) :
    RetriesLast (queue ++ [msg]) := by
  refine List.pairwise_append.mpr ⟨last, List.pairwise_singleton _ _, ?_⟩
  intro earlier _ later member _
  rwa [List.mem_singleton.mp member]

/-- What is sent has not been attempted. -/
def SendsFresh : Event → Prop
  | .send msg => msg.numRetries = 0
  | .tick _ => True

/-- What waits is fresh, and the run queue has its failed messages last. -/
structure FreshFirst (submitter : SerialSubmitter) : Prop where
  fresh : ∀ msg ∈ submitter.waitQueue ++ submitter.rx, msg.numRetries = 0
  last : RetriesLast submitter.runQueue

/-- A tick picks from a queue with its failed messages last. -/
theorem FreshFirst.promoted
    {submitter : SerialSubmitter}
    (first : FreshFirst submitter) :
    RetriesLast submitter.promoted :=
  first.last.append_left first.fresh

theorem sendsFresh_of_mem_sent
    {events : List Event}
    (fresh : ∀ msg ∈ sent events, msg.numRetries = 0) :
    ∀ event ∈ events, SendsFresh event := by
  intro event member
  cases event with
  | send msg =>
      exact fresh msg (List.mem_filterMap.mpr ⟨.send msg, member, rfl⟩)
  | tick answers => trivial

section Order

variable [Crypto]

/-- Every event keeps the failed messages last. -/
theorem freshFirst_step
    {submitter : SerialSubmitter}
    {event : Event}
    (sends : SendsFresh event)
    (first : FreshFirst submitter) :
    FreshFirst (submitter.step event) := by
  cases event with
  | send msg =>
      refine ⟨?_, first.last⟩
      intro other member
      rw [step, ← List.append_assoc] at member
      rcases List.mem_append.mp member with waiting | new
      · exact first.fresh other waiting
      · rw [List.mem_singleton.mp new]
        exact sends
  | tick answers =>
      have ticked := ticked_tick answers submitter
      have order := first.promoted
      rw [step]
      generalize submitter.tick answers = outcome at ticked
      cases ticked with
      | disconnected closed error =>
          exact ⟨by simpa using first.fresh, first.last⟩
      | idle nothing => exact ⟨by simp, List.Pairwise.nil⟩
      | record picked popped kept =>
          rw [popped] at order
          exact ⟨by simp, order.of_cons⟩
      | drop picked popped drops error =>
          rw [popped] at order
          exact ⟨by simp, order.of_cons⟩
      | panic picked popped reason =>
          rw [popped] at order
          exact ⟨by simp, order.of_cons⟩
      | @retry msg runQueue picked popped kept numRetries counted =>
          rw [popped] at order
          refine ⟨by simp, RetriesLast.concat order.of_cons ?_⟩
          rw [UInt32.lt_iff_toNat_lt, counted]
          exact Nat.succ_pos _

/-- In every reachable state no failed message stands before a fresh one, and
a failed message is attempted only if there is no fresh one. -/
theorem run_retriesLast
    (db : AbacusDB)
    (events : List Event)
    (fresh : ∀ msg ∈ sent events, msg.numRetries = 0) :
    RetriesLast (Machine.run step (new db) events).runQueue ∧
      ∀ answers msg,
        (Machine.run step (new db) events).next answers = some msg →
          0 < msg.numRetries →
            ∀ other ∈ (Machine.run step (new db) events).promoted,
              0 < other.numRetries := by
  have initial : FreshFirst (new db) := ⟨by simp [new], List.Pairwise.nil⟩
  have first := Machine.invariant_run step FreshFirst
    (fun _ _ sends holds => freshFirst_step sends holds) initial
    (Machine.admissibleRun_of_forall step _ (sendsFresh_of_mem_sent fresh))
  refine ⟨first.last, ?_⟩
  intro answers msg picked failed other member
  have order := first.promoted
  cases popped : (Machine.run step (new db) events).promoted with
  | nil =>
      rw [popped] at member
      cases member
  | cons head runQueue =>
      have same : head = msg := by
        unfold next at picked
        unfold promoted at popped
        split at picked
        · cases picked
        · rw [popped] at picked
          exact Option.some.inj picked
      rw [popped] at member order
      rcases List.mem_cons.mp member with rfl | behind
      · rwa [same]
      · exact (List.pairwise_cons.mp order).1 other behind
          (by rwa [same])

end Order

/-- The inbox refuses every submission. -/
def refusingAnswers : TickAnswers where
  disconnected := false
  messageStatus _ := .ok .none
  process _ _ _ := .error (.error .contractError)
  markLeaf := .ok ()

/-- The sample message at another leaf index. -/
def sampleAt (leafIndex : UInt32) : SubmitMessageArgs :=
  { sampleArgs with leafIndex := leafIndex }

/-- After a failed attempt, and another message that arrives, the failed one
is still last. -/
theorem run_retriesLast_refused :
    RetriesLast (Machine.run (@step .transparent) (new Journal.empty)
        [.send (sampleAt 1), .tick refusingAnswers,
          .send (sampleAt 2)]).runQueue ∧
      ∀ answers msg,
        (Machine.run (@step .transparent) (new Journal.empty)
          [.send (sampleAt 1), .tick refusingAnswers,
            .send (sampleAt 2)]).next answers = some msg →
          0 < msg.numRetries →
            ∀ other ∈ (Machine.run (@step .transparent) (new Journal.empty)
              [.send (sampleAt 1), .tick refusingAnswers,
                .send (sampleAt 2)]).promoted,
              0 < other.numRetries :=
  @run_retriesLast .transparent Journal.empty
    [.send (sampleAt 1), .tick refusingAnswers, .send (sampleAt 2)]
    (by decide)

/-! ## Fresh messages in the order of their leaf indices -/

/-- The messages of a queue that have never been attempted. -/
def neverAttempted (queue : List SubmitMessageArgs) :
    List SubmitMessageArgs :=
  queue.filter fun msg => msg.numRetries = 0

/-- The messages of a queue that have never been attempted stand in increasing
order of their leaf indices. -/
def InOrder (queue : List SubmitMessageArgs) : Prop :=
  (neverAttempted queue).Pairwise fun earlier later =>
    earlier.leafIndex < later.leafIndex

theorem mem_neverAttempted
    {queue : List SubmitMessageArgs}
    {msg : SubmitMessageArgs} :
    msg ∈ neverAttempted queue ↔ msg ∈ queue ∧ msg.numRetries = 0 := by
  simp [neverAttempted]

/-- Picking the first message keeps the order. -/
theorem InOrder.of_cons
    {msg : SubmitMessageArgs}
    {queue : List SubmitMessageArgs}
    (order : InOrder (msg :: queue)) :
    InOrder queue :=
  order.sublist ((List.sublist_cons_self msg queue).filter _)

/-- A message that has failed does not matter at the back. -/
theorem InOrder.concat
    {queue : List SubmitMessageArgs}
    {msg : SubmitMessageArgs}
    (order : InOrder queue)
    (failed : msg.numRetries ≠ 0) :
    InOrder (queue ++ [msg]) := by
  have same : neverAttempted (queue ++ [msg]) = neverAttempted queue := by
    simp [neverAttempted, failed]
  unfold InOrder
  rwa [same]

/-- What is sent has not been attempted, and its leaf index is above those of
all messages of the submitter. -/
def Arrives (submitter : SerialSubmitter) : Event → Prop
  | .send msg => msg.numRetries = 0 ∧
      ∀ other ∈ submitter.promoted, other.leafIndex < msg.leafIndex
  | .tick _ => True

/-- A tick that promotes a message finds none in the run queue that has never
been attempted. -/
def Yields (submitter : SerialSubmitter) : Event → Prop
  | .send _ => True
  | .tick answers => submitter.next answers ≠ none →
      submitter.waitQueue ++ submitter.rx = [] ∨
        neverAttempted submitter.runQueue = []

/-- What waits is fresh, in order, and above the fresh messages of the run
queue. -/
structure ArrivedInOrder (submitter : SerialSubmitter) : Prop where
  fresh : ∀ msg ∈ submitter.waitQueue ++ submitter.rx, msg.numRetries = 0
  increasing : (submitter.waitQueue ++ submitter.rx).Pairwise
    fun earlier later => earlier.leafIndex < later.leafIndex
  above : ∀ old ∈ neverAttempted submitter.runQueue,
    ∀ msg ∈ submitter.waitQueue ++ submitter.rx,
      old.leafIndex < msg.leafIndex

/-- The fresh messages in the queue from which a tick picks. -/
theorem ArrivedInOrder.neverAttempted_promoted
    {submitter : SerialSubmitter}
    (arrived : ArrivedInOrder submitter) :
    neverAttempted submitter.promoted =
      (submitter.waitQueue ++ submitter.rx) ++
        neverAttempted submitter.runQueue := by
  unfold neverAttempted promoted
  rw [List.filter_append, List.filter_eq_self.mpr]
  intro msg member
  exact decide_eq_true (arrived.fresh msg member)

/-- The queue from which a tick picks is in order exactly when there is
nothing to promote or nothing fresh in the run queue. -/
theorem ArrivedInOrder.inOrder_promoted_iff
    {submitter : SerialSubmitter}
    (arrived : ArrivedInOrder submitter)
    (order : InOrder submitter.runQueue) :
    InOrder submitter.promoted ↔
      submitter.waitQueue ++ submitter.rx = [] ∨
        neverAttempted submitter.runQueue = [] := by
  rw [InOrder, arrived.neverAttempted_promoted, List.pairwise_append]
  constructor
  · rintro ⟨-, -, before⟩
    by_contra both
    rw [not_or] at both
    obtain ⟨msg, waits⟩ := List.exists_mem_of_ne_nil _ both.1
    obtain ⟨old, runs⟩ := List.exists_mem_of_ne_nil _ both.2
    exact absurd (before msg waits old runs)
      (UInt32.lt_asymm (arrived.above old runs msg waits))
  · rintro (nothing | nothing)
    · rw [nothing]
      exact ⟨List.Pairwise.nil, order, by simp⟩
    · rw [nothing]
      exact ⟨arrived.increasing, List.Pairwise.nil, by simp⟩

section Arrivals

variable [Crypto]

/-- Arrivals keep what waits in order, whatever the ticks do. -/
theorem arrivedInOrder_step
    {submitter : SerialSubmitter}
    {event : Event}
    (arrives : Arrives submitter event)
    (arrived : ArrivedInOrder submitter) :
    ArrivedInOrder (submitter.step event) := by
  cases event with
  | send msg =>
      obtain ⟨fresh, highest⟩ := arrives
      have waiting : (submitter.step (.send msg)).waitQueue ++
          (submitter.step (.send msg)).rx =
            (submitter.waitQueue ++ submitter.rx) ++ [msg] := by
        rw [step, List.append_assoc]
      constructor
      · rw [waiting]
        intro other member
        rcases List.mem_append.mp member with old | new
        · exact arrived.fresh other old
        · rwa [List.mem_singleton.mp new]
      · rw [waiting]
        refine List.pairwise_append.mpr
          ⟨arrived.increasing, List.pairwise_singleton _ _, ?_⟩
        intro earlier member later new
        rw [List.mem_singleton.mp new]
        exact highest earlier (List.mem_append_left _ member)
      · rw [waiting]
        intro old runs other member
        rcases List.mem_append.mp member with earlier | new
        · exact arrived.above old runs other earlier
        · rw [List.mem_singleton.mp new]
          exact highest old (List.mem_append_right _
            (mem_neverAttempted.mp runs).1)
  | tick answers =>
      have ticked := ticked_tick answers submitter
      rw [step]
      generalize submitter.tick answers = outcome at ticked
      cases ticked with
      | disconnected closed error =>
          exact ⟨by simpa using arrived.fresh, by simpa using
            arrived.increasing, by simpa using arrived.above⟩
      | idle nothing => exact ⟨by simp, by simp, by simp⟩
      | record picked popped kept => exact ⟨by simp, by simp, by simp⟩
      | retry picked popped kept counted =>
          exact ⟨by simp, by simp, by simp⟩
      | drop picked popped drops error => exact ⟨by simp, by simp, by simp⟩
      | panic picked popped reason => exact ⟨by simp, by simp, by simp⟩

/-- A tick that yields keeps the run queue in order. -/
theorem inOrder_step
    {submitter : SerialSubmitter}
    {event : Event}
    (yields : Yields submitter event)
    (arrived : ArrivedInOrder submitter)
    (order : InOrder submitter.runQueue) :
    InOrder (submitter.step event).runQueue := by
  cases event with
  | send msg => exact order
  | tick answers =>
      have ticked := ticked_tick answers submitter
      have promoted : ∀ msg, submitter.next answers = some msg →
          InOrder submitter.promoted := fun msg picked =>
        (arrived.inOrder_promoted_iff order).mpr
          (yields (by simp [picked]))
      rw [step]
      generalize submitter.tick answers = outcome at ticked
      cases ticked with
      | disconnected closed error => exact order
      | idle nothing => exact List.Pairwise.nil
      | @record msg runQueue picked popped kept =>
          have queue := promoted msg picked
          rw [popped] at queue
          exact queue.of_cons
      | @drop msg runQueue picked popped drops error =>
          have queue := promoted msg picked
          rw [popped] at queue
          exact queue.of_cons
      | @panic msg runQueue picked popped reason =>
          have queue := promoted msg picked
          rw [popped] at queue
          exact queue.of_cons
      | @retry msg runQueue picked popped kept numRetries counted =>
          have queue := promoted msg picked
          rw [popped] at queue
          refine InOrder.concat queue.of_cons ?_
          intro zero
          change numRetries = 0 at zero
          rw [zero] at counted
          exact Nat.succ_ne_zero _ counted.symm

/-- A tick leaves no message whose leaf index was not there before. -/
theorem exists_mem_promoted_of_tick
    {answers : TickAnswers}
    {submitter : SerialSubmitter}
    {msg : SubmitMessageArgs}
    (member : msg ∈ (submitter.tick answers).2.promoted) :
    ∃ other ∈ submitter.promoted, other.leafIndex = msg.leafIndex := by
  have ticked := ticked_tick answers submitter
  generalize submitter.tick answers = outcome at ticked member
  cases ticked with
  | disconnected closed error =>
      exact ⟨msg, by simpa [promoted] using member, rfl⟩
  | idle nothing => cases member
  | record picked popped kept =>
      exact ⟨msg, by rw [popped]; exact List.mem_cons_of_mem _ member, rfl⟩
  | drop picked popped drops error =>
      exact ⟨msg, by rw [popped]; exact List.mem_cons_of_mem _ member, rfl⟩
  | panic picked popped reason =>
      exact ⟨msg, by rw [popped]; exact List.mem_cons_of_mem _ member, rfl⟩
  | @retry tried runQueue picked popped kept numRetries counted =>
      change msg ∈ runQueue ++ [{ tried with numRetries := numRetries }]
        at member
      rcases List.mem_append.mp member with old | back
      · exact ⟨msg, by rw [popped]; exact List.mem_cons_of_mem _ old, rfl⟩
      · refine ⟨tried, by rw [popped]; simp, ?_⟩
        rw [List.mem_singleton.mp back]

/-- Messages that are sent in increasing order of their leaf indices arrive
above all messages of the submitter. -/
theorem admissibleRun_arrives
    {submitter : SerialSubmitter}
    {events : List Event}
    (fresh : ∀ msg ∈ sent events, msg.numRetries = 0)
    (increasing : (sent events).Pairwise fun earlier later =>
      earlier.leafIndex < later.leafIndex)
    (above : ∀ old ∈ submitter.promoted, ∀ msg ∈ sent events,
      old.leafIndex < msg.leafIndex) :
    Machine.AdmissibleRun step Arrives submitter events := by
  induction events generalizing submitter with
  | nil => trivial
  | cons event events inductionHypothesis =>
      cases event with
      | send msg =>
          change ∀ other ∈ msg :: sent events, other.numRetries = 0 at fresh
          change (msg :: sent events).Pairwise _ at increasing
          obtain ⟨highest, later⟩ := List.pairwise_cons.mp increasing
          refine ⟨⟨fresh msg (by simp), fun other member =>
            above other member msg (List.mem_cons_self ..)⟩,
            inductionHypothesis
              (fun other member => fresh other (List.mem_cons_of_mem _ member))
              later ?_⟩
          intro old member other sentLater
          have known : old ∈ submitter.promoted ∨ old = msg := by
            simp only [promoted, step, List.mem_append,
              List.mem_singleton] at member ⊢
            tauto
          rcases known with earlier | rfl
          · exact above old earlier other (List.mem_cons_of_mem _ sentLater)
          · exact highest other sentLater
      | tick answers =>
          refine ⟨trivial, inductionHypothesis fresh increasing ?_⟩
          intro old member other sentLater
          obtain ⟨origin, earlier, same⟩ :=
            exists_mem_promoted_of_tick member
          rw [← same]
          exact above origin earlier other sentLater

/-- When messages are sent in increasing order of their leaf indices, the ones
that have never been attempted stand in that order in the run queue, between
two ticks and whenever a message is picked, exactly when every tick yields. -/
theorem inOrder_run_iff
    (db : AbacusDB)
    (events : List Event)
    (fresh : ∀ msg ∈ sent events, msg.numRetries = 0)
    (increasing : (sent events).Pairwise fun earlier later =>
      earlier.leafIndex < later.leafIndex) :
    (∀ before after, events = before ++ after →
        InOrder (Machine.run step (new db) before).runQueue ∧
          ∀ answers rest, after = .tick answers :: rest →
            (Machine.run step (new db) before).next answers ≠ none →
              InOrder (Machine.run step (new db) before).promoted) ↔
      Machine.AdmissibleRun step Yields (new db) events := by
  have arrives : Machine.AdmissibleRun step Arrives (new db) events :=
    admissibleRun_arrives fresh increasing fun old member => by
      simp [promoted, new] at member
  have initial : ArrivedInOrder (new db) :=
    ⟨by simp [new], by simp [new], by simp [new]⟩
  constructor
  · intro keeps
    apply Machine.admissibleRun_of_forall_split
    intro before event after split
    cases event with
    | send msg => trivial
    | tick answers =>
        intro picks
        obtain ⟨order, queue⟩ := keeps before _ split
        rw [split] at arrives
        have arrived := Machine.invariant_run step ArrivedInOrder
          (fun _ _ => arrivedInOrder_step) initial
          (Machine.AdmissibleRun.left step arrives)
        exact (arrived.inOrder_promoted_iff order).mp
          (queue answers after rfl picks)
  · rintro yields before after rfl
    have reached := Machine.invariant_run step
      (fun submitter => ArrivedInOrder submitter ∧
        InOrder submitter.runQueue)
      (fun _ _ admissible holds =>
        ⟨arrivedInOrder_step admissible.1 holds.1,
          inOrder_step admissible.2 holds.1 holds.2⟩)
      ⟨initial, List.Pairwise.nil⟩
      ((Machine.AdmissibleRun.left step arrives).and _
        (Machine.AdmissibleRun.left step yields))
    refine ⟨reached.2, ?_⟩
    rintro answers rest rfl picks
    exact (reached.1.inOrder_promoted_iff reached.2).mpr
      (Machine.AdmissibleRun.at_split step yields picks)

end Arrivals

/-- Two messages that arrive together are attempted in order. -/
theorem inOrder_run_iff_pair :
    InOrder (Machine.run (@step .transparent) (new Journal.empty)
      [.send (sampleAt 1), .send (sampleAt 2)]).promoted :=
  ((@inOrder_run_iff .transparent Journal.empty
    [.send (sampleAt 1), .send (sampleAt 2), .tick processedAnswers,
      .tick processedAnswers] (by decide) (by decide)).mpr
    ⟨trivial, trivial, fun _ => .inr rfl, fun _ => .inl rfl, trivial⟩
    [.send (sampleAt 1), .send (sampleAt 2)] _ rfl).2 processedAnswers _ rfl
      (by decide)

/-- Messages that arrive while an older one waits are put in front of it:
message `3` is attempted while message `2` has never been, and then message
`4` stands before message `2`. -/
theorem newer_before_older :
    (sent [.send (sampleAt 1), .send (sampleAt 2), .tick processedAnswers,
        .send (sampleAt 3), .send (sampleAt 4),
        .tick processedAnswers]).Pairwise
          (fun earlier later => earlier.leafIndex < later.leafIndex) ∧
      (Machine.run (@step .transparent) (new Journal.empty)
          [.send (sampleAt 1), .send (sampleAt 2), .tick processedAnswers,
            .send (sampleAt 3), .send (sampleAt 4)]).next processedAnswers =
        some (sampleAt 3) ∧
      ¬ InOrder (Machine.run (@step .transparent) (new Journal.empty)
          [.send (sampleAt 1), .send (sampleAt 2), .tick processedAnswers,
            .send (sampleAt 3), .send (sampleAt 4),
            .tick processedAnswers]).runQueue := by
  refine ⟨by decide, by decide, ?_⟩
  unfold InOrder
  decide

end SerialSubmitter

end Abacus
