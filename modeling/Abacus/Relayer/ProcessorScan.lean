import Abacus.Relayer.Relay

/-!
# The scan loses and repeats no message

Each step leaves the cursor where it is, moves past an index that may be
passed, or sends the message at the cursor and moves past it. So the sent
indices increase, and each index below the cursor is accounted for at the step
that moved past it.
-/

namespace Abacus

namespace Relay

/-- The leaf indices sent so far. -/
def sentIndices (relay : Relay) : List UInt32 :=
  relay.txMsg.map SubmitMessageArgs.leafIndex

/-- The cursor of the scan. -/
def cursor (relay : Relay) : UInt32 :=
  relay.processor.messageLeafIndex

/-- Two processors of the same inbox with the same lists. -/
structure SameSettings (first second : MessageProcessor) : Prop where
  localDomain : first.localDomain = second.localDomain
  whitelist : first.whitelist = second.whitelist
  blacklist : first.blacklist = second.blacklist

theorem SameSettings.trans
    {first second third : MessageProcessor}
    (left : SameSettings first second)
    (right : SameSettings second third) :
    SameSettings first third :=
  ⟨left.localDomain.trans right.localDomain,
    left.whitelist.trans right.whitelist,
    left.blacklist.trans right.blacklist⟩

/-- What is excluded depends on the settings only. -/
theorem SameSettings.excluded_iff
    {first second : MessageProcessor}
    (same : SameSettings first second)
    (message : AbacusMessage) :
    first.Excluded message ↔ second.Excluded message := by
  rw [MessageProcessor.Excluded, same.localDomain, same.whitelist,
    same.blacklist]
  rfl

/-- What is passed depends on the settings only. -/
theorem SameSettings.passed
    {first second : MessageProcessor}
    {db : AbacusDB}
    {index : UInt32}
    (same : SameSettings first second)
    (passed : second.Passed db index) :
    first.Passed db index := by
  rcases passed with status | ⟨raw, message, found, parsed, excluded⟩
  · exact .inl status
  · exact .inr ⟨raw, message, found, parsed,
      (same.excluded_iff message.message).mpr excluded⟩

/-! ## One step -/

/-- The next state has the same cursor and sent nothing. -/
structure Stays (before after : Relay) : Prop where
  cursor_eq : after.cursor = before.cursor
  txMsg_eq : after.txMsg = before.txMsg

/-- The next state is one index further, which was passed. -/
structure Passes (before after : Relay) : Prop where
  cursor_eq : after.cursor.toNat = before.cursor.toNat + 1
  txMsg_eq : after.txMsg = before.txMsg
  passed : before.processor.Passed before.db before.cursor
  known : (∃ status, (AbacusDB.retrieveLeafProcessingStatus
      before.cursor).result before.db = .ok (some status)) ∨
    AbacusDB.Retrievable before.db before.cursor

/-- The next state has sent the message at the cursor, and is one index
further unless that was the last `u32`. -/
structure Sent (before after : Relay) : Prop where
  running : ∀ reason, before.processor.phase ≠ .panicked reason
  sent : ∃ args, args.leafIndex = before.cursor ∧
    after.txMsg = before.txMsg ++ [args]
  cursor_eq : after.cursor.toNat = before.cursor.toNat + 1 ∨
    after.cursor = before.cursor ∧
      ∃ reason, after.processor.phase = .panicked reason
  carried : ∃ message, carried before.processor.phase = some message

theorem sentIndices_congr
    {before after : Relay}
    (same : after.txMsg = before.txMsg) :
    after.sentIndices = before.sentIndices := by
  rw [sentIndices, same, sentIndices]

theorem Sent.sentIndices_eq
    {before after : Relay}
    (sent : Sent before after) :
    after.sentIndices = before.sentIndices ++ [before.cursor] := by
  obtain ⟨args, leafIndex, txMsg⟩ := sent.sent
  rw [sentIndices, txMsg, List.map_append, List.map_singleton, leafIndex,
    sentIndices]

/-- The processor has panicked. -/
def Panicked (relay : Relay) : Prop :=
  ∃ reason, relay.processor.phase = .panicked reason

theorem startTick_messageLeafIndex (processor : MessageProcessor) :
    (startTick processor).messageLeafIndex = processor.messageLeafIndex := by
  unfold startTick
  split <;> rfl

section Steps

variable [Crypto]

theorem sameSettings_transition
    {around : Surroundings}
    {processor : MessageProcessor}
    {outcome : MessageProcessor × Option SubmitMessageArgs}
    (transition : MessageProcessor.Transition around processor outcome) :
    SameSettings processor outcome.1 := by
  cases transition <;> exact ⟨rfl, rfl, rfl⟩

theorem sameSettings_step (relay : Relay) (event : Event) :
    SameSettings relay.processor (relay.step event).processor := by
  cases event with
  | processor dbFails =>
      exact sameSettings_transition (MessageProcessor.transition_step
        (relay.around dbFails) relay.processor)
  | put put => exact ⟨rfl, rfl, rfl⟩
  | publish checkpoint =>
      rw [step]
      split <;> exact ⟨rfl, rfl, rfl⟩
  | closeCheckpoints => exact ⟨rfl, rfl, rfl⟩
  | closeSubmitter => exact ⟨rfl, rfl, rfl⟩
  | startTick =>
      simp only [step, startTick]
      split <;> exact ⟨rfl, rfl, rfl⟩

/-- What a step of the processor does to the cursor and to the channel. -/
theorem stays_or_passes_or_sent_of_transition
    {relay : Relay}
    {dbFails : Bool}
    {outcome : MessageProcessor × Option SubmitMessageArgs}
    (transition : MessageProcessor.Transition (relay.around dbFails)
      relay.processor outcome)
    {after : Relay}
    (processor : after.processor = outcome.1)
    (txMsg : after.txMsg = relay.txMsg ++ outcome.2.toList) :
    Stays relay after ∨ Passes relay after ∨ Sent relay after := by
  have sends {message checkpoint proof}
      (sends : MessageProcessor.Sends relay.processor message checkpoint
        proof) :
      (∀ reason, relay.processor.phase ≠ .panicked reason) ∧
        ∃ message, carried relay.processor.phase = some message := by
    rw [sends.dispatching]
    exact ⟨fun _ => nofun, message, rfl⟩
  cases transition with
  | stay =>
      exact .inl ⟨by rw [cursor, processor]; rfl, by simpa using txMsg⟩
  | fail error =>
      exact .inl ⟨by rw [cursor, processor]; rfl, by simpa using txMsg⟩
  | panic cause =>
      exact .inl ⟨by rw [cursor, processor]; rfl, by simpa using txMsg⟩
  | goto goes =>
      exact .inl ⟨by rw [cursor, processor]; rfl, by simpa using txMsg⟩
  | ingest updating below found ingested =>
      exact .inl ⟨by rw [cursor, processor]; rfl, by simpa using txMsg⟩
  | pass scanning passed successor =>
      refine .inr (.inl ⟨by rw [cursor, processor]; exact successor,
        by simpa using txMsg, passed, ?_⟩)
      rcases passed with status | ⟨raw, message, found, -, -⟩
      · exact .inl status
      · exact .inr ⟨raw, found⟩
  | send ready successor =>
      exact .inr (.inr ⟨(sends ready).1, ⟨_, rfl, txMsg⟩,
        .inl (by rw [cursor, processor]; exact successor),
        (sends ready).2⟩)
  | sendLast ready last =>
      exact .inr (.inr ⟨(sends ready).1, ⟨_, rfl, txMsg⟩,
        .inr ⟨by rw [cursor, processor]; rfl, .overflow, by rw [processor]⟩,
        (sends ready).2⟩)

/-- What an event does to the cursor and to the channel. -/
theorem stays_or_passes_or_sent (relay : Relay) (event : Event) :
    Stays relay (relay.step event) ∨ Passes relay (relay.step event) ∨
      Sent relay (relay.step event) := by
  cases event with
  | processor dbFails =>
      exact stays_or_passes_or_sent_of_transition
        (MessageProcessor.transition_step (relay.around dbFails)
          relay.processor) rfl rfl
  | put put => exact .inl ⟨rfl, rfl⟩
  | publish checkpoint =>
      rw [step]
      split <;> exact .inl ⟨rfl, rfl⟩
  | closeCheckpoints => exact .inl ⟨rfl, rfl⟩
  | closeSubmitter => exact .inl ⟨rfl, rfl⟩
  | startTick => exact .inl ⟨startTick_messageLeafIndex relay.processor, rfl⟩

/-- A processor that has panicked does nothing any more. -/
theorem processor_step_of_panicked
    {relay : Relay}
    (panicked : Panicked relay)
    (event : Event) :
    (relay.step event).processor = relay.processor := by
  obtain ⟨reason, phase⟩ := panicked
  cases event with
  | processor dbFails =>
      simp only [step, MessageProcessor.step, MessageProcessor.advance, phase,
        MessageProcessor.settle]
  | put put => rfl
  | publish checkpoint =>
      rw [step]
      split <;> rfl
  | closeCheckpoints => rfl
  | closeSubmitter => rfl
  | startTick => simp only [step, startTick, phase]

/-- The cursor moves by single indices. -/
theorem slow_step (relay : Relay) (event : Event) :
    (relay.step event).cursor.toNat = relay.cursor.toNat ∨
      (relay.step event).cursor.toNat = relay.cursor.toNat + 1 := by
  rcases stays_or_passes_or_sent relay event with stays | passes | sent
  · exact .inl (congrArg _ stays.cursor_eq)
  · exact .inr passes.cursor_eq
  · rcases sent.cursor_eq with moved | ⟨same, -⟩
    · exact .inr moved
    · exact .inl (congrArg _ same)

end Steps

/-! ## Whole runs -/

/-- The sent indices increase, and all of them are below the cursor unless the
processor has panicked. -/
structure Scanned (relay : Relay) : Prop where
  increasing : relay.sentIndices.Pairwise (· < ·)
  below : ∀ index ∈ relay.sentIndices,
    index.toNat < relay.cursor.toNat ∨ Panicked relay

/-- A later state of a run: the cursor has not moved back, and whatever was
sent in between had an index that was not below the earlier cursor. -/
structure Continues (earlier later : Relay) : Prop where
  cursor_le : earlier.cursor.toNat ≤ later.cursor.toNat
  kept : ∀ index ∈ earlier.sentIndices, index ∈ later.sentIndices
  added : ∀ index ∈ later.sentIndices,
    index ∈ earlier.sentIndices ∨ earlier.cursor.toNat ≤ index.toNat

theorem Continues.refl (relay : Relay) : Continues relay relay :=
  ⟨Nat.le_refl _, fun _ sent => sent, fun _ sent => .inl sent⟩

theorem Continues.trans
    {first second third : Relay}
    (left : Continues first second)
    (right : Continues second third) :
    Continues first third := by
  refine ⟨left.cursor_le.trans right.cursor_le,
    fun index sent => right.kept index (left.kept index sent), ?_⟩
  intro index sent
  rcases right.added index sent with earlier | above
  · exact left.added index earlier
  · exact .inr (left.cursor_le.trans above)

/-- Before any event nothing has been sent. -/
theorem scanned_new (db : AbacusDB) (processor : MessageProcessor) :
    Scanned (new db processor) :=
  ⟨List.Pairwise.nil, fun _ member => nomatch member⟩

/-- What was sent was sent exactly once. -/
theorem Scanned.count_eq_one
    {relay : Relay}
    (scanned : Scanned relay)
    {index : UInt32}
    (member : index ∈ relay.sentIndices) :
    relay.sentIndices.count index = 1 := by
  refine List.count_eq_one_of_mem (scanned.increasing.imp ?_) member
  rintro left right less rfl
  exact UInt32.lt_irrefl left less

section Runs

variable [Crypto]

theorem continues_step (relay : Relay) (event : Event) :
    Continues relay (relay.step event) := by
  have unsent (txMsg : (relay.step event).txMsg = relay.txMsg)
      (cursor : relay.cursor.toNat ≤ (relay.step event).cursor.toNat) :
      Continues relay (relay.step event) := by
    have indices := sentIndices_congr txMsg
    refine ⟨cursor, ?_, ?_⟩
    · exact fun index member => indices ▸ member
    · exact fun index member => .inl (indices ▸ member)
  rcases stays_or_passes_or_sent relay event with stays | passes | sent
  · exact unsent stays.txMsg_eq
      (Nat.le_of_eq (congrArg _ stays.cursor_eq.symm))
  · exact unsent passes.txMsg_eq (by rw [passes.cursor_eq]; omega)
  · refine ⟨?_, ?_, ?_⟩
    · rcases sent.cursor_eq with moved | ⟨same, -⟩
      · omega
      · rw [same]
    · intro index member
      rw [sent.sentIndices_eq]
      exact List.mem_append_left _ member
    · intro index member
      rw [sent.sentIndices_eq, List.mem_append, List.mem_singleton] at member
      rcases member with earlier | rfl
      · exact .inl earlier
      · exact .inr (Nat.le_refl _)

/-- Every event keeps the sent indices increasing and below the cursor. -/
theorem scanned_step
    {relay : Relay}
    (scanned : Scanned relay)
    (event : Event) :
    Scanned (relay.step event) := by
  have unsent (txMsg : (relay.step event).txMsg = relay.txMsg)
      (cursor : relay.cursor.toNat ≤ (relay.step event).cursor.toNat) :
      Scanned (relay.step event) := by
    have indices := sentIndices_congr txMsg
    refine ⟨indices ▸ scanned.increasing, ?_⟩
    intro index member
    rw [indices] at member
    rcases scanned.below index member with below | panicked
    · exact .inl (Nat.lt_of_lt_of_le below cursor)
    · refine .inr ?_
      rw [Panicked, processor_step_of_panicked panicked event]
      exact panicked
  rcases stays_or_passes_or_sent relay event with stays | passes | sent
  · exact unsent stays.txMsg_eq
      (Nat.le_of_eq (congrArg _ stays.cursor_eq.symm))
  · exact unsent passes.txMsg_eq (by rw [passes.cursor_eq]; omega)
  · have below : ∀ index ∈ relay.sentIndices,
        index.toNat < relay.cursor.toNat := by
      intro index member
      rcases scanned.below index member with below | ⟨reason, panicked⟩
      · exact below
      · exact absurd panicked (sent.running reason)
    constructor
    · rw [sent.sentIndices_eq, List.pairwise_append]
      refine ⟨scanned.increasing, List.pairwise_singleton _ _, ?_⟩
      intro index member last isLast
      rw [List.mem_singleton.mp isLast, UInt32.lt_iff_toNat_lt]
      exact below index member
    · intro index member
      rw [sent.sentIndices_eq, List.mem_append, List.mem_singleton] at member
      rcases sent.cursor_eq with moved | ⟨-, panicked⟩
      · rcases member with earlier | rfl
        · have earlierBelow := below index earlier
          exact .inl (by omega)
        · exact .inl (by omega)
      · exact .inr panicked

theorem continues_run (relay : Relay) (events : List Event) :
    Continues relay (Machine.run step relay events) :=
  Machine.relation_run step Continues.refl
    (fun _ _ _ => Continues.trans) continues_step relay events

theorem sameSettings_run (relay : Relay) (events : List Event) :
    SameSettings relay.processor
      (Machine.run step relay events).processor :=
  @Machine.relation_run _ _ step
    (fun first second => SameSettings first.processor second.processor)
    (fun _ => ⟨rfl, rfl, rfl⟩) (fun _ _ _ => SameSettings.trans)
    sameSettings_step relay events

/-- A processor that starts carries nothing, and keeps what it carries. -/
theorem carries_run
    {localDomain : UInt32}
    {whitelist blacklist : MatchingList}
    {processor : MessageProcessor}
    (created : MessageProcessor.new localDomain whitelist blacklist =
      .ok processor)
    (db : AbacusDB)
    {events : List Event}
    (grows : Machine.AdmissibleRun step Grows (new db processor) events) :
    Carries (Machine.run step (new db processor) events).db
      (Machine.run step (new db processor) events).processor := by
  refine Machine.invariant_run step
    (fun relay => Carries relay.db relay.processor)
    (fun relay event => carries_step) ?_ grows
  intro message carrying
  rw [new, (MessageProcessor.fresh_of_new created).phase_eq] at carrying
  cases carrying

/-- At the event that moves past an index, the index is sent or passed, and in
the latter case it is never sent. -/
theorem accounted
    {relay final : Relay}
    {event : Event}
    (scanned : Scanned relay)
    (carries : Carries relay.db relay.processor)
    (finalScanned : Scanned final)
    (continues : Continues (relay.step event) final)
    (moved : (relay.step event).cursor.toNat = relay.cursor.toNat + 1) :
    (final.sentIndices.count relay.cursor = 1 ∨
      final.sentIndices.count relay.cursor = 0 ∧
        relay.processor.Passed relay.db relay.cursor) ∧
      ((∃ status, (AbacusDB.retrieveLeafProcessingStatus
          relay.cursor).result relay.db = .ok (some status)) ∨
        AbacusDB.Retrievable relay.db relay.cursor) := by
  rcases stays_or_passes_or_sent relay event with stays | passes | sent
  · rw [stays.cursor_eq] at moved
    omega
  · refine ⟨.inr ⟨?_, passes.passed⟩, passes.known⟩
    rw [List.count_eq_zero]
    intro member
    rcases continues.added _ member with earlier | later
    · rw [sentIndices_congr passes.txMsg_eq] at earlier
      rcases scanned.below _ earlier with less | panicked
      · exact Nat.lt_irrefl _ less
      · rw [cursor, processor_step_of_panicked panicked event] at moved
        exact absurd moved (Nat.ne_of_lt (Nat.lt_succ_self _))
    · omega
  · obtain ⟨message, carrying⟩ := sent.carried
    refine ⟨.inl (finalScanned.count_eq_one ?_),
      .inr (carries message carrying).retrievable⟩
    apply continues.kept
    rw [sent.sentIndices_eq]
    exact List.mem_append_right _ (List.mem_singleton_self _)

/-- From a fresh processor on a database that only grows, the sent indices
increase. Each index below the cursor was moved past at one event: it was sent
exactly once, or it was not sent and had a processing status or an excluded
message in the database at that event. A message that was not stored then is
passed only with a processing status. -/
theorem scan_accounts
    {localDomain : UInt32}
    {whitelist blacklist : MatchingList}
    {processor : MessageProcessor}
    (created : MessageProcessor.new localDomain whitelist blacklist =
      .ok processor)
    (db : AbacusDB)
    (events : List Event)
    (grows : Machine.AdmissibleRun step Grows (new db processor) events) :
    (Machine.run step (new db processor) events).sentIndices.Pairwise
        (· < ·) ∧
      ∀ index, index < (Machine.run step (new db processor) events).cursor →
        ∃ before event after, events = before ++ event :: after ∧
          (Machine.run step (new db processor) before).cursor = index ∧
          (Machine.run step (new db processor)
            (before ++ [event])).cursor.toNat = index.toNat + 1 ∧
          ((Machine.run step (new db processor) events).sentIndices.count
              index = 1 ∨
            (Machine.run step (new db processor) events).sentIndices.count
                index = 0 ∧
              processor.Passed
                (Machine.run step (new db processor) before).db index) ∧
          ((∃ status,
              (AbacusDB.retrieveLeafProcessingStatus index).result
                (Machine.run step (new db processor) before).db =
                  .ok (some status)) ∨
            AbacusDB.Retrievable
              (Machine.run step (new db processor) before).db index) := by
  have scannedRun {first : List Event}
      (growing : Machine.AdmissibleRun step Grows (new db processor) first) :
      Scanned (Machine.run step (new db processor) first) :=
    Machine.invariant_run step Scanned
      (fun relay event _ scanned => scanned_step scanned event)
      (scanned_new db processor) growing
  refine ⟨(scannedRun grows).increasing, ?_⟩
  intro index below
  have start : (new db processor).cursor.toNat ≤ index.toNat := by
    rw [cursor, new,
      (MessageProcessor.fresh_of_new created).messageLeafIndex_eq]
    exact Nat.zero_le _
  obtain ⟨before, event, after, split, reached, moved⟩ :=
    Machine.exists_crossing step (fun relay => relay.cursor.toNat) slow_step
      start (UInt32.lt_iff_toNat_lt.mp below)
  have atCursor := UInt32.toNat_inj.mp reached
  have earlier : Machine.AdmissibleRun step Grows (new db processor) before :=
    Machine.AdmissibleRun.left step (split ▸ grows)
  have scanned := scannedRun earlier
  have carries : Carries (Machine.run step (new db processor) before).db
      (Machine.run step (new db processor) before).processor :=
    carries_run created db earlier
  have settings :=
    sameSettings_run (new db processor) before
  have continues : Continues
      ((Machine.run step (new db processor) before).step event)
      (Machine.run step (new db processor) events) := by
    rw [split, Machine.run_append]
    exact continues_run _ after
  refine ⟨before, event, after, split, atCursor, ?_, ?_⟩
  · rw [Machine.run_concat]
    exact moved
  · subst atCursor
    obtain ⟨sent | ⟨unsent, passed⟩, known⟩ :=
      accounted scanned carries (scannedRun grows) continues moved
    · exact ⟨.inl sent, known⟩
    · exact ⟨.inr ⟨unsent, settings.passed passed⟩, known⟩

end Runs

/-- Two leaves and the first message are stored, a checkpoint of the second
leaf is published, and the processor makes a tick. -/
def sendingRun : List Event :=
  [.put ⟨.leaf 0, sampleLeaf 0⟩,
    .put ⟨.message (sampleLeaf 0), AbacusDB.shortestMessage 0⟩,
    .put ⟨.leaf 1, sampleLeaf 1⟩,
    .publish ⟨⟨1, H256.zero, 1⟩, []⟩] ++
    List.replicate 8 (.processor false)

/-- Index zero is marked as processed before its message is stored, and the
processor makes a tick. -/
def markedRun : List Event :=
  [.publish ⟨⟨1, H256.zero, 1⟩, []⟩,
    .put ⟨.leafProcessStatus 0, (1 : UInt32)⟩,
    .processor false, .processor false]

/-- A run that sends the message at index zero. -/
theorem scan_accounts_sending :
    0 < (Machine.run (@step .transparent)
        (new Journal.empty sampleProcessor) sendingRun).cursor ∧
      ∃ before event after, sendingRun = before ++ event :: after ∧
        (Machine.run (@step .transparent)
          (new Journal.empty sampleProcessor) before).cursor = 0 ∧
        ((Machine.run (@step .transparent)
            (new Journal.empty sampleProcessor)
            sendingRun).sentIndices.count 0 = 1 ∨
          (Machine.run (@step .transparent)
              (new Journal.empty sampleProcessor)
              sendingRun).sentIndices.count 0 = 0 ∧
            sampleProcessor.Passed (Machine.run (@step .transparent)
              (new Journal.empty sampleProcessor) before).db 0) := by
  have moved : 0 < (Machine.run (@step .transparent)
      (new Journal.empty sampleProcessor) sendingRun).cursor := by
    decide +kernel
  have grows : Machine.AdmissibleRun (@step .transparent) Grows
      (new Journal.empty sampleProcessor) sendingRun := by
    refine ⟨keeps_of_absent ⟨?_, ?_⟩, keeps_of_absent ⟨?_, ?_⟩,
      keeps_of_absent ⟨?_, ?_⟩, trivial, trivial, trivial, trivial, trivial,
      trivial, trivial, trivial, trivial, trivial⟩ <;>
    · intro index same
      cases same <;> rfl
  obtain ⟨before, event, after, split, reached, -, accounted, -⟩ :=
    (@scan_accounts .transparent 0 ⟨none⟩ ⟨none⟩ sampleProcessor rfl
      Journal.empty sendingRun grows).2 0 moved
  exact ⟨moved, before, event, after, split, reached, accounted⟩

/-- An index that is marked as processed is passed although no message is
stored at it, not even afterwards. -/
theorem passed_without_message :
    Machine.AdmissibleRun (@step .transparent) Grows
        (new Journal.empty sampleProcessor) markedRun ∧
      (Machine.run (@step .transparent)
        (new Journal.empty sampleProcessor) markedRun).cursor = 1 ∧
      ¬ AbacusDB.Retrievable
        (Machine.run (@step .transparent)
          (new Journal.empty sampleProcessor) markedRun).db 0 := by
  refine ⟨⟨trivial, keeps_of_absent ⟨?_, ?_⟩, trivial, trivial, trivial⟩,
    by decide +kernel, ?_⟩
  · exact fun index same => nomatch same
  · exact fun leaf same => nomatch same
  · rw [AbacusDB.retrievable_iff]
    rintro ⟨leaf, message, stored, -⟩
    cases stored

end Relay

end Abacus
