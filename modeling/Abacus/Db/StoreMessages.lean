import Abacus.Db.Crash

/-!
# Storing any batch of messages

A batch is stored message by message, whatever its indices are, and stops at
the first message that does not parse. The predecessor of an index that is
computed for the log underflows for index zero, unless nothing is known yet.
-/

namespace Abacus

namespace AbacusDB

open Journal (Program)

/-- A message whose body parses. -/
def Parses (message : RawCommittedMessage) : Prop :=
  ∃ parsed, AbacusMessage.parse message.message = .ok parsed

/-- The highest of an index that may be known and of those of the messages. -/
structure IsHighestIndex (known : Option UInt32)
    (messages : List RawCommittedMessage) (index : UInt32) : Prop where
  occurs : known = some index ∨
    ∃ message ∈ messages, message.leafIndex = index
  known_le : ∀ other, known = some other → other ≤ index
  stored_le : ∀ message ∈ messages, message.leafIndex ≤ index

/-- The higher one of an index that may be known and another one. -/
def raisedIndex (known : Option UInt32) (leafIndex : UInt32) : UInt32 :=
  match known with
  | some idx => if leafIndex ≤ idx then idx else leafIndex
  | none => leafIndex

/-- The raised index is the higher one of the two. -/
theorem raisedIndex_spec (known : Option UInt32) (leafIndex : UInt32) :
    (known = some (raisedIndex known leafIndex) ∨
        leafIndex = raisedIndex known leafIndex) ∧
      leafIndex ≤ raisedIndex known leafIndex ∧
      ∀ idx, known = some idx → idx ≤ raisedIndex known leafIndex := by
  cases known with
  | none => exact ⟨.inr rfl, UInt32.le_refl _, nofun⟩
  | some idx =>
      by_cases below : leafIndex ≤ idx
      · simp only [raisedIndex, below, if_true]
        exact ⟨.inl trivial, trivial, by simp⟩
      · simp only [raisedIndex, below, if_false]
        refine ⟨.inr trivial, UInt32.le_refl _, ?_⟩
        rintro other ⟨⟩
        exact UInt32.le_of_lt (UInt32.not_le.mp below)

/-- The highest index can be found one message at a time. -/
theorem isHighestIndex_cons_iff
    (known : Option UInt32)
    (message : RawCommittedMessage)
    (rest : List RawCommittedMessage)
    (index : UInt32) :
    IsHighestIndex (some (raisedIndex known message.leafIndex)) rest index ↔
      IsHighestIndex known (message :: rest) index := by
  obtain ⟨origin, above, known_le⟩ :=
    raisedIndex_spec known message.leafIndex
  constructor
  · intro highest
    have raised := highest.known_le _ rfl
    refine ⟨?_, ?_, ?_⟩
    · rcases highest.occurs with same | ⟨other, member, same⟩
      · rw [Option.some.inj same] at origin
        exact origin.imp_right fun same => ⟨message, by simp, same⟩
      · exact .inr ⟨other, List.mem_cons_of_mem _ member, same⟩
    · intro other same
      exact UInt32.le_trans (known_le other same) raised
    · intro other member
      rcases List.mem_cons.mp member with rfl | later
      · exact UInt32.le_trans above raised
      · exact highest.stored_le other later
  · intro highest
    have raised : raisedIndex known message.leafIndex ≤ index := by
      rcases origin with same | same
      · exact highest.known_le _ same
      · rw [← same]
        exact highest.stored_le message (by simp)
    refine ⟨?_, ?_, fun other member => highest.stored_le other
      (List.mem_cons_of_mem _ member)⟩
    · rcases highest.occurs with same | ⟨other, member, same⟩
      · exact .inl (congrArg some
          (UInt32.le_antisymm raised (known_le index same)))
      · rcases List.mem_cons.mp member with rfl | later
        · rw [same] at above raised ⊢
          exact .inl (congrArg some (UInt32.le_antisymm raised above))
        · exact .inr ⟨other, later, same⟩
    · rintro other ⟨⟩
      exact raised

/-- No message of index zero is reached while an index is known. -/
def ReachesZeroFirst (db : AbacusDB) (messages : List RawCommittedMessage) :
    Prop :=
  ∀ before message after, messages = before ++ message :: after →
    (∀ earlier ∈ before, Parses earlier) → message.leafIndex = 0 →
      before = [] ∧ db .latestLeafIndex = none

/-- The first message of a batch is no underflow. -/
theorem ReachesZeroFirst.positive
    {db : AbacusDB}
    {message : RawCommittedMessage}
    {rest : List RawCommittedMessage}
    (reaches : ReachesZeroFirst db (message :: rest)) :
    db .latestLeafIndex = none ∨ 1 ≤ message.leafIndex := by
  by_cases zero : message.leafIndex = 0
  · exact .inl (reaches [] message rest rfl (by simp) zero).2
  · refine .inr (UInt32.le_iff_toNat_le.mpr ?_)
    exact Nat.one_le_iff_ne_zero.mpr fun none =>
      zero (UInt32.toNat_inj.mp none)

/-- The messages behind the first one have other indices than zero. -/
theorem ReachesZeroFirst.tail
    {db after : AbacusDB}
    {message : RawCommittedMessage}
    {rest : List RawCommittedMessage}
    (reaches : ReachesZeroFirst db (message :: rest))
    (parses : Parses message) :
    ReachesZeroFirst after rest := by
  intro before later behind split parsed zero
  have first := (reaches (message :: before) later behind
    (by rw [split]; rfl)
    (fun earlier member => (List.mem_cons.mp member).elim
      (fun same => same ▸ parses) (parsed earlier)) zero).1
  cases first

/-- A batch reaches zero first if its first message does and, in case that one
parses, the messages behind it do where an index is known. -/
theorem ReachesZeroFirst.cons
    {db : AbacusDB}
    {message : RawCommittedMessage}
    {rest : List RawCommittedMessage}
    (first : message.leafIndex = 0 → db .latestLeafIndex = none)
    (later : Parses message → ∃ after : AbacusDB,
      after .latestLeafIndex ≠ none ∧ ReachesZeroFirst after rest) :
    ReachesZeroFirst db (message :: rest) := by
  intro before reached behind split parse zero
  cases before with
  | nil =>
      cases split
      exact ⟨rfl, first zero⟩
  | cons head before =>
      cases split
      obtain ⟨after, known, reaches⟩ := later (parse _ List.mem_cons_self)
      exact (known (reaches before reached behind rfl
        (fun earlier member => parse earlier (List.mem_cons_of_mem _ member))
        zero).2).elim

section Batches

variable [Crypto]

/-- The database after storing messages one by one. -/
def storedInOrder (db : AbacusDB) (messages : List RawCommittedMessage) :
    AbacusDB :=
  messages.foldl
    (fun current message => (storeRawCommittedMessage message).final current)
    db

/-- What storing a batch does: it never panics, it stores a batch that parses
and returns the last index, and it stops in front of a message that does not
parse. -/
structure StoresBatch (db : AbacusDB) (messages : List RawCommittedMessage) :
    Prop where
  returns : ∀ reason,
    (storeMessages messages).result db ≠ .error (.panic reason)
  stored : (∀ message ∈ messages, Parses message) →
    (storeMessages messages).result db =
        .ok ((messages.getLast?.map RawCommittedMessage.leafIndex).getD 0) ∧
      (storeMessages messages).final db = storedInOrder db messages ∧
      ∀ index, (storeMessages messages).final db .latestLeafIndex =
          some index ↔
        IsHighestIndex (db .latestLeafIndex) messages index
  stopped : ∀ before failing after, messages = before ++ failing :: after →
    (∀ message ∈ before, Parses message) → ¬ Parses failing →
      (∃ error,
        (storeMessages messages).result db = .error (.error error)) ∧
      (storeMessages messages).final db = storedInOrder db before

/-! ## One message -/

/-- The latest index after storing a message. -/
theorem replay_messagePuts_latest
    (db : AbacusDB)
    (message : RawCommittedMessage)
    (destination : UInt32) :
    Journal.replay db (messagePuts db message destination) .latestLeafIndex =
      some (raisedIndex (db .latestLeafIndex) message.leafIndex) := by
  cases known : (db .latestLeafIndex : Option UInt32) with
  | none =>
      exact replay_messagePuts_latestLeafIndex db message destination
        (by simp [known])
  | some idx =>
      by_cases below : message.leafIndex ≤ idx
      · simp only [raisedIndex, below, if_true]
        rw [messagePuts, Journal.replay_cons, Journal.replay_append,
          Journal.replay_append, Journal.replay_cons, Journal.replay_nil,
          Journal.Put.apply_of_ne (by simp),
          replay_raisingPuts_of_ne (by simp), known, raisingPuts,
          if_pos below, Journal.replay_nil,
          Journal.Put.apply_of_ne (by simp), known]
      · simp only [raisedIndex, below, if_false]
        refine replay_messagePuts_latestLeafIndex db message destination ?_
        intro other same
        rw [known] at same
        cases same
        exact UInt32.not_le.mp below

/-- The predecessor of index zero does not exist. -/
theorem run_storeBatchMessage_underflow
    {message : RawCommittedMessage}
    (zero : message.leafIndex = 0)
    {db : AbacusDB}
    {idx : UInt32}
    (known : db .latestLeafIndex = some idx) :
    storeBatchMessage message db = (.error (.panic .overflow), []) := by
  have stopped : storeLatestMessage message db =
      (.error (.panic .overflow), []) := by
    unfold storeLatestMessage retrieveLatestLeafIndex
    rw [Program.run_bind_ok (run_retrieve _ _), Journal.replay_nil, known,
      zero]
    rfl
  exact Program.run_bind_error stopped _

/-- A batch stores its first message and goes on with the others. -/
theorem run_foldlM_storeBatchMessage_cons
    {message : RawCommittedMessage}
    (parses : Parses message)
    {db : AbacusDB}
    (positive : db .latestLeafIndex = none ∨ 1 ≤ message.leafIndex)
    (initial : UInt32)
    (rest : List RawCommittedMessage) :
    let batch (index : UInt32) (messages : List RawCommittedMessage) :
        DbM UInt32 :=
      messages.foldlM (fun _ message => storeBatchMessage message) index
    let after := (storeRawCommittedMessage message).final db
    (batch initial (message :: rest)).result db =
        (batch message.leafIndex rest).result after ∧
      (batch initial (message :: rest)).final db =
        (batch message.leafIndex rest).final after := by
  intro batch after
  obtain ⟨parsed, parses⟩ := parses
  have same : after =
      Journal.replay db (messagePuts db message parsed.destination) := by
    simp only [after, Program.final, Program.journal,
      run_storeRawCommittedMessage parses]
  have run : batch initial (message :: rest) db =
      ((batch message.leafIndex rest after).1,
        messagePuts db message parsed.destination ++
          (batch message.leafIndex rest after).2) := by
    rw [same]
    exact Program.run_bind_ok (run_storeBatchMessage parses positive) _
  refine ⟨?_, ?_⟩
  · rw [Program.result, run, Program.result]
  · rw [Program.final, Program.journal, run, Journal.replay_append, ← same]
    rfl

/-- Storing a message raises the latest index. -/
theorem final_storeRawCommittedMessage_latest
    {message : RawCommittedMessage}
    (parses : Parses message)
    (db : AbacusDB) :
    (storeRawCommittedMessage message).final db .latestLeafIndex =
      some (raisedIndex (db .latestLeafIndex) message.leafIndex) := by
  obtain ⟨parsed, parses⟩ := parses
  rw [Program.final, Program.journal, run_storeRawCommittedMessage parses]
  exact replay_messagePuts_latest db message parsed.destination

/-! ## Batches -/

/-- The latest index behind messages that parse is the highest of all. -/
theorem storedInOrder_latest_iff
    {db : AbacusDB}
    {messages : List RawCommittedMessage}
    (parse : ∀ message ∈ messages, Parses message)
    (index : UInt32) :
    storedInOrder db messages .latestLeafIndex = some index ↔
      IsHighestIndex (db .latestLeafIndex) messages index := by
  induction messages generalizing db with
  | nil =>
      constructor
      · intro known
        refine ⟨.inl known, ?_, by simp⟩
        intro other same
        rw [storedInOrder, List.foldl_nil] at known
        rw [known] at same
        cases same
        exact UInt32.le_refl _
      · intro highest
        exact highest.occurs.resolve_right (by simp)
  | cons message rest inductionHypothesis =>
      rw [storedInOrder, List.foldl_cons, ← storedInOrder,
        inductionHypothesis fun later member =>
          parse later (List.mem_cons_of_mem _ member),
        final_storeRawCommittedMessage_latest (parse message (by simp)),
        isHighestIndex_cons_iff]

/-- A batch stores the messages in front of one that does not parse, and all
of its messages if there is none. -/
theorem run_foldlM_storeBatchMessage
    {db : AbacusDB}
    {messages : List RawCommittedMessage}
    (parse : ∀ message ∈ messages, Parses message)
    {rest : List RawCommittedMessage}
    (reaches : ReachesZeroFirst db (messages ++ rest))
    (initial : UInt32) :
    let batch (index : UInt32) (messages : List RawCommittedMessage) :
        DbM UInt32 :=
      messages.foldlM (fun _ message => storeBatchMessage message) index
    let last :=
      (messages.getLast?.map RawCommittedMessage.leafIndex).getD initial
    let after := storedInOrder db messages
    (batch initial (messages ++ rest)).result db =
        (batch last rest).result after ∧
      (batch initial (messages ++ rest)).final db =
        (batch last rest).final after ∧
      ReachesZeroFirst after rest := by
  intro batch last after
  induction messages generalizing db initial with
  | nil => exact ⟨rfl, rfl, reaches⟩
  | cons message messages inductionHypothesis =>
      have parses := parse message (by simp)
      obtain ⟨result, final⟩ := run_foldlM_storeBatchMessage_cons parses
        reaches.positive initial (messages ++ rest)
      obtain ⟨resultLater, finalLater, reachesLater⟩ :=
        inductionHypothesis
          (fun later member => parse later (List.mem_cons_of_mem _ member))
          (reaches.tail parses) message.leafIndex
      have lastLater : last =
          (messages.getLast?.map RawCommittedMessage.leafIndex).getD
            message.leafIndex := by
        cases tail : messages.getLast? <;>
          simp [last, List.getLast?_cons, tail]
      rw [lastLater]
      exact ⟨result.trans resultLater, final.trans finalLater, reachesLater⟩

/-- An index of zero that is reached while an index is known panics. -/
theorem result_foldlM_storeBatchMessage_panic
    {db : AbacusDB}
    {messages : List RawCommittedMessage}
    (reaches : ¬ ReachesZeroFirst db messages)
    (initial : UInt32) :
    (messages.foldlM (fun _ message => storeBatchMessage message)
      initial : DbM UInt32).result db = .error (.panic .overflow) := by
  induction messages generalizing db initial with
  | nil =>
      refine (reaches ?_).elim
      intro before message after split
      simp at split
  | cons message rest inductionHypothesis =>
      by_cases positive : db .latestLeafIndex = none ∨ 1 ≤ message.leafIndex
      · have first : message.leafIndex = 0 → db .latestLeafIndex = none := by
          intro zero
          exact positive.resolve_right (by rw [zero]; decide)
        have parses : Parses message := by
          by_contra unparsed
          exact reaches (.cons first fun parses => (unparsed parses).elim)
        have known : (storeRawCommittedMessage message).final db
            .latestLeafIndex ≠ none := by
          rw [final_storeRawCommittedMessage_latest parses]
          exact Option.some_ne_none _
        rw [(run_foldlM_storeBatchMessage_cons parses positive
          initial rest).1]
        exact inductionHypothesis
          (fun later => reaches (.cons first fun _ => ⟨_, known, later⟩)) _
      · obtain ⟨known, below⟩ := not_or.mp positive
        have zero : message.leafIndex = 0 := by
          refine UInt32.toNat_inj.mp ?_
          have below := UInt32.le_iff_toNat_le.not.mp below
          simp only [UInt32.toNat_one] at below
          simp only [UInt32.toNat_zero]
          omega
        obtain ⟨idx, known⟩ := Option.ne_none_iff_exists'.mp known
        have underflow := run_storeBatchMessage_underflow zero known
        exact congrArg Prod.fst (Program.run_bind_error underflow _)

/-- A batch is stored up to a message that does not parse if no index of zero
is reached before. -/
theorem run_storeMessages_unparsed
    {db : AbacusDB}
    {before after : List RawCommittedMessage}
    {failing : RawCommittedMessage}
    (reaches : ReachesZeroFirst db (before ++ failing :: after))
    (parse : ∀ message ∈ before, Parses message)
    (unparsed : ¬ Parses failing) :
    let batch := storeMessages (before ++ failing :: after)
    (∃ error, batch.result db = .error (.error error)) ∧
      batch.final db = storedInOrder db before := by
  intro batch
  obtain ⟨result, final, reachesFailing⟩ :=
    run_foldlM_storeBatchMessage parse reaches 0
  cases fails : AbacusMessage.parse failing.message with
  | ok parsed => exact (unparsed ⟨parsed, fails⟩).elim
  | error error =>
      have stopped := run_storeBatchMessage_error fails
        reachesFailing.positive
      have run := Program.run_bind_error stopped fun index =>
        (after.foldlM (fun _ message => storeBatchMessage message) index :
          DbM UInt32)
      refine ⟨⟨error, result.trans (congrArg Prod.fst run)⟩, final.trans ?_⟩
      exact congrArg (fun outcome => Journal.replay _ outcome.2) run

/-- A batch that parses is stored if no index of zero is reached. -/
theorem run_storeMessages_parsed
    {db : AbacusDB}
    {messages : List RawCommittedMessage}
    (reaches : ReachesZeroFirst db messages)
    (parse : ∀ message ∈ messages, Parses message) :
    (storeMessages messages).result db =
        .ok ((messages.getLast?.map RawCommittedMessage.leafIndex).getD 0) ∧
      (storeMessages messages).final db = storedInOrder db messages := by
  have reachesAll : ReachesZeroFirst db (messages ++ []) := by
    rwa [List.append_nil]
  have run := run_foldlM_storeBatchMessage parse reachesAll 0
  rw [List.append_nil] at run
  exact ⟨run.1, run.2.1⟩

/-- A batch stores what parses exactly if no message of index zero is reached
while an index is known. -/
theorem storesBatch_iff
    (db : AbacusDB)
    (messages : List RawCommittedMessage) :
    StoresBatch db messages ↔ ReachesZeroFirst db messages := by
  constructor
  · intro stores
    by_contra reaches
    exact stores.returns _ (result_foldlM_storeBatchMessage_panic reaches 0)
  · intro reaches
    refine ⟨?_, ?_, ?_⟩
    · intro reason panicked
      classical
      cases found : messages.find? fun message => ¬ Parses message with
      | none =>
          have parse : ∀ message ∈ messages, Parses message := by
            simpa using List.find?_eq_none.mp found
          rw [(run_storeMessages_parsed reaches parse).1] at panicked
          cases panicked
      | some failing =>
          obtain ⟨unparsed, before, after, rfl, parse⟩ :=
            List.find?_eq_some_iff_append.mp found
          obtain ⟨error, stopped⟩ := (run_storeMessages_unparsed reaches
            (by simpa using parse) (by simpa using unparsed)).1
          rw [stopped] at panicked
          cases panicked
    · intro parse
      obtain ⟨result, final⟩ := run_storeMessages_parsed reaches parse
      refine ⟨result, final, fun index => ?_⟩
      rw [final]
      exact storedInOrder_latest_iff parse index
    · rintro before failing after rfl parse unparsed
      exact run_storeMessages_unparsed reaches parse unparsed

end Batches

/-- A message of index zero behind another one panics, and the batch is not
stored. -/
theorem storeMessages_zero_second :
    let messages := [shortestMessage 1, shortestMessage 0]
    (@storeMessages .transparent messages).result Journal.empty =
        .error (.panic .overflow) ∧
      ¬ @StoresBatch .transparent Journal.empty messages := by
  intro messages
  have reaches : ¬ ReachesZeroFirst Journal.empty messages := by
    intro reaches
    have first := (reaches [shortestMessage 1] (shortestMessage 0) [] rfl
      (by simp [Parses, parse_shortestMessage]) rfl).1
    cases first
  have panicked := @result_foldlM_storeBatchMessage_panic .transparent
    Journal.empty messages reaches 0
  exact ⟨panicked, fun stores =>
    @StoresBatch.returns .transparent _ _ stores _ panicked⟩

end AbacusDB

end Abacus
