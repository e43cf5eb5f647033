import Abacus.Db.Crash
import Abacus.Library.Machine
import Abacus.Relayer.ProcessorTransitions

/-!
# The processor among the other tasks

While the processor steps, the indexer and the submitter put records, and the
checkpoint fetcher publishes checkpoints on a channel that keeps the newest
value only. The message that the processor carries through a tick stays the
one that the database holds at its index.
-/

namespace Abacus

open Journal (Put)

/-- The processor with the database and its two channels. -/
structure Relay where
  db : AbacusDB
  ckpt : Option MultisigSignedCheckpoint
  ckptClosed : Bool
  txClosed : Bool
  processor : MessageProcessor
  txMsg : List SubmitMessageArgs

namespace Relay

/-- The relay before any event. -/
def new (db : AbacusDB) (processor : MessageProcessor) : Relay where
  db := db
  ckpt := none
  ckptClosed := false
  txClosed := false
  processor := processor
  txMsg := []

/-- What the processor sees. -/
def around (relay : Relay) (dbFails : Bool) : Surroundings where
  db := relay.db
  dbFails := dbFails
  ckptRx := relay.ckpt
  ckptClosed := relay.ckptClosed
  txClosed := relay.txClosed

/-- What happens to a relay: the processor makes a step, another task puts a
record, a checkpoint is published, a channel is closed, or a tick is started
without the main loop. -/
inductive Event
  | processor (dbFails : Bool)
  | put (put : DbPut)
  | publish (checkpoint : MultisigSignedCheckpoint)
  | closeCheckpoints
  | closeSubmitter
  | startTick

/-- Start a tick, before the first checkpoint or again after an error. -/
def startTick (processor : MessageProcessor) : MessageProcessor :=
  match processor.phase with
  | .starting => { processor with phase := .idle }
  | .failed _ => { processor with phase := .idle }
  | _ => processor

/-- The relay after an event. -/
def step [Crypto] (relay : Relay) : Event → Relay
  | .processor dbFails =>
      let (processor, sent) := relay.processor.step (relay.around dbFails)
      { relay with
        processor := processor
        txMsg := relay.txMsg ++ sent.toList }
  | .put put => { relay with db := put.apply relay.db }
  | .publish checkpoint =>
      if relay.ckptClosed then relay
      else { relay with ckpt := some checkpoint }
  | .closeCheckpoints => { relay with ckptClosed := true }
  | .closeSubmitter => { relay with txClosed := true }
  | .startTick => { relay with processor := startTick relay.processor }

/-! ## Growth of the database -/

/-- The stored leaves and messages are kept. -/
structure Keeps (before after : AbacusDB) : Prop where
  leaf : ∀ {index leaf}, before (.leaf index) = some leaf →
    after (.leaf index) = some leaf
  message : ∀ {leaf raw}, before (.message leaf) = some raw →
    after (.message leaf) = some raw

/-- A put is not to a stored leaf or a stored message. -/
structure Absent (db : AbacusDB) (put : DbPut) : Prop where
  leaf : ∀ index, put.key = .leaf index → db (.leaf index) = none
  message : ∀ hash, put.key = .message hash → db (.message hash) = none

/-- A put of a new leaf or message, or of another record, keeps the stored
ones. -/
theorem keeps_of_absent
    {db : AbacusDB}
    {put : DbPut}
    (absent : Absent db put) :
    Keeps db (put.apply db) := by
  constructor
  · intro index leaf stored
    rw [Put.apply_of_ne _ db]
    · exact stored
    · intro same
      rw [absent.leaf index same.symm] at stored
      cases stored
  · intro hash raw stored
    rw [Put.apply_of_ne _ db]
    · exact stored
    · intro same
      rw [absent.message hash same.symm] at stored
      cases stored

/-- A put to another record leaves a put as new as it was. -/
theorem Absent.apply
    {db : AbacusDB}
    {put earlier : DbPut}
    (absent : Absent db put)
    (different : earlier.key ≠ put.key) :
    Absent (earlier.apply db) put := by
  constructor
  · intro index same
    rw [Put.apply_of_ne (same ▸ different.symm) db]
    exact absent.leaf index same
  · intro hash same
    rw [Put.apply_of_ne (same ▸ different.symm) db]
    exact absent.message hash same

/-- The other tasks only add leaves and messages. -/
def Grows (relay : Relay) : Event → Prop
  | .put put => Keeps relay.db (put.apply relay.db)
  | _ => True

/-! ## The message of a tick -/

/-- The message that the processor carries. -/
def carried : Phase → Option CommittedMessage
  | .awaiting message => some message
  | .updating message _ _ => some message
  | .dispatching message _ => some message
  | _ => none

/-- The database holds a message at an index. -/
def Holds (db : AbacusDB) (index : UInt32) (message : CommittedMessage) :
    Prop :=
  ∃ leaf raw, db (.leaf index) = some leaf ∧ db (.message leaf) = some raw ∧
    CommittedMessage.tryFrom raw = .ok message

/-- The carried message is the one of the index. -/
def Carries (db : AbacusDB) (processor : MessageProcessor) : Prop :=
  ∀ message, carried processor.phase = some message →
    Holds db processor.messageLeafIndex message

theorem Holds.keeps
    {before after : AbacusDB}
    {index : UInt32}
    {message : CommittedMessage}
    (holds : Holds before index message)
    (keeps : Keeps before after) :
    Holds after index message := by
  obtain ⟨leaf, raw, leafStored, rawStored, parsed⟩ := holds
  exact ⟨leaf, raw, keeps.leaf leafStored, keeps.message rawStored, parsed⟩

theorem Holds.retrievable
    {db : AbacusDB}
    {index : UInt32}
    {message : CommittedMessage}
    (holds : Holds db index message) :
    AbacusDB.Retrievable db index := by
  obtain ⟨leaf, raw, leafStored, rawStored, -⟩ := holds
  exact AbacusDB.retrievable_iff.mpr ⟨leaf, raw, leafStored, rawStored⟩

/-- A message that was read is the one of the index. -/
theorem holds_of_found
    {db : AbacusDB}
    {index : UInt32}
    {raw : RawCommittedMessage}
    {message : CommittedMessage}
    (found : (AbacusDB.messageByLeafIndex index).result db =
      .ok (some raw))
    (parsed : CommittedMessage.tryFrom raw = .ok message) :
    Holds db index message := by
  rw [Journal.Program.result, AbacusDB.run_messageByLeafIndex,
    Except.ok.injEq, Option.bind_eq_some_iff] at found
  obtain ⟨leaf, leafStored, rawStored⟩ := found
  exact ⟨leaf, raw, leafStored, rawStored, parsed⟩

section Steps

variable [Crypto]

/-- A step of the processor keeps what it carries. -/
theorem carries_transition
    {around : Surroundings}
    {processor : MessageProcessor}
    {outcome : MessageProcessor × Option SubmitMessageArgs}
    (transition : MessageProcessor.Transition around processor outcome)
    (carries : Carries around.db processor) :
    Carries around.db outcome.1 := by
  have keepsMessage {message : CommittedMessage}
      (was : carried processor.phase = some message) (other : CommittedMessage)
      (now : some message = some other) :
      Holds around.db processor.messageLeafIndex other :=
    Option.some.inj now ▸ carries message was
  cases transition with
  | stay => exact carries
  | fail error => exact fun _ nothing => nomatch nothing
  | panic cause => exact fun _ nothing => nomatch nothing
  | pass scanning passed successor => exact fun _ nothing => nomatch nothing
  | send sends successor => exact fun _ nothing => nomatch nothing
  | sendLast sends last => exact fun _ nothing => nomatch nothing
  | ingest updating below found ingested =>
      exact keepsMessage (by rw [updating]; rfl)
  | goto goes =>
      cases goes with
      | start starting published => exact fun _ nothing => nomatch nothing
      | unprocessed idle unknown => exact fun _ nothing => nomatch nothing
      | missing reading absent => exact fun _ nothing => nomatch nothing
      | unlisted dispatching absent => exact fun _ nothing => nomatch nothing
      | accept reading found parsed =>
          exact fun other now =>
            Option.some.inj now ▸ holds_of_found found parsed
      | update awaiting published covered behind later =>
          exact keepsMessage (by rw [awaiting]; rfl)
      | ready awaiting published covered ahead =>
          exact keepsMessage (by rw [awaiting]; rfl)
      | compared updating complete checked =>
          exact keepsMessage (by rw [updating]; rfl)

/-- Every event of a growing run keeps what the processor carries. -/
theorem carries_step
    {relay : Relay}
    {event : Event}
    (grows : Grows relay event)
    (carries : Carries relay.db relay.processor) :
    Carries (relay.step event).db (relay.step event).processor := by
  cases event with
  | processor dbFails =>
      exact carries_transition (MessageProcessor.transition_step
        (relay.around dbFails) relay.processor) carries
  | put put =>
      exact fun message now => (carries message now).keeps grows
  | publish checkpoint =>
      rw [step]
      split <;> exact carries
  | closeCheckpoints => exact carries
  | closeSubmitter => exact carries
  | startTick =>
      simp only [step, startTick]
      split
      · exact fun _ nothing => nomatch nothing
      · exact fun _ nothing => nomatch nothing
      · exact carries

end Steps

/-- A new processor of domain zero without matching lists. -/
def sampleProcessor : MessageProcessor :=
  letI := Crypto.transparent
  { localDomain := 0
    whitelist := ⟨none⟩
    blacklist := ⟨none⟩
    proverSync := ⟨⟨0, .zero treeDepth⟩, .default⟩
    messageLeafIndex := 0
    phase := .starting }

/-- The leaf of the shortest message at an index. -/
def sampleLeaf (index : UInt32) : H256 :=
  @RawCommittedMessage.leaf .transparent (AbacusDB.shortestMessage index)

end Relay

end Abacus
