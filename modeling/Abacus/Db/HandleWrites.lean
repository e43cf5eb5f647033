import Abacus.Db.KeyLayout
import Abacus.Db.TypedMapsRefinement
import Abacus.Library.Writes

/-!
# What handles write

A handle of any name, with underscores or without, writes nothing but records:
each of its puts goes to the key of a record behind the name and an underscore,
and puts the encoding of a value of this record. The names of two handles need
not keep their keys apart.
-/

namespace Abacus

open Journal (Program)

/-- A put to the key store. -/
abbrev RocksPut := Journal.Put (List UInt8) fun _ => List UInt8

/-! ## Reads -/

/-- Reading a key puts nothing. -/
theorem DB.writes_retrieveDecodable
    (V : Type) [Decode V]
    (keyPrefix key : List UInt8)
    (allowed : RocksPut → Prop) :
    (DB.retrieveDecodable V keyPrefix key).Writes allowed := by
  refine Program.Writes.bind (Program.Writes.get _) ?_
  rintro (_ | content)
  · exact Program.Writes.pure none
  · exact Program.Writes.bind (Program.Writes.lift _)
      fun value => Program.Writes.pure (some value)

/-- Ignoring an error changes no puts. -/
theorem writes_valueOrNone
    {program : RocksM (Option α)}
    {allowed : RocksPut → Prop}
    (writes : program.Writes allowed) :
    (valueOrNone program).Writes allowed := by
  intro rocks put member
  apply writes rocks put
  unfold Program.journal valueOrNone at member
  split at member
  · rename_i stopped
    rwa [Program.journal, stopped]
  · exact member

/-! ## Records -/

/-- The kinds of records that storing a message puts. -/
def Record.Kind.OfMessage : Record.Kind → Prop
  | .leaf | .message | .latestLeafIndex | .latestLeafIndexForDestination =>
      True
  | _ => False

/-- The kinds of records that an operation puts. -/
def DbOperation.Kinds : DbOperation → Record.Kind → Prop
  | .storeRawCommittedMessage _ => Record.Kind.OfMessage
  | .updateLatestLeafIndex _ => (· = .latestLeafIndex)
  | .updateLatestLeafIndexForDestination _ _ =>
      (· = .latestLeafIndexForDestination)
  | .storeProof _ _ _ => (· = .proof)
  | .markLeafAsProcessed _ => (· = .leafProcessStatus)
  | .processGasPayment _ => fun kind =>
      kind = .gasPaymentMetaProcessed ∨ kind = .gasPaymentForLeaf
  | .storeLatestValidMessageRangeStartBlock _ =>
      (· = .latestValidMessageRangeStartBlock)
  | .storeLatestIndexedGasPaymentBlock _ => (· = .latestIndexedGasPaymentBlock)

/-- Only storing a message puts a leaf. -/
theorem DbOperation.exists_message_of_kinds_leaf
    {operation : DbOperation}
    (puts : operation.Kinds .leaf) :
    ∃ message, operation = .storeRawCommittedMessage message := by
  cases operation with
  | storeRawCommittedMessage message => exact ⟨message, rfl⟩
  | processGasPayment payment => rcases puts with kind | kind <;> cases kind
  | _ => cases puts

namespace DbHandle

variable (db : DbHandle)

/-- A put of a record of a handle, of one of some kinds. -/
def PutsRecord (kinds : Record.Kind → Prop) (put : RocksPut) : Prop :=
  ∃ (key : Record) (value : key.Value), kinds key.kind ∧
    put = ⟨db.fullPrefix key.keyPrefix ++ key.keyBytes, key.encode value⟩

section Kinds

variable {kinds : Record.Kind → Prop}

/-- Storing a record puts it. -/
theorem writes_record
    (key : Record)
    (value : key.Value)
    (permitted : kinds key.kind) :
    (Program.put (db.fullPrefix key.keyPrefix ++ key.keyBytes)
      (key.encode value) : RocksM Unit).Writes (db.PutsRecord kinds) :=
  Program.Writes.put ⟨key, value, permitted, rfl⟩

/-! ## Messages -/

theorem writes_updateLatestLeafIndex
    (permitted : kinds .latestLeafIndex)
    (leafIndex : UInt32) :
    (db.updateLatestLeafIndex leafIndex).Writes (db.PutsRecord kinds) := by
  have raises : (db.storeEncodable [] latestLeafIndexKey leafIndex).Writes
      (db.PutsRecord kinds) :=
    db.writes_record .latestLeafIndex leafIndex permitted
  refine Program.Writes.bind
    (writes_valueOrNone (DB.writes_retrieveDecodable _ _ _ _)) ?_
  rintro (_ | idx)
  · exact raises
  · dsimp only
    split
    · exact Program.Writes.pure ()
    · exact raises

theorem writes_updateLatestLeafIndexForDestination
    (permitted : kinds .latestLeafIndexForDestination)
    (destination leafIndex : UInt32) :
    (db.updateLatestLeafIndexForDestination destination leafIndex).Writes
      (db.PutsRecord kinds) := by
  have raises : (db.storeKeyedEncodable latestLeafIndexForDestinationPrefix
      destination leafIndex).Writes (db.PutsRecord kinds) :=
    db.writes_record (.latestLeafIndexForDestination destination) leafIndex
      permitted
  refine Program.Writes.bind
    (writes_valueOrNone (DB.writes_retrieveDecodable _ _ _ _)) ?_
  rintro (_ | idx)
  · exact raises
  · dsimp only
    split
    · exact Program.Writes.pure ()
    · exact raises

/-- Storing a message puts its leaf, latest indices and the message. -/
theorem writes_storeRawCommittedMessage [Crypto]
    (message : RawCommittedMessage) :
    (db.storeRawCommittedMessage message).Writes
      (db.PutsRecord Record.Kind.OfMessage) := by
  refine Program.Writes.bind (Program.Writes.lift _) fun parsed => ?_
  refine Program.Writes.bind ?_ fun _ => ?_
  · refine Program.Writes.bind ?_ fun _ => Program.Writes.bind
      (db.writes_updateLatestLeafIndex trivial message.leafIndex) fun _ =>
        db.writes_updateLatestLeafIndexForDestination trivial
          parsed.destination message.leafIndex
    exact db.writes_record (.leaf message.leafIndex) message.leaf trivial
  · exact db.writes_record (.message message.leaf) message trivial

/-! ## All operations -/

/-- Processing a payment puts its record and the total of its leaf. -/
theorem writes_processGasPayment
    (processed : kinds .gasPaymentMetaProcessed)
    (forLeaf : kinds .gasPaymentForLeaf)
    (payment : InterchainGasPaymentWithMeta) :
    (db.processGasPayment payment).Writes (db.PutsRecord kinds) := by
  refine Program.Writes.bind (Program.Writes.bind
    (DB.writes_retrieveDecodable _ _ _ _) fun _ => Program.Writes.pure _) ?_
  rintro (_ | _)
  · refine Program.Writes.bind ?_ fun _ => Program.Writes.bind
      (Program.Writes.bind (DB.writes_retrieveDecodable _ _ _ _)
        fun _ => Program.Writes.pure _)
      fun existing => Program.Writes.bind (Program.Writes.lift _)
        fun total => ?_
    · exact db.writes_record (.gasPaymentMetaProcessed payment.paymentMeta)
        true processed
    · exact db.writes_record (.gasPaymentForLeaf payment.payment.leafIndex)
        total forLeaf
  · exact Program.Writes.pure ()

end Kinds

end DbHandle

/-- Every operation of a handle puts records of this handle. -/
theorem DbOperation.writes_onHandle [Crypto]
    (db : DbHandle)
    (operation : DbOperation) :
    (operation.onHandle db).Writes (db.PutsRecord operation.Kinds) := by
  cases operation with
  | storeRawCommittedMessage message =>
      exact db.writes_storeRawCommittedMessage message
  | updateLatestLeafIndex leafIndex =>
      exact db.writes_updateLatestLeafIndex (by rfl) leafIndex
  | updateLatestLeafIndexForDestination destination leafIndex =>
      exact db.writes_updateLatestLeafIndexForDestination (by rfl) destination
        leafIndex
  | storeProof leafIndex proof fits =>
      exact db.writes_record (.proof leafIndex) proof rfl
  | markLeafAsProcessed leafIndex =>
      exact db.writes_record (.leafProcessStatus leafIndex) (1 : UInt32) rfl
  | processGasPayment payment =>
      exact db.writes_processGasPayment (.inl rfl) (.inr rfl) payment
  | storeLatestValidMessageRangeStartBlock blockNum =>
      exact db.writes_record .latestValidMessageRangeStartBlock blockNum rfl
  | storeLatestIndexedGasPaymentBlock latestBlock =>
      exact db.writes_record .latestIndexedGasPaymentBlock latestBlock rfl

/-- A message that is stored parses. -/
theorem DbOperation.exists_parse_of_outcome
    {operation : DbOperation}
    {message : RawCommittedMessage}
    (stores : operation = .storeRawCommittedMessage message)
    (succeeds : operation.outcome = .ok ()) :
    ∃ parsed, AbacusMessage.parse message.message = .ok parsed := by
  rw [stores, outcome] at succeeds
  cases parse : AbacusMessage.parse message.message with
  | ok parsed => exact ⟨parsed, rfl⟩
  | error error =>
      rw [parse] at succeeds
      cases succeeds

/-- An operation that fails puts nothing. -/
theorem DbOperation.writes_nothing [Crypto]
    (db : DbHandle)
    {operation : DbOperation}
    (fails : operation.outcome ≠ .ok ()) :
    (operation.onHandle db).Writes fun _ => False := by
  cases operation with
  | storeRawCommittedMessage message =>
      cases parsed : AbacusMessage.parse message.message with
      | ok value =>
          refine (fails ?_).elim
          rw [outcome, parsed]
          rfl
      | error error =>
          intro rocks put member
          have stopped : (DbOperation.storeRawCommittedMessage
              message).onHandle db rocks = (.error (.error error), []) := by
            change (Program.lift ((AbacusMessage.parse
              message.message).mapError Fault.error) >>= _ : RocksM Unit)
                rocks = _
            rw [parsed]
            rfl
          rw [Program.journal, stopped] at member
          cases member
  | _ => exact (fails rfl).elim

/-! ## Runs of handles -/

variable [Crypto]

/-- An event of a handle of any name runs its operation on the shared
store. -/
def Rocks.handleStep (rocks : Rocks) (event : DbEvent DbHandle) : Rocks :=
  (event.operation.onHandle event.handle).final rocks

/-- The shared store after some events of handles. -/
def Rocks.afterHandles (events : List (DbEvent DbHandle)) : Rocks :=
  Machine.run Rocks.handleStep Journal.empty events

end Abacus
