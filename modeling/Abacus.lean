import Abacus.Library.Machine
import Abacus.Library.Journal
import Abacus.Core.Message
import Abacus.Accumulator.IncrementalCorrectness
import Abacus.Relayer.Prover
import Abacus.Relayer.SubmitterDelivery
import Abacus.Relayer.ProcessorScan
import Abacus.Relayer.PipelineCorrectness
import Abacus.Base.OutboxSyncCorrectness
import Abacus.Base.MultisigAvailability
import Abacus.Base.MultisigLatestIndex
import Abacus.Relayer.SubmitterTransitions
import Abacus.Relayer.SubmitterConservation
import Abacus.Relayer.SubmitterSchedule
import Abacus.Relayer.FetcherProgress
import Abacus.Library.CrashTriple
import Abacus.Base.OutboxSyncRewind
import Abacus.Base.OutboxSyncCompleteness
import Abacus.Base.CheckpointStorage
import Abacus.Base.CheckpointStorageCorrectness
import Abacus.Db.GasPayments
import Abacus.Db.GasPaymentCrash
import Abacus.Base.GasPaymentSync
import Abacus.Base.GasPaymentSyncCorrectness
import Abacus.Db.Encoding
import Abacus.Library.Layout
import Abacus.Db.RocksDB
import Abacus.Db.KeyLayout
import Abacus.Db.HandleSimulation
import Abacus.Db.TypedMaps
import Abacus.Db.TypedMapsRefinement
import Abacus.Relayer.ProverAtomicity
import Abacus.Relayer.MerkleTreeUpdate
import Abacus.Relayer.SubmitterRounds
import Abacus.Base.OutboxSyncValidity
import Abacus.Db.EncodingRoundTrip
import Abacus.Accumulator.Binding
import Abacus.Base.SyncWindow
import Abacus.Db.StoreMessages
import Abacus.Ethereum.GasPaymentIndexer
import Abacus.Db.WrittenBytes
import Abacus.Db.StreamDecoding
import Abacus.Ethereum.RetryingProvider
import Abacus.Ethereum.RetryingProviderCorrectness
import Abacus.Core.HexString
import Abacus.Relayer.FilterParsing
import Abacus.Db.HandleWrites
import Abacus.Library.KeyWalk
import Abacus.Db.LeafIterator
import Abacus.Db.LeafIteratorRuns
import Abacus.Analytics.Entities
import Abacus.Analytics.RelayerEarnings
import Abacus.Analytics.RelayerExpenses
import Abacus.Analytics.InboxFees
import Abacus.Base.SyncWrites
import Abacus.Library.Loop
import Abacus.Relayer.Relayer
import Abacus.Relayer.RelayerInvariant
import Abacus.Relayer.RelayerSafety
import Abacus.Relayer.RelayerDelivery
import Abacus.Relayer.RelayerConservation
import Abacus.Relayer.Supervision
import Abacus.Base.SyncKeys
import Abacus.Relayer.EndToEnd
import Abacus.Ethereum.Finality
import Abacus.Relayer.Reorganizations
import Abacus.Library.Progress
import Abacus.Relayer.Liveness
import Abacus.Base.OutboxSyncProgress
import Abacus.Relayer.EventualDelivery
import Abacus.Base.HonestQuorum
import Abacus.Relayer.FaultyValidators
import Abacus.Library.LoopInvariant
import Abacus.Base.GasPaymentAccounting
import Abacus.Relayer.GasPaymentAccounts
