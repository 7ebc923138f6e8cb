import MidnightJs.Foundations.JsString
import MidnightJs.Foundations.BigInt
import MidnightJs.Foundations.OrderedMap
import MidnightJs.Foundations.LastWins
import MidnightJs.Foundations.Json
import MidnightJs.Foundations.JsonRoundTrip
import MidnightJs.Foundations.Double
import MidnightJs.Foundations.Number
import MidnightJs.Foundations.NumberText
import MidnightJs.Foundations.ExactIntegers
import MidnightJs.Foundations.NumberArithmetic
import MidnightJs.Foundations.JsValue
import MidnightJs.Foundations.JsonValues
import MidnightJs.Foundations.Effects
import MidnightJs.Foundations.Schema
import MidnightJs.Foundations.HandOver
import MidnightJs.Foundations.FallibleWrites
import MidnightJs.Foundations.Json5
import MidnightJs.Foundations.Utf8
import MidnightJs.Foundations.FilePaths
import MidnightJs.Foundations.Notifications
import MidnightJs.Foundations.Captured
import MidnightJs.PlatformJs.Hex
import MidnightJs.PlatformJs.HexText
import MidnightJs.CompactJs.Runtime
import MidnightJs.CompactJs.ContractExecutable
import MidnightJs.CompactJs.Maintenance
import MidnightJs.CompactCommand.EncodedZswapLocalStateSchema
import MidnightJs.CompactCommand.CompiledContractReflection
import MidnightJs.CompactCommand.Chains
import MidnightJs.CompactCommand.PrivateStateChains
import MidnightJs.CompactCommand.ZswapChains
import MidnightJs.CompactCommand.OutputFiles
import MidnightJs.CompactCommand.QuotedStrings
import MidnightJs.CompactCommand.ArgumentLoops
import MidnightJs.CompactCommand.WrittenArguments
import MidnightJs.CompactCommand.IntegerArguments
import MidnightJs.CompactCommand.StringArguments
import MidnightJs.CompactCommand.ByteArguments
import MidnightJs.CompactCommand.AcceptedArguments
import MidnightJs.CompactCommand.LiteralArguments
import MidnightJs.CompactCommand.DocumentedArguments
import MidnightJs.CompactCommand.Commands
import MidnightJs.Foundations.Async
import MidnightJs.Foundations.Sessions
import MidnightJs.Foundations.Simulation
import MidnightJs.Foundations.Clock
import MidnightJs.Foundations.Interleaving
import MidnightJs.Foundations.Register
import MidnightJs.Foundations.Matching
import MidnightJs.Foundations.Rx
import MidnightJs.Foundations.PlainObject
import MidnightJs.Foundations.StableSort
import MidnightJs.Foundations.VersionedWrites
import MidnightJs.Foundations.DerivedFiles
import MidnightJs.CompactCommand.MaintainCommands
import MidnightJs.CompactCommand.MaintainRuns
import MidnightJs.CompactCommand.ConfigCompiler
import MidnightJs.Compact.VersionManager
import MidnightJs.Utils.Assertions
import MidnightJs.Utils.Hex
import MidnightJs.PlatformJs.HexValidation
import MidnightJs.PlatformJs.HexDecoding
import MidnightJs.PlatformJs.HexDiagnostics
import MidnightJs.PlatformJs.IntegerRange
import MidnightJs.PlatformJs.IntegerRangeText
import MidnightJs.PlatformJs.ConstrainedHex
import MidnightJs.PlatformJs.NetworkId
import MidnightJs.Ledger.Coins
import MidnightJs.Ledger.Runtime
import MidnightJs.Ledger.Offers
import MidnightJs.Ledger.Transactions
import MidnightJs.Contracts.Providers
import MidnightJs.Contracts.ZswapUtils
import MidnightJs.Contracts.CoinText
import MidnightJs.Contracts.CoinCodec
import MidnightJs.Contracts.NewCoins
import MidnightJs.Contracts.KeySpellings
import MidnightJs.Contracts.OutputEncryption
import MidnightJs.Contracts.VerifierKeys
import MidnightJs.Contracts.ZswapOffer
import MidnightJs.Contracts.CoinConservation
import MidnightJs.Contracts.LedgerUtils
import MidnightJs.Contracts.Call
import MidnightJs.Contracts.UnprovenTx
import MidnightJs.Contracts.SubmitTx
import MidnightJs.Contracts.FindDeployedContract
import MidnightJs.Contracts.PrivateStore
import MidnightJs.Contracts.Steps
import MidnightJs.Contracts.Submission
import MidnightJs.Contracts.Executions
import MidnightJs.Contracts.SubmissionSessions
import MidnightJs.Contracts.PrivateStateRuns
import MidnightJs.Contracts.FindRuns
import MidnightJs.Contracts.Custody
import MidnightJs.Contracts.DeployContract
import MidnightJs.Contracts.ConcurrentCalls
import MidnightJs.Contracts.Network
import MidnightJs.Contracts.AuthorityReplacement
import MidnightJs.Contracts.MaintenanceChain
import MidnightJs.Contracts.ConcurrentMaintenance
import MidnightJs.Contracts.SoleMaintainer
import MidnightJs.Contracts.MaintenanceSessions
import MidnightJs.Indexer.Chain
import MidnightJs.Indexer.PublicDataProvider
import MidnightJs.Indexer.StatesFromBlocks
import MidnightJs.Indexer.FirstStates
import MidnightJs.Indexer.StatesFromTransaction
import MidnightJs.Indexer.ContractQueries
import MidnightJs.Indexer.FinalizedReads
import MidnightJs.Indexer.ClientSessions
import MidnightJs.Indexer.StatesInStep
import MidnightJs.Indexer.DeployData
import MidnightJs.LevelProvider.Level
import MidnightJs.LevelProvider.LevelPrivateStateProvider
import MidnightJs.LevelProvider.SequentialRuns
import MidnightJs.LevelProvider.ConcurrentOperations
import MidnightJs.LevelProvider.ContractSessions
import MidnightJs.ZkConfigProviders.ZkConfigProvider
import MidnightJs.ZkConfigProviders.ProvenTransactions
import MidnightJs.ZkConfigProviders.DeployedKeys
import MidnightJs.TestkitJs.WalletUtils
import MidnightJs.TestkitJs.SyncWaits
import MidnightJs.TestkitJs.WalletFactory
import MidnightJs.TestkitJs.SeedPreservation
import MidnightJs.TestkitJs.WalletStateProvider
import MidnightJs.TestkitJs.StateRoundTrip
import MidnightJs.TestkitJs.InMemoryPrivateStateProvider
import MidnightJs.TestkitJs.RemoteTestEnvironment
