import DeadmktNode.HashMap
import DeadmktNode.CanonicalSort
import DeadmktNode.Bcs
import DeadmktNode.Sha256
import DeadmktNode.Crypto
import DeadmktNode.WhileLoop
import DeadmktNode.Matching
import DeadmktNode.MatchingSound
import DeadmktNode.BatchClock
import DeadmktNode.BatchState
import DeadmktNode.MatchingOrder
import DeadmktNode.MatchingConservation
import DeadmktNode.Text
import DeadmktNode.Gossip
import DeadmktNode.GossipValidator
import DeadmktNode.Orchestrator
import DeadmktNode.Runs
import DeadmktNode.LiveNode
import DeadmktNode.LiveConservation
import DeadmktNode.LiveAgreement
import DeadmktNode.EscrowTracker
import DeadmktNode.Settlement
import DeadmktNode.SwapHandler
import DeadmktNode.ThirdParty
import DeadmktNode.EscrowSafety
import DeadmktNode.StrategyConvert
import DeadmktNode.TokenWorker
import DeadmktNode.NodeState
import DeadmktNode.RunLoop
import DeadmktNode.LoopCore
import DeadmktNode.LoopClock
import DeadmktNode.OwnOrders
import DeadmktNode.SettlementCalls
import DeadmktNode.OwnMatches
import DeadmktNode.MatchingAhead
import DeadmktNode.MatchingDust
import DeadmktNode.CommitCoverage
import DeadmktNode.PendingInStep
import DeadmktNode.EventLookup
import DeadmktNode.LogCursor
import DeadmktNode.EventPoll
import DeadmktNode.GossipValidation
import DeadmktNode.CommitHistory
import DeadmktNode.CommitEvidence
import DeadmktNode.CommitTakeover
import DeadmktNode.MessageKinds
import DeadmktNode.Censorship
import DeadmktNode.RevealSafety
import DeadmktNode.LiveBinding
import DeadmktNode.SequenceNumbers
import DeadmktNode.StrategyMailbox
import DeadmktNode.RevealTransport
import DeadmktNode.SettleArgs
import DeadmktNode.EpochChain
import DeadmktNode.LoopOutputs
import DeadmktNode.CommitQuota
import DeadmktNode.MatchingCrossing
import DeadmktNode.MatchingSymbols
import DeadmktNode.TradingGuard
import DeadmktNode.BatchRun
import DeadmktNode.SignedFields
import DeadmktNode.DuplicateDelivery
import DeadmktNode.FundingSetup
import DeadmktNode.StrategyServer
import DeadmktNode.Heartbeat
import DeadmktNode.MatchIdentity
import DeadmktNode.Governance
import DeadmktNode.RevealChoice
import DeadmktNode.StrategyNotices
import DeadmktNode.ValidatorCalls
import DeadmktNode.FloodLimit
import DeadmktNode.LiveDedup
import DeadmktNode.TrackerRuns
import DeadmktNode.QuoteAmounts
import DeadmktNode.DecimalText
import DeadmktNode.AffordableOrders
import DeadmktNode.QuotaLimits
import DeadmktNode.RevealedBatch
import DeadmktNode.Delimited
import DeadmktNode.AbortStatus
import DeadmktNode.EventDecoding
import DeadmktNode.FloatRounding
import DeadmktNode.Isolation
import DeadmktNode.BlockPoller
import DeadmktNode.IsActiveCache
import DeadmktNode.PhasePartition
import DeadmktNode.ChainConfig
import DeadmktNode.MintSplit
import DeadmktNode.KeyedTable
import DeadmktNode.SettlementStore
import DeadmktNode.AddressText
import DeadmktNode.BcsCollections
import DeadmktNode.TransactionBytes
import DeadmktNode.GasPause
import DeadmktNode.RpcClient
import DeadmktNode.ChainPoller
import DeadmktNode.GasPayer
import DeadmktNode.Bincode
import DeadmktNode.GossipWire
import DeadmktNode.FloatScaling
import DeadmktNode.ShownBalances
import DeadmktNode.FallibleState
import DeadmktNode.KeystoreFile
import DeadmktNode.SetupFlow
import DeadmktNode.SetupReports
import DeadmktNode.SetupRuns
import DeadmktNode.NodeStart
import DeadmktNode.TransactionWait
import DeadmktNode.SettlementWorker
import DeadmktNode.LivenessCheck
import DeadmktNode.StrategyWire
