import CryptoTrader.Alpha.Features
import CryptoTrader.Alpha.Learning
import CryptoTrader.Alpha.MarketDataEngine
import CryptoTrader.Alpha.MlMeta
import CryptoTrader.Alpha.Regime
import CryptoTrader.Domain.Enums
import CryptoTrader.Domain.Models
import CryptoTrader.Domain.Money
import CryptoTrader.Evolution.Containment
import CryptoTrader.Evolution.DailyPipeline
import CryptoTrader.Evolution.Drawdown
import CryptoTrader.Evolution.HierarchicalEngine
import CryptoTrader.Evolution.HierarchicalPnl
import CryptoTrader.Evolution.HierarchicalReports
import CryptoTrader.Evolution.HierarchicalRuns
import CryptoTrader.Evolution.HierarchicalService
import CryptoTrader.Evolution.LessonLifecycle
import CryptoTrader.Evolution.Promotion
import CryptoTrader.Evolution.PromotionRuns
import CryptoTrader.Evolution.ReviewHandoff
import CryptoTrader.Evolution.ReviewPeriod
import CryptoTrader.Evolution.ReviewPolls
import CryptoTrader.Evolution.ReviewPublication
import CryptoTrader.Evolution.ReviewRuns
import CryptoTrader.Evolution.ReviewScheduler
import CryptoTrader.Evolution.StateMachine
import CryptoTrader.Evolution.WeeklyCoverage
import CryptoTrader.Evolution.Workspace
import CryptoTrader.Evolution.WorkspaceRuns
import CryptoTrader.Exchange.Binance
import CryptoTrader.Exchange.BinanceOrders
import CryptoTrader.Exchange.BinanceStream
import CryptoTrader.Exchange.Credentials
import CryptoTrader.Exchange.MarketStream
import CryptoTrader.Exchange.Okx
import CryptoTrader.Exchange.Signing
import CryptoTrader.Execution.Authority
import CryptoTrader.Execution.Grid
import CryptoTrader.Execution.Liquidity
import CryptoTrader.Execution.RateLimiter
import CryptoTrader.Factors.Capture
import CryptoTrader.Factors.Profiles
import CryptoTrader.Factors.Snapshot
import CryptoTrader.Governance.Backtest
import CryptoTrader.Governance.BacktestPnl
import CryptoTrader.Governance.CycleAccounting
import CryptoTrader.Governance.DailyReview
import CryptoTrader.Governance.DailyReviewCoverage
import CryptoTrader.Governance.DailyReviewSplit
import CryptoTrader.Governance.EpisodeLedger
import CryptoTrader.Governance.LedgerPnl
import CryptoTrader.Governance.TradeEpisodes
import CryptoTrader.Governance.TradeReview
import CryptoTrader.Ledger.Accounts
import CryptoTrader.Ledger.Idempotency
import CryptoTrader.Ledger.Interleaving
import CryptoTrader.Ledger.Projections
import CryptoTrader.Ledger.Service
import CryptoTrader.Ledger.SpotAccounts
import CryptoTrader.Lib.AtomicFile
import CryptoTrader.Lib.AverageCost
import CryptoTrader.Lib.Calendar
import CryptoTrader.Lib.CircuitBreaker
import CryptoTrader.Lib.Components
import CryptoTrader.Lib.Coroutines
import CryptoTrader.Lib.Decimal
import CryptoTrader.Lib.DecimalText
import CryptoTrader.Lib.Doubles
import CryptoTrader.Lib.Excepts
import CryptoTrader.Lib.FirstWrite
import CryptoTrader.Lib.Journal
import CryptoTrader.Lib.Json
import CryptoTrader.Lib.KeyedTable
import CryptoTrader.Lib.Lines
import CryptoTrader.Lib.OrderedRows
import CryptoTrader.Lib.Paths
import CryptoTrader.Lib.PyValue
import CryptoTrader.Lib.QueryString
import CryptoTrader.Lib.Retry
import CryptoTrader.Lib.Rounds
import CryptoTrader.Lib.Runs
import CryptoTrader.Lib.Samples
import CryptoTrader.Lib.Shares
import CryptoTrader.Lib.Since
import CryptoTrader.Lib.Slices
import CryptoTrader.Lib.Suppression
import CryptoTrader.Lib.TaskRegistry
import CryptoTrader.Lib.TokenBucket
import CryptoTrader.Lib.Triples
import CryptoTrader.Lib.Weights
import CryptoTrader.Llm.ChiefDecision
import CryptoTrader.Llm.Configuration
import CryptoTrader.Llm.FailSafe
import CryptoTrader.Llm.Gateway
import CryptoTrader.Llm.MemoryRetrieval
import CryptoTrader.Llm.Secrets
import CryptoTrader.MarketData.Book
import CryptoTrader.MarketData.FeedHealth
import CryptoTrader.MarketData.NewRiskGate
import CryptoTrader.MarketData.PublicFeed
import CryptoTrader.MarketData.Rejected
import CryptoTrader.MarketData.Resync
import CryptoTrader.MarketData.Service
import CryptoTrader.MarketRegistry.Registry
import CryptoTrader.MarketRegistry.Resolver
import CryptoTrader.Order.Consistency
import CryptoTrader.Order.Effects
import CryptoTrader.Order.Manager
import CryptoTrader.Order.StateMachine
import CryptoTrader.Order.TransitionRace
import CryptoTrader.Perpetual.Cash
import CryptoTrader.Perpetual.Domain
import CryptoTrader.Perpetual.Engine
import CryptoTrader.Perpetual.Interleaving
import CryptoTrader.Perpetual.Ledger
import CryptoTrader.Perpetual.Liquidation
import CryptoTrader.Perpetual.LiquidationPrice
import CryptoTrader.Perpetual.Margin
import CryptoTrader.Perpetual.Operations
import CryptoTrader.Perpetual.Parts
import CryptoTrader.Perpetual.Pnl
import CryptoTrader.Perpetual.Quantities
import CryptoTrader.Reconciliation.Drift
import CryptoTrader.Reconciliation.Service
import CryptoTrader.Risk.Engine
import CryptoTrader.Risk.Gate
import CryptoTrader.Risk.PortfolioBudget
import CryptoTrader.Runtime.Approval
import CryptoTrader.Runtime.Attribution
import CryptoTrader.Runtime.BackgroundLoops
import CryptoTrader.Runtime.ChiefTrader
import CryptoTrader.Runtime.DecidedSize
import CryptoTrader.Runtime.EngineLease
import CryptoTrader.Runtime.EngineStart
import CryptoTrader.Runtime.EntryEvidence
import CryptoTrader.Runtime.EntryStacking
import CryptoTrader.Runtime.EventLoop
import CryptoTrader.Runtime.Events
import CryptoTrader.Runtime.ExplorationTrades
import CryptoTrader.Runtime.Exposure
import CryptoTrader.Runtime.Fencing
import CryptoTrader.Runtime.GrantedLease
import CryptoTrader.Runtime.Lease
import CryptoTrader.Runtime.OpportunityRanking
import CryptoTrader.Runtime.OrderFlow
import CryptoTrader.Runtime.Oversell
import CryptoTrader.Runtime.PaperExchange
import CryptoTrader.Runtime.PerpetualCrash
import CryptoTrader.Runtime.PerpetualFill
import CryptoTrader.Runtime.PerpetualOrder
import CryptoTrader.Runtime.PositionBridge
import CryptoTrader.Runtime.PositionDecisions
import CryptoTrader.Runtime.PositionExit
import CryptoTrader.Runtime.PositionOpenTime
import CryptoTrader.Runtime.Recovery
import CryptoTrader.Runtime.RecoveryFills
import CryptoTrader.Runtime.RecoveryLookup
import CryptoTrader.Runtime.RecoveryPrice
import CryptoTrader.Runtime.RecoveryQuantity
import CryptoTrader.Runtime.RecoveryStatus
import CryptoTrader.Runtime.RecoveryTurn
import CryptoTrader.Runtime.Redelivery
import CryptoTrader.Runtime.Seeding
import CryptoTrader.Runtime.Settlement
import CryptoTrader.Runtime.SettlementCrash
import CryptoTrader.Runtime.SettlementJournal
import CryptoTrader.Runtime.Signal
import CryptoTrader.Runtime.SignalIds
import CryptoTrader.Runtime.SignalRace
import CryptoTrader.Runtime.SpotPositions
import CryptoTrader.Runtime.SubmitAck
import CryptoTrader.Runtime.SubmitOutcome
import CryptoTrader.Runtime.Supervisor
import CryptoTrader.Runtime.SupervisorTasks
import CryptoTrader.Runtime.TimeStop
import CryptoTrader.Shadow.VirtualPosition
import CryptoTrader.ShadowCampaign.Campaign
import CryptoTrader.Simulator.BestFirst
import CryptoTrader.Simulator.Exchange
import CryptoTrader.Simulator.Matching
import CryptoTrader.Simulator.OrderBook
import CryptoTrader.Simulator.RealMarket
import CryptoTrader.Simulator.SpotView
