import AutoTrade.Lib.Effect
import AutoTrade.Lib.Run
import AutoTrade.Lib.Dict
import AutoTrade.Lib.Hysteresis
import AutoTrade.Lib.Seek
import AutoTrade.Values
import AutoTrade.Alignment
import AutoTrade.OrderModels
import AutoTrade.TossModels
import AutoTrade.Screener
import AutoTrade.Judge
import AutoTrade.Guardrails
import AutoTrade.Allocator
import AutoTrade.Costs
import AutoTrade.Paper
import AutoTrade.Exits
import AutoTrade.CircuitBreaker
import AutoTrade.Lib.OnceLog
import AutoTrade.OrderService
import AutoTrade.Universe
import AutoTrade.Pipeline
import AutoTrade.BreakerHalt
import AutoTrade.Lib.Fallible
import AutoTrade.Candidates
import AutoTrade.BuyExclusion
import AutoTrade.Lib.Gate
import AutoTrade.Lib.ReadThrough
import AutoTrade.Caching
import AutoTrade.Lib.Bins
import AutoTrade.Lib.KeepFirst
import AutoTrade.Reconcile
import AutoTrade.Repo
import AutoTrade.Calibration
import AutoTrade.Tick
import AutoTrade.TickSpec
import AutoTrade.Server
import AutoTrade.DbFrame
import AutoTrade.LlmCap
import AutoTrade.CachedSamples
import AutoTrade.Lib.DictTotal
import AutoTrade.PaperBook
import AutoTrade.Lib.Quota
import AutoTrade.DailyCap
import AutoTrade.TickLimits
import AutoTrade.PaperLimit
import AutoTrade.SentLimit
import AutoTrade.PaperInStep
import AutoTrade.PaperTick
import AutoTrade.ForcedExits
import AutoTrade.SellPath
import AutoTrade.ForcedSales
import AutoTrade.Clearance
import AutoTrade.DailyUsage
import AutoTrade.Lib.Tenants
import AutoTrade.Lib.Fill
import AutoTrade.Symbols
import AutoTrade.MarketHours
import AutoTrade.Lib.Sorted
import AutoTrade.Lib.Coupled
import AutoTrade.OrderNames
import AutoTrade.Replay
import AutoTrade.LookAhead
import AutoTrade.HoldDays
import AutoTrade.Lib.Periods
import AutoTrade.Evaluation
import AutoTrade.Reports
import AutoTrade.ReportRows
import AutoTrade.ReportCoverage
import AutoTrade.TickLoop
import AutoTrade.Deployments
import AutoTrade.Lib.WriteBack
import AutoTrade.EngineState
import AutoTrade.ExcessInterval
import AutoTrade.Exploration
import AutoTrade.Lib.Sweep
import AutoTrade.ExploreLoop
import AutoTrade.Lib.Drawdown
import AutoTrade.Lib.Loop
import AutoTrade.Lib.Mutex
import AutoTrade.Lib.Regrow
import AutoTrade.Lib.Smooth
import AutoTrade.MismatchHalt
import AutoTrade.Momentum
import AutoTrade.News
import AutoTrade.NewsCoverage
import AutoTrade.NextOpen
import AutoTrade.PeriodReturns
import AutoTrade.ReconcileWindows
import AutoTrade.RestartSend
import AutoTrade.RoundTrip
import AutoTrade.Sandbox
import AutoTrade.SandboxMarket
import AutoTrade.SeedFile
import AutoTrade.SizingLimits
import AutoTrade.TripSoundness
import AutoTrade.Valuation
import AutoTrade.Stress
import AutoTrade.TickLock
import AutoTrade.TossClient
import AutoTrade.TossSteps
import AutoTrade.TossHeaders
import AutoTrade.TossTokens
import AutoTrade.WebSearch
