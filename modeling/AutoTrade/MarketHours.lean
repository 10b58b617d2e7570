/-
AutoTrade/MarketHours.lean

The four places that decide whether the market is open: the guardrail on an order,
the tick loop (`in_market_hours` of `api/tick.py`), the status route (`status_` of
`api/routes.py`) and the dashboard (`overview` of `api/dashboard.py`).

Three of them are `MarketOpen`.  The status route leaves out the holidays, so it says
that the market is open on a holiday in the week (`marketOpen_agree_iff`).
-/
import AutoTrade.OrderService

namespace AutoTrade

/-! ### The views -/

/-- `snapshot()` of the circuit breaker. -/
structure BreakerSnapshot where
  tripped : Bool
  reason : Text
  highWaterMarkKrw : Option DecText
  drawdownPct : Text
  dailyHalt : Bool
  drawdownHalt : Bool
  deriving DecidableEq

/-- The breaker as the routes show it. -/
def CircuitBreaker.snapshot (cb : CircuitBreaker) : BreakerSnapshot where
  tripped := cb.tripped
  reason := cb.reason
  highWaterMarkKrw := cb.highWaterMark.map strDec
  drawdownPct := [.fixed 2 (cb.drawdown * 100)]
  dailyHalt := cb.dailyHaltActive
  drawdownHalt := cb.drawdownHalt

/-- `app.state`, as far as the views read it. -/
structure AppState where
  orderService : OrderService
  holidays : List Date
  /-- whether there is a client -/
  tossClient : Bool
  /-- whether there is a database -/
  repo : Bool

/-- The limits that both views show. -/
structure GuardrailView where
  perOrderMaxKrw : DecText
  dailyBuyCapKrw : DecText
  maxPositions : ℤ
  perSymbolMaxWeight : DecText
  deriving DecidableEq

/-- The limits as the routes show them. -/
def GuardrailConfig.view (cfg : GuardrailConfig) : GuardrailView where
  perOrderMaxKrw := strDec cfg.perOrderMaxKrw
  dailyBuyCapKrw := strDec cfg.dailyBuyCapKrw
  maxPositions := cfg.maxPositions
  perSymbolMaxWeight := strDec cfg.perSymbolMaxWeight

/-- The answer of `GET /api/status`. -/
structure Status where
  mode : TradingMode
  killSwitch : Bool
  circuitBreaker : BreakerSnapshot
  marketOpenNow : Bool
  tossConnected : Bool
  persistence : Bool
  guardrails : GuardrailView
  enforceMarketHours : Bool
  ordersInLedger : ℕ

/-- The `status` of `GET /api/dashboard/overview`. -/
structure OverviewStatus where
  mode : TradingMode
  killSwitch : Bool
  circuitBreaker : BreakerSnapshot
  marketOpenNow : Bool
  tossConnected : Bool
  persistence : Bool
  serverTimeKst : Datetime
  guardrails : GuardrailView

/-! ### The decisions -/

/-- `in_market_hours`: what the loop goes by. -/
def inMarketHours (now : Datetime) (svc : OrderService) : Bool :=
  let cfg := svc.config
  let n := now.astimezone KST
  if 5 ≤ n.date.weekday ∨ n.date ∈ cfg.holidays then false
  else cfg.marketOpen ≤ n.time ∧ n.time ≤ cfg.marketClose

/-- `status_`, at a reading of the clock. -/
def statusRoute (now : Datetime) (app : AppState) : Status :=
  let nowKst := now.astimezone KST
  let svc := app.orderService
  let cfg := svc.config
  { mode := svc.mode
    killSwitch := svc.killSwitch
    circuitBreaker := svc.circuitBreaker.snapshot
    marketOpenNow := nowKst.date.weekday < 5 ∧
      cfg.marketOpen ≤ nowKst.time ∧ nowKst.time ≤ cfg.marketClose
    tossConnected := app.tossClient
    persistence := app.repo
    guardrails := cfg.view
    enforceMarketHours := cfg.enforceMarketHours
    ordersInLedger := svc.ledger.length }

/-- The head of `overview`. -/
def overviewStatus (now : Datetime) (app : AppState) : OverviewStatus :=
  let nowKst := now.astimezone KST
  let svc := app.orderService
  let cfg := svc.config
  { mode := svc.mode
    killSwitch := svc.killSwitch
    circuitBreaker := svc.circuitBreaker.snapshot
    marketOpenNow := nowKst.date.weekday < 5 ∧
      (cfg.marketOpen ≤ nowKst.time ∧ nowKst.time ≤ cfg.marketClose) ∧
      nowKst.date ∉ app.holidays
    tossConnected := app.tossClient
    persistence := app.repo
    serverTimeKst := nowKst
    guardrails := cfg.view }

/-! ### Where they agree -/

variable {cfg : GuardrailConfig} {svc : OrderService} {app : AppState} {now : Datetime}

/-- The trading hours of a day, whatever day it is. -/
def InWindow (cfg : GuardrailConfig) (now : Datetime) : Prop :=
  cfg.marketOpen ≤ (now.astimezone KST).time ∧ (now.astimezone KST).time ≤ cfg.marketClose

/-- The trading hours of a holiday in the week. -/
def WeekdayHoliday (cfg : GuardrailConfig) (now : Datetime) : Prop :=
  (now.astimezone KST).date.weekday < 5 ∧ (now.astimezone KST).date ∈ cfg.holidays ∧
    InWindow cfg now

instance (cfg : GuardrailConfig) (now : Datetime) : Decidable (WeekdayHoliday cfg now) :=
  inferInstanceAs (Decidable (_ ∧ _ ∧ _ ∧ _))

theorem marketOpen_iff (h : cfg.enforceMarketHours = true) :
    MarketOpen cfg now ↔ (now.astimezone KST).date.weekday < 5 ∧
      (now.astimezone KST).date ∉ cfg.holidays ∧ InWindow cfg now := by
  simp [MarketOpen, InWindow, h]

theorem inMarketHours_iff (h : svc.config.enforceMarketHours = true) :
    inMarketHours now svc ↔ MarketOpen svc.config now := by
  rw [marketOpen_iff h]
  unfold inMarketHours InWindow
  by_cases hweek : 5 ≤ (now.astimezone KST).date.weekday
  · simp [hweek, not_lt.mpr hweek]
  · by_cases hday : (now.astimezone KST).date ∈ svc.config.holidays
    · simp [hday]
    · simp [hweek, hday, not_le.mp hweek]

theorem overviewStatus_marketOpenNow (h : app.orderService.config.enforceMarketHours = true)
    (hholidays : app.holidays = app.orderService.config.holidays) :
    (overviewStatus now app).marketOpenNow ↔ MarketOpen app.orderService.config now := by
  rw [marketOpen_iff h]
  simp only [overviewStatus, InWindow, hholidays, decide_eq_true_eq]
  tauto

/-- The status route does not ask for the holidays. -/
theorem statusRoute_marketOpenNow (h : app.orderService.config.enforceMarketHours = true) :
    (statusRoute now app).marketOpenNow ↔
      MarketOpen app.orderService.config now ∨ WeekdayHoliday app.orderService.config now := by
  rw [marketOpen_iff h]
  simp only [statusRoute, WeekdayHoliday, InWindow, decide_eq_true_eq]
  tauto

/-- A day is no holiday when the market is open. -/
theorem not_weekdayHoliday (h : cfg.enforceMarketHours = true) (hopen : MarketOpen cfg now) :
    ¬ WeekdayHoliday cfg now :=
  fun hday => ((marketOpen_iff h).mp hopen).2.1 hday.2.1

/-- All four decisions are the same. -/
def Agree (order : OrderRequest) (ctx : GuardrailContext) (app : AppState) : Prop :=
  (guardMarketHours order ctx app.orderService.config = none ↔
      inMarketHours ctx.now app.orderService) ∧
    (inMarketHours ctx.now app.orderService ↔ (statusRoute ctx.now app).marketOpenNow) ∧
    (inMarketHours ctx.now app.orderService ↔ (overviewStatus ctx.now app).marketOpenNow)

/-- **The decisions agree** at every instant except in the trading hours of a holiday in
the week. -/
theorem marketOpen_agree_iff (order : OrderRequest) (ctx : GuardrailContext) (app : AppState)
    (h : app.orderService.config.enforceMarketHours = true)
    (hholidays : app.holidays = app.orderService.config.holidays) :
    Agree order ctx app ↔ ¬ WeekdayHoliday app.orderService.config ctx.now := by
  unfold Agree
  rw [guardMarketHours_eq_none, inMarketHours_iff h, statusRoute_marketOpenNow h,
    overviewStatus_marketOpenNow h hholidays]
  constructor
  · rintro ⟨-, hstatus, -⟩ hday
    exact not_weekdayHoliday h (hstatus.mpr (Or.inr hday)) hday
  · intro hday
    exact ⟨Iff.rfl, ⟨Or.inl, fun hor => hor.resolve_right hday⟩, Iff.rfl⟩

namespace Sample

/-- The service with a holiday on a Thursday. -/
def newYear : AppState where
  orderService := { config := { holidays := [739617] } }
  holidays := [739617]
  tossClient := true
  repo := true

/-- Ten in the morning of that day. -/
def newYearMorning : GuardrailContext where
  now := ⟨739616 * usPerDay + 10 * 3600 * 1000000 - KST, KST⟩

/-- Ten in the morning of the day after. -/
def nextMorning : GuardrailContext where
  now := ⟨739617 * usPerDay + 10 * 3600 * 1000000 - KST, KST⟩

/-- A sale, which meets the market hours and the kill switch only. -/
def sell : OrderRequest where
  clientOrderId := "a"
  symbol := "005930"
  side := .sell
  orderType := .market
  quantity := some 1

end Sample

theorem marketOpen_agree_nextMorning :
    Agree Sample.sell Sample.nextMorning Sample.newYear ∧
      inMarketHours Sample.nextMorning.now Sample.newYear.orderService :=
  ⟨(marketOpen_agree_iff Sample.sell Sample.nextMorning Sample.newYear rfl rfl).mpr
    (by decide), by decide⟩

/-- On the holiday only the status route says that the market is open. -/
theorem marketOpen_not_agree : ¬ Agree Sample.sell Sample.newYearMorning Sample.newYear ∧
    (statusRoute Sample.newYearMorning.now Sample.newYear).marketOpenNow ∧
    ¬ inMarketHours Sample.newYearMorning.now Sample.newYear.orderService := by
  refine ⟨fun h => ?_, by decide, by decide⟩
  exact absurd (h.2.1.mpr (by decide)) (by decide)

end AutoTrade
