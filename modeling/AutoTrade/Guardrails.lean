/-
AutoTrade/Guardrails.lean

The hard guardrails (`orders/guardrails.py`): seven checks, each a function
of the order, the context and the limits that gives a violation or none, run
on every order in either mode.  Only the kill switch and the market hours
look at sells.
-/
import AutoTrade.OrderModels

namespace AutoTrade

/-- The hard limits (`GuardrailConfig`), with the defaults of the source. -/
structure GuardrailConfig where
  perOrderMaxKrw : ℚ := 100000
  dailyBuyCapKrw : ℚ := 500000
  maxPositions : ℤ := 10
  perSymbolMaxWeight : ℚ := 1 / 10
  /-- microseconds of the KST day -/
  marketOpen : ℤ := 9 * 3600 * 1000000
  marketClose : ℤ := (15 * 60 + 30) * 60 * 1000000
  enforceMarketHours : Bool := true
  /-- KRX holidays -/
  holidays : List Date := []
  deriving DecidableEq

/-- What an order is checked against: the moment, the switches and the account as the
tick found it. -/
structure GuardrailContext where
  now : Datetime
  killSwitch : Bool := false
  openPositions : ℤ := 0
  heldSymbols : List Symbol := []
  dailyBuyUsedKrw : ℚ := 0
  /-- unknown: the weight is not checked -/
  portfolioValueKrw : Option ℚ := none
  symbolCurrentValueKrw : ℚ := 0
  circuitBreakerHalt : Bool := false
  circuitBreakerReason : Text := []
  deriving DecidableEq

/-- A reason to turn an order down, with its code. -/
structure Violation where
  code : String
  reason : Text
  deriving DecidableEq

/-- A check of one order. -/
abbrev Guard := OrderRequest → GuardrailContext → GuardrailConfig → Option Violation

/-- The limits on the account are for buys only. -/
def isBuy (order : OrderRequest) : Bool := order.side = .buy

/-! ### The seven checks -/

/-- The kill switch stops every order, sales too. -/
def guardKillSwitch : Guard := fun _ ctx _ =>
  if ctx.killSwitch then
    some ⟨"KILL_SWITCH", [.lit "킬스위치 작동 중 — 모든 주문 차단"]⟩
  else none

/-- A tripped breaker stops new entries; the way out stays open. -/
def guardCircuitBreaker : Guard := fun order ctx _ =>
  if !isBuy order then none
  else if ctx.circuitBreakerHalt then
    some ⟨"CIRCUIT_BREAKER",
      ctx.circuitBreakerReason.or [.lit "서킷브레이커 발동 — 신규 진입 중단"]⟩
  else none

/-- KRX hours of a weekday that is no holiday; the source tells the three apart in its
texts. -/
def guardMarketHours : Guard := fun _ ctx cfg =>
  if !cfg.enforceMarketHours then none
  else
    let n := ctx.now.astimezone KST
    if 5 ≤ n.date.weekday then
      some ⟨"MARKET_CLOSED",
        [.lit "주말(KST ", .dayName n.date.weekday, .lit ") — KRX 휴장"]⟩
    else if n.date ∈ cfg.holidays then
      some ⟨"MARKET_CLOSED", [.lit "공휴일(", .day n.date, .lit ") — KRX 휴장"]⟩
    else if ¬ (cfg.marketOpen ≤ n.time ∧ n.time ≤ cfg.marketClose) then
      some ⟨"MARKET_CLOSED",
        [.lit "장시간 외 (KST ", .hourMinute n.time, .lit ", 허용 ",
          .hourMinute cfg.marketOpen, .lit "-", .hourMinute cfg.marketClose, .lit ")"]⟩
    else none

/-- A buy whose cost cannot be estimated is stopped for safety. -/
def guardPerOrderMax : Guard := fun order _ cfg =>
  if !isBuy order then none
  else match order.estimatedNotional with
    | none => some ⟨"UNBOUNDED_COST",
        [.lit "매수 비용 추정 불가(price/orderAmount 없음) — 안전상 차단"]⟩
    | some notional =>
      if cfg.perOrderMaxKrw < notional then
        some ⟨"PER_ORDER_MAX",
          [.lit "1주문 한도 초과: ", .dec notional, .lit " > ", .dec cfg.perOrderMaxKrw]⟩
      else none

/-- The day's buys with this one. -/
def guardDailyBuyCap : Guard := fun order ctx cfg =>
  if !isBuy order then none
  else
    let total := ctx.dailyBuyUsedKrw + order.notional
    if cfg.dailyBuyCapKrw < total then
      some ⟨"DAILY_BUY_CAP",
        [.lit "일일 매수 한도 초과: ", .dec total, .lit " > ", .dec cfg.dailyBuyCapKrw]⟩
    else none

/-- One more position than the account has, for a symbol that is new to it. -/
def guardMaxPositions : Guard := fun order ctx cfg =>
  if !isBuy order then none
  else if order.symbol ∈ ctx.heldSymbols then none   -- adding to a position opens none
  else if cfg.maxPositions < ctx.openPositions + 1 then
    some ⟨"MAX_POSITIONS",
      [.lit "최대 보유 종목 수 초과: ", .int (ctx.openPositions + 1), .lit " > ",
        .int cfg.maxPositions]⟩
  else none

/-- The share of the symbol after the buy; its denominator has the notional added. -/
def guardPerSymbolWeight : Guard := fun order ctx cfg =>
  if !isBuy order then none
  else match ctx.portfolioValueKrw with
    | none => none
    | some portfolio =>
      -- the total assets have the cash of this buy in them already
      let notional := order.notional
      let resulting := ctx.symbolCurrentValueKrw + notional
      let denom := portfolio + notional
      if denom ≤ 0 then none
      else
        let weight := resulting / denom
        if cfg.perSymbolMaxWeight < weight then
          some ⟨"PER_SYMBOL_WEIGHT",
            [.lit "종목 비중 초과: ", .fixed 2 (weight * 100), .lit "% > ",
              .fixed 2 (cfg.perSymbolMaxWeight * 100), .lit "%"]⟩
        else none

/-- `ALL_GUARDRAILS`. -/
def allGuardrails : List Guard :=
  [guardKillSwitch, guardCircuitBreaker, guardMarketHours, guardPerOrderMax,
    guardDailyBuyCap, guardMaxPositions, guardPerSymbolWeight]

/-- Run the guardrails and collect the violations; no list given means all of
them. -/
def runGuardrails (order : OrderRequest) (ctx : GuardrailContext) (cfg : GuardrailConfig)
    (guardrails : List Guard := []) : List Violation :=
  let gs := if guardrails.isEmpty then allGuardrails else guardrails
  gs.filterMap fun g => g order ctx cfg

/-! ### What an order without violations has passed -/

/-- The market is open, or the hours are not enforced. -/
def MarketOpen (cfg : GuardrailConfig) (now : Datetime) : Prop :=
  cfg.enforceMarketHours = false ∨
    (Date.weekday (now.astimezone KST).date < 5 ∧ (now.astimezone KST).date ∉ cfg.holidays ∧
      cfg.marketOpen ≤ (now.astimezone KST).time ∧ (now.astimezone KST).time ≤ cfg.marketClose)

instance (cfg : GuardrailConfig) (now : Datetime) : Decidable (MarketOpen cfg now) :=
  inferInstanceAs (Decidable (_ ∨ _))

/-- An order passes exactly when each of the seven checks passes. -/
theorem runGuardrails_eq_nil {order : OrderRequest} {ctx : GuardrailContext}
    {cfg : GuardrailConfig} :
    runGuardrails order ctx cfg = [] ↔
      guardKillSwitch order ctx cfg = none ∧ guardCircuitBreaker order ctx cfg = none ∧
      guardMarketHours order ctx cfg = none ∧ guardPerOrderMax order ctx cfg = none ∧
      guardDailyBuyCap order ctx cfg = none ∧ guardMaxPositions order ctx cfg = none ∧
      guardPerSymbolWeight order ctx cfg = none := by
  simp [runGuardrails, allGuardrails, List.filterMap_eq_nil_iff]

section Passed

variable {order : OrderRequest} {ctx : GuardrailContext} {cfg : GuardrailConfig}

theorem guardKillSwitch_eq_none :
    guardKillSwitch order ctx cfg = none ↔ ctx.killSwitch = false := by
  unfold guardKillSwitch
  split <;> simp_all

theorem guardCircuitBreaker_eq_none (hb : order.side = .buy) :
    guardCircuitBreaker order ctx cfg = none ↔ ctx.circuitBreakerHalt = false := by
  unfold guardCircuitBreaker isBuy
  simp [hb]

theorem guardMarketHours_eq_none :
    guardMarketHours order ctx cfg = none ↔ MarketOpen cfg ctx.now := by
  unfold guardMarketHours MarketOpen
  rcases cfg.enforceMarketHours with - | -
  · simp
  · simp only [Bool.not_true, Bool.false_eq_true, if_false, false_or, reduceCtorEq]
    by_cases hweek : 5 ≤ Date.weekday (ctx.now.astimezone KST).date
    · simp [hweek, not_lt.mpr hweek]
    · by_cases hday : (ctx.now.astimezone KST).date ∈ cfg.holidays
      · simp [hweek, hday]
      · by_cases htime : cfg.marketOpen ≤ (ctx.now.astimezone KST).time ∧
            (ctx.now.astimezone KST).time ≤ cfg.marketClose
        · simp [hday, htime, not_le.mp hweek, hweek]
        · simp [hweek, hday, htime]

theorem guardDailyBuyCap_eq_none (hb : order.side = .buy) :
    guardDailyBuyCap order ctx cfg = none ↔
      ctx.dailyBuyUsedKrw + order.notional ≤ cfg.dailyBuyCapKrw := by
  unfold guardDailyBuyCap isBuy
  simp [hb]

/-- A buy of a new symbol passes only where one more position is within the limit. -/
theorem guardMaxPositions_eq_none (hb : order.side = .buy) (hnew : order.symbol ∉ ctx.heldSymbols)
    (h : guardMaxPositions order ctx cfg = none) : ctx.openPositions < cfg.maxPositions := by
  by_contra hfull
  have hover : cfg.maxPositions < ctx.openPositions + 1 := by omega
  simp [guardMaxPositions, isBuy, hb, hnew, hover] at h

/-- A sell meets the kill switch and the market hours only. -/
theorem runGuardrails_sell (hs : order.side = .sell) :
    runGuardrails order ctx cfg = [] ↔
      ctx.killSwitch = false ∧ MarketOpen cfg ctx.now := by
  rw [runGuardrails_eq_nil, guardKillSwitch_eq_none, guardMarketHours_eq_none]
  simp [guardCircuitBreaker, guardPerOrderMax, guardDailyBuyCap, guardMaxPositions,
    guardPerSymbolWeight, isBuy, hs]

end Passed

end AutoTrade
