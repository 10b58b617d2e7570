/-
AutoTrade/Screener.lean

The technical indicators (`engine/indicators.py`) and the screener over them
(`engine/screener.py`).  Candles and closes run from the oldest to the newest.
-/
import AutoTrade.TossModels

namespace AutoTrade

/-! ### Indicators -/

/-- The simple moving average of the last `period` values. -/
def sma (values : List ℚ) (period : ℕ) : Option ℚ :=
  if period = 0 ∨ values.length < period then none
  else some ((sliceLast period values).sum / period)

/-- The changes from each value to the next. -/
def changes (values : List ℚ) : List ℚ := List.zipWith (fun a b => b - a) values values.tail

/-- Wilder's average: the mean of the first `period`, smoothed over the rest. -/
def wilder (period : ℕ) (xs : List ℚ) : ℚ :=
  (xs.drop period).foldl (fun avg x => (avg * (period - 1) + x) / period)
    ((xs.take period).sum / period)

/-- Wilder's relative strength index; the floats of the source are read as exact rational
numbers. -/
def rsi (values : List ℚ) (period : ℕ := 14) : Option ℚ :=
  if period = 0 ∨ values.length < period + 1 then none
  else
    let avgGain := wilder period ((changes values).map fun d => max d 0)
    let avgLoss := wilder period ((changes values).map fun d => max (-d) 0)
    -- without a loss there is nothing to divide by
    if avgLoss = 0 then some 100
    else some (100 - 100 / (1 + avgGain / avgLoss))

/-! ### Screening -/

/-- The thresholds of the screen. -/
structure ScreenConfig where
  minHistory : ℕ := 20
  smaShort : ℕ := 5
  smaLong : ℕ := 20
  rsiPeriod : ℕ := 14
  rsiOverbought : ℚ := 70
  minAvgVolume : ℚ := 100000
  minClosePrice : ℚ := 1000
  requireUptrend : Bool := true

/-- What is computed of the candles of a symbol. -/
structure ScreenIndicators where
  lastClose : ℚ
  smaShort : Option ℚ
  smaLong : Option ℚ
  rsi : Option ℚ
  avgVolume : ℚ
  deriving DecidableEq

/-- The verdict on a symbol, with the reasons against it. -/
structure ScreenResult where
  symbol : Symbol
  passed : Bool
  score : ℚ
  indicators : ScreenIndicators
  reasons : List Text := []
  deriving DecidableEq

/-- `_score`: how far the short average is above the long one. -/
def score (ind : ScreenIndicators) : ℚ :=
  match ind.smaShort, ind.smaLong with
  | some short, some long => if long = 0 then 0 else (short - long) / long
  | _, _ => 0

/-- The closes, oldest first. -/
def closes (candles : List Candle) : List ℚ := candles.map Candle.closePrice

/-- The indicators of a list of candles. -/
def indicators (candles : List Candle) (cfg : ScreenConfig) : ScreenIndicators :=
  let volumes := candles.map Candle.volume
  { lastClose := (closes candles).getLast?.getD 0
    smaShort := sma (closes candles) cfg.smaShort
    smaLong := sma (closes candles) cfg.smaLong
    rsi := rsi (closes candles) cfg.rsiPeriod
    avgVolume := if volumes.isEmpty then 0 else volumes.sum / volumes.length }

/-- Why a stock is screened out. -/
def screenReasons (n : ℕ) (ind : ScreenIndicators) (cfg : ScreenConfig) : List Text :=
  (if n < cfg.minHistory then
    [[.lit "insufficient_history(", .int n, .lit "<", .int cfg.minHistory, .lit ")"]] else []) ++
  (if ind.lastClose < cfg.minClosePrice then
    [[.lit "penny_stock(close=", .fixed 0 ind.lastClose, .lit "<",
      .fixed 0 cfg.minClosePrice, .lit ")"]] else []) ++
  (if ind.avgVolume < cfg.minAvgVolume then
    [[.lit "illiquid(avg_vol=", .fixed 0 ind.avgVolume, .lit "<",
      .fixed 0 cfg.minAvgVolume, .lit ")"]] else []) ++
  (if cfg.requireUptrend ∧ ind.smaLong.any (fun long => ind.lastClose < long) then
    [[.lit "below_sma_long(no_uptrend)"]] else []) ++
  match ind.rsi with
  | none => []
  | some r =>
    if cfg.rsiOverbought < r then
      [[.lit "overbought(rsi=", .fixed 1 r, .lit ">", .fixed 0 cfg.rsiOverbought, .lit ")"]]
    else []

/-- `screen_symbol`: a symbol passes when no reason is against it. -/
def screenSymbol (symbol : Symbol) (candles : List Candle) (cfg : ScreenConfig := {}) :
    ScreenResult :=
  let ind := indicators candles cfg
  let reasons := screenReasons candles.length ind cfg
  { symbol, passed := reasons.isEmpty, score := score ind, indicators := ind, reasons }

@[simp] theorem screenSymbol_symbol (symbol : Symbol) (candles : List Candle)
    (cfg : ScreenConfig) : (screenSymbol symbol candles cfg).symbol = symbol := rfl

/-- The last close of the indicators is the last close of the candles. -/
theorem lastClose_concat (symbol : Symbol) (candles : List Candle) (c : Candle)
    (cfg : ScreenConfig) :
    (screenSymbol symbol (candles ++ [c]) cfg).indicators.lastClose = c.closePrice := by
  show (closes (candles ++ [c])).getLast?.getD 0 = c.closePrice
  simp [closes]

end AutoTrade
