/-
AutoTrade/Costs.lean

The cost model and the entry gate (`engine/costs.py`), and the regime filter
over the same volatility (`engine/regime.py`).

A standard deviation is not rational, so `statistics.stdev` is a parameter
here: the float it gives on a list of returns.
-/
import AutoTrade.Screener

namespace AutoTrade

/-- `statistics.stdev`. -/
abbrev Stdev := List ℚ → ℚ

/-- What a trade costs, as rates: commission, slippage and the tax on a sale. -/
structure CostConfig where
  commissionRate : ℚ := 15 / 100000
  slippageRate : ℚ := 15 / 10000
  sellTaxRate : ℚ := 15 / 10000
  deriving DecidableEq

namespace CostConfig

/-- The cost rate of an entry and an exit; the tax is on the exit. -/
def roundTripRate (cost : CostConfig) : ℚ :=
  2 * cost.commissionRate + 2 * cost.slippageRate + cost.sellTaxRate

end CostConfig

/-- How far above the round trip a move has to be expected. -/
structure EntryGateConfig where
  costMultiple : ℚ := 35 / 10
  moveMultiple : ℚ := 3
  minReturns : ℕ := 5
  deriving DecidableEq

/-- What the gate says of a buy, with the rates that it compared. -/
structure GateResult where
  passed : Bool
  expectedMoveRate : ℚ
  hurdleRate : ℚ
  volRate : Option ℚ
  reason : Text
  deriving DecidableEq

/-- The simple returns from each positive close to the next. -/
def simpleReturns (closes : List ℚ) : List ℚ :=
  (closes.zip closes.tail).filterMap fun p => if 0 < p.1 then some (p.2 / p.1 - 1) else none

/-- The standard deviation of the daily returns; none when there are too few. -/
def realizedDailyVol (stdev : Stdev) (closes : Option (List ℚ)) (minReturns : ℕ := 5) :
    Option ℚ :=
  match closes with
  | none => none
  | some closes =>
    if closes.length < 2 then none
    else
      let rets := simpleReturns closes
      if rets.length < max 2 minReturns then none else some (stdev rets)

/-- The gate in front of new entries (`EntryGate`). -/
structure EntryGate where
  cost : CostConfig := {}
  config : EntryGateConfig := {}
  deriving DecidableEq

namespace EntryGate

/-- The rate that a move has to beat. -/
def hurdleRate (gate : EntryGate) : ℚ := gate.cost.roundTripRate * gate.config.costMultiple

/-- Whether the expected move of an entry reaches the hurdle. -/
def evaluate (gate : EntryGate) (stdev : Stdev) (confidence : FloatValue)
    (closes : Option (List ℚ)) : GateResult :=
  let hurdle := gate.hurdleRate
  match realizedDailyVol stdev closes gate.config.minReturns with
  -- too few closes: no entry
  | none => ⟨false, 0, hurdle, none, [.lit "변동성 추정 불가(표본 부족) — 보수적 차단"]⟩
  | some vol =>
    -- NaN comes out as 1 here, and stays NaN in `normalize`
    let conf := confidence.clamped
    let expected := conf * vol * gate.config.moveMultiple
    let passed := decide (hurdle ≤ expected)
    ⟨passed, expected, hurdle, some vol,
      [.lit "기대이동 ", .fixed 2 (expected * 100), .lit "% ",
        .lit (if passed then "≥" else "<"), .lit " 문턱 ", .fixed 2 (hurdle * 100),
        .lit "% (σ ", .fixed 2 (vol * 100), .lit "%·conf ", .dec conf, .lit ")"]⟩

end EntryGate

/-! ### The market regime -/

/-- How nervous the market is, by the volatility of a proxy. -/
inductive RegimeLevel
  | calm
  | elevated
  | stress
  | unknown
  deriving DecidableEq, Repr

namespace RegimeLevel

/-- The texts of the source for them. -/
def value : RegimeLevel → String
  | calm => "CALM"
  | elevated => "ELEVATED"
  | stress => "STRESS"
  | unknown => "UNKNOWN"

end RegimeLevel

/-- The proxy, and where calm ends and stress begins. -/
structure RegimeConfig where
  symbol : Symbol := "069500"
  lookback : ℕ := 20
  calmVol : ℚ := 10 / 1000
  stressVol : ℚ := 20 / 1000
  elevatedMultiplier : ℚ := 5 / 10
  stressMultiplier : ℚ := 0
  deriving DecidableEq

/-- The regime of a tick, with the multiplier of its exposure. -/
structure RegimeAssessment where
  level : RegimeLevel
  dailyVol : Option ℚ
  multiplier : ℚ
  reason : Text
  deriving DecidableEq

/-- The regime of a path of closes, `[]` counting as no path. -/
def assessRegime (stdev : Stdev) (closes : List ℚ) (cfg : RegimeConfig := {}) :
    RegimeAssessment :=
  let window := if closes.isEmpty then none else some (sliceLast (cfg.lookback + 1) closes)
  match realizedDailyVol stdev window 5 with
  -- an unknown regime takes nothing away
  | none => ⟨.unknown, none, 1, [.lit "레짐 판정 불가(표본 부족) — 배수 1.0"]⟩
  | some vol =>
    if cfg.stressVol ≤ vol then
      ⟨.stress, some vol, cfg.stressMultiplier,
        [.lit "시장 σ ", .fixed 2 (vol * 100), .lit "% ≥ ", .fixed 1 (cfg.stressVol * 100),
          .lit "% — 신규 진입 중단"]⟩
    else if cfg.calmVol ≤ vol then
      ⟨.elevated, some vol, cfg.elevatedMultiplier,
        [.lit "시장 σ ", .fixed 2 (vol * 100), .lit "% ≥ ", .fixed 1 (cfg.calmVol * 100),
          .lit "% — 노출 축소"]⟩
    else
      ⟨.calm, some vol, 1,
        [.lit "시장 σ ", .fixed 2 (vol * 100), .lit "% < ", .fixed 1 (cfg.calmVol * 100),
          .lit "% — 정상"]⟩

end AutoTrade
