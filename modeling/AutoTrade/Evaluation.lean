/-
AutoTrade/Evaluation.lean

The evaluation of the asset curve (`engine/evaluation.py`).

`evaluate` reads a curve of one point a day and the prices of a benchmark, which may
be missing on some days: returns, drawdown, the annual Sharpe ratio with its standard
error, the return of the benchmark, and a verdict that holds judgement while the sample
is small.  The floats of the source are read as exact rational numbers, and square roots
are a parameter.
-/
import AutoTrade.Values

namespace AutoTrade

/-- Trading days of a year. -/
def TRADING_DAYS : ℚ := 252

/-- Below this many trades there is no verdict. -/
def MIN_TRADES_FOR_JUDGEMENT : ℤ := 100

/-- One point a day: the day, the assets and the price of the benchmark. -/
abbrev Curve := List (Date × ℚ × Option ℚ)

/-- What `evaluate` reports; a figure that cannot be had is `none`. -/
structure EvalReport where
  nDays : ℕ
  nTrades : ℕ
  cumulativeReturn : Option ℚ
  sharpeAnnual : Option ℚ
  sharpeSeAnnual : Option ℚ
  /-- the size of the drop, not negative -/
  mdd : Option ℚ
  /-- the cumulative return of the benchmark in the same interval -/
  benchmarkReturn : Option ℚ
  excessReturn : Option ℚ
  verdict : Text
  caveat : Text := [.lit
    "SE는 iid 가정(자기상관 시 과소평가) · 벤치마크 대비는 베타 미조정 단순 차이"]
  deriving DecidableEq

namespace Evaluation

/-- `_returns`. -/
def returns (values : List ℚ) : List ℚ :=
  ((values.zip values.tail).filter fun p => 0 < p.1).map fun p => p.2 / p.1 - 1

/-- One point of `_mdd`: the peak so far and the worst drop. -/
def drop (acc : Option ℚ × ℚ) (v : ℚ) : Option ℚ × ℚ :=
  let peak := (acc.1.map fun p => max p v).getD v
  (some peak, if 0 < peak then max acc.2 ((peak - v) / peak) else acc.2)

/-- `_mdd`; the floats of the source are read as exact rational numbers. -/
def mdd (values : List ℚ) : ℚ := (values.foldl drop (none, 0)).2

/-- The prices that are there. -/
def prices (dailyBenchmark : List (Date × Option ℚ)) : List ℚ :=
  dailyBenchmark.filterMap Prod.snd

/-- The return of the benchmark. -/
def bench (dailyBenchmark : List (Date × Option ℚ)) : Option ℚ :=
  match (prices dailyBenchmark).head?, (prices dailyBenchmark).getLast? with
  | some first, some last =>
    if 2 ≤ (prices dailyBenchmark).length ∧ 0 < first then some (last / first - 1) else none
  | _, _ => none

/-- The verdict in a line: too few trades, no variation, no significance, or a result to look at. -/
def verdict (nTrades : ℕ) (minTrades : ℤ) (sharpe : Option (ℚ × ℚ)) : Text :=
  if (nTrades : ℤ) < minTrades then
    [.lit "판단 보류 — 완결 트레이드 N=", .int nTrades, .lit " < ", .int minTrades,
      .lit " (표본 부족: 운/실력 구분 불가)"]
  else
    match sharpe with
    | none => [.lit "판단 불가 — 수익률 변동 없음(σ=0)"]
    | some (sharpeA, seA) =>
      if |sharpeA| < 2 * seA then
        [.lit "유의성 부족 — |SR ", .fixed 2 sharpeA, .lit "| < 2×SE ", .fixed 2 seA,
          .lit " (운과 구분 불가)"]
      else [.lit "표본·유의성 기준 충족 — 벤치마크 대비·MDD 를 함께 검토"]

/-- The annual ratio and its standard error, unless the returns do not vary. -/
def sharpe (sqrt : ℚ → ℚ) (rets : List ℚ) : Option (ℚ × ℚ) :=
  let n : ℚ := rets.length
  let mean := rets.sum / n
  let var := (rets.map fun r => (r - mean) ^ 2).sum / (n - 1)
  let std := sqrt var
  if 0 < std then
    let sharpeD := mean / std
    some (sharpeD * sqrt TRADING_DAYS, sqrt ((1 + 1 / 2 * sharpeD ^ 2) / n) * sqrt TRADING_DAYS)
  else none

/-- The report of a curve that is too short. -/
def tooShort (n nTrades : ℕ) : EvalReport where
  nDays := n
  nTrades
  cumulativeReturn := none
  sharpeAnnual := none
  sharpeSeAnnual := none
  mdd := none
  benchmarkReturn := none
  excessReturn := none
  verdict := [.lit "평가 불가 — 일일 수익률 표본 부족(2일 미만)"]

/-- `evaluate`, over the daily curve of the equity and of the benchmark. -/
def evaluate (sqrt : ℚ → ℚ) (dailyEquity : List (Date × ℚ))
    (dailyBenchmark : List (Date × Option ℚ)) (nTrades : ℕ)
    (minTrades : ℤ := MIN_TRADES_FOR_JUDGEMENT) : Except Exn EvalReport :=
  let equity := dailyEquity.map Prod.snd
  let rets := returns equity
  if rets.length < 2 then .ok (tooShort rets.length nTrades)
  else
    match equity.head?, equity.getLast? with
    | some first, some last =>
      if first = 0 then .error "ZeroDivisionError"
      else
        let cumulative := last / first - 1
        .ok { nDays := rets.length, nTrades
              cumulativeReturn := some cumulative
              sharpeAnnual := (sharpe sqrt rets).map Prod.fst
              sharpeSeAnnual := (sharpe sqrt rets).map Prod.snd
              mdd := some (mdd equity)
              benchmarkReturn := bench dailyBenchmark
              excessReturn := (bench dailyBenchmark).map fun b => cumulative - b
              verdict := verdict nTrades minTrades (sharpe sqrt rets) }
    | _, _ => .error "IndexError"

end Evaluation

end AutoTrade
