/-
AutoTrade/Replay.lean

The historical replay (`engine/replay.py`): the pipeline over past daily bars,
with the orders of one day filled at the open of the next.

`day` is one round of the source's loop over the dates, and `runBacktest` the
loop.  A bar has a valid date, so the order of the dates is the order of their
texts.  The ids and the clock readings of the ticks are drawn from `stamps`, by
day.  `fills` keeps what `apply_fill` gave back; the source keeps the book only.
-/
import AutoTrade.Exits
import AutoTrade.Pipeline
import Mathlib.Data.Finset.Sort

namespace AutoTrade

/-- A daily bar, with the prices that are read. -/
structure Bar where
  date : Date
  openPrice : ℚ
  closePrice : ℚ
  volume : ℚ
  deriving DecidableEq

/-- The bars of each symbol, as they were read. -/
abbrev Histories := Dict Symbol (List Bar)

/-! ### The broker of the past -/

/-- `ReplayToss`: the bars by symbol, sorted by date. -/
structure ReplayToss where
  h : Dict Symbol (List Bar)

namespace ReplayToss

/-- `ReplayToss(histories)`; `sorted` is stable, and so is this sort. -/
def new (histories : Histories) : ReplayToss :=
  ⟨histories.mapValues fun bars => bars.insertionSort fun a b => a.date ≤ b.date⟩

/-- `self._h.get(symbol, [])`. -/
def bars (r : ReplayToss) (symbol : Symbol) : List Bar := (r.h.get? symbol).getD []

/-- `get_candles`: the bars up to the current date. -/
def getCandles (r : ReplayToss) (currentDate : Date) (symbol : Symbol) : List Candle :=
  ((r.bars symbol).filter fun b => b.date ≤ currentDate).map fun b => ⟨b.closePrice, b.volume⟩

/-- `close_on`: the close of a day, if the symbol has one. -/
def closeOn (r : ReplayToss) (symbol : Symbol) (date : Date) : Option ℚ :=
  ((r.bars symbol).find? fun b => b.date = date).map Bar.closePrice

/-- `open_on`: the open of a day; a halted day can have zero. -/
def openOn (r : ReplayToss) (symbol : Symbol) (date : Date) : Option ℚ :=
  ((r.bars symbol).find? fun b => b.date = date).map Bar.openPrice

/-- The broker on a date; it has no account and no warnings. -/
def toss (r : ReplayToss) (currentDate : Date) : Toss where
  -- the adapter has none of these; the pipeline asks for them only without a book of its own
  getHoldings := .error "'ReplayToss' object has no attribute 'get_holdings'"
  getStocks := fun symbols => .ok (symbols.map fun s =>
    { symbol := s, name := s, market := some "KOSPI", currency := some "KRW",
      isCommonShare := some true, status := some "ACTIVE" })
  getCandles := fun s => .ok (r.getCandles currentDate s)
  getProxyCandles := fun s => .ok (r.getCandles currentDate s)
  getStockWarnings := fun _ =>
    .error "'ReplayToss' object has no attribute 'get_stock_warnings'"
  getBuyingPower := .error "'ReplayToss' object has no attribute 'get_buying_power'"

end ReplayToss

/-! ### The backtest -/

/-- The arguments of `run_backtest`, and what its ticks draw from their
surroundings. -/
structure BacktestArgs where
  histories : Histories
  benchmark : Option Symbol := none
  seed : ℚ := 10000000
  screenConfig : ScreenConfig := {}
  exitConfig : ExitConfig := {}
  warmup : ℤ := 25
  stdev : Stdev
  stamps : Date → ℕ → Stamp

/-- The variables of the loop. -/
structure Backtest where
  svc : OrderService
  paper : PaperPortfolio
  pending : List OrderRequest := []
  opened : Dict Symbol Date := ∅
  equityCurve : List (Date × ℚ × Option ℚ) := []
  buys : ℕ := 0
  /-- the orders that were not filled at the next open -/
  unfilled : ℕ := 0
  fills : List (Date × PaperFill) := []

/-- `xs[n:]`. -/
def sliceFrom {α : Type*} (n : ℤ) (xs : List α) : List α :=
  if 0 ≤ n then xs.drop n.toNat else xs.drop (xs.length - (-n).toNat)

/-- 15:30 in Seoul. -/
def closingTime (d : Date) : Datetime :=
  ⟨(d - 1) * usPerDay + (15 * 60 + 30) * 60 * 1000000 - KST, KST⟩

namespace BacktestArgs

variable (a : BacktestArgs)

/-- `benchmark`, where it is truthy. -/
def given : Option Symbol := a.benchmark.filter fun s => s ≠ ""

/-- The symbols to trade: all but the benchmark. -/
def symbols : List Symbol := a.histories.keys.filter fun s => some s ≠ a.benchmark

/-- `sorted({b["date"] for bars in histories.values() for b in bars})`. -/
def dates : List Date :=
  ((a.histories.values.flatMap fun bars => bars.map Bar.date).toFinset).sort (· ≤ ·)

/-- The market of the backtest. -/
def replay : ReplayToss := .new a.histories

/-- The closes of the day, by symbol. -/
def marks (d : Date) : Dict Symbol ℚ :=
  Dict.ofList ((a.symbols ++ a.given.toList).filterMap fun s =>
    (a.replay.closeOn s d).map fun px => (s, px))

/-- The trading days since the entry of each position. -/
def daysHeld (b : Backtest) (d : Date) : Dict Symbol ℕ :=
  Dict.ofList (b.paper.positions.keys.filterMap fun s =>
    (b.opened.get? s).bind fun entry =>
      -- an entry is not after the day, so the difference is not negative
      if entry ∈ a.dates then some (s, a.dates.idxOf d - a.dates.idxOf entry) else none)

/-- The arguments of the day's tick. -/
def tickArgs (b : Backtest) (d : Date) : TickArgs where
  toss := a.replay.toss d
  watchlist := a.symbols
  judge := deterministicJudge
  now := closingTime d
  screenConfig := a.screenConfig
  entryGate := some {}
  regimeConfig := a.given.map fun s => { symbol := s }
  holdings := some (b.paper.toSyntheticHoldings (a.marks d))
  cashBuyingPowerKrw := some b.paper.cash
  forcedExits := evaluateExits b.paper.positions (a.marks d) (a.daysHeld b d) a.exitConfig
  stdev := a.stdev
  stamps := a.stamps d

/-- Step 1 for one order of the day before: its fill at the open. -/
def fillPending (d : Date) (b : Backtest) (req : OrderRequest) : Backtest :=
  match a.replay.openOn req.symbol d with
  -- no bar on the day: the order lapses
  | none => { b with unfilled := b.unfilled + 1 }
  | some openPx =>
    let (f, paper) := b.paper.applyFill { req with price := some openPx } {} (some (closingTime d))
    match f with
    | none => { b with paper, unfilled := b.unfilled + 1 }
    | some f =>
      if f.skipped.isSome then
        { b with paper, unfilled := b.unfilled + 1, fills := b.fills ++ [(d, f)] }
      else if req.side = .buy then
        { b with
          paper
          buys := b.buys + 1
          opened := if req.symbol ∈ b.opened.keys then b.opened else b.opened.set req.symbol d
          fills := b.fills ++ [(d, f)] }
      else
        { b with
          paper
          opened :=
            if req.symbol ∈ paper.positions.keys then b.opened else b.opened.erase req.symbol
          fills := b.fills ++ [(d, f)] }

/-- Step 1: the fills of the orders of the day before. -/
def opening (d : Date) (b : Backtest) : Backtest :=
  { b.pending.foldl (a.fillPending d) b with pending := [] }

/-- The end of step 2: the orders for the next day, and the equity of this one. -/
def closing (d : Date) (tick : TickResult) (b : Backtest) : Backtest :=
  { b with
    pending := (tick.orders.filter fun o => o.status = .dryRun).map OrderResult.request
    equityCurve := b.equityCurve ++
      [(d, (b.paper.markEquity (a.marks d)).1, a.given.bind (a.marks d).get?)] }

/-- One day: the fills of the orders before, then the tick on its closes. -/
def day (d : Date) : Effect Exn Backtest PUnit := do
  Effect.change (a.opening d)
  let b ← Effect.look id
  let tick ← Effect.zoom Backtest.svc (fun b svc => { b with svc }) (runTick (a.tickArgs b d))
  Effect.change (a.closing d tick)

/-- The variables before the first day. -/
def start : Backtest where
  svc := { mode := .dryRun, config := { enforceMarketHours := false } }
  paper := { cash := a.seed }

/-- The loop over some dates. -/
def run (dates : List Date) : Effect Exn Backtest PUnit :=
  Effect.foldM (fun _ d => a.day d) ⟨⟩ dates

/-- `run_backtest`, up to the evaluation of its curve. -/
def runBacktest : Except Exn PUnit × Backtest := a.run (sliceFrom a.warmup a.dates) a.start

end BacktestArgs

end AutoTrade
