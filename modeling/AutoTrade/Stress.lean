/-
AutoTrade/Stress.lean

The stress simulation (`engine/stress.py`): the pipeline over a made-up path of
closes that every symbol shares, with a paper book and no judge but the rules.

`day` is one round of the source's loop over the days and `simulate` the whole of
it.  The prices and the drawdown are floats in the source: `float` rounds the result
of an operation, and `text` is the number that the text of a float shows.  The amounts
of money are decimals, which stand for exact rational numbers here.

The simulation is there to show that the breaker stops the entries.  `Stressed`
says what it does show, in the equities that the ticks are given: the breaker
trips on the first day whose equity is 15% below an earlier one, and no entry
follows but after a day on which the account is back within 8% of its peak.  The
drawdown that it reports is the greatest fall of its curve, rounded once.
-/
import AutoTrade.BreakerHalt
import AutoTrade.Evaluation
import AutoTrade.Exits
import AutoTrade.Lib.Drawdown
import AutoTrade.Lib.Loop
import AutoTrade.TripSoundness
import AutoTrade.Valuation

namespace AutoTrade

open Effect

/-! ### The simulation -/

/-- The proxy of the market. -/
def BENCH : Symbol := "069500"

/-- The screen of the simulation, which overbought never stops. -/
def SIM_SCREEN : ScreenConfig where
  minHistory := 10
  smaShort := 3
  smaLong := 8
  rsiPeriod := 5
  rsiOverbought := 101
  minAvgVolume := 1
  minClosePrice := 1

/-- 5 January 2026, 10:00 in Seoul. -/
def BASE_DAY : Datetime := ⟨(739621 - 1) * usPerDay + 10 * 3600 * 1000000 - KST, KST⟩

/-- A price path, and the day that the simulation starts on. -/
structure Scenario where
  name : String
  /-- the path of all symbols and of the benchmark -/
  closes : List ℚ
  warmup : ℕ := 12

/-- `SyntheticToss`: the paths, by symbol. -/
structure SyntheticToss where
  paths : Dict Symbol (List ℚ)

namespace SyntheticToss

/-- `SyntheticToss(symbols, closes)`: each path is a little above the one before. -/
def new (float text : ℚ → ℚ) (symbols : List Symbol) (closes : List ℚ) : SyntheticToss :=
  ⟨Dict.ofList ((symbols ++ [BENCH]).zipIdx.map fun p =>
    (p.1, closes.map fun c =>
      text (float (c * float (1 + float (p.2 * float (1 / 1000)))))))⟩

/-- `get_candles`: the bars up to the day; an unknown symbol is a `KeyError`. -/
def getCandles (t : SyntheticToss) (day : ℕ) (symbol : Symbol) : Except Exn (List Candle) :=
  match t.paths.get? symbol with
  | none => .error symbol
  | some path => .ok ((path.take (day + 1)).map fun c => ⟨c, 1000000⟩)

/-- `mark`, where the day is one of the path. -/
def mark (t : SyntheticToss) (day : ℕ) (symbol : Symbol) : Option ℚ :=
  (t.paths.get? symbol).bind fun path => path[day]?

/-- The broker on a day; it has no account and no warnings. -/
def toss (t : SyntheticToss) (day : ℕ) : Toss where
  getHoldings := .error "'SyntheticToss' object has no attribute 'get_holdings'"
  getStocks := fun symbols => .ok (symbols.map fun s =>
    { symbol := s, name := s, market := some "KOSPI", currency := some "KRW",
      isCommonShare := some true, status := some "ACTIVE" })
  getCandles := t.getCandles day
  getProxyCandles := t.getCandles day
  getStockWarnings := fun _ =>
    .error "'SyntheticToss' object has no attribute 'get_stock_warnings'"
  getBuyingPower := .error "'SyntheticToss' object has no attribute 'get_buying_power'"

end SyntheticToss

/-- The arguments of `simulate`, and what its ticks draw from their surroundings. -/
structure StressArgs where
  scenario : Scenario
  seed : ℚ := 1000000
  minimalDefenses : Bool := false
  /-- a float next to a number -/
  float : ℚ → ℚ
  float_mono : Monotone float
  float_zero : float 0 = 0
  text : ℚ → ℚ
  stdev : Stdev
  stamps : ℕ → ℕ → Stamp

/-- The variables of the loop, those of the result among them. -/
structure Stress where
  svc : OrderService
  paper : PaperPortfolio
  openedDay : Dict Symbol ℕ := ∅
  finalEquity : ℚ := 0
  maxDrawdown : ℚ := 0
  cbTrippedDay : Option ℕ := none
  forcedExits : ℕ := 0
  buysTotal : ℕ := 0
  buysAfterTrip : ℕ := 0
  equityCurve : List ℚ := []

namespace StressArgs

variable (x : StressArgs)

/-- The ten symbols. -/
def symbols : List Symbol :=
  ["SIM0010", "SIM0020", "SIM0030", "SIM0040", "SIM0050",
   "SIM0060", "SIM0070", "SIM0080", "SIM0090", "SIM0100"]

/-- The market of the scenario. -/
def toss : SyntheticToss := .new x.float x.text symbols x.scenario.closes

/-- The days of the loop. -/
def days : List ℕ :=
  List.range' x.scenario.warmup (x.scenario.closes.length - x.scenario.warmup)

/-- The moment of a day. -/
def now (day : ℕ) : Datetime := { BASE_DAY with instant := BASE_DAY.instant + day * usPerDay }

/-- The prices of a day. -/
def marks (day : ℕ) : Dict Symbol ℚ :=
  Dict.ofList ((symbols ++ [BENCH]).filterMap fun s => (x.toss.mark day s).map fun px => (s, px))

/-- The days since the entry of each position. -/
def daysHeld (b : Stress) (day : ℕ) : Dict Symbol ℕ :=
  Dict.ofList (b.paper.positions.keys.filterMap fun s =>
    (b.openedDay.get? s).map fun entry => (s, day - entry))

/-- The exits of a day, off when only the breaker is to be tested. -/
def forced (b : Stress) (day : ℕ) : List ForcedExit :=
  evaluateExits b.paper.positions (x.marks day) (daysHeld b day)
    { enabled := !x.minimalDefenses }

/-- The arguments of the day's tick. -/
def tickArgs (b : Stress) (day : ℕ) : TickArgs where
  toss := x.toss.toss day
  watchlist := symbols
  judge := deterministicJudge
  now := now day
  screenConfig := SIM_SCREEN
  entryGate := if x.minimalDefenses then none else some {}
  regimeConfig := if x.minimalDefenses then none else some { symbol := BENCH }
  holdings := some (b.paper.toSyntheticHoldings (x.marks day))
  cashBuyingPowerKrw := some b.paper.cash
  forcedExits := x.forced b day
  stdev := x.stdev
  stamps := x.stamps day

/-- What an order that was filled adds to the counters; the book has the fill. -/
def count (day : ℕ) (b : Stress) (req : OrderRequest) : Stress :=
  if req.side = .buy then
    { b with
      buysTotal := b.buysTotal + 1
      openedDay :=
        if req.symbol ∈ b.openedDay.keys then b.openedDay else b.openedDay.set req.symbol day
      buysAfterTrip := if b.cbTrippedDay.isSome then b.buysAfterTrip + 1 else b.buysAfterTrip }
  else if req.symbol ∉ b.paper.positions.keys then
    { b with openedDay := b.openedDay.erase req.symbol }
  else b

/-- The book and the counters after one order of the tick. -/
def fill (day : ℕ) (b : Stress) (o : OrderResult) : Stress :=
  if o.status ≠ .dryRun then b
  else
    let r := b.paper.applyFill o.request {} (some (now day))
    let b := { b with paper := r.2 }
    match r.1 with
    | none => b
    | some f => if f.skipped.isSome then b else count day b o.request

/-- What follows the tick. -/
def closing (day : ℕ) (forced : List ForcedExit) (tick : TickResult) (b : Stress) : Stress :=
  let b := { b with forcedExits := b.forcedExits + forced.length }
  let b := tick.orders.foldl (fill day) b
  let b := { b with equityCurve := b.equityCurve ++ [(b.paper.markEquity (x.marks day)).1] }
  if b.cbTrippedDay.isNone ∧ b.svc.circuitBreaker.tripped then { b with cbTrippedDay := some day }
  else b

/-- One day: the tick on its closes, and the fills of its orders. -/
def day (d : ℕ) : Effect Exn Stress PUnit := do
  let b ← look id
  let tick ← zoom Stress.svc (fun b svc => { b with svc }) (runTick (x.tickArgs b d))
  change (x.closing d (x.forced b d) tick)

/-- The variables before the first day. -/
def start : Stress where
  svc := { mode := .dryRun, config := { enforceMarketHours := false } }
  paper := { cash := x.seed }

/-- The peak and the worst drop after one more equity; the drop is made a float. -/
def drop (acc : ℚ × ℚ) (e : ℚ) : ℚ × ℚ :=
  let peak := max acc.1 e
  (peak, if 0 < peak then max acc.2 (x.float ((peak - e) / peak)) else acc.2)

/-- What follows the loop. -/
def finish (b : Stress) : Stress :=
  { b with
    finalEquity := b.equityCurve.getLast?.getD x.seed
    maxDrawdown := (b.equityCurve.foldl x.drop (0, b.maxDrawdown)).2 }

/-- `simulate`: day after day, and then the figures. -/
def simulate : Effect Exn Stress PUnit := do
  -- a day that raises ends the simulation
  Loop.each x.day x.days
  change x.finish

/-! ### One day -/

/-- What the fills of a tick leave of the variables. -/
structure Filled (orders : List OrderResult) (b c : Stress) : Prop where
  svc : c.svc = b.svc
  cbTrippedDay : c.cbTrippedDay = b.cbTrippedDay
  equityCurve : c.equityCurve = b.equityCurve
  maxDrawdown : c.maxDrawdown = b.maxDrawdown
  /-- an entry counts as late when the breaker has tripped before and a buy was accepted -/
  late : c.buysAfterTrip = b.buysAfterTrip ∨
    b.cbTrippedDay.isSome ∧ ∃ o ∈ orders, o.acceptedBuy

theorem filled_count (day : ℕ) (b : Stress) {o : OrderResult} (ho : o.status = .dryRun) :
    Filled [o] b (count day b o.request) := by
  unfold count
  by_cases hbuy : o.request.side = .buy
  · rw [if_pos hbuy]
    refine ⟨rfl, rfl, rfl, rfl, ?_⟩
    by_cases hcb : b.cbTrippedDay.isSome
    · refine Or.inr ⟨hcb, o, List.mem_singleton_self o, ?_⟩
      rw [OrderResult.acceptedBuy_iff, ho]
      exact ⟨hbuy, rfl⟩
    · exact Or.inl (if_neg hcb)
  · rw [if_neg hbuy]
    split_ifs <;> exact ⟨rfl, rfl, rfl, rfl, Or.inl rfl⟩

theorem filled_fill (day : ℕ) (b : Stress) (o : OrderResult) : Filled [o] b (fill day b o) := by
  unfold fill
  by_cases hstatus : o.status = .dryRun
  · rw [if_neg (not_not.mpr hstatus)]
    have hbook : ∀ paper, Filled [o] b { b with paper } := fun paper =>
      ⟨rfl, rfl, rfl, rfl, Or.inl rfl⟩
    rcases hfill : (b.paper.applyFill o.request {} (some (now day))).1 with - | f
    · simp only [hfill]
      exact hbook _
    · simp only [hfill]
      split_ifs
      · exact hbook _
      · -- the book is not among what the counters leave
        obtain ⟨hsvc, hcb, hcurve, hdrop, hlate⟩ := filled_count day
          { b with paper := (b.paper.applyFill o.request {} (some (now day))).2 } hstatus
        exact ⟨hsvc, hcb, hcurve, hdrop, hlate⟩
  · rw [if_pos hstatus]
    exact ⟨rfl, rfl, rfl, rfl, Or.inl rfl⟩

theorem filled_foldl (day : ℕ) (orders : List OrderResult) (b : Stress) :
    Filled orders b (orders.foldl (fill day) b) := by
  induction orders generalizing b with
  | nil => exact ⟨rfl, rfl, rfl, rfl, Or.inl rfl⟩
  | cons o orders ih =>
    have hone := filled_fill day b o
    have hrest := ih (fill day b o)
    refine ⟨hrest.svc.trans hone.svc, hrest.cbTrippedDay.trans hone.cbTrippedDay,
      hrest.equityCurve.trans hone.equityCurve, hrest.maxDrawdown.trans hone.maxDrawdown, ?_⟩
    rcases hrest.late with hlate | ⟨hcb, o', ho', hbuy⟩
    · rcases hone.late with hfirst | ⟨hcb, o', ho', hbuy⟩
      · exact Or.inl (hlate.trans hfirst)
      · rw [List.mem_singleton] at ho'
        exact Or.inr ⟨hcb, o', ho' ▸ List.mem_cons_self, hbuy⟩
    · exact Or.inr ⟨hone.cbTrippedDay ▸ hcb, o', List.mem_cons_of_mem _ ho', hbuy⟩

/-- What follows a tick leaves the service, and notes the first day of a trip. -/
structure Closed (d : ℕ) (tick : TickResult) (b c : Stress) : Prop where
  svc : c.svc = b.svc
  cbTrippedDay : c.cbTrippedDay =
    if b.cbTrippedDay.isNone ∧ b.svc.circuitBreaker.tripped then some d else b.cbTrippedDay
  late : c.buysAfterTrip = b.buysAfterTrip ∨
    b.cbTrippedDay.isSome ∧ ∃ o ∈ tick.orders, o.acceptedBuy
  maxDrawdown : c.maxDrawdown = b.maxDrawdown

theorem closed_closing (d : ℕ) (forced : List ForcedExit) (tick : TickResult) (b : Stress) :
    Closed d tick b (x.closing d forced tick b) := by
  have hfilled := filled_foldl d tick.orders
    { b with forcedExits := b.forcedExits + forced.length }
  unfold closing
  simp only [hfilled.svc, hfilled.cbTrippedDay]
  by_cases htrip : b.cbTrippedDay.isNone ∧ b.svc.circuitBreaker.tripped
  · rw [if_pos htrip]
    exact ⟨rfl, (if_pos htrip).symm, hfilled.late, hfilled.maxDrawdown⟩
  · rw [if_neg htrip]
    exact ⟨rfl, (if_neg htrip).symm, hfilled.late, hfilled.maxDrawdown⟩

/-- A day that returns is its tick, and what follows it. -/
theorem day_eq_ok {d : ℕ} {b c : Stress} {u : PUnit} (h : x.day d b = (.ok u, c)) :
    ∃ tick svc, runTick (x.tickArgs b d) b.svc = (.ok tick, svc) ∧
      c = x.closing d (x.forced b d) tick { b with svc } := by
  rw [day, bind_ok (look_apply id _)] at h
  obtain ⟨tick, mid, htick, hclose⟩ := bind_eq_ok.mp h
  obtain ⟨hok, hmid⟩ := Prod.mk.inj htick
  refine ⟨tick, (runTick (x.tickArgs b d) b.svc).2, Prod.ext hok rfl, ?_⟩
  rw [change_apply] at hclose
  rw [← (Prod.mk.inj hclose).2, ← hmid]
  rfl

/-- The equity that a day starts with: the cash, and the positions at the closes. -/
def equityAt (d : ℕ) (b : Stress) : ℚ := (b.paper.markEquity (x.marks d)).1

/-- What a day does to the breaker and to what is recorded of it. -/
structure Passed (d : ℕ) (b c : Stress) : Prop where
  breaker : c.svc.circuitBreaker =
    (b.svc.circuitBreaker.assess (some (x.equityAt d b)) none (now d)).2
  cbTrippedDay : c.cbTrippedDay =
    if b.cbTrippedDay.isNone ∧ c.svc.circuitBreaker.tripped then some d else b.cbTrippedDay
  late : c.buysAfterTrip = b.buysAfterTrip ∨
    b.cbTrippedDay.isSome ∧ c.svc.circuitBreaker.tripped = false
  maxDrawdown : c.maxDrawdown = b.maxDrawdown

/-- The tick of a day assesses the breaker with the equity that the day starts with. -/
theorem runTick_breaker_day {d : ℕ} {b : Stress} {tick : TickResult} {svc : OrderService}
    (h : runTick (x.tickArgs b d) b.svc = (.ok tick, svc)) :
    svc.circuitBreaker =
      (b.svc.circuitBreaker.assess (some (x.equityAt d b)) none (now d)).2 := by
  have hholdings : tickHoldings (x.tickArgs b d) =
      .ok (b.paper.toSyntheticHoldings (x.marks d)) := rfl
  have hsvc : (runTick (x.tickArgs b d) b.svc).2 = svc := by rw [h]
  rcases runTick_setup (x.tickArgs b d) b.svc with ⟨hnone, hsame⟩ | ⟨g, hg, hsame⟩
  · -- a tick that has read no market has raised, or has no symbol to look at
    have hsome : tickSymbols (x.tickArgs b d) (b.paper.toSyntheticHoldings (x.marks d)) ≠ [] := by
      intro hnil
      have hmem : "SIM0010" ∈ tickSymbols (x.tickArgs b d)
          (b.paper.toSyntheticHoldings (x.marks d)) := by
        simp [tickSymbols, tickArgs, symbols]
      simp [hnil] at hmem
    cases ticks_of_run h with
    | nothing hg => exact absurd hg (gather_eq_none hholdings hsome)
    | unmatched hg hc => exact absurd hg (hnone _)
    | traded hg hc hd hl => exact absurd hg (hnone _)
  · have hequity : g.equity = some (x.equityAt d b) := by
      rw [Gathered.equity, (gather_account hg).2, ← gather_holdings hholdings hg,
        PaperPortfolio.marketValue_eq_positionsValue]
      rfl
    have hrate : g.holdings.dailyProfitLossRate = none := by
      rw [← gather_holdings hholdings hg]
      rfl
    rw [hsvc] at hsame
    rw [hsame.circuitBreaker, assessed, hequity, hrate]
    rfl

/-- **One day.** -/
theorem passed_day {d : ℕ} {b c : Stress} {u : PUnit} (h : x.day d b = (.ok u, c)) :
    x.Passed d b c := by
  obtain ⟨tick, svc, hrun, rfl⟩ := x.day_eq_ok h
  have hclosed := x.closed_closing d (x.forced b d) tick { b with svc }
  refine ⟨?_, ?_, ?_, hclosed.maxDrawdown⟩
  · rw [hclosed.svc]
    exact x.runTick_breaker_day hrun
  · rw [hclosed.svc]
    exact hclosed.cbTrippedDay
  · refine hclosed.late.imp_right ?_
    rintro ⟨hcb, o, ho, hbuy⟩
    refine ⟨hcb, ?_⟩
    -- a tripped breaker has accepted no buy
    rw [hclosed.svc]
    by_contra htrip
    rw [Bool.not_eq_false] at htrip
    have hnew : o ∈ settledIn (x.tickArgs b d) b.svc := by
      rw [settledIn_eq (r := tick) (by rw [hrun])]
      exact mem_newAnswers_of_acceptedBuy ho hbuy
    exact settledIn_not_buy (by rw [hrun]; exact htrip) o hnew hbuy

/-! ### The breaker over the days -/

/-- The variables at the start of the day number `i`. -/
def opening (i : ℕ) : Stress := Loop.after x.day x.days i x.start

/-- The day of the `i`-th round. -/
def dayOn (i : ℕ) : ℕ := x.scenario.warmup + i

/-- The equity that the day number `i` starts with. -/
def equityOn (i : ℕ) : ℚ := x.equityAt (x.dayOn i) (x.opening i)

/-- The assessments of the first days. -/
def assessments (n : ℕ) : List CircuitBreaker.Event :=
  (List.range n).map fun k => .assess (some (x.equityOn k)) none (now (x.dayOn k))

/-- The breaker after the first days. -/
def breakerOn (n : ℕ) : CircuitBreaker := CircuitBreaker.run {} (x.assessments n)

/-- The account is 15% below what it was on an earlier day. -/
def Fallen (i : ℕ) : Prop := 0 < x.equityOn i ∧ ∃ k < i, x.equityOn i ≤ 85 / 100 * x.equityOn k

/-- The account is within 8% of all that it was before. -/
def Recovered (i : ℕ) : Prop :=
  0 < x.equityOn i ∧ ∀ k < i, 92 / 100 * x.equityOn k ≤ x.equityOn i

theorem assessments_succ (n : ℕ) :
    x.assessments (n + 1) =
      x.assessments n ++ [.assess (some (x.equityOn n)) none (now (x.dayOn n))] := by
  rw [assessments, List.range_succ, List.map_append]
  rfl

theorem breakerOn_succ (n : ℕ) :
    x.breakerOn (n + 1) =
      ((x.breakerOn n).assess (some (x.equityOn n)) none (now (x.dayOn n))).2 := by
  rw [breakerOn, assessments_succ, CircuitBreaker.run_append]
  rfl

theorem mem_knownEquities {n : ℕ} {q : ℚ} :
    q ∈ CircuitBreaker.knownEquities (x.assessments n) ↔ 0 < q ∧ ∃ k < n, q = x.equityOn k := by
  induction n with
  | zero => simp [assessments, CircuitBreaker.knownEquities, CircuitBreaker.sinceReset]
  | succ n ih =>
    rw [assessments_succ, CircuitBreaker.knownEquities_concat (by simp), List.mem_append, ih]
    constructor
    · rintro (⟨hq, k, hk, rfl⟩ | hq)
      · exact ⟨hq, k, Nat.lt_succ_of_lt hk, rfl⟩
      · by_cases hpos : 0 < x.equityOn n
        · simp only [CircuitBreaker.knownEquity, hpos, if_true, Option.toList_some,
            List.mem_singleton] at hq
          exact ⟨hq ▸ hpos, n, Nat.lt_succ_self n, hq⟩
        · simp [CircuitBreaker.knownEquity, hpos] at hq
    · rintro ⟨hq, k, hk, rfl⟩
      rcases Nat.lt_succ_iff_lt_or_eq.mp hk with hk | rfl
      · exact Or.inl ⟨hq, k, hk, rfl⟩
      · exact Or.inr (by simp [CircuitBreaker.knownEquity, hq])

/-- The mark that a day is measured against is the highest equity so far, and
the latch reads the distance from it. -/
theorem mark_spec {n : ℕ} (hpos : 0 < x.equityOn n) :
    ∃ H, (∃ k ≤ n, H = x.equityOn k) ∧ (∀ j ≤ n, x.equityOn j ≤ H) ∧
      ((x.breakerOn (n + 1)).drawdownHalt ↔
        x.equityOn n ≤ 85 / 100 * H ∨
          (x.breakerOn n).drawdownHalt ∧ x.equityOn n < 92 / 100 * H) := by
  have hsettled : (x.breakerOn n).Settled {} := CircuitBreaker.settled_run {} (x.assessments n)
  have hmark := hsettled.raisedMark_pos hpos
  have hpeak := (CircuitBreaker.marks_run {} (x.assessments n)).raise hpos none (now (x.dayOn n))
  rw [← assessments_succ] at hpeak
  change CircuitBreaker.Peak _ ((x.breakerOn n).raisedMark (x.equityOn n)) at hpeak
  have hhalt := (hsettled.drawdownHalt_assess hpos hmark none (now (x.dayOn n))).2
  rw [← breakerOn_succ] at hhalt
  generalize (x.breakerOn n).raisedMark (x.equityOn n) = H at hmark hpeak hhalt
  obtain ⟨hmem, hub⟩ := hpeak
  obtain ⟨-, k, hk, hH⟩ := x.mem_knownEquities.mp hmem
  have hle : ∀ j ≤ n, x.equityOn j ≤ H := by
    intro j hj
    by_cases hj0 : 0 < x.equityOn j
    · exact hub (x.mem_knownEquities.mpr ⟨hj0, j, Nat.lt_succ_of_le hj, rfl⟩)
    · exact (not_lt.mp hj0).trans hmark.le
  refine ⟨H, ⟨k, Nat.le_of_lt_succ hk, hH⟩, hle, ?_⟩
  have hdrop : CircuitBreaker.dropFrom H (x.equityOn n) = (H - x.equityOn n) / H :=
    max_eq_right (div_nonneg (sub_nonneg.mpr (hle n le_rfl)) hmark.le)
  -- the two thresholds, as parts of the mark
  have hlimit : (15 / 100 : ℚ) ≤ (H - x.equityOn n) / H ↔ x.equityOn n ≤ 85 / 100 * H := by
    rw [le_div_iff₀ hmark]
    constructor <;> intro h <;> linarith
  have hrearm : (8 / 100 : ℚ) < (H - x.equityOn n) / H ↔ x.equityOn n < 92 / 100 * H := by
    rw [lt_div_iff₀ hmark]
    constructor <;> intro h <;> linarith
  rw [hdrop] at hhalt
  change _ ↔ (15 / 100 : ℚ) ≤ _ ∨ _ ∧ (8 / 100 : ℚ) < _ at hhalt
  rw [hhalt, hlimit, hrearm]

/-- **The latch, day by day**: a fall sets it, nothing else does, and nothing but a
recovery releases it. -/
theorem latch_step (n : ℕ) :
    (x.Fallen n → (x.breakerOn (n + 1)).drawdownHalt) ∧
      ((x.breakerOn (n + 1)).drawdownHalt → (x.breakerOn n).drawdownHalt ∨ x.Fallen n) ∧
      ((x.breakerOn n).drawdownHalt → (x.breakerOn (n + 1)).drawdownHalt ∨ x.Recovered n) := by
  by_cases hpos : 0 < x.equityOn n
  · obtain ⟨H, ⟨k, hk, hH⟩, hle, hhalt⟩ := x.mark_spec hpos
    have hfallen : x.Fallen n ↔ x.equityOn n ≤ 85 / 100 * H := by
      constructor
      · rintro ⟨-, j, hj, hfall⟩
        linarith [hle j hj.le]
      · intro hfall
        refine ⟨hpos, k, lt_of_le_of_ne hk ?_, hH ▸ hfall⟩
        rintro rfl
        rw [hH] at hfall
        linarith
    rw [← hfallen] at hhalt
    refine ⟨fun h => hhalt.mpr (Or.inl h), fun h => ?_, fun h => ?_⟩
    · exact (hhalt.mp h).symm.imp_left And.left
    · by_cases hlow : x.equityOn n < 92 / 100 * H
      · exact Or.inl (hhalt.mpr (Or.inr ⟨h, hlow⟩))
      · refine Or.inr ⟨hpos, fun j hj => ?_⟩
        linarith [hle j hj.le]
  · -- an equity of zero or below is not measured
    have hsettled : (x.breakerOn n).Settled {} := CircuitBreaker.settled_run {} (x.assessments n)
    have hunread : ∀ e, some (x.equityOn n) = some e → ¬ 0 < e := by
      intro e he
      rwa [← Option.some.inj he]
    have hkeep := (hsettled.assess_unread hunread none (now (x.dayOn n))).2.2
    rw [← breakerOn_succ] at hkeep
    rw [hkeep]
    exact ⟨fun h => absurd h.1 hpos, Or.inl, Or.inl⟩

/-- A latch that was on and is off has been released by a recovery between. -/
theorem exists_recovered {i n : ℕ} (hin : i ≤ n) (hon : (x.breakerOn i).drawdownHalt)
    (hoff : (x.breakerOn n).drawdownHalt = false) : ∃ j, i ≤ j ∧ j < n ∧ x.Recovered j := by
  induction n, hin using Nat.le_induction with
  | base =>
    rw [hoff] at hon
    cases hon
  | succ n hin ih =>
    rcases hmid : (x.breakerOn n).drawdownHalt with - | -
    · obtain ⟨j, hij, hj, hrec⟩ := ih hmid
      exact ⟨j, hij, Nat.lt_succ_of_lt hj, hrec⟩
    · rcases (x.latch_step n).2.2 hmid with h | h
      · rw [hoff] at h
        cases h
      · exact ⟨n, hin, Nat.lt_succ_self n, h⟩

/-- The account of the paper book has no daily result, so the daily latch stays off. -/
theorem tripped_breakerOn (n : ℕ) : (x.breakerOn n).tripped = (x.breakerOn n).drawdownHalt := by
  have hdate : (x.breakerOn n).dailyHaltDate = none := by
    induction n with
    | zero => rfl
    | succ n ih =>
      rw [breakerOn_succ, CircuitBreaker.assess_dailyHaltDate, ih]
      simp [CircuitBreaker.dailyLoss]
  rw [CircuitBreaker.tripped, CircuitBreaker.dailyHaltActive, hdate]
  simp

/-! ### The whole simulation -/

/-- What the variables hold at the start of a day. -/
structure OnDay (i : ℕ) (b : Stress) : Prop where
  breaker : b.svc.circuitBreaker = x.breakerOn i
  /-- no trip yet, and no fall -/
  quiet : b.cbTrippedDay = none → (x.breakerOn i).drawdownHalt = false ∧ ∀ k < i, ¬ x.Fallen k
  trip : ∀ d, b.cbTrippedDay = some d →
    ∃ k < i, d = x.dayOn k ∧ x.Fallen k ∧ ∀ j < k, ¬ x.Fallen j
  late : 0 < b.buysAfterTrip → ∃ k j, k < j ∧ j < i ∧ x.Fallen k ∧ x.Recovered j
  maxDrawdown : b.maxDrawdown = 0

theorem onDay_start : x.OnDay 0 x.start where
  breaker := rfl
  quiet := fun _ => ⟨rfl, fun k hk => absurd hk (Nat.not_lt_zero k)⟩
  trip := fun d h => by cases h
  late := fun h => absurd h (lt_irrefl 0)
  maxDrawdown := rfl

/-- **One day of the simulation.** -/
theorem OnDay.step {i : ℕ} {c : Stress} (h : x.OnDay i (x.opening i))
    (hday : x.Passed (x.dayOn i) (x.opening i) c) : x.OnDay (i + 1) c := by
  have hbreaker : c.svc.circuitBreaker = x.breakerOn (i + 1) := by
    rw [hday.breaker, h.breaker, breakerOn_succ]
    rfl
  have htrip : c.svc.circuitBreaker.tripped = (x.breakerOn (i + 1)).drawdownHalt := by
    rw [hbreaker, tripped_breakerOn]
  have hcb := hday.cbTrippedDay
  have hlate := hday.late
  rw [htrip] at hcb hlate
  obtain ⟨hset, honly, -⟩ := x.latch_step i
  have hdrop : c.maxDrawdown = 0 := hday.maxDrawdown.trans h.maxDrawdown
  rcases hbefore : (x.opening i).cbTrippedDay with - | d
  · -- no trip before, so the latch is off, and only a fall of this day sets it
    obtain ⟨hoff, hnever⟩ := h.quiet hbefore
    have hcount : c.buysAfterTrip = (x.opening i).buysAfterTrip := by
      simpa [hbefore] using hlate
    have hold : 0 < c.buysAfterTrip → ∃ k j, k < j ∧ j < i + 1 ∧ x.Fallen k ∧ x.Recovered j := by
      intro hpos
      obtain ⟨k, j, hkj, hj, hfall⟩ := h.late (hcount ▸ hpos)
      exact ⟨k, j, hkj, Nat.lt_succ_of_lt hj, hfall⟩
    rw [hbefore] at hcb
    rcases hon : (x.breakerOn (i + 1)).drawdownHalt with - | -
    · have hnone : c.cbTrippedDay = none := by simpa [hon] using hcb
      refine ⟨hbreaker, fun _ => ⟨hon, ?_⟩, fun d hd => ?_, hold, hdrop⟩
      · intro k hk
        rcases Nat.lt_succ_iff_lt_or_eq.mp hk with hk | rfl
        · exact hnever k hk
        · intro hfall
          rw [hset hfall] at hon
          cases hon
      · rw [hnone] at hd
        cases hd
    · have hsome : c.cbTrippedDay = some (x.dayOn i) := by simpa [hon] using hcb
      have hfall : x.Fallen i := by
        rcases honly hon with h' | h'
        · rw [hoff] at h'
          cases h'
        · exact h'
      refine ⟨hbreaker, fun hnone => ?_, fun d hd => ?_, hold, hdrop⟩
      · rw [hsome] at hnone
        cases hnone
      · rw [hsome] at hd
        exact ⟨i, Nat.lt_succ_self i, (Option.some.inj hd).symm, hfall, hnever⟩
  -- a trip before this day stays the first one
  · have hsome : c.cbTrippedDay = some d := by simpa [hbefore] using hcb
    obtain ⟨k, hk, hd, hfall, hfirst⟩ := h.trip d hbefore
    refine ⟨hbreaker, fun hnone => ?_, fun d' hd' => ?_, fun hpos => ?_, hdrop⟩
    · rw [hsome] at hnone
      cases hnone
    · rw [hsome] at hd'
      exact ⟨k, Nat.lt_succ_of_lt hk, Option.some.inj hd' ▸ hd, hfall, hfirst⟩
    · rcases hlate with hsame | ⟨-, hoff⟩
      · obtain ⟨k', j, hkj, hj, hrest⟩ := h.late (hsame ▸ hpos)
        exact ⟨k', j, hkj, Nat.lt_succ_of_lt hj, hrest⟩
      · -- an entry on this day: the latch of the trip has been released since
        have hon : (x.breakerOn (k + 1)).drawdownHalt := (x.latch_step k).1 hfall
        obtain ⟨j, hkj, hj, hrec⟩ :=
          x.exists_recovered (Nat.succ_le_succ hk.le) hon hoff
        exact ⟨k, j, hkj, hj, hfall, hrec⟩

theorem onDay_opening {b : Stress} {u : PUnit} (h : Loop.each x.day x.days x.start = (.ok u, b)) :
    x.OnDay x.days.length b := by
  have hrun : x.OnDay x.days.length (x.opening x.days.length) := by
    refine Loop.after_invariant (I := fun i b => x.OnDay i b) h x.onDay_start ?_ le_rfl
    intro i d v hd hI hround
    have hon : d = x.dayOn i := by
      obtain ⟨-, rfl⟩ := List.getElem?_eq_some_iff.mp hd
      simp [days, dayOn]
    subst hon
    exact OnDay.step x hI (x.passed_day hround)
  rwa [opening, Loop.after_length, h] at hrun

/-! ### The worst drop -/

/-- The evaluation takes its peak from the first value on, which makes no difference. -/
theorem mdd_eq_worst (values : List ℚ) : Evaluation.mdd values = Drawdown.worst values := by
  -- the two passes agree on the positive part of the peak
  have hpass : ∀ (acc : Option ℚ × ℚ) (acc' : ℚ × ℚ), acc'.1 = max 0 (acc.1.getD 0) →
      acc'.2 = acc.2 →
        (values.foldl Evaluation.drop acc).2 = (values.foldl Drawdown.step acc').2 := by
    induction values with
    | nil => exact fun acc acc' _ h => h.symm
    | cons v values ih =>
      rintro ⟨peak, worst⟩ ⟨peak', worst'⟩ hpeak hworst
      obtain rfl : peak' = max 0 (peak.getD 0) := hpeak
      obtain rfl : worst' = worst := hworst
      have hnext : max (max 0 (peak.getD 0)) v = max 0 ((peak.map fun p => max p v).getD v) := by
        rcases peak with - | p
        · simp
        · exact max_assoc 0 p v
      refine ih _ _ hnext ?_
      simp only [Drawdown.step, Evaluation.drop, hnext]
      by_cases hpos : 0 < (peak.map fun p => max p v).getD v
      · rw [max_eq_right hpos.le]
      · rw [max_eq_left (not_lt.mp hpos), if_neg (lt_irrefl _), if_neg hpos]
  exact hpass (none, 0) (0, 0) (by simp) rfl

/-- **The maximum drawdown is the greatest drop** of a curve that is not negative,
and part of the value it drops from: the values and what is computed from them are
exact rational numbers here, where the source rounds each operation on floats. -/
theorem mdd_isGreatest {values : List ℚ} (hvalues : ∀ v ∈ values, 0 ≤ v) :
    IsGreatest (insert 0 (Drawdown.Falls values)) (Evaluation.mdd values) ∧
      Evaluation.mdd values ≤ 1 := by
  rw [mdd_eq_worst]
  exact ⟨Drawdown.isGreatest_worst hvalues, Drawdown.worst_le_one hvalues⟩

/-- A curve that falls by a quarter from its peak. -/
theorem mdd_isGreatest_sample :
    Evaluation.mdd [100, 120, 90, 110] = 1 / 4 ∧
      IsGreatest (insert 0 (Drawdown.Falls [100, 120, 90, 110]))
        (Evaluation.mdd [100, 120, 90, 110]) := by
  refine ⟨by decide +kernel, (mdd_isGreatest ?_).1⟩
  simp

/-- To round each drop is to round the worst of them. -/
theorem foldl_drop (curve : List ℚ) (peak worst : ℚ) :
    (curve.foldl x.drop (peak, x.float worst)).2 =
      x.float (curve.foldl Drawdown.step (peak, worst)).2 := by
  induction curve generalizing peak worst with
  | nil => rfl
  | cons e curve ih =>
    have hstep : x.drop (peak, x.float worst) e =
        ((Drawdown.step (peak, worst) e).1, x.float (Drawdown.step (peak, worst) e).2) := by
      simp only [drop, Drawdown.step]
      split_ifs
      · rw [x.float_mono.map_max]
      · rfl
    rw [List.foldl_cons, List.foldl_cons, hstep]
    exact ih _ _

/-- **What the simulation shows.**  The day of the trip is the first one whose
equity is 15% below an earlier one; an entry after it needs a day on which the
account is back within 8% of all that it was; and the drawdown is, rounded once to a
float, the worst of the curve, which is its greatest fall where it is not negative. -/
structure Stressed (res : Stress) : Prop where
  tripped : ∀ d, res.cbTrippedDay = some d ↔
    ∃ k < x.days.length, d = x.dayOn k ∧ x.Fallen k ∧ ∀ j < k, ¬ x.Fallen j
  late : 0 < res.buysAfterTrip →
    ∃ k j, k < j ∧ j < x.days.length ∧ x.Fallen k ∧ x.Recovered j
  maxDrawdown : res.maxDrawdown = x.float (Drawdown.worst res.equityCurve)
  greatest : (∀ e ∈ res.equityCurve, 0 ≤ e) →
    IsGreatest (insert 0 (Drawdown.Falls res.equityCurve)) (Drawdown.worst res.equityCurve)
  finalEquity : res.finalEquity = res.equityCurve.getLast?.getD x.seed

end StressArgs

/-- Ten days of a rise, an entry on the last of them, and a fall by four fifths. -/
def Sample.crash : StressArgs where
  scenario := {
    name := "crash"
    closes := [100, 101, 102, 103, 104, 105, 106, 107, 108, 109, 20]
    warmup := 9 }
  minimalDefenses := true
  float := id
  float_mono := monotone_id
  float_zero := rfl
  text := id
  stdev := fun _ => 0
  stamps := fun d i => ⟨toString d ++ "-" ++ toString i, StressArgs.now d⟩

end AutoTrade
