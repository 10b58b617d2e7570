/-
AutoTrade/Pipeline.lean

One tick of the trading pipeline (`engine/pipeline.py`).

`runTick` is the source's chain in three parts.  `gather` is everything up to
the buying power: it reads the broker and changes nothing, and ends with no
result when there is no symbol to look at.  Then the circuit breaker is
assessed, the one change before the orders.  `deliberate` builds the research
and the decisions, and `orderStep` is one round of the loop that sizes and
submits them, with the day's buys as its accumulator.

Every call outside answers or raises; an exception leaves what was done.  A
request draws its id, and a result reads the clock, from `stamps`: the entry
for the number of orders submitted before it in the tick.
-/
import AutoTrade.Allocator
import AutoTrade.Exits
import AutoTrade.OrderService
import AutoTrade.Universe

namespace AutoTrade

/-- `context_from_holdings` (`orders/context.py`). -/
def contextFromHoldings (holdings : Holdings) (now : Datetime) (killSwitch : Bool := false)
    (dailyBuyUsedKrw : ℚ := 0) (symbolCurrentValueKrw : ℚ := 0) : GuardrailContext :=
  { now
    killSwitch
    openPositions := holdings.items.length
    heldSymbols := holdings.items.map HoldingItem.symbol
    dailyBuyUsedKrw
    portfolioValueKrw := some holdings.marketValue.krw
    symbolCurrentValueKrw }

/-- What an order draws when it is made: the id of the request and the time of
the result. -/
structure Stamp where
  clientOrderId : ClientOrderId
  createdAt : Datetime
  deriving DecidableEq

/-- The arguments of a tick, and what it draws from its surroundings. -/
structure TickArgs where
  toss : Toss
  watchlist : List Symbol
  judge : Judge
  now : Datetime
  research : Option Research := none
  screenConfig : ScreenConfig := {}
  researchTopN : Option ℤ := some 5
  entryGate : Option EntryGate := none
  dailyBuyUsedKrw : ℚ := 0
  regimeConfig : Option RegimeConfig := none
  holdings : Option Holdings := none
  cashBuyingPowerKrw : Option ℚ := none
  maxBuyCandidates : Option ℤ := none
  forcedExits : List ForcedExit := []
  stdev : Stdev
  stamps : ℕ → Stamp

/-- What a tick comes to (`TickResult`). -/
structure TickResult where
  mode : TradingMode
  killSwitch : Bool
  universeSymbols : List Symbol
  candidates : ℕ
  decisions : List Decision
  orders : List OrderResult
  note : Text := []
  circuitBreaker : Bool := false
  circuitBreakerReason : Text := []
  costGated : List Symbol := []
  regime : Option RegimeAssessment := none
  forcedExits : List ForcedExit := []
  adv20 : Dict Symbol ℚ := ∅
  warned : List Symbol := []

/-! ### Gathering -/

/-- What the candle loop collects. -/
structure Screening where
  buyResults : List ScreenResult := []
  holdingIndicators : Dict Symbol ScreenIndicators := ∅
  recent : Dict Symbol (List ℚ) := ∅
  adv20 : Dict Symbol ℚ := ∅

/-- The average turnover of the last twenty days. -/
def adv (candles : List Candle) : Option ℚ :=
  let tail := sliceLast 20 candles
  if tail.isEmpty then none
  else some ((tail.map fun c => c.closePrice * c.volume).sum / tail.length)

/-- What the candles of a symbol add: its closes and turnover, and the
indicators of a held symbol or the result of another one that passed. -/
def screened (args : TickArgs) (held : List Symbol) (acc : Screening) (sym : Symbol)
    (candles : List Candle) : Screening :=
  let result := screenSymbol sym candles args.screenConfig
  { recent := acc.recent.set sym (closes candles)
    adv20 := match adv candles with
      | none => acc.adv20
      | some a => acc.adv20.set sym a
    holdingIndicators :=
      if sym ∈ held then acc.holdingIndicators.set sym result.indicators
      else acc.holdingIndicators
    -- a held symbol is no candidate to buy, and shows its indicators whatever the screen says
    buyResults :=
      if sym ∉ held ∧ result.passed then acc.buyResults ++ [result] else acc.buyResults }

/-- One round of the candle loop. -/
def screenStep (args : TickArgs) (held : List Symbol) (acc : Screening) (sym : Symbol) :
    Except Exn Screening := do
  let candles ← args.toss.getCandles sym
  pure (screened args held acc sym candles)

/-- The best `n` by score, when there are more. -/
def compress (maxBuyCandidates : Option ℤ) (results : List ScreenResult) : List ScreenResult :=
  match maxBuyCandidates with
  | none => results
  | some n =>
    if n < results.length then
      -- `sorted` is stable, and so is this sort
      slicePrefix n (results.insertionSort fun a b => b.score ≤ a.score)
    else results

/-- Whether the broker warns about a symbol; a failed request is no warning. -/
def warns (toss : Toss) (sym : Symbol) : Bool :=
  match toss.getStockWarnings sym with
  | .ok w => !w.isEmpty
  | .error _ => false

/-- What a tick has read when it comes to the breaker. -/
structure Gathered where
  holdings : Holdings
  stocks : Dict Symbol Stock
  /-- the eligible symbols and the held ones, sorted -/
  eligible : List Symbol
  buyResults : List ScreenResult
  screening : Screening
  warned : List Symbol
  cash : Option ℚ

/-- The symbols of the account. -/
def heldSymbols (holdings : Holdings) : List Symbol := holdings.items.map HoldingItem.symbol

/-- `list(dict.fromkeys([*watchlist, *held_symbols]))`. -/
def tickSymbols (args : TickArgs) (holdings : Holdings) : List Symbol :=
  (args.watchlist ++ heldSymbols holdings).unique

/-- The symbols that pass the exclusion, and the held ones, which are not
excluded. -/
def eligibleSymbols (stocks : Dict Symbol Stock) (symbols held : List Symbol) : List Symbol :=
  ((partitionUniverse (symbols.filterMap stocks.get?)).1.map Stock.symbol ++ held).unique

/-- The holdings given, else the broker's. -/
def tickHoldings (args : TickArgs) : Except Exn Holdings :=
  match args.holdings with
  | some holdings => .ok holdings
  | none => args.toss.getHoldings

/-- The cash given, else the broker's if it answers. -/
def tickCash (args : TickArgs) : Option ℚ :=
  match args.cashBuyingPowerKrw with
  | some cash => some cash
  | none => args.toss.getBuyingPower.toOption

/-- The stock master by symbol. -/
def stocksBy (master : List Stock) : Dict Symbol Stock :=
  Dict.ofList (master.map fun s => (s.symbol, s))

/-- The candle loop over the symbols that are eligible. -/
def screenLoop (args : TickArgs) (holdings : Holdings) (stocks : Dict Symbol Stock) :
    Except Exn Screening :=
  let held := heldSymbols holdings
  let symbols := tickSymbols args holdings
  (symbols.filter (· ∈ eligibleSymbols stocks symbols held)).foldlM (screenStep args held) {}

/-- What is gathered once the candles are there. -/
def gathered (args : TickArgs) (holdings : Holdings) (stocks : Dict Symbol Stock)
    (screening : Screening) : Gathered :=
  let eligible := eligibleSymbols stocks (tickSymbols args holdings) (heldSymbols holdings)
  -- the best of the screen, and of those the ones without a warning
  let candidates := compress args.maxBuyCandidates screening.buyResults
  { holdings, stocks, eligible := eligible.insertionSort (· ≤ ·)
    buyResults := candidates.filter fun r => !warns args.toss r.symbol
    screening
    warned := (candidates.map ScreenResult.symbol).filter (warns args.toss)
    cash := tickCash args }

/-- Steps 1 to 5: none when there is no symbol to look at. -/
def gather (args : TickArgs) : Except Exn (Option Gathered) := do
  let holdings ← tickHoldings args
  let symbols := tickSymbols args holdings
  if symbols.isEmpty then pure none
  else
    let master ← args.toss.getStocks symbols
    let screening ← screenLoop args holdings (stocksBy master)
    pure (some (gathered args holdings (stocksBy master) screening))

/-- What a tick has gathered, when it has. -/
theorem gather_eq_some {args : TickArgs} {g : Gathered} (h : gather args = .ok (some g)) :
    ∃ holdings master screening, tickHoldings args = .ok holdings ∧
      args.toss.getStocks (tickSymbols args holdings) = .ok master ∧
      screenLoop args holdings (stocksBy master) = .ok screening ∧
      g = gathered args holdings (stocksBy master) screening := by
  unfold gather at h
  rcases hh : tickHoldings args with e | holdings
  · rw [hh] at h
    cases h
  · rw [hh] at h
    rcases hs : (tickSymbols args holdings).isEmpty with - | -
    · rcases hm : args.toss.getStocks (tickSymbols args holdings) with e | master
      · simp only [bind, Except.bind, hs, Bool.false_eq_true, if_false, hm] at h
        cases h
      · rcases hc : screenLoop args holdings (stocksBy master) with e | screening
        · simp only [bind, Except.bind, hs, Bool.false_eq_true, if_false, hm, hc] at h
          cases h
        · simp only [bind, Except.bind, hs, Bool.false_eq_true, if_false, hm, hc] at h
          cases h
          exact ⟨holdings, master, screening, rfl, hm, hc, rfl⟩
    · simp only [bind, Except.bind, hs, if_true] at h
      cases h

/-- Nothing is gathered only when there is no symbol to look at. -/
theorem gather_eq_none {args : TickArgs} {holdings : Holdings}
    (h : tickHoldings args = .ok holdings) (hsome : tickSymbols args holdings ≠ []) :
    gather args ≠ .ok none := by
  intro hg
  have hempty : (tickSymbols args holdings).isEmpty = false :=
    List.isEmpty_eq_false_iff.mpr hsome
  unfold gather at hg
  rw [h] at hg
  simp only [bind, Except.bind, hempty, Bool.false_eq_true, if_false] at hg
  rcases hm : args.toss.getStocks (tickSymbols args holdings) with e | master
  · rw [hm] at hg
    cases hg
  · rw [hm] at hg
    simp only at hg
    rcases hc : screenLoop args holdings (stocksBy master) with e | screening
    · rw [hc] at hg
      cases hg
    · rw [hc] at hg
      cases hg

/-- A tick trades on the holdings and the cash it was given or has read. -/
theorem gather_account {args : TickArgs} {g : Gathered} (h : gather args = .ok (some g)) :
    tickHoldings args = .ok g.holdings ∧ g.cash = tickCash args := by
  obtain ⟨holdings, master, screening, hh, -, -, rfl⟩ := gather_eq_some h
  exact ⟨hh, rfl⟩

theorem gather_holdings {args : TickArgs} {g : Gathered} {holdings : Holdings}
    (hh : tickHoldings args = .ok holdings) (h : gather args = .ok (some g)) :
    holdings = g.holdings :=
  Except.ok.inj (hh.symm.trans (gather_account h).1)

/-! ### Deliberation -/

/-- The equity of the breaker: cash and holdings, unknown without the cash. -/
def Gathered.equity (g : Gathered) : Option ℚ :=
  g.cash.map fun cash => cash + g.holdings.marketValue.krw

/-- The regime, when a proxy is configured; a failed request is `UNKNOWN`. -/
def tickRegime (args : TickArgs) : Option RegimeAssessment :=
  args.regimeConfig.map fun cfg =>
    match args.toss.getProxyCandles cfg.symbol with
    | .ok candles => assessRegime args.stdev (closes candles) cfg
    | .error _ => ⟨.unknown, none, 1,
        [.lit "레짐 프록시(", .str cfg.symbol, .lit ") 조회 실패 — 배수 1.0"]⟩

/-- A candidate, told the regime if there is one. -/
def told (args : TickArgs) (c : CandidateContext) : CandidateContext :=
  match tickRegime args with
  | none => c
  | some regime =>
    { c with marketRegime := some ([.str regime.level.value, .lit " — "] ++ regime.reason) }

/-- The candidates of the tick, with what each is told of the regime. -/
def tickCandidates (args : TickArgs) (g : Gathered) : List CandidateContext :=
  (candidateContexts g.buyResults g.stocks g.holdings g.screening.holdingIndicators
    g.screening.recent g.cash).map (told args)

/-- `{f.symbol: f for f in forced_exits}`. -/
def forcedOf (args : TickArgs) : Dict Symbol ForcedExit :=
  Dict.ofList (args.forcedExits.map fun f => (f.symbol, f))

/-- The sales that need no judge. -/
def forcedDecisions (args : TickArgs) (candidates : List CandidateContext) : List Decision :=
  ((forcedOf args).values.filter fun f => f.symbol ∈ candidates.map CandidateContext.symbol).map
    fun f => { action := .sell, symbol := f.symbol, confidence := 1,
               rationale := [.lit "결정적 청산: "] ++ f.reason }

/-- The candidates by symbol. -/
def contextsBy (candidates : List CandidateContext) : Dict Symbol CandidateContext :=
  Dict.ofList (candidates.map fun c => (c.symbol, c))

/-- The close at the time of the decision, where the judge gave no price. -/
def pricedDecision (contexts : Dict Symbol CandidateContext) (d : Decision) : Decision :=
  match d.decisionPrice, (contexts.get? d.symbol).bind CandidateContext.indicators with
  | none, some ind => { d with decisionPrice := some ind.lastClose }
  | _, _ => d

/-- The candidates the judge is asked about. -/
def judgedCandidates (args : TickArgs) (candidates : List CandidateContext) :
    List CandidateContext :=
  candidates.filter fun c => c.symbol ∉ (forcedOf args).keys

/-- Step 7: the judged candidates, each researched if there is a provider. -/
def notedCandidates (args : TickArgs) (candidates : List CandidateContext) :
    Except Exn (List CandidateContext) :=
  match args.research with
  | none => .ok (judgedCandidates args candidates)
  | some provider =>
    researchCandidates (judgedCandidates args candidates) provider args.researchTopN

/-- Steps 7 and 8: the forced sales first, then the judge on the others. -/
def deliberate (args : TickArgs) (candidates : List CandidateContext) :
    Except Exn (List Decision) := do
  let judged ← notedCandidates args candidates
  let decisions ← decideCandidates judged args.judge
  pure ((forcedDecisions args candidates ++ decisions).map (pricedDecision (contextsBy candidates)))

/-! ### The order loop -/

/-- What the loop reads. -/
structure OrderEnv where
  contexts : Dict Symbol CandidateContext
  entryGate : Option EntryGate
  stdev : Stdev
  multiplier : ℚ
  baseCtx : GuardrailContext
  stamps : ℕ → Stamp

/-- What the loop carries. -/
structure Orders where
  dailyUsed : ℚ
  orders : List OrderResult := []
  costGated : List Symbol := []

/-- The entry gate stops a buy whose expected move is below the hurdle. -/
def OrderEnv.gates (env : OrderEnv) (d : Decision) (ctx : CandidateContext) : Bool :=
  match env.entryGate, d.action with
  | some gate, .buy => !(gate.evaluate env.stdev d.confidence ctx.recentCloses).passed
  | _, _ => false

/-- The context an order is checked in. -/
def OrderEnv.guardContext (env : OrderEnv) (ctx : CandidateContext) (dailyUsed : ℚ) :
    GuardrailContext :=
  let price := match ctx.indicators with
    | none => 0
    | some ind => ind.lastClose
  { env.baseCtx with
    dailyBuyUsedKrw := dailyUsed
    symbolCurrentValueKrw := ctx.heldQuantity.getD 0 * price }

/-- One round of the order loop. -/
def orderStep (env : OrderEnv) (acc : Orders) (d : Decision) :
    Effect Exn OrderService Orders := do
  match env.contexts.get? d.symbol with
  | none => Effect.raise ("'" ++ d.symbol ++ "'")   -- `KeyError`
  | some ctx =>
    if env.gates d ctx then pure { acc with costGated := acc.costGated ++ [d.symbol] }
    else do
      let svc ← Effect.look id
      let stamp := env.stamps acc.orders.length
      match allocate d ctx svc.config stamp.clientOrderId env.multiplier with
      | .error e => Effect.raise e
      | .ok none => pure acc
      | .ok (some req) => do
        let res ← OrderService.submit req (env.guardContext ctx acc.dailyUsed) stamp.createdAt
        pure { acc with
          orders := acc.orders ++ [res]
          dailyUsed :=
            if req.side = .buy ∧ res.status.accepted then acc.dailyUsed + req.notional
            else acc.dailyUsed }

/-- The context of the whole tick, with the cash in the total assets. -/
def baseContext (args : TickArgs) (g : Gathered) (killSwitch : Bool) : GuardrailContext :=
  let ctx := contextFromHoldings g.holdings args.now killSwitch
  match g.cash with
  | none => ctx
  | some cash => { ctx with portfolioValueKrw := some (ctx.portfolioValueKrw.getD 0 + cash) }

/-- What the order loop reads, as the tick has gathered it. -/
def orderEnv (args : TickArgs) (g : Gathered) (killSwitch : Bool) : OrderEnv :=
  { contexts := contextsBy (tickCandidates args g)
    entryGate := args.entryGate
    stdev := args.stdev
    multiplier := match tickRegime args with
      | none => 1
      | some regime => regime.multiplier
    baseCtx := baseContext args g killSwitch
    stamps := args.stamps }

/-! ### The tick -/

/-- `_result`, whose breaker fields are read when the tick ends. -/
def tickResult (args : TickArgs) (start final : OrderService) : TickResult :=
  { mode := start.mode
    killSwitch := start.killSwitch
    universeSymbols := []
    candidates := 0
    decisions := []
    orders := []
    circuitBreaker := final.circuitBreaker.tripped
    circuitBreakerReason := final.circuitBreaker.reason
    forcedExits := (forcedOf args).values }

/-- The result of a tick that came to the order loop. -/
def tradedResult (args : TickArgs) (g : Gathered) (start final : OrderService)
    (decisions : List Decision) (done : Orders) : TickResult :=
  { tickResult args start final with
    universeSymbols := g.eligible
    candidates := (tickCandidates args g).length
    decisions
    orders := done.orders
    costGated := done.costGated
    regime := tickRegime args
    adv20 := g.screening.adv20
    warned := g.warned }

/-- The service once the tick has assessed its breaker. -/
def assessed (args : TickArgs) (g : Gathered) (svc : OrderService) : OrderService :=
  svc.assessCircuitBreaker g.equity g.holdings.dailyProfitLossRate args.now

/-- The order loop of a tick. -/
def orderLoop (args : TickArgs) (g : Gathered) (killSwitch : Bool)
    (decisions : List Decision) : Effect Exn OrderService Orders :=
  Effect.foldM (orderStep (orderEnv args g killSwitch)) { dailyUsed := args.dailyBuyUsedKrw }
    decisions

/-- `run_tick`: gather, assess the breaker, deliberate, and submit order after order. -/
def runTick (args : TickArgs) : Effect Exn OrderService TickResult := do
  let start ← Effect.look id
  match ← Effect.lift (gather args) with
  | none =>
    pure { tickResult args start start with
      note := [.lit "평가할 심볼 없음(워치리스트·보유 비어있음)"] }
  | some g => do
    Effect.change (assessed args g)
    -- the breaker has been assessed by now, with or without candidates
    if (tickCandidates args g).isEmpty then do
      let final ← Effect.look id
      pure { tickResult args start final with
        universeSymbols := g.eligible
        note := [.lit "후보 없음"]
        adv20 := g.screening.adv20
        warned := g.warned }
    else do
      let decisions ← Effect.lift (deliberate args (tickCandidates args g))
      -- nothing is submitted before all candidates are judged
      let done ← orderLoop args g start.killSwitch decisions
      let final ← Effect.look id
      pure (tradedResult args g start final decisions done)

/-! ### What a tick can do -/

/-- The ways a tick can end: an exception while it reads, with nothing done; no
symbol; no candidate; an exception while it deliberates, with the breaker
assessed and no order submitted; or the order loop. -/
inductive Ticks (args : TickArgs) (svc : OrderService) :
    Except Exn TickResult → OrderService → Prop
  | unread {e : Exn} (hg : gather args = .error e) : Ticks args svc (.error e) svc
  | nothing (hg : gather args = .ok none) :
      Ticks args svc (.ok { tickResult args svc svc with
        note := [.lit "평가할 심볼 없음(워치리스트·보유 비어있음)"] }) svc
  | unmatched {g : Gathered} (hg : gather args = .ok (some g))
      (hc : tickCandidates args g = []) :
      Ticks args svc (.ok { tickResult args svc (assessed args g svc) with
        universeSymbols := g.eligible
        note := [.lit "후보 없음"]
        adv20 := g.screening.adv20
        warned := g.warned }) (assessed args g svc)
  | undecided {g : Gathered} {e : Exn} (hg : gather args = .ok (some g))
      (hc : tickCandidates args g ≠ [])
      (hd : deliberate args (tickCandidates args g) = .error e) :
      Ticks args svc (.error e) (assessed args g svc)
  | halted {g : Gathered} {decisions : List Decision} {e : Exn} {final : OrderService}
      (hg : gather args = .ok (some g)) (hc : tickCandidates args g ≠ [])
      (hd : deliberate args (tickCandidates args g) = .ok decisions)
      (hl : orderLoop args g svc.killSwitch decisions (assessed args g svc) =
        (.error e, final)) :
      Ticks args svc (.error e) final
  | traded {g : Gathered} {decisions : List Decision} {done : Orders} {final : OrderService}
      (hg : gather args = .ok (some g)) (hc : tickCandidates args g ≠ [])
      (hd : deliberate args (tickCandidates args g) = .ok decisions)
      (hl : orderLoop args g svc.killSwitch decisions (assessed args g svc) =
        (.ok done, final)) :
      Ticks args svc (.ok (tradedResult args g svc final decisions done)) final

/-- **All that a tick can do.** -/
theorem runTick_cases (args : TickArgs) (svc : OrderService) :
    Ticks args svc (runTick args svc).1 (runTick args svc).2 := by
  unfold runTick
  simp only [Effect.bind_apply, Effect.look_apply, Effect.lift_apply, id]
  -- the ways out of the source, in the order it reaches them
  rcases hg : gather args with e | - | g
  · exact .unread hg
  · exact .nothing hg
  · simp only [Effect.bind_apply, Effect.change_apply]
    by_cases hc : tickCandidates args g = []
    · simp only [hc, List.isEmpty_nil, if_true, Effect.bind_apply, Effect.look_apply, id]
      exact .unmatched hg hc
    · have hne : (tickCandidates args g).isEmpty = false := by
        rwa [List.isEmpty_eq_false_iff]
      simp only [hne, Bool.false_eq_true, if_false, Effect.bind_apply, Effect.lift_apply]
      rcases hd : deliberate args (tickCandidates args g) with e | decisions
      · exact .undecided hg hc hd
      · simp only
        rcases hl : orderLoop args g svc.killSwitch decisions (assessed args g svc) with
          ⟨e | done, final⟩
        · exact .halted hg hc hd hl
        · exact .traded hg hc hd hl

theorem ticks_of_run {args : TickArgs} {svc final : OrderService} {out : Except Exn TickResult}
    (h : runTick args svc = (out, final)) : Ticks args svc out final := by
  have hcases := runTick_cases args svc
  rwa [h] at hcases

/-- One submission of the order loop: the order of a decision on a candidate,
answered as new or as a duplicate, after the answers `orders`. -/
inductive Submitted (env : OrderEnv) (used : ℚ) (orders : List OrderResult)
    (svc : OrderService) (d : Decision) : OrderRequest → OrderResult → OrderService → Prop
  | duplicate {ctx : CandidateContext} {order : OrderRequest} {prior : OrderResult}
      (hctx : env.contexts.get? d.symbol = some ctx) (hgate : env.gates d ctx = false)
      (halloc : allocate d ctx svc.config (env.stamps orders.length).clientOrderId
        env.multiplier = .ok (some order))
      (hseen : svc.seen.get? order.clientOrderId = some prior) :
      Submitted env used orders svc d order { prior with status := .duplicate }
        (svc.emitting { prior with status := .duplicate })
  | settled {ctx : CandidateContext} {order : OrderRequest} {res : OrderResult}
      {calls : List Placement} (hctx : env.contexts.get? d.symbol = some ctx)
      (hgate : env.gates d ctx = false)
      (halloc : allocate d ctx svc.config (env.stamps orders.length).clientOrderId
        env.multiplier = .ok (some order))
      (hseen : svc.seen.get? order.clientOrderId = none)
      (hs : OrderService.Settles svc order
        (env.guardContext ctx (used + acceptedBuyNotional orders))
        (env.stamps orders.length).createdAt res calls) :
      Submitted env used orders svc d order res ((svc.recording res calls).emitting res)

section Loop

variable {env : OrderEnv} {used : ℚ} {orders : List OrderResult} {svc svc' : OrderService}
  {d : Decision} {order : OrderRequest} {res : OrderResult}

theorem Submitted.sameSetup (h : Submitted env used orders svc d order res svc') :
    OrderService.SameSetup svc svc' := by
  cases h with
  | duplicate hctx hgate halloc hseen => exact ⟨rfl, rfl, rfl, rfl, rfl, rfl⟩
  | settled hctx hgate halloc hseen hs => exact ⟨rfl, rfl, rfl, rfl, rfl, rfl⟩

/-- A submission keeps one answer an id. -/
theorem Submitted.agrees (h : Submitted env used orders svc d order res svc')
    (hagrees : OnceLog.Agrees OrderResult.clientOrderId svc.seen svc.ledger) :
    OnceLog.Agrees OrderResult.clientOrderId svc'.seen svc'.ledger := by
  cases h with
  | duplicate hctx hgate halloc hseen => exact hagrees
  | settled hctx hgate halloc hseen hs => exact hagrees.record (hs.answers.1 ▸ hseen)

/-- The loop counts a submission exactly when its answer is an accepted buy. -/
theorem Submitted.counted (h : Submitted env used orders svc d order res svc') :
    (if order.side = .buy ∧ res.status.accepted then
        used + acceptedBuyNotional orders + order.notional
      else used + acceptedBuyNotional orders) =
      used + acceptedBuyNotional (orders ++ [res]) := by
  -- an echo is never accepted, and a new answer is about the order itself
  rw [acceptedBuyNotional_append]
  cases h with
  | duplicate hctx hgate halloc hseen =>
    simp [acceptedBuyNotional, OrderResult.acceptedBuy, OrderStatus.accepted]
  | settled hctx hgate halloc hseen hs =>
    rw [← hs.answers.2.1]
    by_cases hacc : res.request.side = .buy ∧ res.status.accepted
    · have hbuy : res.acceptedBuy := OrderResult.acceptedBuy_iff.mpr hacc
      rw [if_pos hacc]
      simp [acceptedBuyNotional, hbuy, add_assoc]
    · have hbuy : ¬ res.acceptedBuy := mt OrderResult.acceptedBuy_iff.mp hacc
      rw [if_neg hacc]
      simp [acceptedBuyNotional, hbuy]

/-- The order of a decision is answered and recorded before `submit` returns
or raises. -/
theorem submit_submitted (used : ℚ) {ctx : CandidateContext}
    (hctx : env.contexts.get? d.symbol = some ctx)
    (hgate : env.gates d ctx = false)
    (halloc : allocate d ctx svc.config (env.stamps orders.length).clientOrderId
      env.multiplier = .ok (some order)) :
    ∃ res svc', Submitted env used orders svc d order res svc' ∧
      OrderService.submit order (env.guardContext ctx (used + acceptedBuyNotional orders))
        (env.stamps orders.length).createdAt svc = (svc.answer res, svc') := by
  rcases OrderService.submit_cases svc order
      (env.guardContext ctx (used + acceptedBuyNotional orders))
      (env.stamps orders.length).createdAt with
    ⟨prior, hseen, hrun⟩ | ⟨hseen, res, calls, hs, hrun⟩
  · exact ⟨_, _, .duplicate hctx hgate halloc hseen, hrun⟩
  · exact ⟨_, _, .settled hctx hgate halloc hseen hs, hrun⟩

/-- A round that proposes an order is one submission, and raises only with the
sink. -/
theorem orderStep_submits {acc : Orders} {ctx : CandidateContext}
    (hacc : acc.dailyUsed = used + acceptedBuyNotional acc.orders)
    (hctx : env.contexts.get? d.symbol = some ctx) (hgate : env.gates d ctx = false)
    (halloc : allocate d ctx svc.config (env.stamps acc.orders.length).clientOrderId
      env.multiplier = .ok (some order)) :
    ∃ res svc', Submitted env used acc.orders svc d order res svc' ∧
      Effect.wp (orderStep env acc d)
        (fun acc' s => acc'.dailyUsed = used + acceptedBuyNotional acc'.orders ∧
          acc'.orders = acc.orders ++ [res] ∧ s = svc')
        (fun e s => s = svc' ∧ svc.sinkRaises res = some e) svc := by
  obtain ⟨res, svc', hsub, hrun⟩ := submit_submitted used hctx hgate halloc
  refine ⟨res, svc', hsub, ?_⟩
  unfold orderStep
  rw [hctx]
  simp only [hgate, Bool.false_eq_true, if_false]
  rw [Effect.wp_bind, Effect.wp_look]
  simp only [id, halloc]
  rw [Effect.wp_bind, hacc]
  unfold Effect.wp
  rw [hrun]
  unfold OrderService.answer
  rcases hsink : svc.sinkRaises res with - | e
  · exact ⟨hsub.counted, rfl, rfl⟩
  · exact ⟨rfl, rfl⟩

/-- A round that proposes an order ends in what its submission leads to, also when the
sink raises after the order is answered. -/
theorem orderStep_leads {B : List OrderResult → OrderService → Prop} {acc : Orders}
    {ctx : CandidateContext} {order : OrderRequest}
    (hacc : acc.dailyUsed = used + acceptedBuyNotional acc.orders)
    (hctx : env.contexts.get? d.symbol = some ctx) (hgate : env.gates d ctx = false)
    (halloc : allocate d ctx svc.config (env.stamps acc.orders.length).clientOrderId
      env.multiplier = .ok (some order))
    (hafter : ∀ res svc', Submitted env used acc.orders svc d order res svc' →
      B (acc.orders ++ [res]) svc') :
    Effect.wp (orderStep env acc d)
      (fun acc' s => acc'.dailyUsed = used + acceptedBuyNotional acc'.orders ∧ B acc'.orders s)
      (fun _ s => ∃ orders, B orders s) svc := by
  obtain ⟨res, svc', hsub, hrun⟩ := orderStep_submits hacc hctx hgate halloc
  have hB := hafter res svc' hsub
  refine hrun.mono ?_ ?_
  · rintro acc' s ⟨hused, horders, rfl⟩
    exact ⟨hused, horders ▸ hB⟩
  · rintro e s ⟨rfl, -⟩
    exact ⟨_, hB⟩

/-- A round that proposes no order, on a decision that is gated, sized to
nothing or on no candidate, changes nothing that counts; it raises only without
the candidate, or where the sizing does. -/
theorem orderStep_idle {acc : Orders}
    (hidle : ∀ ctx order, env.contexts.get? d.symbol = some ctx → env.gates d ctx = false →
      allocate d ctx svc.config (env.stamps acc.orders.length).clientOrderId
        env.multiplier ≠ .ok (some order)) :
    Effect.wp (orderStep env acc d)
      (fun acc' s => acc'.dailyUsed = acc.dailyUsed ∧ acc'.orders = acc.orders ∧ s = svc)
      (fun _ s => s = svc ∧ (env.contexts.get? d.symbol = none ∨ ∃ ctx e,
        env.contexts.get? d.symbol = some ctx ∧ env.gates d ctx = false ∧
          allocate d ctx svc.config (env.stamps acc.orders.length).clientOrderId
            env.multiplier = .error e)) svc := by
  unfold orderStep
  -- no candidate, a gated buy, or nothing to propose
  rcases hctx : env.contexts.get? d.symbol with - | ctx
  · exact Effect.wp_raise.mpr ⟨rfl, .inl rfl⟩
  · simp only
    by_cases hgate : env.gates d ctx = true
    · rw [if_pos hgate]
      exact ⟨rfl, rfl, rfl⟩
    · have hopen : env.gates d ctx = false := Bool.not_eq_true _ ▸ hgate
      rw [if_neg hgate, Effect.wp_bind, Effect.wp_look]
      show Effect.wp (match allocate d ctx svc.config _ env.multiplier with
        | .error e => _ | .ok none => _ | .ok (some req) => _) _ _ svc
      rcases halloc : allocate d ctx svc.config (env.stamps acc.orders.length).clientOrderId
        env.multiplier with e | - | order
      · exact Effect.wp_raise.mpr ⟨rfl, .inr ⟨ctx, e, rfl, hopen, halloc⟩⟩
      · exact ⟨rfl, rfl, rfl⟩
      · exact absurd halloc (hidle ctx order hctx hopen)

/-- One round of the loop, for an invariant that every submission preserves. -/
theorem orderStep_rule {I : List OrderResult → OrderService → Prop} {acc : Orders}
    (hacc : acc.dailyUsed = used + acceptedBuyNotional acc.orders) (hI : I acc.orders svc)
    (hstep : ∀ order res svc', Submitted env used acc.orders svc d order res svc' →
      I (acc.orders ++ [res]) svc') :
    Effect.wp (orderStep env acc d)
      (fun acc' s => acc'.dailyUsed = used + acceptedBuyNotional acc'.orders ∧ I acc'.orders s)
      (fun _ s => ∃ orders, I orders s) svc := by
  -- a round submits one order or none
  by_cases hidle : ∀ ctx order, env.contexts.get? d.symbol = some ctx →
      env.gates d ctx = false → allocate d ctx svc.config
        (env.stamps acc.orders.length).clientOrderId env.multiplier ≠ .ok (some order)
  · refine (orderStep_idle hidle).mono ?_ ?_
    · rintro acc' s ⟨hused, horders, rfl⟩
      rw [hused, horders]
      exact ⟨hacc, hI⟩
    · rintro e s ⟨rfl, -⟩
      exact ⟨_, hI⟩
  · push Not at hidle
    obtain ⟨ctx, order, hctx, hgate, halloc⟩ := hidle
    exact orderStep_leads hacc hctx hgate halloc (hstep order)

/-- **The rule of the order loop.**  What every submission preserves, the loop
preserves, whether it ends or is cut by an exception; and it carries the day's
buys so far. -/
theorem orderLoop_rule {I : List OrderResult → OrderService → Prop} {args : TickArgs}
    {g : Gathered} {killSwitch : Bool} {decisions : List Decision} (h : I [] svc)
    (hstep : ∀ d ∈ decisions, ∀ orders s order res s', OrderService.SameSetup svc s →
      I orders s →
      Submitted (orderEnv args g killSwitch) args.dailyBuyUsedKrw orders s d order res s' →
      I (orders ++ [res]) s') :
    Effect.wp (orderLoop args g killSwitch decisions)
      (fun done s => done.dailyUsed = args.dailyBuyUsedKrw + acceptedBuyNotional done.orders ∧
        I done.orders s)
      (fun _ s => ∃ orders, I orders s) svc := by
  have hloop : Effect.wp (orderLoop args g killSwitch decisions)
      (fun done s => done.dailyUsed = args.dailyBuyUsedKrw + acceptedBuyNotional done.orders ∧
        OrderService.SameSetup svc s ∧ I done.orders s)
      (fun _ s => ∃ orders, OrderService.SameSetup svc s ∧ I orders s) svc := by
    refine Effect.wp_foldM ?_ ⟨by simp, .refl svc, h⟩
    rintro d hd acc s ⟨hused, hsame, hI⟩
    refine orderStep_rule (I := fun orders s => OrderService.SameSetup svc s ∧ I orders s)
      hused ⟨hsame, hI⟩ ?_
    intro order res s' hsub
    exact ⟨hsame.trans hsub.sameSetup, hstep d hd _ s order res s' hsame hI hsub⟩
  refine hloop.mono ?_ ?_
  · rintro done s ⟨hused, -, hI⟩
    exact ⟨hused, hI⟩
  · rintro e s ⟨orders, -, hI⟩
    exact ⟨orders, hI⟩

end Loop

/-- **What a tick leaves of the setup**: all of it, but for the assessment of
the breaker once the broker has been read. -/
theorem runTick_setup (args : TickArgs) (svc : OrderService) :
    ((∀ g, gather args ≠ .ok (some g)) ∧ (runTick args svc).2 = svc) ∨
      ∃ g, gather args = .ok (some g) ∧
        OrderService.SameSetup (assessed args g svc) (runTick args svc).2 := by
  have hloop : ∀ g decisions, Effect.wp (orderLoop args g svc.killSwitch decisions)
      (fun done s => done.dailyUsed =
          args.dailyBuyUsedKrw + acceptedBuyNotional done.orders ∧
        OrderService.SameSetup (assessed args g svc) s)
      (fun _ s => ∃ _ : List OrderResult, OrderService.SameSetup (assessed args g svc) s)
      (assessed args g svc) := by
    intro g decisions
    refine orderLoop_rule (I := fun _ s => OrderService.SameSetup (assessed args g svc) s)
      (.refl _) ?_
    intro d _ orders s order res s' _ hsame hsub
    exact hsame.trans hsub.sameSetup
  rcases hrun : runTick args svc with ⟨out, final⟩
  cases ticks_of_run hrun with
  | unread hg => exact Or.inl ⟨by simp [hg], rfl⟩
  | nothing hg => exact Or.inl ⟨by simp [hg], rfl⟩
  | unmatched hg hc => exact Or.inr ⟨_, hg, .refl _⟩
  | undecided hg hc hd => exact Or.inr ⟨_, hg, .refl _⟩
  | halted hg hc hd hl =>
    obtain ⟨-, hsame⟩ := (hloop _ _).of_error hl
    exact Or.inr ⟨_, hg, hsame⟩
  | traded hg hc hd hl => exact Or.inr ⟨_, hg, ((hloop _ _).of_ok hl).2⟩

/-- The orders of a tick that were answered as new, whether the tick returned
or raised. -/
def settledIn (args : TickArgs) (svc : OrderService) : List OrderResult :=
  (runTick args svc).2.ledger.drop svc.ledger.length

/-- A tick that does not come to its order loop settles nothing. -/
theorem settledIn_idle {args : TickArgs} {svc : OrderService}
    (h : ∀ g decisions, gather args = .ok (some g) → tickCandidates args g ≠ [] →
      deliberate args (tickCandidates args g) ≠ .ok decisions) : settledIn args svc = [] := by
  have hledger : (runTick args svc).2.ledger = svc.ledger := by
    rcases hrun : runTick args svc with ⟨out, final⟩
    cases ticks_of_run hrun with
    | unread hg => rfl
    | nothing hg => rfl
    | unmatched hg hc => rfl
    | undecided hg hc hd => rfl
    | halted hg hc hd hl => exact absurd hd (h _ _ hg hc)
    | traded hg hc hd hl => exact absurd hd (h _ _ hg hc)
  rw [settledIn, hledger, List.drop_length]

/-- The answers that are no echoes of earlier ones. -/
def newAnswers (orders : List OrderResult) : List OrderResult :=
  orders.filter fun o => o.status ≠ .duplicate

/-- A submission adds its answer to the ledger unless it is an echo. -/
theorem Submitted.ledger {env : OrderEnv} {used : ℚ} {orders : List OrderResult}
    {svc svc' : OrderService} {d : Decision} {order : OrderRequest} {res : OrderResult}
    (h : Submitted env used orders svc d order res svc') :
    svc'.ledger = svc.ledger ++ newAnswers [res] := by
  cases h with
  | duplicate hctx hgate halloc hseen => simp [newAnswers]
  | settled hctx hgate halloc hseen hs =>
    have hnew : newAnswers [res] = [res] := by
      cases hs <;> simp [newAnswers, OrderService.result]
    rw [hnew]
    rfl

/-- **The rule of a tick.**  An invariant of the orders of the tick and the
service holds when the tick ends, however it ends, if it holds before, survives
the assessment of the breaker and survives each submission; and the orders are
the ones that the tick returns and the ones it adds to the ledger. -/
theorem runTick_rule {I : List OrderResult → OrderService → Prop} {args : TickArgs}
    {svc : OrderService} (h : I [] svc)
    (hassess : ∀ g, gather args = .ok (some g) → I [] (assessed args g svc))
    (hstep : ∀ g decisions, gather args = .ok (some g) →
      deliberate args (tickCandidates args g) = .ok decisions →
      ∀ d ∈ decisions, ∀ orders s order res s',
        OrderService.SameSetup (assessed args g svc) s → I orders s →
        Submitted (orderEnv args g svc.killSwitch) args.dailyBuyUsedKrw orders s d order res s' →
        I (orders ++ [res]) s') :
    ∃ orders, (∀ r, (runTick args svc).1 = .ok r → r.orders = orders) ∧
      settledIn args svc = newAnswers orders ∧ I orders (runTick args svc).2 := by
  -- the ledger is carried as one more part of the invariant
  have key : ∃ orders, (∀ r, (runTick args svc).1 = .ok r → r.orders = orders) ∧
      (runTick args svc).2.ledger = svc.ledger ++ newAnswers orders ∧
      I orders (runTick args svc).2 := by
    have hloop : ∀ g decisions, gather args = .ok (some g) →
        deliberate args (tickCandidates args g) = .ok decisions →
        Effect.wp (orderLoop args g svc.killSwitch decisions)
          (fun done s => done.dailyUsed =
              args.dailyBuyUsedKrw + acceptedBuyNotional done.orders ∧
            s.ledger = svc.ledger ++ newAnswers done.orders ∧ I done.orders s)
          (fun _ s => ∃ orders, s.ledger = svc.ledger ++ newAnswers orders ∧ I orders s)
          (assessed args g svc) := by
      intro g decisions hg hd
      refine orderLoop_rule (I := fun orders s =>
        s.ledger = svc.ledger ++ newAnswers orders ∧ I orders s) ?_ ?_
      · exact ⟨(List.append_nil _).symm, hassess g hg⟩
      · rintro d hmem orders s order res s' hsame ⟨hledger, hI⟩ hsub
        refine ⟨?_, hstep g decisions hg hd d hmem orders s order res s' hsame hI hsub⟩
        rw [hsub.ledger, hledger]
        simp [newAnswers]
    have hnil : svc.ledger = svc.ledger ++ newAnswers [] := (List.append_nil _).symm
    rcases hrun : runTick args svc with ⟨out, final⟩
    cases ticks_of_run hrun with
    | unread hg => exact ⟨[], by simp, hnil, h⟩
    | nothing hg => exact ⟨[], fun r hr => by cases hr; rfl, hnil, h⟩
    | unmatched hg hc => exact ⟨[], fun r hr => by cases hr; rfl, hnil, hassess _ hg⟩
    | undecided hg hc hd => exact ⟨[], by simp, hnil, hassess _ hg⟩
    | halted hg hc hd hl =>
      obtain ⟨orders, hledger, hI⟩ := (hloop _ _ hg hd).of_error hl
      exact ⟨orders, by simp, hledger, hI⟩
    | traded hg hc hd hl =>
      obtain ⟨-, hledger, hI⟩ := (hloop _ _ hg hd).of_ok hl
      exact ⟨_, fun r hr => by cases hr; rfl, hledger, hI⟩
  obtain ⟨orders, hret, hledger, hI⟩ := key
  refine ⟨orders, hret, ?_, hI⟩
  rw [settledIn, hledger, List.drop_left]

/-- What a tick returns and what it settles are the same, echoes aside. -/
theorem settledIn_eq {args : TickArgs} {svc : OrderService} {r : TickResult}
    (h : (runTick args svc).1 = .ok r) : settledIn args svc = newAnswers r.orders := by
  obtain ⟨orders, hret, hset, -⟩ :=
    @runTick_rule (fun _ _ => True) args svc trivial (by simp) (by simp)
  rw [hset, hret r h]

theorem mem_newAnswers_of_acceptedBuy {orders : List OrderResult} {o : OrderResult}
    (ho : o ∈ orders) (hbuy : o.acceptedBuy) : o ∈ newAnswers orders := by
  have hstatus := (OrderResult.acceptedBuy_iff.mp hbuy).2
  exact List.mem_filter.mpr ⟨ho, decide_eq_true (OrderStatus.ne_duplicate hstatus)⟩

/-- What holds of every new answer holds of every order a tick settles. -/
theorem settledIn_forall {P : OrderResult → Prop} {args : TickArgs} {svc : OrderService}
    (hstep : ∀ g decisions, gather args = .ok (some g) →
      deliberate args (tickCandidates args g) = .ok decisions →
      ∀ d ∈ decisions, ∀ orders s order res s',
        OrderService.SameSetup (assessed args g svc) s →
        Submitted (orderEnv args g svc.killSwitch) args.dailyBuyUsedKrw orders s d order res s' →
        res.status ≠ .duplicate → P res) :
    ∀ o ∈ settledIn args svc, P o := by
  obtain ⟨orders, -, hset, hI⟩ := runTick_rule
    (I := fun orders _ => ∀ o ∈ newAnswers orders, P o) (by simp [newAnswers])
    (by simp [newAnswers]) (by
      intro g decisions hg hd d hmem orders s order res s' hsame hI hsub o ho
      rw [newAnswers, List.filter_append, List.mem_append] at ho
      rcases ho with ho | ho
      · exact hI o ho
      · obtain ⟨hres, hdup⟩ := List.mem_filter.mp ho
        rw [List.mem_singleton] at hres
        subst hres
        exact hstep g decisions hg hd d hmem orders s order o s' hsame hsub
          (of_decide_eq_true hdup))
  rw [hset]
  exact hI

/-- The new answers of a tick are dated by readings of its clock. -/
theorem settledIn_createdAt (args : TickArgs) (svc : OrderService) :
    ∀ o ∈ settledIn args svc, ∃ i, o.createdAt = (args.stamps i).createdAt := by
  refine settledIn_forall ?_
  intro g decisions hg hd d hmem orders s order res s' hsame hsub hdup
  cases hsub with
  | duplicate hctx hgate halloc hseen => exact absurd rfl hdup
  | settled hctx hgate halloc hseen hs => exact ⟨orders.length, hs.answers.2.2.1⟩

/-! ### A market with a flat price

The market, the limits and the clock that the runs on fixed inputs share. -/

/-- A tick that decides leaves what its order loop leaves. -/
theorem runTick_loop {args : TickArgs} {svc : OrderService} {g : Gathered}
    {decisions : List Decision} (hg : gather args = .ok (some g))
    (hc : tickCandidates args g ≠ [])
    (hd : deliberate args (tickCandidates args g) = .ok decisions) :
    (runTick args svc).2 =
      (orderLoop args g svc.killSwitch decisions (assessed args g svc)).2 := by
  have hne : (tickCandidates args g).isEmpty = false := List.isEmpty_eq_false_iff.mpr hc
  unfold runTick
  simp only [Effect.bind_apply, Effect.look_apply, Effect.lift_apply, Effect.change_apply, id, hg,
    hne, Bool.false_eq_true, if_false, hd]
  rcases orderLoop args g svc.killSwitch decisions (assessed args g svc) with ⟨e | done, final⟩
  · rfl
  · rfl

/-- What the order loop of a tick leaves, however it ends, the tick leaves. -/
theorem runTick_of_loop {I : List OrderResult → OrderService → Prop} {args : TickArgs}
    {svc : OrderService} {g : Gathered} {decisions : List Decision}
    (hg : gather args = .ok (some g)) (hc : tickCandidates args g ≠ [])
    (hd : deliberate args (tickCandidates args g) = .ok decisions)
    (hloop : Effect.wp (orderLoop args g svc.killSwitch decisions)
      (fun done s => I done.orders s) (fun _ s => ∃ orders, I orders s) (assessed args g svc)) :
    ∃ orders, I orders (runTick args svc).2 := by
  rw [runTick_loop hg hc hd]
  have hends : Effect.wp (orderLoop args g svc.killSwitch decisions)
      (fun _ s => ∃ orders, I orders s) (fun _ s => ∃ orders, I orders s) (assessed args g svc) :=
    hloop.mono (fun done _ hdone => ⟨done.orders, hdone⟩) fun _ _ => id
  exact hends.state

namespace Sample

/-- Every stock is a common share that trades at 1000 won. -/
def flatToss (cash : ℚ) (holdings : Holdings) : Toss where
  getHoldings := .ok holdings
  getStocks := fun symbols => .ok (symbols.map fun s =>
    { symbol := s, name := s, isCommonShare := some true, status := some "ACTIVE" })
  getCandles := fun _ => .ok (List.replicate 6 ⟨1000, 1000⟩)
  getProxyCandles := fun _ => .ok []
  getStockWarnings := fun _ => .ok []
  getBuyingPower := .ok cash

/-- A screen that a flat price passes. -/
def screenAll : ScreenConfig where
  minHistory := 1
  smaShort := 1
  smaLong := 1
  minAvgVolume := 0
  minClosePrice := 0
  requireUptrend := false

/-- A judge that is sure of everything it buys. -/
def buyAll : Judge := fun ctx =>
  .ok { action := .buy, symbol := ctx.symbol, confidence := 1, rationale := [] }

/-- A judge that sells what is held and buys the rest. -/
def turnOver : Judge := fun ctx =>
  .ok { action := if ctx.alreadyHeld then .sell else .buy, symbol := ctx.symbol, confidence := 1,
        rationale := [] }

/-- 2026-06-23 10:00 in Seoul. -/
def tenOClock : Datetime := ⟨63917773200000000, KST⟩

/-- Ids `o0`, `o1`, `o2` and one for the rest, all at `tenOClock`. -/
def stamps (i : ℕ) : Stamp :=
  ⟨match i with | 0 => "o0" | 1 => "o1" | 2 => "o2" | _ => "o", tenOClock⟩

/-- A tick on a flat market that buys all it is shown. -/
def args (cash : ℚ) (holdings : Holdings) (watchlist : List Symbol) : TickArgs where
  toss := flatToss cash holdings
  watchlist
  judge := buyAll
  now := tenOClock
  screenConfig := screenAll
  stdev := fun _ => 0
  stamps

/-- No holdings. -/
def noHoldings : Holdings where
  marketValue := .ofKrw 0

/-- `n` shares of `symbol` bought at 1000 won. -/
def holding (symbol : Symbol) (n : ℚ) : HoldingItem where
  symbol
  name := symbol
  currency := "KRW"
  quantity := n
  lastPrice := 1000
  averagePurchasePrice := 1000
  profitLossRate := 0

end Sample

end AutoTrade
