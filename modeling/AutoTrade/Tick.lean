/-
AutoTrade/Tick.lean

A tick of the server (`api/tick.py`): everything around `runTick` that reads
and writes the database.

Every awaited call of a tick has a name in `Await`, and a tick is given a fate
for each of them, so a tick that is cut at any point, also by the end of the
process, is a tick with some fates.  `openTick` is the source up to `run_tick`
and `closeTick` what follows it.
-/
import AutoTrade.Repo

namespace AutoTrade

open Effect (Fate)

/-! ### The server -/

/-- The settings (`core/settings.py`) that a tick and the start of the process
read. -/
structure Settings where
  /-- `load_trading_mode()` -/
  mode : TradingMode := .dryRun
  /-- whether `database_url` is set -/
  persisted : Bool := true
  sandboxMode : Bool := false
  guardrails : GuardrailConfig := {}
  breaker : CircuitBreakerConfig := {}
  /-- whether `anthropic_api_key` is set -/
  anthropicApiKey : Bool := false
  dailyLlmDecisionCap : ℤ := 400
  judgeEffort : String := "medium"
  researchTopN : ℤ := 3
  judgeTopN : ℤ := 10
  entryGate : EntryGate := {}
  /-- none when `regime_symbol` is empty -/
  regime : Option RegimeConfig := some {}
  paperSeedKrw : ℚ := 10000000
  exitRulesEnabled : Bool := true
  exits : ExitConfig := {}
  /-- the executor of a service in `LIVE`; `main.py` passes none, and then each order of
  such a service is an error -/
  executor : Option Executor := none

/-- The process and its database. -/
structure Server where
  svc : OrderService
  db : Db

/-- The awaited calls of a tick and of the routes. -/
inductive Await
  | countDecisionsToday
  | buyNotionalToday
  | loadLatestPositions
  | saveBaseline
  | submittedQtySince
  | auditMismatch
  | saveHalt
  | auditHalt
  | sendMismatch
  | saveSnapshot
  | loadPaper
  | savePaperSeed
  | auditPaperInit
  | countTradingDaysSince (symbol : Symbol)
  | sendBreaker
  | recordTick
  | saveEngineState
  | upsertSymbolStats
  | savePaper
  | appendPaperEquity
  | auditRoute
  | sendRoute
  deriving DecidableEq

/-- How each awaited call ends. -/
abbrev Fates := Await → Fate

/-- What a call that fails raises. -/
def outage : Exn := "Exception"

namespace Server

/-- A call that reads the database. -/
def fetch {α : Type} (fates : Fates) (a : Await) (q : Db → α) : Effect Exn Server α :=
  Effect.query (fates a) outage fun s => q s.db

/-- A call that writes the database, in one transaction. -/
def write (fates : Fates) (a : Await) (f : Db → Db) : Effect Exn Server PUnit :=
  Effect.commit (fates a) outage fun s => { s with db := f s.db }

/-- A call that changes nothing here: a message to the operator.  A message
that is not sent, by the transition or by the alert gate, returns. -/
def send (fates : Fates) (a : Await) : Effect Exn Server PUnit :=
  Effect.commit (fates a) outage id

/-- `repo.save_engine_state(svc.kill_switch, svc.circuit_breaker.dump_state())`. -/
def saveEngineState (fates : Fates) (a : Await) : Effect Exn Server PUnit :=
  Effect.commit (fates a) outage fun s =>
    { s with db := s.db.saveEngineState s.svc.killSwitch s.svc.circuitBreaker.dumpState }

end Server

open Server

/-! ### Reconciliation -/

/-- What follows a mismatch: the record of it, in `LIVE` the halt, and the
message.  The halt is skipped when the switch is already on. -/
def enforceMismatch (fates : Fates) (report : ReconcileReport) : Effect Exn Server PUnit := do
  write fates .auditMismatch (·.audit "system" "reconcile_mismatch" (.report report))
  let svc ← Effect.look Server.svc
  Effect.when (svc.mode = .live ∧ svc.killSwitch = false) do
    Effect.change fun s => { s with svc := s.svc.engageKillSwitch }
    saveEngineState fates .saveHalt
    write fates .auditHalt
      (·.audit "system" "kill_switch" (.engaged true (some "reconcile_mismatch")))
  send fates .sendMismatch

/-- `reconcile_and_enforce`: a mismatch over real money engages the kill switch. -/
def reconcileAndEnforce (fates : Fates) (holdings : Holdings) (now : Datetime)
    (advanceBaseline : Bool) : Effect Exn Server ReconcileReport := do
  let items := snapshotFromHoldings holdings
  match ← fetch fates .loadLatestPositions Db.loadLatestPositions with
  | none => do
    write fates .saveBaseline (·.savePositionsSnapshot now items)
    pure (reconcile none (quantities items))
  | some (prevTs, prevMap) => do
    let delta ← fetch fates .submittedQtySince (·.submittedQtySince prevTs)
    let report := reconcile (some prevMap) (quantities items) (some delta)
    Effect.when (¬ report.ok) (enforceMismatch fates report)
    Effect.when advanceBaseline (write fates .saveSnapshot (·.savePositionsSnapshot now items))
    pure report

/-! ### Before the orders -/

/-- What a tick is given by its surroundings. -/
structure TickInput where
  /-- `toss_client`, with the candle cache in front of it -/
  toss : Option Toss
  /-- `get_prices` -/
  prices : List Symbol → Except Exn (List (Symbol × ℚ))
  /-- the watchlist, or what `resolve_universe` makes of the seed file -/
  watch : Except Exn (List Symbol)
  /-- `ClaudeJudge` as it answers in this tick -/
  llm : Judge
  /-- `WebSearchResearch`, with the cache in front of it -/
  webSearch : Research
  now : Datetime
  stdev : Stdev
  stamps : ℕ → Stamp
  fates : Fates

/-- Whether the day's decisions have reached the cap. -/
def llmCapped (cfg : Settings) (t : TickInput) : Effect Exn Server Bool :=
  if cfg.persisted ∧ 0 < cfg.dailyLlmDecisionCap then do
    let used ← fetch t.fates .countDecisionsToday (·.countDecisionsToday (tradeDateKst t.now))
    pure (decide (cfg.dailyLlmDecisionCap ≤ used))
  else pure false

/-- The judge of the tick: the deterministic one without a key or over the cap. -/
def selectJudge (cfg : Settings) (t : TickInput) :
    Effect Exn Server (Judge × Option Research × Text) :=
  if cfg.anthropicApiKey then do
    if ← llmCapped cfg t then
      -- over the cap the model costs nothing more that day
      pure (deterministicJudge, none, [.lit "일일 LLM 판단 상한(", .int cfg.dailyLlmDecisionCap,
        .lit ") 도달 → 결정적 폴백(비용 가드)"])
    else
      pure (t.llm, some t.webSearch, [.lit "판단 claude-opus-4-8(effort=", .str cfg.judgeEffort,
        .lit ") · 조사 claude-sonnet-5 + web_search"])
  else
    pure (deterministicJudge, none, [.lit "ANTHROPIC_API_KEY 미설정 → 결정적 폴백(주문 데모용)"])

/-- The day's buys, the account and its reconciliation; nothing of it without
a database. -/
def openDay (cfg : Settings) (t : TickInput) (toss : Toss) :
    Effect Exn Server (ℚ × Option Holdings × Option ReconcileReport) :=
  if cfg.persisted then do
    let used ← fetch t.fates .buyNotionalToday (·.buyNotionalToday (tradeDateKst t.now))
    let holdings ← Effect.lift toss.getHoldings
    let report ← reconcileAndEnforce t.fates holdings t.now true
    pure (used, some holdings, some report)
  else pure (0, none, none)

/-- The paper book of a tick and the prices it is marked at. -/
structure PaperRun where
  book : PaperPortfolio
  marks : Dict Symbol ℚ
  benchPrice : Option ℚ

/-- The book as it was saved, or a new one with the seed. -/
def loadBook (cfg : Settings) (t : TickInput) : Effect Exn Server PaperPortfolio := do
  match ← fetch t.fates .loadPaper Db.loadPaper with
  | some book => pure book
  | none => do
    -- the first tick seeds the book, and says so in the log
    let book : PaperPortfolio := { cash := cfg.paperSeedKrw }
    write t.fates .savePaperSeed (·.savePaper book)
    write t.fates .auditPaperInit (·.audit "system" "paper_init" (.seed cfg.paperSeedKrw))
    pure book

/-- The symbols whose prices the paper book needs. -/
def markSymbols (cfg : Settings) (book : PaperPortfolio) : List Symbol :=
  ((book.positions.keys ++ (cfg.regime.map RegimeConfig.symbol).toList).unique).insertionSort
    (· ≤ ·)

/-- `{p.symbol: p.last_price for p in ...}`, empty when the request fails. -/
def marksOf (cfg : Settings) (t : TickInput) (book : PaperPortfolio) : Dict Symbol ℚ :=
  let symbols := markSymbols cfg book
  if symbols.isEmpty then ∅
  else match t.prices symbols with
    | .ok prices => Dict.ofList prices
    | .error _ => ∅

/-- The paper book, in `DRY_RUN` with a database and a seed. -/
def openPaper (cfg : Settings) (t : TickInput) : Effect Exn Server (Option PaperRun) := do
  let svc ← Effect.look Server.svc
  if cfg.persisted ∧ svc.mode = .dryRun ∧ 0 < cfg.paperSeedKrw then do
    let book ← loadBook cfg t
    let marks := marksOf cfg t book
    pure (some { book, marks, benchPrice := cfg.regime.bind fun r => marks.get? r.symbol })
  else pure none

/-- The trading days each position has been held. -/
def daysHeld (t : TickInput) (book : PaperPortfolio) : Effect Exn Server (Dict Symbol ℕ) :=
  Effect.foldM (fun days p => match p.2.openedAt with
    | none => pure days
    | some openedAt => do
      let n ← fetch t.fates (.countTradingDaysSince p.1)
        (·.countTradingDaysSince (tradeDateKst openedAt))
      pure (days.set p.1 n)) ∅ book.positions.entries

/-- The deterministic exits of the paper book. -/
def forcedExits (cfg : Settings) (t : TickInput) (paper : Option PaperRun) :
    Effect Exn Server (List ForcedExit) :=
  match paper with
  | none => pure []
  | some run =>
    if cfg.exitRulesEnabled ∧ run.book.positions.entries ≠ [] then do
      let days ← daysHeld t run.book
      pure (evaluateExits run.book.positions run.marks days cfg.exits)
    else pure []

/-- What a tick knows when it calls `run_tick`. -/
structure Opened where
  args : TickArgs
  engine : Text
  report : Option ReconcileReport
  paper : Option PaperRun

/-- A tick up to `run_tick`. -/
def openTick (cfg : Settings) (t : TickInput) (toss : Toss) : Effect Exn Server Opened := do
  let watchlist ← Effect.lift t.watch
  let (judge, research, engine) ← selectJudge cfg t
  let (dailyBuyUsedKrw, holdings, report) ← openDay cfg t toss
  let paper ← openPaper cfg t
  let forced ← forcedExits cfg t paper
  pure {
    engine, report, paper
    args := {
      toss, watchlist, judge, research, dailyBuyUsedKrw
      now := t.now
      researchTopN := some cfg.researchTopN
      entryGate := some cfg.entryGate
      regimeConfig := cfg.regime
      -- in the paper mode the tick sees the book and not the account
      holdings := match paper with
        | none => holdings
        | some run => some (run.book.toSyntheticHoldings run.marks)
      cashBuyingPowerKrw := paper.map fun run => run.book.cash
      maxBuyCandidates := some cfg.judgeTopN
      forcedExits := forced
      stdev := t.stdev
      stamps := t.stamps } }

/-! ### After the orders -/

/-- One order of the tick, filled in the paper book. -/
def fillStep (cost : CostConfig) (now : Datetime) (acc : PaperRun × List PaperFill)
    (o : OrderResult) : PaperRun × List PaperFill :=
  let (run, fills) := acc
  -- only intended orders are filled
  if o.status ≠ .dryRun then acc
  else match run.book.applyFill o.request cost (some now) with
    | (none, _) => acc
    | (some fill, book) =>
      -- a symbol that was not quoted is marked at the price it was filled at
      let marks := match fill.skipped, o.request.price with
        | none, some price =>
          if o.request.symbol ∈ run.marks.keys then run.marks
          else run.marks.set o.request.symbol price
        | _, _ => run.marks
      ({ run with book, marks }, fills ++ [fill])

/-- What a tick reports of the paper book. -/
structure PaperSummary where
  equity : ℚ
  cash : ℚ
  realizedCum : ℚ
  tradeCount : ℕ
  fills : List PaperFill

/-- Fill the intended orders, save the book and add a point to its curve. -/
def settlePaper (cfg : Settings) (t : TickInput) (run : PaperRun) (orders : List OrderResult) :
    Effect Exn Server PaperSummary := do
  let (run, fills) := orders.foldl (fillStep cfg.entryGate.cost t.now) (run, [])
  -- the book first: a failure after it leaves a book without a point on the curve
  write t.fates .savePaper (·.savePaper run.book)
  let (equity, positionsValue) := run.book.markEquity run.marks
  write t.fates .appendPaperEquity
    (·.appendPaperEquity t.now equity run.book.cash positionsValue run.book.realizedCum
      run.benchPrice)
  pure { equity, cash := run.book.cash, realizedCum := run.book.realizedCum,
         tradeCount := run.book.tradeCount, fills }

/-- Record the tick, the engine state and the statistics; nothing of it without
a database. -/
def recordAll (cfg : Settings) (t : TickInput) (paper : Option PaperRun) (result : TickResult) :
    Effect Exn Server (Option ℕ × Option PaperSummary) :=
  if cfg.persisted then do
    write t.fates .recordTick (·.recordTick result t.now)
    let tickId ← Effect.look fun s : Server => s.db.ticks.length
    saveEngineState t.fates .saveEngineState
    write t.fates .upsertSymbolStats (·.upsertSymbolStats result.adv20 (tradeDateKst t.now))
    match paper with
    | none => pure (some tickId, none)
    | some run => do
      let summary ← settlePaper cfg t run result.orders
      pure (some tickId, some summary)
  else pure (none, none)

/-- What the route answers. -/
inductive TickReply
  /-- no broker is configured -/
  | unconfigured (error : Text)
  | done (tickId : Option ℕ) (engine : Text) (result : TickResult)
      (reconcile : Option ReconcileReport) (paper : Option PaperSummary)

/-- `run_tick` and what follows it. -/
def closeTick (cfg : Settings) (t : TickInput) (o : Opened) : Effect Exn Server TickReply := do
  let result ← Effect.zoom Server.svc (fun s svc => { s with svc }) (runTick o.args)
  send t.fates .sendBreaker
  let (tickId, summary) ← recordAll cfg t o.paper result
  pure (.done tickId o.engine result o.report summary)

/-- `_execute_tick_locked`. -/
def executeTick (cfg : Settings) (t : TickInput) : Effect Exn Server TickReply :=
  match t.toss with
  | none => pure (.unconfigured [.lit "토스 자격증명 미설정 — 틱 불가"])
  | some toss => do
    let o ← openTick cfg t toss
    closeTick cfg t o

end AutoTrade
