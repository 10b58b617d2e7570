/-
AutoTrade/Repo.lean

The repository (`db/repo.py`) over the tables it keeps (`db/models.py`): ticks,
decisions, orders, position snapshots, the engine state, the paper book, the
asset curve, the symbol statistics and the audit log.

Each write is one transaction, a function from database to database, and each
read is a function of the database.  A `trade_date` column is the KST date in
ISO form, equal and ordered as the date.
-/
import AutoTrade.Lib.KeepFirst
import AutoTrade.Pipeline
import AutoTrade.Reconcile
import Mathlib.Data.Finset.Dedup

namespace AutoTrade

/-- A row of `ticks`. -/
structure TickRow where
  startedAt : Datetime
  tradeDate : Date
  mode : TradingMode
  killSwitch : Bool
  circuitBreaker : Bool
  circuitBreakerReason : Text
  universeCount : ℕ
  candidates : ℕ
  note : Text
  costGated : List Symbol
  regime : Option RegimeAssessment

/-- A row of `decisions`, by the number of its tick. -/
structure DecisionRow where
  tickId : ℕ
  symbol : Symbol
  action : Action
  confidence : FloatValue
  rationale : Text
  decisionPrice : Option ℚ

/-- A row of `orders`; `client_order_id` is unique in the table. -/
structure OrderRow where
  tickId : ℕ
  clientOrderId : ClientOrderId
  symbol : Symbol
  side : Side
  orderType : OrderType
  quantity : Option DecText
  price : Option DecText
  orderAmount : Option DecText
  timeInForce : TimeInForce
  mode : TradingMode
  status : OrderStatus
  reason : Option Text
  tossOrderId : Option String
  createdAt : Datetime
  tradeDate : Date
  deriving DecidableEq

/-- `_dec`. -/
def dec : Option DecText → ℚ
  | none => 0
  | some s => Decimal s

/-- The cost of a row: its amount, else quantity times price. -/
def OrderRow.cost (row : OrderRow) : ℚ :=
  match row.orderAmount with
  | some amount => Decimal amount
  | none => dec row.quantity * dec row.price

/-- A row of the day's buys: intended or sent. -/
def OrderRow.used (row : OrderRow) : Bool := row.side = .buy ∧ row.status.accepted

/-- A row of `position_snapshots` with its `positions`. -/
structure SnapshotRow where
  ts : Datetime
  items : List PositionSnapshot

/-- The row of `engine_state`: what a restart has to know. -/
structure EngineStateRow where
  killSwitch : Bool
  breaker : CircuitBreaker.State
  deriving DecidableEq

/-- A row of `paper_equity`, the asset curve of the paper mode. -/
structure PaperEquityRow where
  ts : Datetime
  tradeDate : Date
  equity : ℚ
  cash : ℚ
  positionsValue : ℚ
  realizedCum : ℚ
  benchmarkPrice : Option ℚ

/-- The payloads that the engine and the routes write. -/
inductive AuditPayload
  | report (report : ReconcileReport)
  | engaged (engaged : Bool) (cause : Option String)
  /-- the breaker before a reset -/
  | before (breaker : CircuitBreaker)
  | seed (amount : ℚ)

/-- A row of `audit_log`. -/
structure AuditRow where
  actor : String
  action : String
  payload : AuditPayload

/-- The tables that the engine reads and writes, each in the order of its rows. -/
structure Db where
  ticks : List TickRow := []
  decisions : List DecisionRow := []
  orders : List OrderRow := []
  snapshots : List SnapshotRow := []
  /-- the single row of `engine_state` -/
  engineState : Option EngineStateRow := none
  /-- the paper book as it is stored; its seed is written once and read by nothing here -/
  paper : Option PaperPortfolio := none
  paperEquity : List PaperEquityRow := []
  /-- the average turnover of a symbol and the day it was measured -/
  symbolStats : Dict Symbol (ℚ × Date) := ∅
  audits : List AuditRow := []

namespace Db

/-! ### Recording a tick -/

/-- The row that `_add_order` makes of a result. -/
def orderRow (res : OrderResult) (tickId : ℕ) : OrderRow :=
  let req := res.request
  { tickId
    clientOrderId := res.clientOrderId
    symbol := req.symbol
    side := req.side
    orderType := req.orderType
    quantity := req.quantity.map strDec
    price := req.price.map strDec
    orderAmount := req.orderAmount.map strDec
    timeInForce := req.timeInForce
    mode := res.mode
    status := res.status
    reason := res.reason
    tossOrderId := res.tossOrderId
    createdAt := res.createdAt
    tradeDate := tradeDateKst res.createdAt }

/-- `_add_order`: neither an echo nor an id that has a row is recorded. -/
def addOrder (tickId : ℕ) (rows : List OrderRow) (res : OrderResult) : List OrderRow :=
  if res.status = .duplicate then rows
  else if rows.any fun r => r.clientOrderId = res.clientOrderId then rows
  else rows ++ [orderRow res tickId]

/-- `record_tick`: the tick, its decisions and its orders in one transaction. -/
def recordTick (db : Db) (result : TickResult) (startedAt : Datetime) : Db :=
  -- the next number of the table
  let tickId := db.ticks.length + 1
  { db with
    ticks := db.ticks ++ [{
      startedAt
      tradeDate := tradeDateKst startedAt
      mode := result.mode
      killSwitch := result.killSwitch
      circuitBreaker := result.circuitBreaker
      circuitBreakerReason := result.circuitBreakerReason
      universeCount := result.universeSymbols.length
      candidates := result.candidates
      note := result.note
      costGated := result.costGated
      regime := result.regime }]
    decisions := db.decisions ++ result.decisions.map fun d =>
      { tickId, symbol := d.symbol, action := d.action, confidence := d.confidence,
        rationale := d.rationale, decisionPrice := d.decisionPrice }
    orders := result.orders.foldl (addOrder tickId) db.orders }

/-- Recording results is offering the rows of the new answers. -/
theorem foldl_addOrder_eq (tickId : ℕ) (rows : List OrderRow) (results : List OrderResult) :
    results.foldl (addOrder tickId) rows =
      KeepFirst.offerAll OrderRow.clientOrderId rows
        ((newAnswers results).map fun r => orderRow r tickId) := by
  induction results generalizing rows with
  | nil => rfl
  | cons res results ih =>
    rw [List.foldl_cons, ih]
    by_cases hdup : res.status = .duplicate
    · rw [addOrder, if_pos hdup, newAnswers, newAnswers,
        List.filter_cons_of_neg (by simp [hdup])]
    · rw [newAnswers, newAnswers, List.filter_cons_of_pos (by simp [hdup]), List.map_cons,
        KeepFirst.offerAll, KeepFirst.offerAll, List.foldl_cons]
      congr 1
      have hseen : (rows.any fun r => r.clientOrderId = res.clientOrderId) =
          decide ((orderRow res tickId).clientOrderId ∈ rows.map OrderRow.clientOrderId) := by
        rw [Bool.eq_iff_iff, List.any_eq_true, decide_eq_true_eq, List.mem_map]
        simp [orderRow]
      rw [addOrder, if_neg hdup, hseen, KeepFirst.offer]
      simp

/-- What is recorded of some results is some of them, in their order. -/
theorem foldl_addOrder (tickId : ℕ) (rows : List OrderRow) (results : List OrderResult) :
    ∃ new : List OrderResult, new.Sublist results ∧
      results.foldl (addOrder tickId) rows = rows ++ new.map fun r => orderRow r tickId := by
  rw [foldl_addOrder_eq, KeepFirst.offerAll_eq]
  obtain ⟨new, hsub, heq⟩ := List.sublist_map_iff.mp
    (List.filter_sublist.trans (KeepFirst.firsts_sublist OrderRow.clientOrderId
      ((newAnswers results).map fun r => orderRow r tickId)))
  exact ⟨new, hsub.trans List.filter_sublist, congrArg (rows ++ ·) heq⟩

/-- Only new answers are recorded. -/
theorem foldl_addOrder_newAnswers (tickId : ℕ) (rows : List OrderRow)
    (results : List OrderResult) :
    results.foldl (addOrder tickId) rows =
      (newAnswers results).foldl (addOrder tickId) rows := by
  have hidem : newAnswers (newAnswers results) = newAnswers results := by
    simp [newAnswers, List.filter_filter]
  rw [foldl_addOrder_eq, foldl_addOrder_eq, hidem]

/-- An echo is passed over, and a new answer whose id has no row gets one: if the
new answers have ids of their own, each gets its row. -/
theorem foldl_addOrder_of_nodup {tickId : ℕ} {rows : List OrderRow} {results : List OrderResult}
    (hids : ((newAnswers results).map OrderResult.clientOrderId).Nodup)
    (hnew : ∀ o ∈ newAnswers results, o.clientOrderId ∉ rows.map OrderRow.clientOrderId) :
    results.foldl (addOrder tickId) rows =
      rows ++ (newAnswers results).map fun r => orderRow r tickId := by
  have hkeys : (((newAnswers results).map fun r => orderRow r tickId).map
      OrderRow.clientOrderId).Nodup := by
    rw [List.map_map]
    exact hids
  rw [foldl_addOrder_eq, KeepFirst.offerAll_eq, KeepFirst.firsts_of_nodup _ hkeys,
    List.filter_eq_self.mpr]
  intro row hrow
  obtain ⟨o, ho, rfl⟩ := List.mem_map.mp hrow
  exact decide_eq_true (hnew o ho)

/-! ### The day's buys -/

/-- `buy_notional_today`: what the accepted buys of a day have cost. -/
def buyNotionalToday (db : Db) (tradeDate : Date) : ℚ :=
  ((db.orders.filter fun row => row.tradeDate = tradeDate ∧ row.used).map
    OrderRow.cost).sum

/-- A row costs what its request was estimated to. -/
@[simp] theorem orderRow_cost (res : OrderResult) (tickId : ℕ) :
    (orderRow res tickId).cost = res.request.notional := by
  unfold OrderRow.cost orderRow OrderRequest.notional OrderRequest.estimatedNotional
  rcases ha : res.request.orderAmount with - | a
  · rcases hq : res.request.quantity with - | q
    · simp [ha, hq, dec]
    · rcases hp : res.request.price with - | p
      · simp [ha, hq, hp, dec]
      · simp [ha, hq, hp, dec]
  · simp [ha]

/-! ### Position snapshots -/

/-- `save_positions_snapshot`; the column keeps UTC. -/
def savePositionsSnapshot (db : Db) (ts : Datetime) (items : List PositionSnapshot) : Db :=
  { db with snapshots := db.snapshots ++ [⟨ts.astimezone 0, items⟩] }

/-- The last snapshot: its time and its quantities. -/
def loadLatestPositions (db : Db) : Option (Datetime × Dict Symbol ℚ) :=
  db.snapshots.getLast?.map fun s => (s.ts, quantities s.items)

/-- One row of the net change: buys add, sells subtract. -/
def addDelta (delta : Dict Symbol ℚ) (row : OrderRow) : Dict Symbol ℚ :=
  match row.quantity with
  | none => delta
  | some qty =>
    let sign : ℚ := if row.side = .buy then 1 else -1
    delta.set row.symbol ((delta.get? row.symbol).getD 0 + sign * Decimal qty)

/-- The net change by symbol of the orders sent after `ts`. -/
def submittedQtySince (db : Db) (ts : Datetime) : Dict Symbol ℚ :=
  (db.orders.filter fun row => row.status = .submitted ∧ ts.instant < row.createdAt.instant).foldl
    addDelta ∅

/-! ### The paper book -/

/-- `load_paper`. -/
def loadPaper (db : Db) : Option PaperPortfolio := db.paper

/-- `save_paper`: the ledger is replaced as a whole. -/
def savePaper (db : Db) (paper : PaperPortfolio) : Db := { db with paper := some paper.stored }

/-- `append_paper_equity`: one point of the asset curve. -/
def appendPaperEquity (db : Db) (ts : Datetime) (equity cash positionsValue realizedCum : ℚ)
    (benchmarkPrice : Option ℚ) : Db :=
  { db with paperEquity := db.paperEquity ++ [{
      ts := ts.astimezone 0, tradeDate := tradeDateKst ts, equity, cash, positionsValue,
      realizedCum, benchmarkPrice }] }

/-- The days after `tradeDate` on which a tick wrote the asset curve. -/
def countTradingDaysSince (db : Db) (tradeDate : Date) : ℕ :=
  (((db.paperEquity.map PaperEquityRow.tradeDate).filter fun d => tradeDate < d).unique).length

/-! ### Symbol statistics -/

/-- `upsert_symbol_stats`: a symbol that is measured again keeps its place. -/
def upsertSymbolStats (db : Db) (stats : Dict Symbol ℚ) (tradeDate : Date) : Db :=
  { db with symbolStats :=
      stats.entries.foldl (fun d p => d.set p.1 (p.2, tradeDate)) db.symbolStats }

/-- `load_adv_pool`: the symbols of the greatest turnover. -/
def loadAdvPool (db : Db) (size : ℕ) : List Symbol :=
  ((db.symbolStats.entries.insertionSort fun a b => b.2.1 ≤ a.2.1).take size).map Prod.fst

/-- `load_fresh_symbols`: those that were measured after the cutoff. -/
def loadFreshSymbols (db : Db) (cutoff : Date) : Finset Symbol :=
  ((db.symbolStats.entries.filter fun p => cutoff < p.2.2).map Prod.fst).toFinset

/-! ### Counts, engine state and audit -/

/-- `count_ticks`. -/
def countTicks (db : Db) : ℕ := db.ticks.length

/-- `count_decisions_today`, over the ticks of the day. -/
def countDecisionsToday (db : Db) (tradeDate : Date) : ℕ :=
  (db.decisions.filter fun d =>
    db.ticks[d.tickId - 1]?.any fun t => t.tradeDate = tradeDate).length

/-- `load_engine_state`. -/
def loadEngineState (db : Db) : Option (Bool × CircuitBreaker.State) :=
  db.engineState.map fun row => (row.killSwitch, row.breaker)

/-- `save_engine_state`: one row, and the last commit wins. -/
def saveEngineState (db : Db) (killSwitch : Bool) (breaker : CircuitBreaker.State) : Db :=
  { db with engineState := some ⟨killSwitch, breaker⟩ }

/-- `audit`: a row more, never one changed. -/
def audit (db : Db) (actor action : String) (payload : AuditPayload) : Db :=
  { db with audits := db.audits ++ [⟨actor, action, payload⟩] }

end Db

end AutoTrade
