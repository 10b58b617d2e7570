/-
AutoTrade/Reports.lean

The reports of the paper operation (`api/report.py`, `engine/report.py` and the
queries of `db/repo.py` that they use).

A report covers the time since the end of the last one: `generateReport` takes the
last date of the asset curve for the end of the period, loads what is dated after
the end that was recorded last, and records the text under the new end.  The row
keeps the text (`Report`, its sections as they are filled in) together with what it
was rendered from.  A call that is cut before its record leaves nothing, and one
that is cut after it leaves what a whole one does.
-/
import AutoTrade.Evaluation
import AutoTrade.Lib.Fallible
import AutoTrade.Server
import Mathlib.Data.List.Infix

namespace AutoTrade

/-! ### The queries -/

/-- A line of the audit log, with the time it was written at. -/
structure AuditEvent where
  ts : Datetime
  actor : String
  action : String

/-- What was recorded in a period: the rows with their places in their tables. -/
structure PeriodActivity where
  ticks : List (TickRow × ℕ)
  decisions : List (DecisionRow × ℕ)
  orders : List (OrderRow × ℕ)
  audits : List AuditEvent

namespace Db

/-- One point a day, the last of the day, in the order of the days. -/
def loadDailyEquity (db : Db) : List (Date × ℚ × Option ℚ) :=
  let byDay := Dict.ofList (db.paperEquity.map fun r => (r.tradeDate, r.equity, r.benchmarkPrice))
  byDay.entries.insertionSort fun p q => p.1 ≤ q.1

/-- The curve is in the order of its days, each once. -/
theorem loadDailyEquity_sorted (db : Db) : db.loadDailyEquity.Pairwise fun p q => p.1 < q.1 := by
  have hle : db.loadDailyEquity.Pairwise fun p q => p.1 ≤ q.1 := List.pairwise_insertionSort _ _
  have hnodup : (db.loadDailyEquity.map Prod.fst).Nodup :=
    ((List.perm_insertionSort _ _).map Prod.fst).nodup_iff.mpr (Dict.keys_nodup _)
  exact hle.imp₂ (fun _ _ hle hne => lt_of_le_of_ne hle hne) (List.pairwise_map.mp hnodup)

/-- The date is after the last report; without one there is no filter. -/
def after (sinceTradeDate : Option Date) (d : Date) : Bool :=
  sinceTradeDate.all fun since => since < d

/-- `datetime.fromisoformat(d + "T23:59:59+09:00")`. -/
def lastSecond (d : Date) : Datetime := ⟨d * usPerDay - 1000000 - KST, KST⟩

/-- The trade date of the tick that a decision was made in. -/
def tickDate (db : Db) (d : DecisionRow) : Option Date :=
  (db.ticks[d.tickId - 1]?).map TickRow.tradeDate

/-- What is dated after the last report; `auditTs` are the times of the audit log. -/
def loadPeriodActivity (db : Db) (auditTs : ℕ → Datetime) (sinceTradeDate : Option Date) :
    PeriodActivity where
  ticks := db.ticks.zipIdx.filter fun t => after sinceTradeDate t.1.tradeDate
  decisions := db.decisions.zipIdx.filter fun d =>
    (db.tickDate d.1).any (after sinceTradeDate)
  orders := db.orders.zipIdx.filter fun o => after sinceTradeDate o.1.tradeDate
  audits :=
    let since := sinceTradeDate.map lastSecond
    (db.audits.zipIdx.filter fun a =>
      since.all fun since => since.instant < (auditTs a.2).instant).map fun a =>
        ⟨auditTs a.2, a.1.actor, a.1.action⟩

end Db

/-! ### The text -/

/-- The arguments of `render_report`. -/
structure ReportArgs where
  periodStart : Option Date
  periodEnd : Date
  equityRows : List (Date × ℚ × Option ℚ)
  evalReport : EvalReport
  activity : PeriodActivity

/-- The asset curve of the period: its ends, its return and the benchmark's. -/
structure EquitySection where
  startEq : ℚ
  endEq : ℚ
  ret : Option ℚ
  bench : Option ℚ

/-- The sections of a report. -/
structure Report where
  periodStart : Option Date
  periodEnd : Date
  equity : Option EquitySection
  evaluation : EvalReport
  byAction : Dict Action ℕ
  byStatus : Dict OrderStatus ℕ
  forced : List (Symbol × Text)
  gated : ℕ
  regimes : Dict RegimeLevel ℕ
  audits : List AuditEvent

/-- `words in text`, where the words stand in one piece. -/
def Text.mentions (words : String) (text : Text) : Bool :=
  text.any fun
    | .lit s => words.toList <:+: s.toList
    | .str s => words.toList <:+: s.toList
    | _ => false

/-- `bench_pts[-1] / bench_pts[0] - 1` of two points or more. -/
def benchReturn (benchPts : List ℚ) : Except Exn (Option ℚ) :=
  match benchPts.head?, benchPts.getLast? with
  | some first, some last =>
    if benchPts.length < 2 then .ok none
    else if first = 0 then .error "ZeroDivisionError"
    else .ok (some (last / first - 1))
  | _, _ => .ok none

/-- The asset section, left out when the period has no point. -/
def equitySection (inPeriod : List (Date × ℚ × Option ℚ)) :
    Except Exn (Option EquitySection) :=
  match inPeriod.head?, inPeriod.getLast? with
  | some (_, startEq, _), some (_, endEq, _) => do
    let bench ← benchReturn (inPeriod.filterMap fun r => r.2.2)
    pure (some {
      startEq, endEq, bench
      ret := if 0 < startEq then some (endEq / startEq - 1) else none })
  | _, _ => pure none

/-- `render_report`: the rows of the period, and the evaluation of the whole curve. -/
def renderReport (a : ReportArgs) : Except Exn Report := do
  let equity ← equitySection (a.equityRows.filter fun r => Db.after a.periodStart r.1)
  let decisions := a.activity.decisions.map Prod.fst
  let ticks := a.activity.ticks.map Prod.fst
  pure {
    periodStart := a.periodStart
    periodEnd := a.periodEnd
    equity
    evaluation := a.evalReport
    byAction := Dict.tally (decisions.map DecisionRow.action)
    byStatus := Dict.tally (a.activity.orders.map fun o => o.1.status)
    forced := (decisions.filter fun d => d.rationale.mentions "결정적 청산").map fun d =>
      (d.symbol, d.rationale)
    gated := (ticks.map fun t => t.costGated.length).sum
    regimes := Dict.tally (ticks.filterMap fun t => t.regime.map RegimeAssessment.level)
    audits := a.activity.audits }

/-! ### The archive -/

/-- The text of a report and what it was rendered from. -/
structure ReportBody where
  args : ReportArgs
  report : Report
  rendered : renderReport args = .ok report

/-- A body keeps the arguments that it was rendered from. -/
def ReportBody.render (args : ReportArgs) : Except Exn ReportBody :=
  match h : renderReport args with
  | .ok report => .ok ⟨args, report, h⟩
  | .error e => .error e

/-- A row of `report_log`. -/
structure ReportRow where
  periodEnd : Date
  path : String
  body : ReportBody

/-- The application: its settings, the market's holidays, the statistics of the asset
curve (`Evaluation.evaluate` with a square root) and the clock of the audit log. -/
structure App where
  settings : Settings
  holidays : List Date := []
  evaluate : List (Date × ℚ) → List (Date × Option ℚ) → ℕ → Except Exn EvalReport
  auditTs : ℕ → Datetime

/-- The evaluation of the whole asset curve. -/
def App.evalReport (app : App) (db : Db) : Except Exn EvalReport :=
  let equityRows := db.loadDailyEquity
  app.evaluate (equityRows.map fun r => (r.1, r.2.1)) (equityRows.map fun r => (r.1, r.2.2))
    ((db.loadPaper.map PaperPortfolio.tradeCount).getD 0)

/-- The server with the table of its reports. -/
structure Archive where
  server : Server
  reports : List ReportRow := []

/-- What a call answers: the reason for no report, or the report. -/
inductive ReportReply
  | skipped (why : Text)
  | generated (path : Option String) (periodEnd : Date)

namespace Archive

/-- `last_report_period_end`, of the report recorded last. -/
def lastReportPeriodEnd (s : Archive) : Option Date := s.reports.getLast?.map ReportRow.periodEnd

/-- The newest body that was recorded under a period's end. -/
def loadReportBody (s : Archive) (periodEnd : Date) : Option ReportBody :=
  ((s.reports.filter fun r => r.periodEnd = periodEnd).getLast?).map ReportRow.body

/-- `record_report`: a row more; an older one for the period stays. -/
def recordReport (s : Archive) (periodEnd : Date) (path : String) (body : ReportBody) : Archive :=
  { s with reports := s.reports ++ [⟨periodEnd, path, body⟩] }

/-- `file` is where the file was written, if it was. -/
def generateReport (app : App) (force : Bool) (file : Option String) :
    Effect Exn Archive ReportReply :=
  if app.settings.persisted then do
    let db ← Effect.look fun s : Archive => s.server.db
    let equityRows := db.loadDailyEquity
    match equityRows.getLast? with
    | none => pure (.skipped [.lit "자산곡선 없음 — 운용 데이터가 쌓인 뒤 생성"])
    | some (periodEnd, _) => do
      let last ← Effect.look lastReportPeriodEnd
      -- a forced report is made for a period that has one already
      if force = false ∧ last.any (periodEnd ≤ ·) then
        pure (.skipped [.lit "이미 보고됨(period_end=", .day (last.getD 0), .lit ")"])
      else do
        let evalReport ← Effect.lift (app.evalReport db)
        -- the period starts after the end of the last report, forced or not
        let activity := db.loadPeriodActivity app.auditTs last
        let body ← Effect.lift
          (ReportBody.render { periodStart := last, periodEnd, equityRows, evalReport, activity })
        Effect.change (·.recordReport periodEnd (file.getD "") body)
        pure (.generated file periodEnd)
  else pure (.skipped [.lit "DATABASE_URL 미설정 — 보고서는 페이퍼 이력(DB) 필요"])

/-- `scheduled_report`: on a holiday only. -/
def scheduledReport (app : App) (now : Datetime) (file : Option String) :
    Effect Exn Archive ReportReply :=
  if app.settings.persisted then
    if isTradingDay now.date app.holidays then
      pure (.skipped [.lit "거래일 — 보고서는 휴장일에 생성"])
    else generateReport app false file
  else pure (.skipped [.lit "DATABASE_URL 미설정 — 보고서는 페이퍼 이력(DB) 필요"])

/-! ### The machine -/

/-- What happens to the server, and the two ways to a report. -/
inductive Event
  | server (e : Server.Event)
  | generate (force : Bool) (file : Option String)
  | scheduled (now : Datetime) (file : Option String)

/-- One event. -/
def step (app : App) (s : Archive) : Event → Archive
  | .server e => { s with server := s.server.step app.settings e }
  | .generate force file => (generateReport app force file s).2
  | .scheduled now file => (scheduledReport app now file s).2

/-- Events one after another. -/
def run (app : App) (s : Archive) (es : List Event) : Archive := es.foldl (step app) s

/-- The first process on an empty database. -/
def start (app : App) : Archive := { server := .start app.settings {} }

end Archive

end AutoTrade
