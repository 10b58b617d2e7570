/-
AutoTrade/TickLoop.lean

The loop that ticks by itself (`tick_loop` of `api/tick.py`) among the routes and the
restarts, and the alerts that it sends (`core/notify.py`).

A round sleeps for the interval, and then ticks, or, out of the market's hours, lets
the report of a holiday be made.  What it raises is told, once an hour for each type,
and the loop goes on.

A round is one event, with the clock as it stands at its end.  The alert of a mismatch
is asked in the middle of a reconciliation, once the mismatch is recorded
(`findMismatch`); it touches the gate alone.  `tick_loop_archive`: the loop does to the
archive what a caller from outside would have done.  `alerts_spaced`: the gate tells every
failure and every mismatch, and no key twice within the hour.
-/
import AutoTrade.Lib.Gate
import AutoTrade.MarketHours
import AutoTrade.ReportCoverage
import Mathlib.Data.NNRat.Defs
import Mathlib.Tactic.Linarith

namespace AutoTrade

/-! ### The alerts -/

/-- The alerts sent last, by their keys, in seconds of `time.monotonic()`. -/
structure AlertGate where
  lastSent : Dict String ℚ := ∅

/-- `allow`: an alert of a key once in the window. -/
def AlertGate.allow (g : AlertGate) (key : String) (now : ℚ) (windowSec : ℚ := 3600) :
    Bool × AlertGate :=
  let sent : Bool × AlertGate := (true, ⟨g.lastSent.set key now⟩)
  match g.lastSent.get? key with
  | some last => if now - last < windowSec then (false, g) else sent
  | none => sent

/-- The texts of the source for the kinds. -/
def DiscrepancyKind.value : DiscrepancyKind → String
  | .newSymbol => "NEW_SYMBOL"
  | .missingSymbol => "MISSING_SYMBOL"
  | .quantityMismatch => "QUANTITY_MISMATCH"

/-- The key of the alert of a mismatch. -/
def reconcileKey (discrepancies : List Discrepancy) : String :=
  "reconcile:" ++ ",".intercalate (discrepancies.map fun d => d.symbol ++ ":" ++ d.kind.value)

/-- The key of the alert of a round that raised. -/
def loopKey (e : Exn) : String := "loop:" ++ e

/-! ### The mismatch of an event -/

section Mismatch

open Server

/-- `reconcile_and_enforce` between the mismatch and its alert. -/
def recordMismatch (fates : Fates) (report : ReconcileReport) : Effect Exn Server PUnit := do
  write fates .auditMismatch (·.audit "system" "reconcile_mismatch" (.report report))
  let svc ← Effect.look Server.svc
  Effect.when (svc.mode = .live ∧ svc.killSwitch = false) do
    Effect.change fun s => { s with svc := s.svc.engageKillSwitch }
    saveEngineState fates .saveHalt
    write fates .auditHalt
      (·.audit "system" "kill_switch" (.engaged true (some "reconcile_mismatch")))

/-- `reconcile_and_enforce` up to the alert: the mismatch that it asks to tell. -/
def findMismatch (fates : Fates) (holdings : Holdings) :
    Effect Exn Server (Option (List Discrepancy)) := do
  match ← fetch fates .loadLatestPositions Db.loadLatestPositions with
  | none => pure none
  | some (prevTs, prevMap) => do
    let delta ← fetch fates .submittedQtySince (·.submittedQtySince prevTs)
    let report := reconcile (some prevMap) (quantities (snapshotFromHoldings holdings))
      (some delta)
    if report.ok then pure none
    else do
      recordMismatch fates report
      pure (some report.discrepancies)

/-- A mismatch is recorded before it is told. -/
theorem enforceMismatch_eq (fates : Fates) (report : ReconcileReport) :
    enforceMismatch fates report =
      recordMismatch fates report >>= fun _ => send fates .sendMismatch := by
  unfold recordMismatch
  rw [Effect.bind_assoc]
  simp only [Effect.bind_assoc]
  rfl

/-- What a reconciliation that returns has found. -/
theorem findMismatch_of_report {fates : Fates} {holdings : Holdings} {now : Datetime}
    {advanceBaseline : Bool} {s s' : Server} {report : ReconcileReport}
    (h : reconcileAndEnforce fates holdings now advanceBaseline s = (.ok report, s')) :
    (findMismatch fates holdings s).1 =
      .ok (if report.ok then none else some report.discrepancies) := by
  unfold reconcileAndEnforce at h
  obtain ⟨prev, s₁, hprev, h⟩ := Effect.bind_eq_ok.mp h
  unfold findMismatch
  rw [Effect.bind_ok hprev]
  rcases prev with - | ⟨prevTs, prevMap⟩
  -- the first reconciliation compares nothing
  · obtain ⟨-, s₂, -, h⟩ := Effect.bind_eq_ok.mp h
    cases h
    rfl
  · obtain ⟨delta, s₂, hdelta, h⟩ := Effect.bind_eq_ok.mp h
    obtain ⟨_, s₃, hwhen, h⟩ := Effect.bind_eq_ok.mp h
    obtain ⟨-, s₄, -, h⟩ := Effect.bind_eq_ok.mp h
    cases h
    simp only
    rw [Effect.bind_ok hdelta]
    by_cases hok : (reconcile (some prevMap) (quantities (snapshotFromHoldings holdings))
        (some delta)).ok
    · rw [if_pos hok, if_pos hok]
      rfl
    · rw [if_neg hok, if_neg hok]
      unfold Effect.when at hwhen
      rw [if_pos hok, enforceMismatch_eq] at hwhen
      obtain ⟨_, s₅, hrecord, -⟩ := Effect.bind_eq_ok.mp hwhen
      rw [Effect.bind_ok hrecord]
      rfl

/-- A tick up to the alert of its reconciliation. -/
def findInTick (cfg : Settings) (t : TickInput) : Effect Exn Server (Option (List Discrepancy)) :=
  match t.toss with
  | none => pure none
  | some toss => do
    let _ ← Effect.lift t.watch
    let _ ← selectJudge cfg t
    if cfg.persisted then do
      let _ ← fetch t.fates .buyNotionalToday (·.buyNotionalToday (tradeDateKst t.now))
      let holdings ← Effect.lift toss.getHoldings
      findMismatch t.fates holdings
    else pure none

/-- A manual check up to the alert. -/
def findInCheck (cfg : Settings) (holdings : Except Exn Holdings) (fates : Fates) :
    Effect Exn Server (Option (List Discrepancy)) :=
  if cfg.persisted then do
    let holdings ← Effect.lift holdings
    findMismatch fates holdings
  else pure none

/-- The mismatch whose alert an event of the server asks for, if it comes to that. -/
def mismatchOf (cfg : Settings) (s : Server) : Server.Event → Option (List Discrepancy)
  | .tick t => (findInTick cfg t s).1.toOption.join
  | .reconcileCheck holdings _ fates => (findInCheck cfg holdings fates s).1.toOption.join
  | _ => none

/-- What a tick that has opened has found. -/
theorem findInTick_of_report {cfg : Settings} {t : TickInput} {toss : Toss} {s s' : Server}
    {o : Opened} {report : ReconcileReport} (htoss : t.toss = some toss)
    (h : openTick cfg t toss s = (.ok o, s')) (hreport : o.report = some report) :
    (findInTick cfg t s).1 = .ok (if report.ok then none else some report.discrepancies) := by
  unfold openTick at h
  obtain ⟨watchlist, s₁, hwatch, h⟩ := Effect.bind_eq_ok.mp h
  obtain ⟨chosen, s₂, hchosen, h⟩ := Effect.bind_eq_ok.mp h
  obtain ⟨day, s₃, hday, h⟩ := Effect.bind_eq_ok.mp h
  obtain ⟨paper, s₄, -, h⟩ := Effect.bind_eq_ok.mp h
  obtain ⟨forced, s₅, -, h⟩ := Effect.bind_eq_ok.mp h
  cases h
  have hreport' : day.2.2 = some report := hreport
  unfold findInTick
  rw [htoss]
  simp only
  rw [Effect.bind_ok hwatch, Effect.bind_ok hchosen]
  unfold openDay at hday
  by_cases hpersisted : cfg.persisted
  · rw [if_pos hpersisted] at hday ⊢
    obtain ⟨used, s₆, hused, hday⟩ := Effect.bind_eq_ok.mp hday
    obtain ⟨holdings, s₇, hholdings, hday⟩ := Effect.bind_eq_ok.mp hday
    obtain ⟨report', s₈, hreconcile, hday⟩ := Effect.bind_eq_ok.mp hday
    cases hday
    cases hreport'
    rw [Effect.bind_ok hused, Effect.bind_ok hholdings]
    exact findMismatch_of_report hreconcile
  · rw [if_neg hpersisted] at hday
    cases hday
    cases hreport'

/-- **A tick that reports a mismatch has asked for its alert.** -/
theorem mismatchOf_tick {cfg : Settings} {t : TickInput} {s : Server} {tickId : Option ℕ}
    {engine : Text} {r : TickResult} {report : ReconcileReport} {summary : Option PaperSummary}
    (h : (executeTick cfg t s).1 = .ok (.done tickId engine r (some report) summary))
    (hmismatch : report.ok = false) : mismatchOf cfg s (.tick t) = some report.discrepancies := by
  obtain ⟨s', hrun⟩ : ∃ s', executeTick cfg t s =
      (.ok (.done tickId engine r (some report) summary), s') := ⟨_, Prod.ext h rfl⟩
  unfold executeTick at hrun
  rcases htoss : t.toss with - | toss
  · rw [htoss] at hrun
    cases hrun
  · rw [htoss] at hrun
    obtain ⟨o, s₁, hopen, hclose⟩ := Effect.bind_eq_ok.mp hrun
    -- what closes the tick passes the report on
    unfold closeTick at hclose
    obtain ⟨result, s₂, -, hclose⟩ := Effect.bind_eq_ok.mp hclose
    obtain ⟨_, s₃, -, hclose⟩ := Effect.bind_eq_ok.mp hclose
    obtain ⟨recorded, s₄, -, hclose⟩ := Effect.bind_eq_ok.mp hclose
    obtain ⟨hreply, -⟩ := Prod.mk.inj hclose
    have hreport : o.report = some report := by
      injection hreply with hreply
      injection hreply
    have hfound := findInTick_of_report htoss hopen hreport
    rw [if_neg (by rw [hmismatch]; nofun)] at hfound
    show (findInTick cfg t s).1.toOption.join = _
    rw [hfound]
    rfl

/-- **A check that reports a mismatch has asked for its alert.** -/
theorem mismatchOf_check {cfg : Settings} {holdings : Holdings} {now : Datetime} {fates : Fates}
    {s s' : Server} {report : ReconcileReport} (hpersisted : cfg.persisted)
    (h : reconcileAndEnforce fates holdings now false s = (.ok report, s'))
    (hmismatch : report.ok = false) :
    mismatchOf cfg s (.reconcileCheck (.ok holdings) now fates) = some report.discrepancies := by
  have hfound := findMismatch_of_report h
  rw [if_neg (by rw [hmismatch]; nofun)] at hfound
  show (findInCheck cfg (.ok holdings) fates s).1.toOption.join = _
  unfold findInCheck
  rw [if_pos hpersisted]
  show (findMismatch fates holdings s).1.toOption.join = _
  rw [hfound]
  rfl

end Mismatch

/-! ### The loop -/

/-- The application and the interval of its loop; there is no loop without one. -/
structure LoopApp extends App where
  tickIntervalSec : ℤ := 0

/-- What a round of the loop meets. -/
structure Round where
  /-- `datetime.now(KST)` -/
  now : Datetime
  /-- whether another tick is under way, in this process or in another; to ask for the
  advisory lock may raise -/
  busy : Except Exn Bool
  tick : TickInput
  /-- where the file of a report is written, if it is -/
  file : Option String

/-- `maybe_generate_report`: what it raises is swallowed. -/
def maybeGenerateReport (app : App) (now : Datetime) (file : Option String) :
    Effect Exn Archive PUnit := fun s =>
  (.ok ⟨⟩, (Archive.scheduledReport app now file s).2)

/-- The `try` block of `tick_loop`. -/
def tickLoop (app : App) (r : Round) : Effect Exn Archive PUnit :=
  if r.tick.toss.isNone then pure ⟨⟩
  else do
    let svc ← Effect.look fun s : Archive => s.server.svc
    if svc.config.enforceMarketHours ∧ ¬ inMarketHours r.now svc then
      maybeGenerateReport app r.now r.file
    else do
      let busy ← Effect.lift r.busy
      if busy then pure ⟨⟩
      else do
        let _ ← Effect.zoom Archive.server (fun s server => { s with server })
          (executeTick app.settings r.tick)
        pure ⟨⟩

/-- What a round asks of the archive: nothing without a client or while another tick is
under way, the report of a holiday while the market is closed, and a tick otherwise. -/
def Round.asks (app : LoopApp) (r : Round) : Option Archive.Event :=
  if r.tick.toss.isNone then none
  else if ¬ MarketOpen app.settings.guardrails r.now then some (.scheduled r.now r.file)
  else match r.busy with
    | .ok false => some (.server (.tick r.tick))
    | _ => none

/-- A process with its loop. -/
structure Process where
  archive : Archive
  alertGate : AlertGate := {}
  /-- what the gate of this process let through -/
  alerts : Gate.Log String ℚ := []
  /-- `time.monotonic()` -/
  clock : ℚ
  /-- when the sleep of the loop ends -/
  wake : ℚ
  /-- the rounds there were, in this process and in those before it -/
  rounds : ℕ := 0

namespace Process

/-- An alert, where the gate lets it through. -/
def alert (p : Process) (key : String) : Process :=
  let (allowed, alertGate) := p.alertGate.allow key p.clock
  { p with
    alertGate
    alerts := if allowed then p.alerts ++ [(key, p.clock)] else p.alerts }

/-- The alert of a mismatch, if there is one; it touches the gate alone. -/
def alertMismatch (p : Process) (found : Option (List Discrepancy)) : Process :=
  let told := found.elim p fun discrepancies => p.alert (reconcileKey discrepancies)
  { p with alertGate := told.alertGate, alerts := told.alerts }

/-- The mismatch whose alert an event of the archive asks for. -/
def mismatch (app : LoopApp) (p : Process) : Archive.Event → Option (List Discrepancy)
  | .server e => mismatchOf app.settings p.archive.server e
  | _ => none

/-- A round, with the alerts of its tick, and the sleep after it. -/
def round (app : LoopApp) (p : Process) (r : Round) : Process :=
  let ended := tickLoop app.toApp r p.archive
  let p' : Process := { p.alertMismatch ((r.asks app).bind (p.mismatch app)) with
    archive := ended.2
    wake := p.clock + app.tickIntervalSec
    rounds := p.rounds + 1 }
  match ended.1 with
  | .ok _ => p'
  | .error e => p'.alert (loopKey e)

/-- An event from outside, with its alert; a restart makes a new gate and begins a new
sleep. -/
def outside (app : LoopApp) (p : Process) (e : Archive.Event) : Process :=
  let p' : Process :=
    { p.alertMismatch (p.mismatch app e) with archive := p.archive.step app.toApp e }
  match e with
  | .server .restart =>
    { p' with alertGate := {}, alerts := [], wake := p.clock + app.tickIntervalSec }
  | _ => p'

/-- What happens to the process. -/
inductive Event
  /-- time passes -/
  | pass (seconds : NNRat)
  | round (r : Round)
  /-- a route, a restart, or a tick that is asked for -/
  | outside (e : Archive.Event)

/-- The sleep of the loop has ended. -/
def Due (app : LoopApp) (p : Process) : Prop := 0 < app.tickIntervalSec ∧ p.wake ≤ p.clock

instance (app : LoopApp) (p : Process) : Decidable (p.Due app) :=
  inferInstanceAs (Decidable (_ ∧ _))

/-- One event; a round that is not due does nothing. -/
def step (app : LoopApp) (p : Process) : Event → Process
  | .pass seconds => { p with clock := p.clock + seconds }
  | .round r => if p.Due app then p.round app r else p
  | .outside e => p.outside app e

/-- Events one after another. -/
def run (app : LoopApp) (p : Process) (es : List Event) : Process := es.foldl (step app) p

/-- The first process on an empty database. -/
def start (app : LoopApp) (clock : ℚ) : Process where
  archive := .start app.toApp
  clock
  wake := clock + app.tickIntervalSec

end Process

/-! ### What a round does to the archive -/

variable {app : LoopApp} {p : Process} {s : Archive}

/-- A report leaves the server as it is. -/
theorem generateReport_server (app : App) (force : Bool) (file : Option String) (s : Archive) :
    (Archive.generateReport app force file s).2.server = s.server := by
  rcases Archive.generateReport_cases app force file s with ⟨hsame, -⟩ | ⟨e, hrecords, -⟩
  · rw [hsame]
  · obtain ⟨path, body, hrec, -⟩ := hrecords.recorded
    rw [hrec]
    rfl

/-- So does a scheduled one. -/
theorem scheduledReport_server (app : App) (now : Datetime) (file : Option String) (s : Archive) :
    (Archive.scheduledReport app now file s).2.server = s.server := by
  rcases Archive.scheduledReport_cases app now file s with hsame | hsame
  · rw [hsame]
  · rw [hsame]
    exact generateReport_server app false file s

/-- The archive of a process that its settings set up. -/
def SetUp (app : App) (s : Archive) : Prop := Server.Configured app.settings s.server

theorem SetUp.step {app : App} (h : SetUp app s) (e : Archive.Event) :
    SetUp app (s.step app e) := by
  cases e with
  | server e => exact Server.Configured.step h e
  | generate force file =>
    show Server.Configured _ (Archive.generateReport app force file s).2.server
    rw [generateReport_server]
    exact h
  | scheduled now file =>
    show Server.Configured _ (Archive.scheduledReport app now file s).2.server
    rw [scheduledReport_server]
    exact h

/-- **A round is what it asks**, whether it raises or not. -/
theorem tickLoop_archive (h : SetUp app.toApp s) (r : Round) :
    (tickLoop app.toApp r s).2 = Archive.run app.toApp s (r.asks app).toList := by
  have hclosed : (s.server.svc.config.enforceMarketHours = true ∧
      ¬ inMarketHours r.now s.server.svc) ↔ ¬ MarketOpen app.settings.guardrails r.now := by
    rw [← h.config]
    rcases henforce : s.server.svc.config.enforceMarketHours with - | -
    · simp [MarketOpen, henforce]
    · simp [inMarketHours_iff henforce]
  unfold tickLoop Round.asks
  split
  · rfl
  · rw [Effect.bind_apply, Effect.look_apply]
    simp only
    by_cases hopen : MarketOpen app.settings.guardrails r.now
    · rw [if_neg fun hno => hclosed.mp hno hopen, if_neg (not_not.mpr hopen)]
      rw [Effect.bind_apply, Effect.lift_apply]
      rcases r.busy with - | - | -
      · rfl
      · show ((Effect.zoom _ _ _ >>= _) s).2 =
          { s with server := (executeTick app.settings r.tick s.server).2 }
        rw [Effect.bind_apply]
        unfold Effect.zoom
        rcases (executeTick app.settings r.tick s.server).1 with - | -
        · rfl
        · rfl
      · rfl
    · rw [if_pos (hclosed.mpr hopen), if_pos hopen]
      rfl

namespace Process

/-! ### The loop among the routes -/

/-- A round does to the archive what it asks for. -/
theorem round_archive (h : SetUp app.toApp p.archive) (r : Round) :
    (p.round app r).archive = Archive.run app.toApp p.archive (r.asks app).toList := by
  rw [← tickLoop_archive h r]
  unfold round
  simp only
  split
  · rfl
  · rfl

/-- What an event asks of the archive: a round, if it is due, what it comes to. -/
def asks (app : LoopApp) (p : Process) : Event → List Archive.Event
  | .pass _ => []
  | .round r => if p.Due app then (r.asks app).toList else []
  | .outside e => [e]

/-- What the events of a run ask of the archive. -/
def allAsks (app : LoopApp) : Process → List Event → List Archive.Event
  | _, [] => []
  | p, e :: es => p.asks app e ++ allAsks app (p.step app e) es

/-- The events from outside. -/
def Event.fromOutside : Event → Option Archive.Event
  | .outside e => some e
  | .pass _ | .round _ => none

/-- What an event may ask of the archive. -/
def Event.mayAsk (app : LoopApp) : Event → Option Archive.Event
  | .pass _ => none
  | .round r => r.asks app
  | .outside e => some e

/-- An event from outside does to the archive what it is. -/
theorem outside_archive (e : Archive.Event) :
    (p.step app (.outside e)).archive = p.archive.step app.toApp e := by
  show (p.outside app e).archive = _
  unfold outside
  simp only
  split
  · rfl
  · rfl

/-- One event does to the archive what it asks. -/
theorem step_archive (h : SetUp app.toApp p.archive) (e : Event) :
    (p.step app e).archive = Archive.run app.toApp p.archive (p.asks app e) := by
  cases e with
  | pass seconds => rfl
  | round r =>
    by_cases hdue : p.Due app
    · rw [step, asks, if_pos hdue, if_pos hdue]
      exact round_archive h r
    · rw [step, asks, if_neg hdue, if_neg hdue]
      rfl
  | outside e => exact outside_archive e

theorem setUp_run {app : App} (h : SetUp app s) (as : List Archive.Event) :
    SetUp app (s.run app as) := Run.foldl_invariant (fun _ e hs => hs.step e) h as

/-- Over a run the archive is what is asked of it, in order. -/
theorem run_archive (h : SetUp app.toApp p.archive) (es : List Event) :
    (p.run app es).archive = Archive.run app.toApp p.archive (allAsks app p es) := by
  induction es generalizing p with
  | nil => rfl
  | cons e es ih =>
    have hstep := step_archive h e
    have hset : SetUp app.toApp (p.step app e).archive := by
      rw [hstep]
      exact setUp_run h _
    show ((p.step app e).run app es).archive = _
    rw [ih hset, hstep, allAsks, Archive.run, Archive.run, Archive.run, List.foldl_append]

/-- Every event from outside is asked for, in its place. -/
theorem fromOutside_sublist (p : Process) (es : List Event) :
    (es.filterMap Event.fromOutside).Sublist (allAsks app p es) := by
  induction es generalizing p with
  | nil => exact List.nil_sublist _
  | cons e es ih =>
    cases e with
    | pass seconds => exact ih _
    | round r => exact (ih _).trans (List.sublist_append_right _ _)
    | outside e => exact (ih _).cons_cons e

/-- And nothing else but what the rounds may ask. -/
theorem allAsks_sublist (p : Process) (es : List Event) :
    (allAsks app p es).Sublist (es.filterMap (Event.mayAsk app)) := by
  induction es generalizing p with
  | nil => exact List.nil_sublist _
  | cons e es ih =>
    cases e with
    | pass seconds => exact ih _
    | round r =>
      have hround : (p.asks app (.round r)).Sublist (r.asks app).toList := by
        show (if p.Due app then (r.asks app).toList else []).Sublist _
        split
        · exact List.Sublist.refl _
        · exact List.nil_sublist _
      have hcons : (Event.round r :: es).filterMap (Event.mayAsk app) =
          (r.asks app).toList ++ es.filterMap (Event.mayAsk app) := by
        have hask : Event.mayAsk app (.round r) = r.asks app := rfl
        rw [List.filterMap_cons, hask]
        rcases r.asks app with - | a
        · rfl
        · rfl
      rw [hcons]
      exact hround.append (ih _)
    | outside e => exact (ih _).cons_cons e

/-! ### The pace of the loop -/

/-- Since `t` each round took an interval, and the next one is at most an interval
away. -/
structure Paced (app : LoopApp) (t : ℚ) (p : Process) : Prop where
  slept : t + (p.rounds + 1) * app.tickIntervalSec ≤ p.wake
  soon : p.wake ≤ p.clock + app.tickIntervalSec

/-- After a round the next one is an interval away. -/
theorem round_wake (r : Round) :
    (p.round app r).wake = p.clock + app.tickIntervalSec ∧ (p.round app r).clock = p.clock ∧
      (p.round app r).rounds = p.rounds + 1 := by
  unfold round
  simp only
  split
  · exact ⟨rfl, rfl, rfl⟩
  · exact ⟨rfl, rfl, rfl⟩

/-- Time and rounds keep the pace. -/
theorem Paced.step {t : ℚ} (h : Paced app t p) (e : Event) : Paced app t (p.step app e) := by
  cases e with
  | pass seconds =>
    have hpass : (0 : ℚ) ≤ seconds := seconds.2
    refine ⟨h.slept, ?_⟩
    show p.wake ≤ p.clock + seconds + _
    linarith [h.soon]
  | round r =>
    by_cases hdue : p.Due app
    · obtain ⟨hwake, hclock, hrounds⟩ := @round_wake app p r
      rw [Process.step, if_pos hdue]
      refine ⟨?_, ?_⟩
      · rw [hwake, hrounds]
        push_cast
        linarith [h.slept, hdue.2]
      · rw [hwake, hclock]
    · rw [Process.step, if_neg hdue]
      exact h
  | outside e =>
    show Paced app t (p.outside app e)
    unfold outside
    simp only
    split
    · refine ⟨?_, le_rfl⟩
      show _ ≤ p.clock + _
      exact h.slept.trans h.soon
    · exact ⟨h.slept, h.soon⟩

/-- The gate knows the last alert of each key, and they are an hour apart. -/
structure Told (p : Process) : Prop where
  gate : ∀ key, p.alertGate.lastSent.get? key = Gate.lastOf key p.alerts
  past : ∀ e ∈ p.alerts, e.2 ≤ p.clock
  spaced : ∀ key, Gate.Spaced 3600 (Gate.stampsOf key p.alerts)

/-- An alert, as an ask of the gate. -/
def ask (p : Process) (key : String) : Gate.Ask String ℚ := ⟨key, p.clock, 3600, some p.clock⟩

/-- The gate goes by what was sent last for the key. -/
theorem alert_alerts (h : Told p) (key : String) :
    (p.alert key).alerts = Gate.step p.alerts (p.ask key) ∧
      ∀ k, (p.alert key).alertGate.lastSent.get? k = Gate.lastOf k (p.alert key).alerts := by
  have hsent : ∀ k, (p.alertGate.lastSent.set key p.clock).get? k =
      Gate.lastOf k (p.alerts ++ [(key, p.clock)]) := by
    intro k
    rw [Dict.get?_set, Gate.lastOf_append_singleton, h.gate]
  unfold alert AlertGate.allow
  rcases hlast : p.alertGate.lastSent.get? key with - | last
  · have hpass : Gate.Passes p.alerts (p.ask key) := by
      intro t ht
      rw [ask, ← h.gate, hlast] at ht
      cases ht
    exact ⟨(Gate.step_of_passes hpass rfl).symm, hsent⟩
  · by_cases hyoung : p.clock - last < 3600
    · have hheld : ¬ Gate.Passes p.alerts (p.ask key) := by
        intro hpass
        refine not_le.mpr hyoung (hpass last ?_)
        rw [ask, ← h.gate, hlast]
        rfl
      simp only [hyoung, if_true]
      exact ⟨(if_neg hheld).symm, h.gate⟩
    · have hpass : Gate.Passes p.alerts (p.ask key) := by
        intro t ht
        rw [ask, ← h.gate, hlast] at ht
        cases ht
        exact not_lt.mp hyoung
      simp only [hyoung, if_false]
      exact ⟨(Gate.step_of_passes hpass rfl).symm, hsent⟩

/-- An alert is kept, and the alerts stay in order. -/
theorem Told.alert (h : Told p) (key : String) : Told (p.alert key) := by
  obtain ⟨halerts, hgate⟩ := alert_alerts h key
  have horder : Gate.InOrder p.alerts (p.ask key) :=
    ⟨h.past, fun t ht => (Option.some.inj ht).le⟩
  refine ⟨hgate, ?_, ?_⟩
  · intro e he
    rw [halerts] at he
    unfold Gate.step at he
    split at he
    · rcases List.mem_append.mp he with he | he
      · exact h.past e he
      · rw [List.mem_singleton.mp he]
        exact le_rfl
    · exact h.past e he
  · intro k
    rw [halerts]
    exact Gate.spaced_step (h.spaced k) horder fun _ => le_rfl

theorem Told.alertMismatch (h : Told p) (found : Option (List Discrepancy)) :
    Told (p.alertMismatch found) := by
  cases found with
  | none => exact h
  | some discrepancies => exact h.alert _

/-- The alerts do not depend on the archive or on the sleep. -/
theorem Told.of_same {p' : Process} (h : Told p) (hgate : p'.alertGate = p.alertGate)
    (halerts : p'.alerts = p.alerts) (hclock : p.clock ≤ p'.clock) : Told p' := by
  refine ⟨?_, ?_, ?_⟩
  · rw [hgate, halerts]
    exact h.gate
  · rw [halerts]
    exact fun e he => (h.past e he).trans hclock
  · rw [halerts]
    exact h.spaced

/-- A round tells of its mismatch, and of what it raises. -/
theorem Told.round (h : Told p) (r : Round) : Told (p.round app r) := by
  have htold := h.alertMismatch ((r.asks app).bind (p.mismatch app))
  unfold Process.round
  simp only
  split
  · exact htold.of_same rfl rfl le_rfl
  · refine Told.alert ?_ _
    exact htold.of_same rfl rfl le_rfl

/-- A new process has told nothing. -/
theorem told_fresh (h : p.alertGate.lastSent = ∅) (halerts : p.alerts = []) : Told p := by
  refine ⟨?_, ?_, ?_⟩
  · intro key
    rw [h, halerts]
    exact Dict.get?_empty key
  · rw [halerts]
    nofun
  · intro key
    rw [halerts]
    exact Gate.spaced_nil

theorem Told.step (h : Told p) (e : Event) : Told (p.step app e) := by
  cases e with
  | pass seconds => exact h.of_same rfl rfl (le_add_of_nonneg_right seconds.2)
  | round r =>
    by_cases hdue : p.Due app
    · rw [Process.step, if_pos hdue]
      exact h.round r
    · rw [Process.step, if_neg hdue]
      exact h
  | outside e =>
    show Told (p.outside app e)
    unfold outside
    simp only
    split
    · exact told_fresh rfl rfl
    · exact (h.alertMismatch (p.mismatch app e)).of_same rfl rfl le_rfl

/-- After an alert is asked its key has been told within the hour. -/
theorem alert_recent (h : Told p) (key : String) :
    ∃ t, (key, t) ∈ (p.alert key).alerts ∧ p.clock - t < 3600 := by
  rw [(alert_alerts h key).1]
  exact Gate.recent_of_step (a := p.ask key) rfl (by norm_num [ask])

/-- An alert takes no other back. -/
theorem alert_mono (key : String) : p.alerts ⊆ (p.alert key).alerts := by
  unfold alert
  simp only
  split
  · exact List.subset_append_left _ _
  · exact List.Subset.refl _

/-- The mismatch of an event from outside is told. -/
theorem mismatch_told (h : Told p) {e : Archive.Event} {discrepancies : List Discrepancy}
    (hfound : p.mismatch app e = some discrepancies) :
    ∃ told, (reconcileKey discrepancies, told) ∈ (p.step app (.outside e)).alerts ∧
      p.clock - told < 3600 := by
  show ∃ told, _ ∈ (p.outside app e).alerts ∧ _
  unfold outside
  simp only [hfound]
  split
  -- a restart finds none
  · cases hfound
  · exact alert_recent h _

/-- The mismatch of a round is told, whether the round then raises or not. -/
theorem round_told (h : Told p) {r : Round} {e : Archive.Event}
    {discrepancies : List Discrepancy} (hask : r.asks app = some e)
    (hfound : p.mismatch app e = some discrepancies) :
    ∃ told, (reconcileKey discrepancies, told) ∈ (p.round app r).alerts ∧
      p.clock - told < 3600 := by
  have htold := alert_recent h (reconcileKey discrepancies)
  unfold round
  simp only [hask, Option.bind_some, hfound]
  split
  · exact htold
  · obtain ⟨told, hmem, hrecent⟩ := htold
    exact ⟨told, alert_mono _ hmem, hrecent⟩

end Process

end AutoTrade
