/-
AutoTrade/Server.lean

The server as a machine (`main.py`, `api/routes.py`): ticks, restarts and the
routes that change the engine, in any order.

A process that ends in the middle of a tick is a tick with a call that raises,
its change landed or not, followed by a restart.  A restart makes a new service
from the settings and the engine state of the database; the histories of the
executor and of the sink are the outside's, and stay.
-/
import AutoTrade.TickSpec

namespace AutoTrade

/-! ### The start of the process -/

/-- `LIVE` needs a database and no sandbox. -/
def Settings.tradingMode (cfg : Settings) : TradingMode :=
  if cfg.mode = .live ∧ cfg.persisted ∧ ¬ cfg.sandboxMode then .live else .dryRun

theorem Settings.persisted_of_live {cfg : Settings} (h : cfg.tradingMode = .live) :
    cfg.persisted := by
  unfold Settings.tradingMode at h
  split at h
  · next hall => exact hall.2.1
  · cases h

namespace Server

/-- `load_engine_state`, without a database nothing. -/
def loadedState (cfg : Settings) (db : Db) : Option (Bool × CircuitBreaker.State) :=
  if cfg.persisted then db.loadEngineState else none

/-- `lifespan`: a new service with the state that was saved. -/
def lifespan (cfg : Settings) (db : Db) : OrderService :=
  let svc := OrderService.new cfg.tradingMode cfg.guardrails cfg.executor none
    { config := cfg.breaker }
  match loadedState cfg db with
  | none => svc
  | some (killSwitch, breaker) =>
    { (if killSwitch then svc.engageKillSwitch else svc) with
      circuitBreaker := svc.circuitBreaker.restoreState breaker }

/-- The first process on a database. -/
def start (cfg : Settings) (db : Db) : Server := { svc := lifespan cfg db, db }

/-- A new process on the same database; what went out stays in the log. -/
def restart (cfg : Settings) (s : Server) : Server :=
  { s with svc := { lifespan cfg s.db with placed := s.svc.placed, emitted := s.svc.emitted } }

/-! ### The routes -/

/-- `POST /api/kill-switch`. -/
def killSwitchRoute (cfg : Settings) (engaged : Bool) (fates : Fates) :
    Effect Exn Server PUnit := do
  Effect.change fun s =>
    { s with svc := if engaged then s.svc.engageKillSwitch else s.svc.releaseKillSwitch }
  Effect.when cfg.persisted do
    saveEngineState fates .saveEngineState
    let svc ← Effect.look Server.svc
    write fates .auditRoute (·.audit "api" "kill_switch" (.engaged svc.killSwitch none))
  send fates .sendRoute

/-- `POST /api/circuit-breaker/reset`. -/
def circuitBreakerReset (cfg : Settings) (fates : Fates) : Effect Exn Server PUnit := do
  let before ← Effect.look fun s => s.svc.circuitBreaker
  Effect.change fun s =>
    { s with svc := { s.svc with circuitBreaker := s.svc.circuitBreaker.reset } }
  Effect.when cfg.persisted do
    saveEngineState fates .saveEngineState
    write fates .auditRoute (·.audit "api" "circuit_breaker_reset" (.before before))
  send fates .sendRoute

/-- `GET /api/reconcile`. -/
def reconcileCheck (cfg : Settings) (holdings : Except Exn Holdings) (now : Datetime)
    (fates : Fates) : Effect Exn Server PUnit :=
  Effect.when cfg.persisted do
    let holdings ← Effect.lift holdings
    let _ ← reconcileAndEnforce fates holdings now false
    pure ⟨⟩

/-! ### The machine -/

/-- What happens to the server, one at a time. -/
inductive Event
  | tick (t : TickInput)
  | restart
  | killSwitch (engaged : Bool) (fates : Fates)
  | resetBreaker (fates : Fates)
  | reconcileCheck (holdings : Except Exn Holdings) (now : Datetime) (fates : Fates)

/-- One event; a tick or a route that raises leaves what it had changed. -/
def step (cfg : Settings) (s : Server) : Event → Server
  | .tick t => (executeTick cfg t s).2
  | .restart => s.restart cfg
  | .killSwitch engaged fates => (killSwitchRoute cfg engaged fates s).2
  | .resetBreaker fates => (circuitBreakerReset cfg fates s).2
  | .reconcileCheck holdings now fates => (Server.reconcileCheck cfg holdings now fates s).2

/-- Events one after another. -/
def run (cfg : Settings) (s : Server) (es : List Event) : Server := es.foldl (step cfg) s

/-! ### What the routes leave alone -/

/-- The routes trade nothing: they change neither the orders, sent or recorded,
nor the paper book, but only the switch, the breaker and the rest of the
database. -/
structure Routed (s s' : Server) : Prop where
  svc : s'.svc = { s.svc with
    killSwitch := s'.svc.killSwitch, circuitBreaker := s'.svc.circuitBreaker }
  orders : s'.db.orders = s.db.orders
  book : s.db.KeepsBook s'.db

theorem Untraded.routed {s s' : Server} (h : Untraded s s') : Routed s s' := by
  refine ⟨?_, h.orders, h.book⟩
  rw [h.svc]

instance : IsPreorder Server Routed where
  refl _ := ⟨rfl, rfl, Or.inl rfl⟩
  trans a b c h h' := by
    refine ⟨?_, h'.orders.trans h.orders, h.book.trans h'.book⟩
    rw [h'.svc, h.svc]

section Routes

variable {r : Server → Server → Prop} [IsPreorder Server r]

/-- After its change of the switch the route only saves, audits and sends. -/
theorem killSwitchRoute_respects (hr : ∀ s s', Untraded s s' → r s s') (cfg : Settings)
    (engaged : Bool) (fates : Fates)
    (hchange : ∀ s : Server, r s
      { s with svc := if engaged then s.svc.engageKillSwitch else s.svc.releaseKillSwitch }) :
    Effect.Respects r (killSwitchRoute cfg engaged fates) := by
  refine (Effect.respects_change hchange).bind fun _ => ?_
  refine (Effect.respects_when ?_).bind fun _ => send_untraded.mono hr
  refine (saveEngineState_untraded.mono hr).bind fun _ => ?_
  exact (Effect.respects_look _).bind fun _ => (audit_untraded _ _ _).mono hr

/-- After its reset of the breaker the route only saves, audits and sends. -/
theorem circuitBreakerReset_respects (hr : ∀ s s', Untraded s s' → r s s') (cfg : Settings)
    (fates : Fates)
    (hchange : ∀ s : Server, r s
      { s with svc := { s.svc with circuitBreaker := s.svc.circuitBreaker.reset } }) :
    Effect.Respects r (circuitBreakerReset cfg fates) := by
  refine (Effect.respects_look _).bind fun before => ?_
  refine (Effect.respects_change hchange).bind fun _ => ?_
  refine (Effect.respects_when ?_).bind fun _ => send_untraded.mono hr
  exact (saveEngineState_untraded.mono hr).bind fun _ => (audit_untraded _ _ _).mono hr

end Routes

theorem killSwitchRoute_routed (cfg : Settings) (engaged : Bool) (fates : Fates) :
    Effect.Respects Routed (killSwitchRoute cfg engaged fates) := by
  refine killSwitchRoute_respects (fun _ _ => Untraded.routed) cfg engaged fates fun s => ?_
  rcases engaged with - | -
  · exact ⟨rfl, rfl, Or.inl rfl⟩
  · exact ⟨rfl, rfl, Or.inl rfl⟩

theorem circuitBreakerReset_routed (cfg : Settings) (fates : Fates) :
    Effect.Respects Routed (circuitBreakerReset cfg fates) :=
  circuitBreakerReset_respects (fun _ _ => Untraded.routed) cfg fates fun _ =>
    ⟨rfl, rfl, Or.inl rfl⟩

theorem reconcileCheck_untraded (cfg : Settings) (holdings : Except Exn Holdings)
    (now : Datetime) (fates : Fates) :
    Effect.Respects Untraded (Server.reconcileCheck cfg holdings now fates) := by
  refine Effect.respects_when ?_
  refine (Effect.respects_lift _).bind fun h => ?_
  exact (reconcileAndEnforce_untraded _ _ _ _).bind fun _ => Effect.respects_pure _

/-- **What a step can do**: a tick, a restart, or something that trades
nothing. -/
theorem step_cases (cfg : Settings) (s : Server) (e : Event) :
    (∃ t, e = .tick t ∧ TickEnds cfg t s (step cfg s e)) ∨
      (e = .restart ∧ step cfg s e = s.restart cfg) ∨
      ((∀ t, e ≠ .tick t) ∧ e ≠ .restart ∧ Routed s (step cfg s e)) := by
  cases e with
  | tick t => exact Or.inl ⟨t, rfl, executeTick_ends cfg t s⟩
  | restart => exact Or.inr (Or.inl ⟨rfl, rfl⟩)
  | killSwitch engaged fates =>
    exact Or.inr (Or.inr ⟨by simp, by simp, killSwitchRoute_routed cfg engaged fates s⟩)
  | resetBreaker fates =>
    exact Or.inr (Or.inr ⟨by simp, by simp, circuitBreakerReset_routed cfg fates s⟩)
  | reconcileCheck holdings now fates =>
    exact Or.inr (Or.inr ⟨by simp, by simp,
      (reconcileCheck_untraded cfg holdings now fates s).routed⟩)

/-! ### What holds of every process -/

/-- The service of a process on the settings `cfg`: set up by `lifespan`, and
with one record of its answers in two places. -/
structure Configured (cfg : Settings) (s : Server) : Prop where
  mode : s.svc.mode = cfg.tradingMode
  config : s.svc.config = cfg.guardrails
  executor : s.svc.executor = cfg.executor
  audit : s.svc.audit = none
  agrees : OnceLog.Agrees OrderResult.clientOrderId s.svc.seen s.svc.ledger

theorem lifespan_setup (cfg : Settings) (db : Db) :
    lifespan cfg db = { OrderService.new cfg.tradingMode cfg.guardrails cfg.executor none
        { config := cfg.breaker } with
      killSwitch := (lifespan cfg db).killSwitch
      circuitBreaker := (lifespan cfg db).circuitBreaker } := by
  unfold lifespan
  rcases loadedState cfg db with - | ⟨killSwitch, breaker⟩
  · rfl
  · rcases killSwitch with - | -
    · rfl
    · rfl

theorem configured_start (cfg : Settings) (db : Db) : Configured cfg (start cfg db) := by
  refine ⟨?_, ?_, ?_, ?_, ?_⟩
  all_goals rw [start, lifespan_setup]
  · rfl
  · rfl
  · rfl
  · rfl
  · exact OnceLog.agrees_empty

theorem configured_restart (cfg : Settings) (s : Server) : Configured cfg (s.restart cfg) := by
  have h := configured_start cfg s.db
  exact ⟨h.mode, h.config, h.executor, h.audit, h.agrees⟩

theorem Configured.routed {cfg : Settings} {s s' : Server} (h : Configured cfg s)
    (hr : Routed s s') : Configured cfg s' := by
  refine ⟨?_, ?_, ?_, ?_, ?_⟩
  all_goals rw [hr.svc]
  · exact h.mode
  · exact h.config
  · exact h.executor
  · exact h.audit
  · exact h.agrees

/-- A tick leaves the set-up of the service and the agreement of its records. -/
theorem Configured.runTick {cfg : Settings} {s s' : Server} (h : Configured cfg s)
    (args : TickArgs) (hsvc : s'.svc = (AutoTrade.runTick args s.svc).2) : Configured cfg s' := by
  obtain ⟨orders, -, -, hsame, hagrees⟩ := @runTick_rule
    (fun _ svc => (svc.mode = s.svc.mode ∧ svc.config = s.svc.config ∧
        svc.executor = s.svc.executor ∧ svc.audit = s.svc.audit) ∧
      OnceLog.Agrees OrderResult.clientOrderId svc.seen svc.ledger) args s.svc
    ⟨⟨rfl, rfl, rfl, rfl⟩, h.agrees⟩ (fun g _ => ⟨⟨rfl, rfl, rfl, rfl⟩, h.agrees⟩) (by
      rintro g decisions - - d - orders svc order res svc' - ⟨⟨hm, hc, he, ha⟩, hagrees⟩ hsub
      have hset := hsub.sameSetup
      exact ⟨⟨hset.mode.trans hm, hset.config.trans hc, hset.executor.trans he,
        hset.audit.trans ha⟩, hsub.agrees hagrees⟩)
  obtain ⟨hm, hc, he, ha⟩ := hsame
  rw [← hsvc] at hm hc he ha hagrees
  exact ⟨hm.trans h.mode, hc.trans h.config, he.trans h.executor, ha.trans h.audit, hagrees⟩

theorem Configured.step {cfg : Settings} {s : Server} (h : Configured cfg s) (e : Event) :
    Configured cfg (s.step cfg e) := by
  -- a tick keeps the set-up, a restart makes it anew, the rest leaves it
  rcases step_cases cfg s e with ⟨t, -, hends⟩ | ⟨-, hrestart⟩ | ⟨-, -, hrouted⟩
  · cases hends with
    | unopened hsame => exact h.routed hsame.routed
    | closed htoss hopen hopens hclose =>
      exact (h.routed hopens.untraded.routed).runTick _ hclose.svc
  · rw [hrestart]
    exact configured_restart cfg s
  · exact h.routed hrouted

/-- **Every process is set up by its settings.** -/
theorem Configured.run {cfg : Settings} {s : Server} (h : Configured cfg s) (es : List Event) :
    Configured cfg (s.run cfg es) := Run.foldl_invariant (fun _ e hs => hs.step e) h es

end Server

/-! ### A server on the market with a flat price -/

namespace Sample

/-- Live, with a broker that takes every order, no entry gate but the costs, and
a model to ask. -/
def settings : Settings where
  mode := .live
  guardrails := { perSymbolMaxWeight := 1 }
  anthropicApiKey := true
  dailyLlmDecisionCap := 0
  entryGate := { config := { costMultiple := 0 } }
  regime := none
  executor := some fun _ _ => .ok "sent"

/-- The account with `n` shares that trade at 1000 won. -/
def account (n : ℚ) : Holdings where
  marketValue := .ofKrw (1000 * n)
  items := [holding "005930" n]

/-- A tick at `tenOClock` on the account, whose model buys everything; its ids
start with `id`. -/
def tickInput (id : ClientOrderId) (holdings : Holdings) (fates : Fates) : TickInput where
  toss := some (flatToss 1000000 holdings)
  prices := fun _ => .ok []
  watch := .ok []
  llm := buyAll
  webSearch := fun ctx => .ok { symbol := ctx.symbol, summary := "" }
  now := tenOClock
  stdev := fun _ => 0
  stamps := fun i => ⟨id ++ toString i, tenOClock⟩
  fates

/-- Every call returns. -/
def returning : Fates := fun _ => .returns

/-- Every call but `a` returns, and that one raises with nothing done. -/
def failing (a : Await) : Fates := fun b => if b = a then .raises false else .returns

end Sample

end AutoTrade
