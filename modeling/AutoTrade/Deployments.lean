/-
AutoTrade/Deployments.lean

The processes of the server (`main.py`, `core/config.py`, `db/session.py`) and who may
ask something of them (`api/deps.py`, `api/routes.py`).

A process comes up from its environment, or refuses to.  It works on the database that
its settings lead to, on which there may be others, and answers requests and the rounds
of its loop.

A tick takes the lock of its process and, on PostgreSQL, the advisory lock of
`db/lock.py`, which is one for all the schemas of a database.  It does its work as one
event, and holds the locks until it ends; a tick that is called meanwhile is skipped.

`live_asked_for`: whatever comes in, an order goes out only from a process whose
environment asks for it in both places, with a database and without the sandbox, and for
a request that shows the key or the token of the scheduler.  `sandbox_unseen`: a sandbox
does nothing to a schema `public` of its own; and while none of its ticks holds the
lock when another one is called, it is not seen there at all.
-/
import AutoTrade.Lib.Tenants
import AutoTrade.Symbols
import AutoTrade.TickLoop

namespace AutoTrade

/-! ### The environment -/

/-- `(env.get(key) or default).strip().upper()`. -/
def envUpper (env : Dict String String) (key default : String) : List Char :=
  let raw := (env.get? key).getD ""
  (strip (if raw = "" then default else raw).toList).flatMap upper

/-- `load_trading_mode`: real orders need the written confirmation as well. -/
def loadTradingMode (env : Dict String String) : TradingMode × List Text :=
  if envUpper env "TRADING_MODE" "DRY_RUN" ≠ "LIVE".toList then (.dryRun, [])
  else if envUpper env "I_UNDERSTAND_LIVE_REAL_MONEY" "" ≠ "YES".toList then
    (.dryRun, [[.lit ("TRADING_MODE=LIVE 이지만 I_UNDERSTAND_LIVE_REAL_MONEY=YES 확인이 없어 " ++
      "DRY_RUN 으로 강등합니다(실자금 안전장치).")]])
  else
    (.live, [[.lit "⚠️ LIVE 모드 — 실자금 주문이 전송됩니다. 소액 1주부터 검증하세요."]])

/-- Real orders take both variables of the environment. -/
theorem loadTradingMode_eq_live {env : Dict String String} :
    (loadTradingMode env).1 = .live ↔
      envUpper env "TRADING_MODE" "DRY_RUN" = "LIVE".toList ∧
        envUpper env "I_UNDERSTAND_LIVE_REAL_MONEY" "" = "YES".toList := by
  unfold loadTradingMode
  split_ifs with hmode hconfirm
  · exact iff_of_false (by decide) fun h => hmode h.1
  · exact iff_of_false (by decide) fun h => hconfirm h.2
  · exact iff_of_true rfl ⟨not_not.mp hmode, not_not.mp hconfirm⟩

/-! ### A process -/

/-- The settings of a process and the environment that it is started in. -/
structure Deployment extends LoopApp where
  env : Dict String String := ∅
  appEnv : String := "local"
  apiKey : String := "dev-local-key"
  databaseUrl : String := ""
  dbSchema : String := ""
  oidcAudience : String := ""
  schedulerSaEmail : Option String := none
  tossClientId : String := ""
  tossClientSecret : String := ""

/-- What a URL and a schema lead to: the address that a URL names, and the schema that
`search_path` makes of a name. -/
structure Postgres where
  address : String → String
  searchPath : String → String

/-- Where a process keeps its tables. -/
inductive Database
  | memory
  | postgres (address schema : String)
  | other (url : String)
  deriving DecidableEq

/-- An exception with its text. -/
structure Raised where
  exn : Exn
  message : Text

namespace Deployment

variable (d : Deployment) (pg : Postgres)

/-- The database is PostgreSQL, by the head of its address. -/
def usesPostgres : Bool := "postgresql".toList.isPrefixOf d.databaseUrl.toList

/-- The two refusals at the start of `lifespan`. -/
def refusal : Option Raised :=
  if d.appEnv = "production" ∧ d.apiKey = "dev-local-key" then
    some ⟨"RuntimeError", [.lit ("APP_ENV=production 인데 API_KEY 가 기본값(dev-local-key) — " ++
      "기동 거부. Secret Manager 등으로 API_KEY 를 주입하라 (IMPLEMENTATION-PLAN §3.7)")]⟩
  else if d.settings.sandboxMode ∧ d.usesPostgres ∧
      (if d.dbSchema = "" then "public" else d.dbSchema) = "public" then
    some ⟨"RuntimeError", [.lit
      ("SANDBOX_MODE + PostgreSQL 인데 DB_SCHEMA 가 없다(=public) — 기동 거부. " ++
        "합성 거래가 운영 페이퍼 원장·논문 데이터와 같은 스키마에 쌓인다. " ++
        "DB_SCHEMA=sandbox 처럼 전용 스키마를 지정하라(로컬은 sqlite 파일 분리).")]⟩
  else none

/-- `_SCHEMA_RE.match(schema)`; `$` also stands before a final newline. -/
def schemaRe (schema : String) : Bool :=
  let word (cs : List Char) : Bool := match cs with
    | [] => false
    | c :: cs => (c.isAlpha || c = '_') && cs.all fun c => c.isAlphanum || c = '_'
  word schema.toList ||
    (schema.toList.getLast? = some '\n' && word schema.toList.dropLast)

/-- `_valid_schema`. -/
def validSchema (schema : String) : Except Raised String :=
  if schemaRe schema then .ok schema
  else .error ⟨"ValueError", [.lit "허용되지 않는 스키마 이름: ", .str schema]⟩

/-- `make_engine`: without a schema of its own a connection works in `public`. -/
def makeEngine : Except Raised Database :=
  if d.databaseUrl = "" then .ok .memory
  else if d.usesPostgres then
    if d.dbSchema = "" then .ok (.postgres (pg.address d.databaseUrl) "public")
    else (validSchema d.dbSchema).map fun schema =>
      .postgres (pg.address d.databaseUrl) (pg.searchPath schema)
  else .ok (.other d.databaseUrl)

/-- The application, with the mode of its environment. -/
def app : App :=
  { d.toApp with
    settings := { d.settings with
      mode := (loadTradingMode d.env).1
      persisted := d.databaseUrl ≠ "" } }

/-- Whether there is a client: the sandbox's, or one with credentials. -/
def tossClient : Bool :=
  d.settings.sandboxMode || (d.tossClientId ≠ "" && d.tossClientSecret ≠ "")

end Deployment

/-- The tables of a database. -/
structure Tables where
  db : Db := {}
  reports : List ReportRow := []

/-- A process that is up. -/
structure Running where
  deployment : Deployment
  svc : OrderService

namespace Running

/-- The process with the tables it works on. -/
def archive (p : Running) (tables : Tables) : Archive where
  server := { svc := p.svc, db := tables.db }
  reports := tables.reports

/-- The process and the tables, as something has left them. -/
def left (p : Running) (s : Archive) : Running × Tables :=
  ({ p with svc := s.server.svc }, { db := s.server.db, reports := s.reports })

end Running

namespace Deployment

variable (d : Deployment) (pg : Postgres)

/-- `lifespan` until it connects. -/
def opens : Except Raised Database :=
  match d.refusal with
  | some e => .error e
  | none => d.makeEngine pg

/-- The rest of `lifespan`; `connect` is how `init_db` and the loading of the engine
state end. -/
def lifespan (connect : Except Raised Unit) (tables : Tables) : Except Raised Running :=
  (if d.databaseUrl = "" then .ok () else connect).map fun _ =>
    { deployment := d, svc := (Server.start d.app.settings tables.db).svc }

end Deployment

/-! ### Who asks -/

/-- `HTTPException`. -/
structure HttpError where
  status : ℕ
  detail : String

/-- What a verified token says. -/
structure TokenClaims where
  email : Option String
  emailVerified : Bool

/-- The routes, by what they do and who may call them. -/
inductive Route
  /-- `/health` and the page of the dashboard -/
  | open
  /-- a route under `/api` that only reads -/
  | read
  | killSwitch (engaged : Bool) (fates : Fates)
  | circuitBreakerReset (fates : Fates)
  | reconcile (holdings : Except Exn Holdings) (now : Datetime) (fates : Fates)
  /-- with how the ask for the advisory lock ends -/
  | tick (ask : Except Exn Unit) (t : TickInput)
  | report (force : Bool) (now : Datetime) (file : Option String)
  | newsCollect

/-- A request, with the headers that the dependencies look at. -/
structure Request where
  route : Route
  xApiKey : Option String := none
  authorization : Option String := none
  /-- `verify_oauth2_token` of a token and an audience -/
  verify : String → String → Except Exn TokenClaims

section Access

variable (d : Deployment) (r : Request)

/-- `secrets.compare_digest` takes only ASCII; what it raises is answered by 500. -/
def compareDigest (a b : String) : Except HttpError Bool :=
  if a.toList.all (fun c => c.toNat < 128) ∧ b.toList.all fun c => c.toNat < 128 then .ok (a = b)
  else .error ⟨500, "Internal Server Error"⟩

/-- Whether the request shows the key. -/
def Request.showsKey : Except HttpError Bool :=
  match r.xApiKey with
  | none => .ok false
  | some key => if key = "" then .ok false else compareDigest key d.apiKey

/-- The key, or 401. -/
def Request.needsKey (detail : String) : Except HttpError Unit := do
  let shown ← r.showsKey d
  if shown then pure () else .error ⟨401, detail⟩

/-- `require_api_key`. -/
def requireApiKey : Except HttpError Unit := r.needsKey d "유효한 X-API-Key 가 필요합니다"

/-- The token of the request, where one is looked at. -/
def Request.bearer : Option String :=
  match r.authorization with
  | none => none
  | some a =>
    if "Bearer ".toList.isPrefixOf a.toList ∧ d.oidcAudience ≠ "" then
      some (String.ofList (a.toList.drop 7))
    else none

/-- `require_tick_auth`: the scheduler's token, or the key where no token is asked
for. -/
def requireTickAuth : Except HttpError Unit :=
  match r.bearer d with
  | some token =>
    match r.verify token d.oidcAudience with
    -- a token that fails is not made up for by the key
    | .error _ => .error ⟨401, "OIDC 토큰 검증 실패"⟩
    | .ok token =>
      if token.email = d.schedulerSaEmail ∧ token.emailVerified then .ok ()
      else .error ⟨401, "OIDC 서비스 계정 불일치"⟩
  | none => r.needsKey d "인증 실패 — OIDC Bearer 또는 X-API-Key 필요"

/-- `get_toss_client`. -/
def getTossClient : Except HttpError Unit :=
  if d.tossClient then .ok ()
  else .error ⟨503, "토스 자격증명 미설정 — 서버에 TOSS_CLIENT_ID / TOSS_CLIENT_SECRET 필요"⟩

/-- The dependencies of the route of a request. -/
def Request.passes : Except HttpError Unit :=
  match r.route with
  | .open => .ok ()
  | .read | .killSwitch _ _ | .circuitBreakerReset _ => requireApiKey d r
  | .reconcile _ _ _ => do
    requireApiKey d r
    getTossClient d
  | .tick _ _ => do
    requireTickAuth d r
    getTossClient d
  | .report _ _ _ | .newsCollect => requireTickAuth d r

/-- What a request that passes asks of the archive; `busy` is whether another tick is
under way, from how the ask for the advisory lock ends. -/
def Route.asks (busy : Except Exn Unit → Except Exn Bool) : Route → Option Archive.Event
  | .open | .read | .newsCollect => none
  | .killSwitch engaged fates => some (.server (.killSwitch engaged fates))
  | .circuitBreakerReset fates => some (.server (.resetBreaker fates))
  | .reconcile holdings now fates => some (.server (.reconcileCheck holdings now fates))
  | .tick ask t => match busy ask with
    | .ok false => some (.server (.tick t))
    | _ => none
  | .report force now file => some (if force then .generate true file else .scheduled now file)

end Access

/-! ### The processes -/

/-- The address of a PostgreSQL database. -/
def Database.address : Database → Option String
  | .postgres address _ => some address
  | .memory | .other _ => none

/-- The event is a tick. -/
def Archive.Event.isTick : Archive.Event → Bool
  | .server (.tick _) => true
  | _ => false

namespace Front

/-- What happens to the deployed processes. -/
inductive Event
  | start (i : ℕ) (d : Deployment) (connect : Except Raised Unit)
  | request (i : ℕ) (r : Request)
  /-- a round of the loop, in a process that has one; its `busy` is how the ask for the
  advisory lock ends -/
  | round (i : ℕ) (r : Round)
  /-- the tick that is under way lets its locks go -/
  | tickEnds (i : ℕ)
  | stop (i : ℕ)

/-- The process that an event is about. -/
def Event.who : Event → ℕ
  | .start i _ _ | .request i _ | .round i _ | .tickEnds i | .stop i => i

/-- The databases, the processes on them, and the locks of their ticks. -/
structure World extends Tenants.World ℕ Database Running Tables where
  /-- `app.state.tick_lock` of each process -/
  ticking : ℕ → Bool := fun _ => false
  /-- the process whose session has the advisory lock of an address -/
  advisory : String → Option ℕ := fun _ => none

namespace World

variable (w : World) (i : ℕ)

/-- What shows of a process: where it works, and how it is deployed. -/
def shows : Option (Database × Deployment) := (w.proc i).map fun p => (p.1, p.2.deployment)

/-- The address that a process works at. -/
def address : Option String := (w.shows i).bind fun p => p.1.address

/-- Whether another tick is under way: in the process itself, or, on PostgreSQL, in any
that works at the same address. -/
def busy (ask : Except Exn Unit) : Except Exn Bool :=
  if w.ticking i then .ok true
  else match w.address i with
    | none => .ok false
    | some a => ask.map fun _ => (w.advisory a).isSome

/-- A tick has taken its locks. -/
def acquire : World :=
  { w with
    ticking := Function.update w.ticking i true
    advisory := fun a => if w.address i = some a then some i else w.advisory a }

/-- The tick, or the process with its session, has ended. -/
def release : World :=
  { w with
    ticking := Function.update w.ticking i false
    advisory := fun a => if w.advisory a = some i then none else w.advisory a }

end World

/-- What a request does. -/
def answer (busy : Except Exn Unit → Except Exn Bool) (r : Request) (p : Running)
    (tables : Tables) : Running × Tables :=
  match r.passes p.deployment, r.route.asks busy with
  | .ok _, some e => p.left ((p.archive tables).step p.deployment.app e)
  | _, _ => (p, tables)

/-- The round as it is with the client of the process and the locks. -/
def roundOf (busy : Except Exn Unit → Except Exn Bool) (d : Deployment) (r : Round) : Round :=
  { r with
    busy := busy (r.busy.map fun _ => ())
    tick := { r.tick with toss := if d.tossClient then r.tick.toss else none } }

/-- What a round of the loop does. -/
def loop (busy : Except Exn Unit → Except Exn Bool) (r : Round) (p : Running)
    (tables : Tables) : Running × Tables :=
  if 0 < p.deployment.tickIntervalSec then
    p.left (tickLoop p.deployment.app (roundOf busy p.deployment r) (p.archive tables)).2
  else (p, tables)

/-- The start of a process; a refusal leaves none. -/
def startOf (pg : Postgres) (i : ℕ) (d : Deployment) (connect : Except Raised Unit) :
    Tenants.Event ℕ Database Running Tables :=
  match d.opens pg with
  | .error _ => .stop i
  | .ok k => .start i k fun tables => ((d.lifespan connect tables).toOption, tables)

/-- The event among those of processes with stores. -/
def Event.happens (pg : Postgres) (w : World) : Event → Tenants.Event ℕ Database Running Tables
  | .start i d connect => startOf pg i d connect
  | .request i r => .act i (answer (w.busy i) r)
  | .round i r => .act i (loop (w.busy i) r)
  | .tickEnds i => .act i Prod.mk
  | .stop i => .stop i

/-- What an event asks of the archive of a process, where the process is up. -/
def asksOf (busy : Except Exn Unit → Except Exn Bool) (d : Deployment) :
    Event → Option Archive.Event
  | .request _ r =>
    match r.passes d with
    | .ok _ => r.route.asks busy
    | .error _ => none
  | .round _ r =>
    if 0 < d.tickIntervalSec then (roundOf busy d r).asks { toApp := d.app } else none
  | .start _ _ _ | .tickEnds _ | .stop _ => none

/-- The event is a call of a tick that goes on. -/
def World.begins (w : World) (e : Event) : Bool :=
  (w.shows e.who).any fun p => (asksOf (w.busy e.who) p.2 e).any Archive.Event.isTick

/-- The event ends a tick, or the process with it. -/
def Event.ends : Event → Bool
  | .start _ _ _ | .tickEnds _ | .stop _ => true
  | .request _ _ | .round _ _ => false

/-- The locks after an event. -/
def World.locks (w : World) (e : Event) : World :=
  if w.begins e then w.acquire e.who
  else if e.ends then w.release e.who
  else w

/-- One event, and what it leaves of the advisory locks. -/
def World.step (pg : Postgres) (w : World) (e : Event) : World :=
  { w.locks e with toWorld := w.toWorld.step (e.happens pg w) }

/-- A process comes up on its database, or none does. -/
theorem startOf_cases (pg : Postgres) (i : ℕ) (d : Deployment) (connect : Except Raised Unit) :
    startOf pg i d connect = .stop i ∨ ∃ k, d.opens pg = .ok k ∧
      startOf pg i d connect =
        .start i k fun tables => ((d.lifespan connect tables).toOption, tables) := by
  unfold startOf
  rcases d.opens pg with e | k
  · exact Or.inl rfl
  · exact Or.inr ⟨k, rfl, rfl⟩

@[simp] theorem Event.who_happens (pg : Postgres) (w : World) (e : Event) :
    (e.happens pg w).who = e.who := by
  cases e with
  | start i d connect =>
    show (startOf pg i d connect).who = i
    rcases startOf_cases pg i d connect with heq | ⟨k, -, heq⟩
    · rw [heq]
      rfl
    · rw [heq]
      rfl
  | request i r => rfl
  | round i r => rfl
  | tickEnds i => rfl
  | stop i => rfl

/-- Events one after another. -/
def run (pg : Postgres) (w : World) (es : List Event) : World := es.foldl (World.step pg) w

/-- The databases, before any process. -/
def databases (store : Database → Tables) : World where
  store := store

end Front

/-! ### What goes out -/

section Placed

variable {cfg : Settings} {s : Server}

/-- A tick of a service in `DRY_RUN` sends nothing. -/
theorem runTick_dryRun (args : TickArgs) {svc : OrderService} (h : svc.mode = .dryRun) :
    (runTick args svc).2.placed = svc.placed := by
  obtain ⟨orders, -, -, -, hplaced⟩ := @runTick_rule
    (fun _ s => s.mode = .dryRun ∧ s.placed = svc.placed) args svc ⟨h, rfl⟩
    (fun g _ => ⟨h, rfl⟩) (by
      rintro g decisions - - d - orders s order res s' - ⟨hmode, hplaced⟩ hsub
      refine ⟨hsub.sameSetup.mode.trans hmode, ?_⟩
      cases hsub with
      | duplicate hctx hgate halloc hseen => exact hplaced
      | settled hctx hgate halloc hseen hs =>
        rcases hs.calls_cases with rfl | ⟨hlive, -⟩
        · show s.placed ++ [] = _
          rw [List.append_nil, hplaced]
        · rw [hmode] at hlive
          cases hlive)
  exact hplaced

theorem Server.Routed.placed {s s' : Server} (h : Server.Routed s s') :
    s'.svc.placed = s.svc.placed := by rw [h.svc]

/-- **Only a tick in `LIVE` sends.** -/
theorem Server.step_placed (h : Server.Configured cfg s) (e : Server.Event)
    (hquiet : cfg.tradingMode = .dryRun ∨ ∀ t, e ≠ .tick t) :
    (s.step cfg e).svc.placed = s.svc.placed := by
  rcases step_cases cfg s e with ⟨t, rfl, hends⟩ | ⟨-, hrestart⟩ | ⟨-, -, hrouted⟩
  · have hdry : cfg.tradingMode = .dryRun := hquiet.resolve_right fun hno => hno t rfl
    cases hends with
    | unopened hsame => exact hsame.routed.placed
    | @closed toss o s₁ _ htoss hopen hopens hclose =>
      have hmode : s₁.svc.mode = .dryRun :=
        ((h.routed hopens.untraded.routed).mode).trans hdry
      rw [hclose.svc, runTick_dryRun o.args hmode]
      exact hopens.untraded.routed.placed
  · rw [hrestart]
    rfl
  · exact hrouted.placed

/-- Without real money, or a tick, nothing is sent. -/
theorem Archive.step_placed {app : App} {s : Archive} (h : SetUp app s) (e : Archive.Event)
    (hquiet : app.settings.tradingMode = .dryRun ∨ ∀ t, e ≠ .server (.tick t)) :
    (s.step app e).server.svc.placed = s.server.svc.placed := by
  cases e with
  | server e =>
    exact Server.step_placed h e (hquiet.imp id fun hno t he => hno t (congrArg _ he))
  | generate force file =>
    show (Archive.generateReport app force file s).2.server.svc.placed = _
    rw [generateReport_server]
  | scheduled now file =>
    show (Archive.scheduledReport app now file s).2.server.svc.placed = _
    rw [scheduledReport_server]

end Placed

/-- The environment asks for `LIVE` in both places, there is a database and no sandbox,
and a key of its own in production. -/
structure Deployment.AsksLive (d : Deployment) : Prop where
  mode : envUpper d.env "TRADING_MODE" "DRY_RUN" = "LIVE".toList
  confirmed : envUpper d.env "I_UNDERSTAND_LIVE_REAL_MONEY" "" = "YES".toList
  database : d.databaseUrl ≠ ""
  real : d.settings.sandboxMode = false
  key : d.appEnv = "production" → d.apiKey ≠ "dev-local-key"

/-- A process that starts in LIVE was asked to. -/
theorem Deployment.asksLive {d : Deployment} (hstarts : d.refusal = none)
    (h : d.app.settings.tradingMode = .live) : d.AsksLive := by
  unfold Settings.tradingMode at h
  split at h
  · next hall =>
    obtain ⟨hmode, hdatabase, hsandbox⟩ := hall
    obtain ⟨hasked, hconfirmed⟩ := loadTradingMode_eq_live.mp hmode
    refine ⟨hasked, hconfirmed, of_decide_eq_true hdatabase, Bool.eq_false_iff.mpr hsandbox, ?_⟩
    intro hproduction hkey
    rw [refusal, if_pos ⟨hproduction, hkey⟩] at hstarts
    cases hstarts
  · cases h

/-- The request shows the token of the scheduler, or, where no token is looked at, the
key. -/
def Request.Authorized (d : Deployment) (r : Request) : Prop :=
  match r.bearer d with
  | some token => ∃ verified, r.verify token d.oidcAudience = .ok verified ∧
      verified.email = d.schedulerSaEmail ∧ verified.emailVerified
  | none => r.xApiKey = some d.apiKey ∧ d.apiKey ≠ ""

namespace Front

/-- What is so of a process that is up: it has not refused to start, its service has the
mode of its settings, and has sent nothing in `DRY_RUN`. -/
structure Sound (p : Running) : Prop where
  starts : p.deployment.refusal = none
  setUp : ∀ tables, SetUp p.deployment.app (p.archive tables)
  quiet : p.deployment.app.settings.tradingMode = .dryRun → p.svc.placed = []

section Sound

variable {p : Running} {tables : Tables} {busy : Except Exn Unit → Except Exn Bool}

/-- Nothing else of a process but its service changes. -/
theorem Sound.left (h : Sound p) {s : Archive} (hset : SetUp p.deployment.app s)
    (hquiet : p.deployment.app.settings.tradingMode = .dryRun → s.server.svc.placed = []) :
    Sound (p.left s).1 :=
  ⟨h.starts, fun _ => ⟨hset.mode, hset.config, hset.executor, hset.audit, hset.agrees⟩, hquiet⟩

/-- What a process does to its archive keeps it sound. -/
theorem Sound.step (h : Sound p) (e : Archive.Event) :
    Sound (p.left ((p.archive tables).step p.deployment.app e)).1 := by
  refine h.left ((h.setUp tables).step e) fun hdry => ?_
  rw [Archive.step_placed (h.setUp tables) e (Or.inl hdry)]
  exact h.quiet hdry

/-- So does a request, whatever the route. -/
theorem Sound.answer (h : Sound p) (r : Request) : Sound (answer busy r p tables).1 := by
  unfold Front.answer
  split
  · exact h.step _
  · exact h

/-- A round does what it asks of the archive, if anything. -/
theorem loop_cases (h : Sound p) (r : Round) :
    loop busy r p tables = (p, tables) ∨ ∃ es,
      loop busy r p tables = p.left (Archive.run p.deployment.app (p.archive tables) es) := by
  unfold loop
  split
  · right
    exact ⟨_, congrArg p.left
      (@tickLoop_archive { toApp := p.deployment.app } _ (h.setUp tables) _)⟩
  · exact Or.inl rfl

/-- And so does a round of the loop. -/
theorem Sound.loop (h : Sound p) (r : Round) : Sound (loop busy r p tables).1 := by
  rcases @loop_cases p tables busy h r with heq | ⟨es, heq⟩
  · rw [heq]
    exact h
  · rw [heq]
    have hall : ∀ s : Archive, SetUp p.deployment.app s →
        (p.deployment.app.settings.tradingMode = .dryRun → s.server.svc.placed = []) →
        SetUp p.deployment.app (Archive.run p.deployment.app s es) ∧
          (p.deployment.app.settings.tradingMode = .dryRun →
            (Archive.run p.deployment.app s es).server.svc.placed = []) := by
      intro s hset hquiet
      refine Run.foldl_invariant (I := fun s => SetUp p.deployment.app s ∧
        (p.deployment.app.settings.tradingMode = .dryRun → s.server.svc.placed = []))
          ?_ ⟨hset, hquiet⟩ es
      rintro s e ⟨hset, hquiet⟩
      refine ⟨hset.step e, fun hdry => ?_⟩
      rw [Archive.step_placed hset e (Or.inl hdry)]
      exact hquiet hdry
    obtain ⟨hset, hquiet⟩ := hall (p.archive tables) (h.setUp tables) h.quiet
    exact h.left hset hquiet

/-- A process that comes up has the service of a new server. -/
theorem lifespan_eq_some {d : Deployment} {connect : Except Raised Unit}
    (h : (d.lifespan connect tables).toOption = some p) :
    p = { deployment := d, svc := (Server.start d.app.settings tables.db).svc } := by
  unfold Deployment.lifespan at h
  rcases hresult : (if d.databaseUrl = "" then .ok () else connect) with e | u
  · rw [hresult] at h
    cases h
  · rw [hresult] at h
    exact (Option.some.inj h).symm

/-- A new process has sent nothing. -/
theorem placed_start (cfg : Settings) (db : Db) : (Server.start cfg db).svc.placed = [] := by
  rw [Server.start, Server.lifespan_setup]
  rfl

end Sound

/-- A process that opens a database was not refused. -/
theorem refusal_of_opens {d : Deployment} {pg : Postgres} {k : Database}
    (h : d.opens pg = .ok k) : d.refusal = none ∧ d.makeEngine pg = .ok k := by
  unfold Deployment.opens at h
  rcases hrefusal : d.refusal with - | e
  all_goals simp only [hrefusal] at h
  · exact ⟨rfl, h⟩
  · cases h

/-- No event makes an unsound process of sound ones. -/
theorem Event.happens_keeps (pg : Postgres) (w : World) (e : Event) :
    (e.happens pg w).Keeps fun _ p => Sound p := by
  cases e with
  | start i d connect =>
    show (startOf pg i d connect).Keeps _
    rcases startOf_cases pg i d connect with heq | ⟨k, hopens, heq⟩
    · rw [heq]
      trivial
    · rw [heq]
      intro tables p hp
      rw [lifespan_eq_some hp]
      have hset : Server.Configured d.app.settings (Server.start d.app.settings tables.db) :=
        Server.configured_start _ _
      exact ⟨(refusal_of_opens hopens).1,
        fun _ => ⟨hset.mode, hset.config, hset.executor, hset.audit, hset.agrees⟩,
        fun _ => placed_start _ _⟩
  | request i r => exact fun _ p tables h => h.answer r
  | round i r => exact fun _ p tables h => h.loop r
  | tickEnds i => exact fun _ p tables h => h
  | stop i => trivial

/-- **Every process of a run is sound.** -/
theorem sound_run (pg : Postgres) (store : Database → Tables) (es : List Event) {i : ℕ}
    {k : Database} {p : Running} (h : (run pg (databases store) es).proc i = some (k, p)) :
    Sound p := by
  have hall : ∀ i k p, (run pg (databases store) es).proc i = some (k, p) → Sound p := by
    refine Run.foldl_invariant (I := fun w : World => ∀ i k p, w.proc i = some (k, p) → Sound p)
      ?_ (fun i k p hproc => by cases hproc) es
    intro w e hw
    exact Tenants.World.step_local (I := fun _ p => Sound p) (e.happens_keeps pg w) hw
  exact hall i k p h

/-- The key of a request that shows it. -/
theorem showsKey_eq_true {d : Deployment} {r : Request} (h : r.showsKey d = .ok true) :
    r.xApiKey = some d.apiKey ∧ d.apiKey ≠ "" := by
  unfold Request.showsKey at h
  rcases hkey : r.xApiKey with - | key
  · simp [hkey] at h
  · simp only [hkey] at h
    split at h
    · cases h
    · next hne =>
      unfold compareDigest at h
      split at h
      · have hsame : key = d.apiKey := of_decide_eq_true (Except.ok.inj h)
        exact ⟨by rw [hsame], hsame ▸ hne⟩
      · cases h

/-- What `require_tick_auth` lets through is authorized. -/
theorem authorized_of_ok {d : Deployment} {r : Request} (h : requireTickAuth d r = .ok ()) :
    r.Authorized d := by
  unfold requireTickAuth at h
  unfold Request.Authorized
  rcases hbearer : r.bearer d with - | token
  · simp only [hbearer] at h
    obtain ⟨shown, hshown, h⟩ := Fallible.bind_eq_ok.mp h
    split at h
    · next htrue => exact showsKey_eq_true (htrue ▸ hshown)
    · cases h
  · simp only [hbearer] at h
    rcases hverify : r.verify token d.oidcAudience with e | verified
    · simp [hverify] at h
    · simp only [hverify] at h
      split at h
      · next hall => exact ⟨verified, hverify, hall⟩
      · cases h

/-- Only the route of a tick asks for one. -/
theorem asks_tick {busy : Except Exn Unit → Except Exn Bool} {route : Route} {t : TickInput}
    (h : route.asks busy = some (.server (.tick t))) : ∃ ask, route = .tick ask t := by
  cases route with
  | «open» => cases h
  | read => cases h
  | killSwitch engaged fates => cases h
  | circuitBreakerReset fates => cases h
  | reconcile holdings now fates => cases h
  | tick ask t' =>
    unfold Route.asks at h
    rcases hbusy : busy ask with e | - | -
    all_goals simp only [hbusy] at h
    · cases h
    · cases h
      exact ⟨_, rfl⟩
    · cases h
  | report force now file =>
    rcases force with - | -
    · cases h
    · cases h
  | newsCollect => cases h

/-- **A request that sends is authorized**, and asks for a tick. -/
theorem answer_placed {busy : Except Exn Unit → Except Exn Bool} {p : Running} {tables : Tables}
    (h : Sound p) {r : Request} (hplaced : (answer busy r p tables).1.svc.placed ≠ p.svc.placed) :
    (∃ ask t, r.route = .tick ask t) ∧ r.Authorized p.deployment := by
  unfold answer at hplaced
  split at hplaced
  · next hpasses hasks =>
    rename_i e
    by_cases htick : ∃ t, e = .server (.tick t)
    · obtain ⟨t, rfl⟩ := htick
      obtain ⟨ask, hroute⟩ := asks_tick hasks
      refine ⟨⟨ask, t, hroute⟩, ?_⟩
      unfold Request.passes at hpasses
      simp only [hroute] at hpasses
      obtain ⟨⟨⟩, hauth, -⟩ := Fallible.bind_eq_ok.mp hpasses
      exact authorized_of_ok hauth
    · exact absurd (Archive.step_placed (h.setUp tables) e
        (Or.inr fun t ht => htick ⟨t, ht⟩)) hplaced
  · exact absurd rfl hplaced

/-- An event that makes a process send is a round of its loop or an authorized request. -/
theorem asked_of_step {pg : Postgres} {w : World} {e : Event} {i : ℕ} {k k' : Database}
    {p p' : Running} (hsound : Sound p) (h : w.proc i = some (k, p))
    (h' : (w.toWorld.step (e.happens pg w)).proc i = some (k', p'))
    (hlt : p.svc.placed.length < p'.svc.placed.length) :
    (∃ r, e = .round i r) ∨ ∃ r ask t, e = .request i r ∧ r.route = .tick ask t ∧
      r.Authorized p.deployment := by
  by_cases hwho : i = e.who
  · cases e with
    | start j d connect =>
      obtain rfl : i = j := hwho
      -- a new process has sent nothing
      have hnone : p'.svc.placed = [] := by
        rw [Event.happens] at h'
        rcases startOf_cases pg i d connect with heq | ⟨k'', -, heq⟩
        · rw [heq, Tenants.World.step, Tenants.World.remove_proc] at h'
          cases h'
        · rw [heq, Tenants.World.step, Tenants.World.put_proc] at h'
          obtain ⟨p'', hstart, heq⟩ := Option.map_eq_some_iff.mp h'
          cases heq
          rw [lifespan_eq_some hstart]
          exact placed_start _ _
      rw [hnone] at hlt
      exact absurd hlt (Nat.not_lt_zero _)
    | request j r =>
      obtain rfl : i = j := hwho
      rw [Event.happens, Tenants.World.step_act h, Tenants.World.put_proc] at h'
      cases h'
      obtain ⟨⟨ask, t, hroute⟩, hauth⟩ := answer_placed hsound (r := r) fun hsame =>
        absurd (congrArg List.length hsame) hlt.ne'
      exact Or.inr ⟨r, ask, t, rfl, hroute, hauth⟩
    | round j r =>
      obtain rfl : i = j := hwho
      exact Or.inl ⟨r, rfl⟩
    | tickEnds j =>
      obtain rfl : i = j := hwho
      rw [Event.happens, Tenants.World.step_act h, Tenants.World.put_proc] at h'
      cases h'
      exact absurd hlt (lt_irrefl _)
    | stop j =>
      obtain rfl : i = j := hwho
      rw [Event.happens, Tenants.World.step, Tenants.World.remove_proc] at h'
      cases h'
  · rw [Tenants.World.step_proc_of_ne (by rwa [Event.who_happens]), h] at h'
    cases h'
    exact absurd hlt (lt_irrefl _)

/-- **An order goes out only where it is asked for.**  Whatever starts, asks and stops in
whatever order, a process that has sent an order was started in an environment that asks
for it, and an order goes out in a round of the loop or for an authorized request. -/
theorem live_asked_for (pg : Postgres) (store : Database → Tables) (es : List Event) {i : ℕ}
    {k : Database} {p : Running} (h : (run pg (databases store) es).proc i = some (k, p)) :
    (p.svc.placed ≠ [] → p.deployment.AsksLive) ∧
      ∀ e k' p', (run pg (databases store) (es ++ [e])).proc i = some (k', p') →
        p.svc.placed.length < p'.svc.placed.length →
        (∃ r, e = .round i r) ∨ ∃ r ask t, e = .request i r ∧ r.route = .tick ask t ∧
          r.Authorized p.deployment := by
  have hsound : Sound p := sound_run pg store es h
  constructor
  · intro hplaced
    refine Deployment.asksLive hsound.starts ?_
    rcases hmode : p.deployment.app.settings.tradingMode with - | -
    · exact absurd (hsound.quiet hmode) hplaced
    · rfl
  · intro e k' p' h' hlt
    have hstep : run pg (databases store) (es ++ [e]) =
        (run pg (databases store) es).step pg e := by
      unfold run
      rw [List.foldl_append]
      rfl
    rw [hstep] at h'
    exact asked_of_step hsound h h' hlt

/-! ### What the sandbox leaves alone -/

/-- A name that `search_path` reads as it stands. -/
def plain (schema : String) : Bool :=
  schema.toList.all fun c => c.isLower || c.isDigit || c = '_'

/-- A sandbox never works in a schema `public`. -/
theorem opens_ne_public {pg : Postgres} (hpath : ∀ s, plain s → pg.searchPath s = s)
    {d : Deployment} (hsandbox : d.settings.sandboxMode) (hplain : plain d.dbSchema)
    (address : String) : d.opens pg ≠ .ok (.postgres address "public") := by
  intro h
  obtain ⟨hrefusal, hengine⟩ := refusal_of_opens h
  unfold Deployment.makeEngine at hengine
  split at hengine
  · cases hengine
  · split at hengine
    · next hpostgres =>
      -- the guard has asked for a schema of its own
      have hschema : ¬ (if d.dbSchema = "" then "public" else d.dbSchema) = "public" := by
        intro hpublic
        unfold Deployment.refusal at hrefusal
        split at hrefusal
        · cases hrefusal
        · rw [if_pos ⟨hsandbox, hpostgres, hpublic⟩] at hrefusal
          cases hrefusal
      split at hengine
      · next hempty => exact hschema (by rw [if_pos hempty])
      · next hname =>
        rw [if_neg hname] at hschema
        unfold Deployment.validSchema at hengine
        split at hengine
        · simp only [Except.map, Except.ok.injEq, Database.postgres.injEq,
            hpath _ hplain] at hengine
          exact hschema hengine.2
        · cases hengine
    · cases hengine

/-! ### What the locks let a process see -/

section Locks

variable {pg : Postgres} {w w' : World} {e : Event} {i : ℕ} {address : String}

/-- The event calls a tick. -/
def Event.callsTick : Event → Bool
  | .request _ r =>
    match r.route with
    | .tick _ _ => true
    | _ => false
  | .round _ _ => true
  | .start _ _ _ | .tickEnds _ | .stop _ => false

/-- Only a call of a tick looks at the locks. -/
theorem asks_congr {route : Route} (h : ∀ ask t, route ≠ .tick ask t)
    (busy busy' : Except Exn Unit → Except Exn Bool) : route.asks busy = route.asks busy' := by
  cases route with
  | tick ask t => exact absurd rfl (h ask t)
  | «open» => rfl
  | read => rfl
  | killSwitch engaged fates => rfl
  | circuitBreakerReset fates => rfl
  | reconcile holdings now fates => rfl
  | report force now file => rfl
  | newsCollect => rfl

theorem route_ne_tick {r : Request} (h : (Event.request i r).callsTick = false) (ask t) :
    r.route ≠ .tick ask t := by
  intro hroute
  simp [Event.callsTick, hroute] at h

/-- What an event does to a process depends on the locks through `busy` only, and only if
it calls a tick. -/
theorem happens_congr (h : e.callsTick = true → w.busy e.who = w'.busy e.who) :
    e.happens pg w = e.happens pg w' := by
  cases e with
  | start i d connect => rfl
  | request i r =>
    by_cases hcalls : (Event.request i r).callsTick = true
    · have hbusy : w.busy i = w'.busy i := h hcalls
      rw [Event.happens, Event.happens, hbusy]
    · have hroute := route_ne_tick (Bool.eq_false_iff.mpr hcalls)
      have hanswer : answer (w.busy i) r = answer (w'.busy i) r := by
        unfold answer
        rw [asks_congr hroute (w.busy i) (w'.busy i)]
      rw [Event.happens, Event.happens, hanswer]
  | round i r =>
    have hbusy : w.busy i = w'.busy i := h rfl
    rw [Event.happens, Event.happens, hbusy]
  | tickEnds i => rfl
  | stop i => rfl

/-- Only an event that calls a tick looks at the advisory lock. -/
theorem asksOf_congr {busy busy' : Except Exn Unit → Except Exn Bool}
    (h : e.callsTick = true → busy = busy') (d : Deployment) :
    asksOf busy d e = asksOf busy' d e := by
  cases e with
  | start i d connect => rfl
  | request i r =>
    by_cases hcalls : (Event.request i r).callsTick = true
    · rw [h hcalls]
    · have hroute := route_ne_tick (Bool.eq_false_iff.mpr hcalls)
      simp only [asksOf, asks_congr hroute busy busy']
  | round i r => rw [h rfl]
  | tickEnds i => rfl
  | stop i => rfl

theorem begins_congr (hshows : w.shows e.who = w'.shows e.who)
    (hbusy : e.callsTick = true → w.busy e.who = w'.busy e.who) : w.begins e = w'.begins e := by
  unfold World.begins
  simp only [hshows, asksOf_congr hbusy]

/-- A tick that goes on has found the locks free. -/
theorem busy_of_isTick {busy : Except Exn Unit → Except Exn Bool} {d : Deployment}
    (h : (asksOf busy d e).any Archive.Event.isTick = true) : ∃ ask, busy ask = .ok false := by
  cases e with
  | start i d connect => cases h
  | request i r =>
    unfold asksOf at h
    simp only at h
    split at h
    -- a request asks for a tick only through its route, with the lock free
    · rcases hasks : r.route.asks busy with - | a
      · rw [hasks] at h
        cases h
      · rw [hasks] at h
        obtain ⟨t, rfl⟩ : ∃ t, a = .server (.tick t) := by
          unfold Option.any Archive.Event.isTick at h
          simp only at h
          split at h
          · exact ⟨_, rfl⟩
          · cases h
        obtain ⟨ask, hroute⟩ := asks_tick hasks
        refine ⟨ask, ?_⟩
        rw [hroute, Route.asks] at hasks
        split at hasks
        · assumption
        · cases hasks
    · cases h
  | round i r =>
    unfold asksOf at h
    simp only at h
    split at h
    -- a round asks for one while the market is open, with the lock free
    · refine ⟨r.busy.map fun _ => (), ?_⟩
      unfold Round.asks at h
      split at h
      · cases h
      · split at h
        · cases h
        · split at h
          · assumption
          · cases h
    · cases h
  | tickEnds i => cases h
  | stop i => cases h

/-- Where a tick goes on, the advisory lock of its address was free. -/
theorem advisory_of_begins (h : w.begins e = true) (haddress : w.address e.who = some address) :
    w.advisory address = none := by
  unfold World.begins at h
  rcases hshows : w.shows e.who with - | p
  · rw [hshows] at h
    cases h
  · rw [hshows] at h
    obtain ⟨ask, hbusy⟩ := busy_of_isTick h
    unfold World.busy at hbusy
    split at hbusy
    · cases hbusy
    · rw [haddress] at hbusy
      simp only at hbusy
      rcases ask with x | _
      · cases hbusy
      · have hsome : (w.advisory address).isSome = false := Except.ok.inj hbusy
        exact Option.not_isSome_iff_eq_none.mp (by rw [hsome]; exact Bool.false_ne_true)

end Locks

/-! ### Where the processes are -/

section Shows

variable {pg : Postgres} {w w' : World} {e : Event} {i : ℕ}

/-- A request, a round and the end of a tick keep the process where it is. -/
theorem act_shows {f : Running → Tables → Running × Tables} {i : ℕ}
    (hf : ∀ p tables, (f p tables).1.deployment = p.deployment) (w : World) :
    (((w.toWorld.step (.act i f)).proc i).map fun p => (p.1, p.2.deployment)) = w.shows i := by
  unfold World.shows
  rcases hproc : w.proc i with - | ⟨k, p⟩
  · rw [Tenants.World.step_act_of_none hproc, hproc]
  · rw [Tenants.World.step_act hproc, Tenants.World.put_proc]
    simp [hf]

theorem answer_deployment (busy : Except Exn Unit → Except Exn Bool) (r : Request) (p : Running)
    (tables : Tables) : (answer busy r p tables).1.deployment = p.deployment := by
  unfold answer
  split
  · rfl
  · rfl

theorem loop_deployment (busy : Except Exn Unit → Except Exn Bool) (r : Round) (p : Running)
    (tables : Tables) : (loop busy r p tables).1.deployment = p.deployment := by
  unfold loop
  split
  · rfl
  · rfl

/-- A request or a round moves no process. -/
theorem step_shows_of_not_ends (h : e.ends = false) :
    (w.step pg e).shows e.who = w.shows e.who := by
  cases e with
  | start i d connect => cases h
  | request i r => exact act_shows (answer_deployment _ r) w
  | round i r => exact act_shows (loop_deployment _ r) w
  | tickEnds i => cases h
  | stop i => cases h

/-- An event shows no other process differently. -/
theorem step_shows_of_ne (h : i ≠ e.who) : (w.step pg e).shows i = w.shows i := by
  show ((w.toWorld.step (e.happens pg w)).proc i).map _ = _
  rw [Tenants.World.step_proc_of_ne (by rwa [Event.who_happens])]
  rfl

/-- What shows of a process that starts does not depend on what it finds. -/
theorem lifespan_shows (d : Deployment) (connect : Except Raised Unit) (k : Database)
    (tables tables' : Tables) :
    ((d.lifespan connect tables).toOption.map fun p => (k, p.deployment)) =
      (d.lifespan connect tables').toOption.map fun p => (k, p.deployment) := by
  unfold Deployment.lifespan
  rcases (if d.databaseUrl = "" then Except.ok () else connect) with x | _
  · rfl
  · rfl

/-- What a process shows after its event depends on what it showed before. -/
theorem step_shows_congr (h : w.shows e.who = w'.shows e.who) :
    (w.step pg e).shows e.who = (w'.step pg e).shows e.who := by
  cases e with
  | start i d connect =>
    show ((w.toWorld.step (startOf pg i d connect)).proc i).map _ =
      ((w'.toWorld.step (startOf pg i d connect)).proc i).map _
    rcases startOf_cases pg i d connect with heq | ⟨k, -, heq⟩
    · rw [heq, Tenants.World.step, Tenants.World.step, Tenants.World.remove_proc,
        Tenants.World.remove_proc]
    · rw [heq, Tenants.World.step, Tenants.World.step, Tenants.World.put_proc,
        Tenants.World.put_proc, Option.map_map, Option.map_map]
      exact lifespan_shows d connect k _ _
  | request i r => rw [step_shows_of_not_ends rfl, step_shows_of_not_ends rfl, h]
  | round i r => rw [step_shows_of_not_ends rfl, step_shows_of_not_ends rfl, h]
  | tickEnds i =>
    exact (act_shows (fun _ _ => rfl) w).trans (h.trans (act_shows (fun _ _ => rfl) w').symm)
  | stop i =>
    show ((w.toWorld.step (.stop i)).proc i).map _ = ((w'.toWorld.step (.stop i)).proc i).map _
    rw [Tenants.World.step, Tenants.World.step, Tenants.World.remove_proc,
      Tenants.World.remove_proc]

end Shows

/-! ### What the locks hold -/

section Held

variable {pg : Postgres} {w : World} {e : Event} {i : ℕ} {address : String}

/-- A tick does not begin and end in one event. -/
theorem ends_of_begins (h : w.begins e = true) : e.ends = false := by
  unfold World.begins at h
  cases e with
  | start i d connect => simp [asksOf] at h
  | request i r => rfl
  | round i r => rfl
  | tickEnds i => simp [asksOf] at h
  | stop i => simp [asksOf] at h

theorem locks_ticking_of_ne (h : i ≠ e.who) : (w.locks e).ticking i = w.ticking i := by
  unfold World.locks
  split_ifs
  · exact Function.update_of_ne h _ _
  · exact Function.update_of_ne h _ _
  · rfl

/-- A process is in its tick from its beginning to its end. -/
theorem locks_ticking_self :
    (w.locks e).ticking e.who =
      if w.begins e then true else if e.ends then false else w.ticking e.who := by
  unfold World.locks
  split_ifs
  · exact Function.update_self _ _ _
  · exact Function.update_self _ _ _
  · rfl

/-- An event changes nothing of who else holds the lock. -/
theorem locks_advisory_of_ne (h : i ≠ e.who) :
    (w.locks e).advisory address = some i ↔ w.advisory address = some i := by
  unfold World.locks
  split_ifs with hbegins
  · unfold World.acquire
    simp only
    split_ifs with haddress
    -- the lock that is taken was free
    · rw [advisory_of_begins hbegins haddress]
      simpa using h.symm
    · rfl
  · unfold World.release
    simp only
    split_ifs with hheld
    · rw [hheld]
      simpa using h.symm
    · rfl
  · rfl

/-- The lock is had by the tick that begins, or that has it already and goes on. -/
theorem locks_advisory_self :
    (w.locks e).advisory address = some e.who ↔
      w.begins e = true ∧ w.address e.who = some address ∨
        e.ends = false ∧ w.advisory address = some e.who := by
  unfold World.locks
  split_ifs with hbegins hends
  · have hgoes := ends_of_begins hbegins
    unfold World.acquire
    simp only
    split_ifs with haddress
    · simp [hbegins, haddress]
    · simp [haddress, hgoes]
  · unfold World.release
    simp only
    split_ifs with hheld
    · simp [hbegins, hends]
    · simp [hbegins, hends, hheld]
  · simp [hbegins, hends]

end Held

/-! ### Without the sandboxes -/

section Unseen

variable {pg : Postgres} {sandbox : ℕ → Prop} {address : String} {w w' : World} {e : Event} {i : ℕ}

/-- No tick is called at the address while one of a sandbox is under way there. -/
def World.Clear (sandbox : ℕ → Prop) (address : String) (w : World) (e : Event) : Prop :=
  ¬ sandbox e.who → e.callsTick = true → w.address e.who = some address →
    ∀ j ∈ w.advisory address, ¬ sandbox j

instance [DecidablePred sandbox] : Decidable (w.Clear sandbox address e) :=
  inferInstanceAs (Decidable (¬ _ → _ = true → _ = _ → ∀ j ∈ w.advisory address, ¬ _))

/-- The worlds show the same at the address but for the sandboxes, which work away from
its schema `public` and of which there is none in the second. -/
structure Unseen (sandbox : ℕ → Prop) (address : String) (w w' : World) : Prop where
  alike : Tenants.World.Alike sandbox (.postgres address "public") w.toWorld w'.toWorld
  shows : ∀ i, ¬ sandbox i → w.shows i = w'.shows i
  ticking : ∀ i, ¬ sandbox i → w.address i = some address → w.ticking i = w'.ticking i
  lock : ∀ i, ¬ sandbox i → (w.advisory address = some i ↔ w'.advisory address = some i)
  free : ∀ i, sandbox i → w'.advisory address ≠ some i

/-- Processes outside of the sandboxes are at the same address in both. -/
theorem Unseen.address_eq (h : Unseen sandbox address w w') (hi : ¬ sandbox i) :
    w.address i = w'.address i := by
  unfold World.address
  rw [h.shows i hi]

/-- A process at the address finds the locks the same. -/
theorem Unseen.busy_eq (h : Unseen sandbox address w w') (hi : ¬ sandbox i)
    (haddress : w.address i = some address) (hclear : ∀ j ∈ w.advisory address, ¬ sandbox j) :
    w.busy i = w'.busy i := by
  have hsome : (w.advisory address).isSome = (w'.advisory address).isSome := by
    rcases hw : w.advisory address with - | j
    · rcases hw' : w'.advisory address with - | j
      · rfl
      · by_cases hj : sandbox j
        · exact absurd hw' (h.free j hj)
        · rw [(h.lock j hj).mpr hw'] at hw
          cases hw
    · rw [(h.lock j (hclear j hw)).mp hw]
  funext ask
  unfold World.busy
  rw [h.ticking i hi haddress, ← h.address_eq hi, haddress]
  simp only [hsome]

/-- A process that is elsewhere is not on the schema. -/
theorem on_public_eq_none (h : w.address i ≠ some address) :
    w.on (.postgres address "public") i = none := by
  rcases hon : w.on (.postgres address "public") i with - | p
  · rfl
  · have hproc := Tenants.World.on_eq_some.mp hon
    refine absurd ?_ h
    unfold World.address World.shows
    rw [hproc]
    rfl

/-- What a sandbox does is not seen. -/
theorem Unseen.step_hidden (h : Unseen sandbox address w w') (hwho : sandbox e.who)
    (hstart : ¬ (e.happens pg w).StartsOn (.postgres address "public")) :
    Unseen sandbox address (w.step pg e) w' := by
  have hne : ∀ i, ¬ sandbox i → i ≠ e.who := by
    rintro i hi rfl
    exact hi hwho
  refine ⟨?_, ?_, ?_, ?_, h.free⟩
  · exact h.alike.step_hidden (by rwa [Event.who_happens]) hstart
  · intro i hi
    rw [step_shows_of_ne (hne i hi)]
    exact h.shows i hi
  · intro i hi haddress
    unfold World.address at haddress
    rw [step_shows_of_ne (hne i hi)] at haddress
    exact (locks_ticking_of_ne (hne i hi)).trans (h.ticking i hi haddress)
  · intro i hi
    exact (locks_advisory_of_ne (hne i hi)).trans (h.lock i hi)

section Seen

variable (h : Unseen sandbox address w w') (hwho : ¬ sandbox e.who)
  (hclear : w.Clear sandbox address e)

include h hwho hclear

/-- The tick that an event calls at the address finds its locks the same. -/
theorem Unseen.busy_seen (hcalls : e.callsTick = true) (haddress : w.address e.who = some address) :
    w.busy e.who = w'.busy e.who :=
  h.busy_eq hwho haddress (hclear hwho hcalls haddress)

/-- So it begins in both worlds or in neither. -/
theorem Unseen.begins_seen (haddress : e.callsTick = true → w.address e.who = some address) :
    w.begins e = w'.begins e :=
  begins_congr (h.shows e.who hwho) fun hcalls => h.busy_seen hwho hclear hcalls (haddress hcalls)

/-- The schema and what works on it stay alike. -/
theorem Unseen.alike_seen :
    Tenants.World.Alike sandbox (.postgres address "public") (w.step pg e).toWorld
      (w'.step pg e).toWorld := by
  have hsame : (e.callsTick = true → w.address e.who = some address) →
      Tenants.World.Alike sandbox (.postgres address "public") (w.step pg e).toWorld
        (w'.step pg e).toWorld := by
    intro haddress
    show Tenants.World.Alike sandbox _ (w.toWorld.step (e.happens pg w))
      (w'.toWorld.step (e.happens pg w'))
    rw [← happens_congr fun hcalls => h.busy_seen hwho hclear hcalls (haddress hcalls)]
    exact h.alike.step_seen (by rwa [Event.who_happens])
  by_cases haddress : w.address e.who = some address
  · exact hsame fun _ => haddress
  · -- a tick at another address may find its locks otherwise
    have haway : w.on (.postgres address "public") (e.happens pg w).who = none := by
      rw [Event.who_happens]
      exact on_public_eq_none haddress
    cases e with
    | start i d connect => exact hsame nofun
    | request i r =>
      show Tenants.World.Alike sandbox _ (w.toWorld.step (.act i _)) (w'.toWorld.step (.act i _))
      exact h.alike.step_apart rfl haway hwho not_false not_false
    | round i r =>
      show Tenants.World.Alike sandbox _ (w.toWorld.step (.act i _)) (w'.toWorld.step (.act i _))
      exact h.alike.step_apart rfl haway hwho not_false not_false
    | tickEnds i => exact hsame nofun
    | stop i => exact hsame nofun

/-- The process of the event is in its tick in both worlds or in neither. -/
theorem Unseen.ticking_seen (haddress : (w.step pg e).address e.who = some address) :
    (w.locks e).ticking e.who = (w'.locks e).ticking e.who := by
  rw [locks_ticking_self, locks_ticking_self]
  by_cases hends : e.ends = true
  · have hcalls : e.callsTick = true → w.address e.who = some address := by
      cases e with
      | start i d connect => nofun
      | request i r => cases hends
      | round i r => cases hends
      | tickEnds i => nofun
      | stop i => nofun
    rw [h.begins_seen hwho hclear hcalls, if_pos hends, if_pos hends]
  · rw [Bool.not_eq_true] at hends
    have hhere : w.address e.who = some address := by
      unfold World.address at haddress ⊢
      rwa [step_shows_of_not_ends hends] at haddress
    rw [h.begins_seen hwho hclear fun _ => hhere, h.ticking _ hwho hhere]

/-- It takes the lock of the address in both worlds or in neither. -/
theorem Unseen.lock_seen :
    (w.locks e).advisory address = some e.who ↔ (w'.locks e).advisory address = some e.who := by
  refine locks_advisory_self.trans (Iff.trans (or_congr ?_ ?_) locks_advisory_self.symm)
  · rw [← h.address_eq hwho]
    exact and_congr_left fun haddress => by rw [h.begins_seen hwho hclear fun _ => haddress]
  · exact and_congr_right fun _ => h.lock _ hwho

/-- What another process does is the same with the sandboxes and without, while none of
them holds a lock that it asks for. -/
theorem Unseen.step_seen : Unseen sandbox address (w.step pg e) (w'.step pg e) := by
  refine ⟨h.alike_seen hwho hclear, ?_, ?_, ?_, ?_⟩
  · intro i hi
    by_cases hi' : i = e.who
    · subst hi'
      exact step_shows_congr (h.shows _ hi)
    · rw [step_shows_of_ne hi', step_shows_of_ne hi']
      exact h.shows i hi
  -- only the process of the event can begin or end a tick
  · intro i hi haddress
    by_cases hi' : i = e.who
    · subst hi'
      exact h.ticking_seen hwho hclear haddress
    · unfold World.address at haddress
      rw [step_shows_of_ne hi'] at haddress
      exact (locks_ticking_of_ne hi').trans
        ((h.ticking i hi haddress).trans (locks_ticking_of_ne hi').symm)
  · intro i hi
    by_cases hi' : i = e.who
    · subst hi'
      exact h.lock_seen hwho hclear
    · exact (locks_advisory_of_ne hi').trans ((h.lock i hi).trans (locks_advisory_of_ne hi').symm)
  · intro i hi
    have hne : i ≠ e.who := by
      rintro rfl
      exact hwho hi
    exact mt (locks_advisory_of_ne hne).mp (h.free i hi)

end Seen

/-- The start of a sandbox is on another store. -/
theorem not_startsOn_public (hpath : ∀ s, plain s → pg.searchPath s = s)
    (hstart : ∀ i d connect, e = .start i d connect → d.settings.sandboxMode ∧ plain d.dbSchema)
    (w : World) : ¬ (e.happens pg w).StartsOn (.postgres address "public") := by
  cases e with
  | start i d connect =>
    obtain ⟨hsandbox, hplain⟩ := hstart i d connect rfl
    have hopens := opens_ne_public hpath hsandbox hplain address
    show ¬ (startOf pg i d connect).StartsOn _
    rcases startOf_cases pg i d connect with heq | ⟨k, hk, heq⟩
    · rw [heq]
      exact not_false
    · rw [heq]
      intro hstarts
      exact hopens (hk.trans (congrArg _ hstarts))
  | request i r => exact not_false
  | round i r => exact not_false
  | tickEnds i => exact not_false
  | stop i => exact not_false

/-- A sandbox is never on a schema `public`. -/
theorem run_away {es : List Event}
    (hes : ∀ e ∈ es, sandbox e.who →
      ∀ w, ¬ (e.happens pg w).StartsOn (.postgres address "public"))
    (h : ∀ i, sandbox i → w.on (.postgres address "public") i = none) (hi : sandbox i) :
    (run pg w es).on (.postgres address "public") i = none := by
  induction es generalizing w with
  | nil => exact h i hi
  | cons e es ih =>
    refine ih (fun e he => hes e (List.mem_cons_of_mem _ he)) fun j hj => ?_
    show (w.toWorld.step (e.happens pg w)).on _ j = none
    by_cases hj' : j = e.who
    · subst hj'
      have haway : w.on (.postgres address "public") (e.happens pg w).who = none := by
        rw [Event.who_happens]
        exact h _ hj
      have hafter := (Tenants.World.step_away (hes e List.mem_cons_self hj w) haway).2
      rwa [Event.who_happens] at hafter
    · rw [Tenants.World.step_on_of_ne (by rwa [Event.who_happens])]
      exact h j hj

/-- The two worlds look the same over a run. -/
theorem Unseen.run [DecidablePred sandbox] (h : Unseen sandbox address w w') {es : List Event}
    (hes : ∀ e ∈ es, sandbox e.who →
      ∀ w, ¬ (e.happens pg w).StartsOn (.postgres address "public"))
    (hclear : Run.Admits (World.step pg) (World.Clear sandbox address) w es) :
    Unseen sandbox address (Front.run pg w es)
      (Front.run pg w' (es.filter fun e => ¬ sandbox e.who)) := by
  induction es generalizing w w' with
  | nil => exact h
  | cons e es ih =>
    have hrest := fun e he => hes e (List.mem_cons_of_mem _ he)
    by_cases hwho : sandbox e.who
    · rw [List.filter_cons_of_neg (by simpa using hwho)]
      exact ih (h.step_hidden hwho (hes e List.mem_cons_self hwho w)) hrest hclear.2
    · rw [List.filter_cons_of_pos (by simpa using hwho)]
      exact ih (h.step_seen hwho hclear.1) hrest hclear.2

end Unseen

/-- **A sandbox is not seen in production**, if the names of the schemas of the sandboxes
stand for themselves.  Whatever starts, asks and stops in whatever order, no event of a
sandbox changes a schema `public`; and where no tick of another process is called while a
sandbox holds the advisory lock of the address, the schema is in the end what it would be
without the sandboxes. -/
theorem sandbox_unseen (pg : Postgres) (hpath : ∀ s, plain s → pg.searchPath s = s)
    (store : Database → Tables) (es : List Event) (sandbox : ℕ → Prop) [DecidablePred sandbox]
    (hes : ∀ i d connect, Event.start i d connect ∈ es → sandbox i →
      d.settings.sandboxMode ∧ plain d.dbSchema) (address : String) :
    (∀ es₁ e es₂, es = es₁ ++ e :: es₂ → sandbox e.who →
      (run pg (databases store) (es₁ ++ [e])).store (.postgres address "public") =
        (run pg (databases store) es₁).store (.postgres address "public")) ∧
      (Run.Admits (World.step pg) (World.Clear sandbox address) (databases store) es →
        (run pg (databases store) es).store (.postgres address "public") =
          (run pg (databases store) (es.filter fun e => ¬ sandbox e.who)).store
            (.postgres address "public")) := by
  have hstarts : ∀ e ∈ es, sandbox e.who →
      ∀ w, ¬ (e.happens pg w).StartsOn (.postgres address "public") := by
    intro e he hwho
    refine not_startsOn_public hpath ?_
    rintro i d connect rfl
    exact hes i d connect he hwho
  refine ⟨?_, ?_⟩
  · rintro es₁ e es₂ rfl hwho
    have haway : (run pg (databases store) es₁).on (.postgres address "public")
        (e.happens pg (run pg (databases store) es₁)).who = none := by
      rw [Event.who_happens]
      exact run_away (fun e he => hstarts e (List.mem_append_left _ he)) (fun _ _ => rfl) hwho
    have hstart := hstarts e (List.mem_append_right _ List.mem_cons_self) hwho
      (run pg (databases store) es₁)
    have hsame := (Tenants.World.step_away hstart haway).1
    unfold run at hsame ⊢
    rw [List.foldl_append]
    exact hsame
  · intro hclear
    have hunseen : Unseen sandbox address (databases store) (databases store) :=
      ⟨⟨rfl, fun _ _ => rfl, fun _ _ => rfl⟩, fun _ _ => rfl, fun _ _ _ => rfl,
        fun _ _ => Iff.rfl, nofun⟩
    exact (hunseen.run hstarts hclear).alike.store

end Front

namespace Sample

/-- URLs and names that stand for themselves. -/
def postgres : Postgres where
  address := id
  searchPath := id

/-- A process in production that is asked for `LIVE` in both places. -/
def production : Deployment where
  settings := settings
  evaluate := fun _ _ _ => .error "ZeroDivisionError"
  auditTs := fun _ => tenOClock
  env := Dict.ofList [("TRADING_MODE", "live"), ("I_UNDERSTAND_LIVE_REAL_MONEY", " yes ")]
  appEnv := "production"
  apiKey := "secret"
  databaseUrl := "postgresql+asyncpg://db/app"
  tossClientId := "client"
  tossClientSecret := "secret"

/-- A sandbox on the same database. -/
def sandbox : Deployment :=
  { production with
    settings := { settings with sandboxMode := true }
    dbSchema := "sandbox" }

/-- A tick that is asked for with the key. -/
def tickRequest (key : String) : Request where
  route := .tick (.ok ()) (tickInput "a" (account 1) returning)
  xApiKey := some key
  verify := fun _ _ => .error "ValueError"

/-- Both come up and are asked for a tick, the one in production also without the key. -/
def both : List Front.Event :=
  [.start 0 production (.ok ()), .start 1 sandbox (.ok ()), .request 1 (tickRequest "secret"),
    .tickEnds 1, .request 0 (tickRequest "guess"), .request 0 (tickRequest "secret")]

end Sample

namespace Front

/-- The process in production has sent its order, and is asked for it. -/
theorem live_asked_for_both :
    ∃ k p, (run Sample.postgres (databases fun _ => {}) Sample.both).proc 0 = some (k, p) ∧
      p.svc.placed.length = 1 ∧ p.deployment.AsksLive := by
  have hsent : ((run Sample.postgres (databases fun _ => {}) Sample.both).proc 0).map
      (fun q => q.2.svc.placed.length) = some 1 := by
    decide +kernel
  obtain ⟨⟨k, p⟩, hproc, hlength⟩ := Option.map_eq_some_iff.mp hsent
  refine ⟨k, p, hproc, hlength, (live_asked_for _ _ _ hproc).1 ?_⟩
  rintro hnil
  simp [hnil] at hlength

/-- The tick of the sandbox leaves the tables in production, and in the end they are as
without the sandbox. -/
theorem sandbox_unseen_both :
    let store : Database → Tables := fun _ => {}
    let address := "postgresql+asyncpg://db/app"
    (run Sample.postgres (databases store) (Sample.both.take 3)).store
          (.postgres address "public") =
        (run Sample.postgres (databases store) (Sample.both.take 2)).store
          (.postgres address "public") ∧
      (run Sample.postgres (databases store) Sample.both).store (.postgres address "public") =
        (run Sample.postgres (databases store) (Sample.both.filter fun e => ¬ e.who = 1)).store
          (.postgres address "public") := by
  intro store address
  have hstarts : ∀ i d connect, Front.Event.start i d connect ∈ Sample.both → i = 1 →
      d.settings.sandboxMode ∧ plain d.dbSchema := by
    rintro i d connect hmem rfl
    simp only [Sample.both, List.mem_cons, List.not_mem_nil, or_false] at hmem
    rcases hmem with h | h | h | h | h | h
    all_goals cases h
    exact ⟨rfl, by decide +kernel⟩
  have hunseen := sandbox_unseen Sample.postgres (fun s _ => rfl) store Sample.both (· = 1)
    hstarts address
  have hclear : Run.Admits (World.step Sample.postgres) (World.Clear (· = 1) address)
      (databases store) Sample.both := by
    decide +kernel
  exact ⟨hunseen.1 (Sample.both.take 2) _ _ rfl rfl, hunseen.2 hclear⟩

/-- While the tick of the sandbox is under way, the one in production is skipped. -/
example : ((run Sample.postgres (databases fun _ => {}) (Sample.both.eraseIdx 3)).proc 0).map
    (fun q => q.2.svc.placed.length) = some 0 := by
  decide +kernel

end Front

end AutoTrade
