/-
AutoTrade/OrderService.lean

The order service (`orders/service.py`): the idempotency check, the
guardrails, the mode gate, the executor and the audit sink, in that order.

The executor and the sink are code outside the service, so both are functions
of everything they have been called with before: any behaviour over time is
one of them.  `placed` and `emitted` are the histories of their calls; the
source has no such fields, and nothing but the executor and the sink reads
them.  The only exception that leaves `submit` is the sink's.

`Settles` says how an order that was not seen before is answered, with one
constructor for each way out of `submit`, and `submit_cases` is all that
`submit` can do; every later result about the service is read off these.
-/
import AutoTrade.Guardrails
import AutoTrade.CircuitBreaker
import AutoTrade.Lib.Effect
import AutoTrade.Lib.OnceLog

namespace AutoTrade

/-- `OrderExecutor.place`, given the orders it was called with before. -/
abbrev Executor := List OrderRequest → OrderRequest → Except Exn String

/-- An audit sink, given the results it was called with before: the exception
it raises, if any. -/
abbrev AuditSink := List OrderResult → OrderResult → Option Exn

/-- A call of `executor.place`, how it ended and when. -/
structure Placement where
  order : OrderRequest
  outcome : Except Exn String
  time : Datetime

/-- The order service of a process; `placed` and `emitted` keep what went out, which the
source does not store. -/
structure OrderService where
  mode : TradingMode := .dryRun
  config : GuardrailConfig := {}
  executor : Option Executor := none
  audit : Option AuditSink := none
  killSwitch : Bool := false
  circuitBreaker : CircuitBreaker := {}
  /-- the results by id -/
  seen : Dict ClientOrderId OrderResult := ∅
  /-- every final result -/
  ledger : List OrderResult := []
  /-- the calls of the executor -/
  placed : List Placement := []
  /-- the calls of the sink -/
  emitted : List OrderResult := []

namespace OrderService

/-- `OrderService(mode, config, executor, audit, circuit_breaker)`. -/
def new (mode : TradingMode) (config : GuardrailConfig) (executor : Option Executor)
    (audit : Option AuditSink) (circuitBreaker : CircuitBreaker) : OrderService :=
  { mode, config, executor, audit, circuitBreaker }

/-- `engage_kill_switch`. -/
def engageKillSwitch (svc : OrderService) : OrderService := { svc with killSwitch := true }

/-- `release_kill_switch`. -/
def releaseKillSwitch (svc : OrderService) : OrderService := { svc with killSwitch := false }

/-- `assess_circuit_breaker`. -/
def assessCircuitBreaker (svc : OrderService) (equityKrw dailyPlRate : Option ℚ)
    (now : Datetime) : OrderService :=
  { svc with circuitBreaker := (svc.circuitBreaker.assess equityKrw dailyPlRate now).2 }

/-! ### Submission -/

/-- The context with the state the service owns. -/
def effectiveContext (svc : OrderService) (ctx : GuardrailContext) : GuardrailContext :=
  { ctx with
    killSwitch := ctx.killSwitch || svc.killSwitch
    circuitBreakerHalt := ctx.circuitBreakerHalt || svc.circuitBreaker.tripped
    circuitBreakerReason := ctx.circuitBreakerReason.or svc.circuitBreaker.reason }

@[simp] theorem effectiveContext_now (svc : OrderService) (ctx : GuardrailContext) :
    (svc.effectiveContext ctx).now = ctx.now := rfl

@[simp] theorem effectiveContext_killSwitch (svc : OrderService) (ctx : GuardrailContext) :
    (svc.effectiveContext ctx).killSwitch = (ctx.killSwitch || svc.killSwitch) := rfl

/-- `_result`. -/
def result (svc : OrderService) (order : OrderRequest) (status : OrderStatus)
    (createdAt : Datetime) (reason : Option Text) (tossOrderId : Option String) :
    OrderResult :=
  { clientOrderId := order.clientOrderId, status, mode := svc.mode, request := order, reason,
    tossOrderId, createdAt }

/-- `_emit`. -/
def emit (res : OrderResult) : Effect Exn OrderService PUnit := fun svc =>
  match svc.audit with
  | none => (.ok ⟨⟩, svc)
  | some sink =>
    let svc' := { svc with emitted := svc.emitted ++ [res] }
    match sink svc.emitted res with
    | none => (.ok ⟨⟩, svc')
    | some e => (.error e, svc')

/-- `_finalize`. -/
def finalize (res : OrderResult) : Effect Exn OrderService OrderResult := do
  Effect.change fun svc =>
    { svc with seen := svc.seen.set res.clientOrderId res, ledger := svc.ledger ++ [res] }
  emit res
  pure res

/-- `"; ".join(f"[{v.code}] {v.reason}" for v in violations)`. -/
def rejection (violations : List Violation) : Text :=
  Text.join [.lit "; "] (violations.map fun v => [.lit "[", .str v.code, .lit "] "] ++ v.reason)

/-- Submit an order; `createdAt` is the clock as the result reads it. -/
def submit (order : OrderRequest) (ctx : GuardrailContext) (createdAt : Datetime) :
    Effect Exn OrderService OrderResult := do
  let svc ← Effect.look id
  match svc.seen.get? order.clientOrderId with
  | some prior => do
    let dup := { prior with status := .duplicate }
    emit dup
    pure dup
  | none =>
    let violations := runGuardrails order (svc.effectiveContext ctx) svc.config
    if violations ≠ [] then
      finalize (svc.result order .rejected createdAt (some (rejection violations)) none)
    else match svc.mode with
      | .dryRun =>   -- the executor is not called
        finalize (svc.result order .dryRun createdAt
          (some [.lit "DRY_RUN: 미전송(의도된 주문 기록)"]) none)
      | .live => match svc.executor with
        | none =>
          finalize (svc.result order .failed createdAt
            (some [.lit "LIVE executor 미설정 — 전송 거부"]) none)
        | some place => do
          let outcome := place (svc.placed.map Placement.order) order
          Effect.change fun svc =>
            { svc with placed := svc.placed ++ [⟨order, outcome, createdAt⟩] }
          match outcome with
          | .ok tossId => finalize (svc.result order .submitted createdAt none (some tossId))
          | .error e =>
            finalize (svc.result order .failed createdAt
              (some [.lit "전송 오류: ", .str e]) none)

/-! ### What a submission can do -/

/-- The exception that the sink raises on `res`. -/
def sinkRaises (svc : OrderService) (res : OrderResult) : Option Exn :=
  svc.audit.bind fun sink => sink svc.emitted res

/-- The service once the sink was given `res`. -/
def emitting (svc : OrderService) (res : OrderResult) : OrderService :=
  { svc with emitted := if svc.audit.isSome then svc.emitted ++ [res] else svc.emitted }

/-- What the sink makes of the answer `res`. -/
def answer (svc : OrderService) (res : OrderResult) : Except Exn OrderResult :=
  match svc.sinkRaises res with
  | none => .ok res
  | some e => .error e

/-- The service with a new answer `res` and the calls `calls` of the executor. -/
def recording (svc : OrderService) (res : OrderResult) (calls : List Placement) :
    OrderService :=
  { svc with
    seen := svc.seen.set res.clientOrderId res
    ledger := svc.ledger ++ [res]
    placed := svc.placed ++ calls }

/-- The service takes an order that passes: in `DRY_RUN` always, in `LIVE` when
the executor is there and returns. -/
def Takes (svc : OrderService) (order : OrderRequest) : Prop :=
  svc.mode = .dryRun ∨ ∃ place tossId, svc.executor = some place ∧
    place (svc.placed.map Placement.order) order = .ok tossId

/-- How an order that was not seen before is answered, and with which calls of
the executor. -/
inductive Settles (svc : OrderService) (order : OrderRequest) (ctx : GuardrailContext)
    (createdAt : Datetime) : OrderResult → List Placement → Prop
  | rejected (h : runGuardrails order (svc.effectiveContext ctx) svc.config ≠ []) :
      Settles svc order ctx createdAt
        (svc.result order .rejected createdAt
          (some (rejection (runGuardrails order (svc.effectiveContext ctx) svc.config))) none) []
  | dryRun (h : runGuardrails order (svc.effectiveContext ctx) svc.config = [])
      (hmode : svc.mode = .dryRun) :
      Settles svc order ctx createdAt
        (svc.result order .dryRun createdAt
          (some [.lit "DRY_RUN: 미전송(의도된 주문 기록)"]) none) []
  | unset (h : runGuardrails order (svc.effectiveContext ctx) svc.config = [])
      (hmode : svc.mode = .live) (hexec : svc.executor = none) :
      Settles svc order ctx createdAt
        (svc.result order .failed createdAt
          (some [.lit "LIVE executor 미설정 — 전송 거부"]) none) []
  | submitted (h : runGuardrails order (svc.effectiveContext ctx) svc.config = [])
      (hmode : svc.mode = .live) {place : Executor} (hexec : svc.executor = some place)
      {tossId : String} (hplace : place (svc.placed.map Placement.order) order = .ok tossId) :
      Settles svc order ctx createdAt
        (svc.result order .submitted createdAt none (some tossId))
        [⟨order, .ok tossId, createdAt⟩]
  | failed (h : runGuardrails order (svc.effectiveContext ctx) svc.config = [])
      (hmode : svc.mode = .live) {place : Executor} (hexec : svc.executor = some place)
      {e : Exn} (hplace : place (svc.placed.map Placement.order) order = .error e) :
      Settles svc order ctx createdAt
        (svc.result order .failed createdAt (some [.lit "전송 오류: ", .str e]) none)
        [⟨order, .error e, createdAt⟩]

section Submit

variable (svc : OrderService) (order : OrderRequest) (ctx : GuardrailContext)
  (createdAt : Datetime)

/-- A sink that raises has been told all the same. -/
theorem emit_apply (res : OrderResult) :
    emit res svc = (match svc.sinkRaises res with
      | none => .ok ⟨⟩
      | some e => .error e, svc.emitting res) := by
  unfold emit sinkRaises emitting
  rcases ha : svc.audit with - | sink
  · cases svc
    subst ha
    rfl
  · show (match sink svc.emitted res with | none => _ | some e => _) = _
    rcases hs : sink svc.emitted res with - | e
    · simp [hs]
    · simp [hs]

/-- The answer of a submission is what its sink lets through. -/
theorem emit_answer (res : OrderResult) :
    (emit res >>= fun _ => pure res : Effect Exn OrderService OrderResult) svc =
      (svc.answer res, svc.emitting res) := by
  rw [Effect.bind_apply, emit_apply, answer]
  rcases svc.sinkRaises res with - | e
  · rfl
  · rfl

/-- The record is made before the sink is told. -/
theorem finalize_apply (res : OrderResult) :
    finalize res svc = (svc.answer res, (svc.recording res []).emitting res) := by
  have hplaced : svc.recording res [] =
      { svc with seen := svc.seen.set res.clientOrderId res, ledger := svc.ledger ++ [res] } := by
    simp [recording]
  have h := emit_answer (svc.recording res []) res
  rw [show (svc.recording res []).answer res = svc.answer res from rfl, hplaced] at h
  rw [hplaced]
  exact h

/-- **All that `submit` can do**: echo the answer to an order seen before, with
nothing recorded, or answer and record a new one. -/
theorem submit_cases :
    (∃ prior, svc.seen.get? order.clientOrderId = some prior ∧
      submit order ctx createdAt svc =
        (svc.answer { prior with status := .duplicate },
          svc.emitting { prior with status := .duplicate })) ∨
    (svc.seen.get? order.clientOrderId = none ∧
      ∃ res calls, Settles svc order ctx createdAt res calls ∧
        submit order ctx createdAt svc =
          (svc.answer res, (svc.recording res calls).emitting res)) := by
  rcases hseen : svc.seen.get? order.clientOrderId with - | prior
  · right
    refine ⟨rfl, ?_⟩
    -- not seen before: the guardrails, the mode, the executor and its outcome
    by_cases hg : runGuardrails order (svc.effectiveContext ctx) svc.config = []
    · rcases hmode : svc.mode with - | -
      · refine ⟨_, _, .dryRun hg hmode, ?_⟩
        simp only [submit, Effect.bind_apply, Effect.look_apply, id, hseen, hg, hmode, ne_eq,
          not_true_eq_false, if_false]
        exact finalize_apply svc _
      · rcases hexec : svc.executor with - | place
        · refine ⟨_, _, .unset hg hmode hexec, ?_⟩
          simp only [submit, Effect.bind_apply, Effect.look_apply, id, hseen, hg, hmode, hexec,
            ne_eq, not_true_eq_false, if_false]
          exact finalize_apply svc _
        · rcases hplace : place (svc.placed.map Placement.order) order with e | tossId
          · refine ⟨_, _, .failed hg hmode hexec hplace, ?_⟩
            simp only [submit, Effect.bind_apply, Effect.look_apply, id, hseen, hg, hmode, hexec,
              hplace, ne_eq, not_true_eq_false, if_false, Effect.change_apply]
            rw [finalize_apply]
            simp [recording, answer, sinkRaises, hmode, hexec]
          · refine ⟨_, _, .submitted hg hmode hexec hplace, ?_⟩
            simp only [submit, Effect.bind_apply, Effect.look_apply, id, hseen, hg, hmode, hexec,
              hplace, ne_eq, not_true_eq_false, if_false, Effect.change_apply]
            rw [finalize_apply]
            simp [recording, answer, sinkRaises, hmode, hexec]
    · refine ⟨_, _, .rejected hg, ?_⟩
      simp only [submit, Effect.bind_apply, Effect.look_apply, id, hseen, hg, ne_eq,
        not_false_eq_true, if_true]
      exact finalize_apply svc _
  · left
    refine ⟨prior, rfl, ?_⟩
    simp only [submit, Effect.bind_apply, Effect.look_apply, id, hseen]
    exact emit_answer svc _

end Submit

section Fields

variable (svc : OrderService) (res : OrderResult) (calls : List Placement)

@[simp] theorem emitting_seen : (svc.emitting res).seen = svc.seen := rfl

@[simp] theorem emitting_ledger : (svc.emitting res).ledger = svc.ledger := rfl

@[simp] theorem emitting_placed : (svc.emitting res).placed = svc.placed := rfl

@[simp] theorem recording_seen :
    (svc.recording res calls).seen = svc.seen.set res.clientOrderId res := rfl

@[simp] theorem recording_ledger :
    (svc.recording res calls).ledger = svc.ledger ++ [res] := rfl

@[simp] theorem recording_placed :
    (svc.recording res calls).placed = svc.placed ++ calls := rfl

end Fields

/-- Everything a service is set up with, which no submission changes. -/
structure SameSetup (svc svc' : OrderService) : Prop where
  mode : svc'.mode = svc.mode
  config : svc'.config = svc.config
  executor : svc'.executor = svc.executor
  audit : svc'.audit = svc.audit
  killSwitch : svc'.killSwitch = svc.killSwitch
  circuitBreaker : svc'.circuitBreaker = svc.circuitBreaker

theorem SameSetup.refl (svc : OrderService) : SameSetup svc svc := ⟨rfl, rfl, rfl, rfl, rfl, rfl⟩

theorem SameSetup.symm {a b : OrderService} (h : SameSetup a b) : SameSetup b a :=
  ⟨h.mode.symm, h.config.symm, h.executor.symm, h.audit.symm, h.killSwitch.symm,
    h.circuitBreaker.symm⟩

theorem SameSetup.trans {a b c : OrderService} (h : SameSetup a b) (h' : SameSetup b c) :
    SameSetup a c :=
  ⟨h'.mode.trans h.mode, h'.config.trans h.config, h'.executor.trans h.executor,
    h'.audit.trans h.audit, h'.killSwitch.trans h.killSwitch,
    h'.circuitBreaker.trans h.circuitBreaker⟩

namespace Settles

variable {svc : OrderService} {order : OrderRequest} {ctx : GuardrailContext}
  {createdAt : Datetime} {res : OrderResult} {calls : List Placement}

/-- The answer is about the order, under its id, in the mode of the service. -/
theorem answers (h : Settles svc order ctx createdAt res calls) :
    res.clientOrderId = order.clientOrderId ∧ res.request = order ∧
      res.createdAt = createdAt ∧ res.mode = svc.mode := by
  cases h with
  | rejected h => exact ⟨rfl, rfl, rfl, rfl⟩
  | dryRun h hmode => exact ⟨rfl, rfl, rfl, rfl⟩
  | unset h hmode hexec => exact ⟨rfl, rfl, rfl, rfl⟩
  | submitted h hmode hexec hplace => exact ⟨rfl, rfl, rfl, rfl⟩
  | failed h hmode hexec hplace => exact ⟨rfl, rfl, rfl, rfl⟩

/-- **When an order is accepted**: when it has no violation and the service takes
it. -/
theorem accepted_iff (h : Settles svc order ctx createdAt res calls) :
    res.status.accepted ↔
      runGuardrails order (svc.effectiveContext ctx) svc.config = [] ∧ svc.Takes order := by
  cases h with
  | rejected h =>
    constructor
    · intro hacc
      cases hacc
    · rintro ⟨hpass, -⟩
      exact absurd hpass h
  | dryRun h hmode => exact ⟨fun _ => ⟨h, Or.inl hmode⟩, fun _ => rfl⟩
  | unset h hmode hexec =>
    constructor
    · intro hacc
      cases hacc
    · rintro ⟨-, hdry | ⟨place, tossId, hplace, -⟩⟩
      · rw [hmode] at hdry
        cases hdry
      · rw [hexec] at hplace
        cases hplace
  | submitted h hmode hexec hplace =>
    exact ⟨fun _ => ⟨h, Or.inr ⟨_, _, hexec, hplace⟩⟩, fun _ => rfl⟩
  | failed h hmode hexec hplace =>
    constructor
    · intro hacc
      cases hacc
    · rintro ⟨-, hdry | ⟨place, tossId, hexec', hok⟩⟩
      · rw [hmode] at hdry
        cases hdry
      · rw [hexec] at hexec'
        cases hexec'
        rw [hplace] at hok
        cases hok

/-- Only an order without violations is accepted. -/
theorem passed_of_accepted (h : Settles svc order ctx createdAt res calls)
    (hacc : res.status.accepted) :
    runGuardrails order (svc.effectiveContext ctx) svc.config = [] := (h.accepted_iff.mp hacc).1

/-- The executor is called at most once, for an order without violations, in
`LIVE`. -/
theorem calls_cases (h : Settles svc order ctx createdAt res calls) :
    calls = [] ∨ svc.mode = .live ∧
      runGuardrails order (svc.effectiveContext ctx) svc.config = [] ∧
      ∃ outcome, calls = [⟨order, outcome, createdAt⟩] := by
  cases h with
  | rejected h => exact Or.inl rfl
  | dryRun h hmode => exact Or.inl rfl
  | unset h hmode hexec => exact Or.inl rfl
  | submitted h hmode hexec hplace => exact Or.inr ⟨hmode, h, _, rfl⟩
  | failed h hmode hexec hplace => exact Or.inr ⟨hmode, h, _, rfl⟩

end Settles

/-! ### Runs of one service -/

/-- What can happen to a service while its process lives. -/
inductive Event
  | submit (order : OrderRequest) (ctx : GuardrailContext) (createdAt : Datetime)
  | engageKillSwitch
  | releaseKillSwitch
  | assessCircuitBreaker (equityKrw dailyPlRate : Option ℚ) (now : Datetime)
  | setMode (mode : TradingMode)

/-- A call. -/
def step (svc : OrderService) : Event → OrderService
  | .submit order ctx createdAt => (OrderService.submit order ctx createdAt svc).2
  | .engageKillSwitch => svc.engageKillSwitch
  | .releaseKillSwitch => svc.releaseKillSwitch
  | .assessCircuitBreaker equityKrw dailyPlRate now =>
    svc.assessCircuitBreaker equityKrw dailyPlRate now
  | .setMode mode => { svc with mode := mode }

/-- Calls one after another. -/
def run (svc : OrderService) (es : List Event) : OrderService := es.foldl step svc

/-- The id an event submits. -/
def Event.submits : Event → Option ClientOrderId
  | .submit order _ _ => some order.clientOrderId
  | .engageKillSwitch => none
  | .releaseKillSwitch => none
  | .assessCircuitBreaker _ _ _ => none
  | .setMode _ => none

/-- The two records of the answers agree, and each call of the executor was for
an id of its own that has been answered. -/
structure Consistent (svc : OrderService) : Prop where
  agrees : OnceLog.Agrees OrderResult.clientOrderId svc.seen svc.ledger
  covers : OnceLog.Covers (fun p : Placement => p.order.clientOrderId) svc.seen svc.placed

/-- A new service has seen nothing and answered nothing. -/
theorem consistent_new (mode : TradingMode) (config : GuardrailConfig)
    (executor : Option Executor) (audit : Option AuditSink) (cb : CircuitBreaker) :
    (new mode config executor audit cb).Consistent :=
  ⟨OnceLog.agrees_empty, OnceLog.covers_nil _ _⟩

/-- **Every submission keeps the records consistent**, whether it returns or
raises. -/
theorem Consistent.submit {svc : OrderService} (h : svc.Consistent) (order : OrderRequest)
    (ctx : GuardrailContext) (createdAt : Datetime) :
    (OrderService.submit order ctx createdAt svc).2.Consistent := by
  rcases submit_cases svc order ctx createdAt with ⟨prior, -, hrun⟩ | ⟨hnew, res, calls, hs, hrun⟩
  · rw [hrun]
    exact ⟨h.agrees, h.covers⟩
  · obtain ⟨hid, -, -, -⟩ := hs.answers
    rw [hrun]
    refine ⟨?_, ?_⟩
    · exact h.agrees.record (hid ▸ hnew)
    · show OnceLog.Covers _ (svc.seen.set res.clientOrderId res) (svc.placed ++ calls)
      rw [hid]
      rcases hs.calls_cases with rfl | ⟨-, -, outcome, rfl⟩
      · rw [List.append_nil]
        exact h.covers.record
      · exact h.covers.act (a := ⟨order, outcome, createdAt⟩) hnew

theorem Consistent.step {svc : OrderService} (h : svc.Consistent) (e : Event) :
    (svc.step e).Consistent := by
  cases e with
  | submit order ctx createdAt => exact h.submit order ctx createdAt
  | engageKillSwitch => exact ⟨h.agrees, h.covers⟩
  | releaseKillSwitch => exact ⟨h.agrees, h.covers⟩
  | assessCircuitBreaker equityKrw dailyPlRate now => exact ⟨h.agrees, h.covers⟩
  | setMode mode => exact ⟨h.agrees, h.covers⟩

/-- The index and the ledger agree over any calls. -/
theorem Consistent.run {svc : OrderService} (h : svc.Consistent) (es : List Event) :
    (svc.run es).Consistent := Run.foldl_invariant (fun _ e hs => hs.step e) h es

/-- **When the executor is called**: by a submission of an order without
violations, in `LIVE`, with both kill switches off. -/
theorem placed_step (svc : OrderService) (e : Event) :
    (svc.step e).placed = svc.placed ∨
      ∃ order ctx createdAt outcome, e = .submit order ctx createdAt ∧
        (svc.step e).placed = svc.placed ++ [⟨order, outcome, createdAt⟩] ∧
        svc.mode = .live ∧ svc.killSwitch = false ∧ ctx.killSwitch = false ∧
        runGuardrails order (svc.effectiveContext ctx) svc.config = [] := by
  cases e with
  | submit order ctx createdAt =>
    rcases submit_cases svc order ctx createdAt with ⟨prior, -, hrun⟩ | ⟨-, res, calls, hs, hrun⟩
    · left
      show (OrderService.submit order ctx createdAt svc).2.placed = _
      rw [hrun, emitting_placed]
    · have hplaced : (svc.step (.submit order ctx createdAt)).placed = svc.placed ++ calls := by
        show (OrderService.submit order ctx createdAt svc).2.placed = _
        rw [hrun, emitting_placed, recording_placed]
      -- the executor is called only past the guardrails, the first of which is the switch
      rcases hs.calls_cases with rfl | ⟨hmode, hpass, outcome, rfl⟩
      · left
        rw [hplaced, List.append_nil]
      · right
        have hkill : (svc.effectiveContext ctx).killSwitch = false :=
          guardKillSwitch_eq_none.mp (runGuardrails_eq_nil.mp hpass).1
        obtain ⟨hctx, hsvc⟩ := Bool.or_eq_false_iff.mp hkill
        exact ⟨order, ctx, createdAt, outcome, rfl, hplaced, hmode, hsvc, hctx, hpass⟩
  | engageKillSwitch => exact Or.inl rfl
  | releaseKillSwitch => exact Or.inl rfl
  | assessCircuitBreaker equityKrw dailyPlRate now => exact Or.inl rfl
  | setMode mode => exact Or.inl rfl

/-- The answers a step adds, and the ids it adds them for. -/
theorem ledger_step (svc : OrderService) (e : Event) :
    (svc.step e).ledger = svc.ledger ∧ (∀ id, e.submits = some id → id ∈ svc.seen.keys) ∨
      ∃ res, (svc.step e).ledger = svc.ledger ++ [res] ∧
        e.submits = some res.clientOrderId := by
  cases e with
  | submit order ctx createdAt =>
    rcases submit_cases svc order ctx createdAt with
      ⟨prior, hseen, hrun⟩ | ⟨-, res, calls, hs, hrun⟩
    · left
      refine ⟨?_, ?_⟩
      · show (OrderService.submit order ctx createdAt svc).2.ledger = _
        rw [hrun, emitting_ledger]
      · intro id hid
        rw [← Option.some.inj hid]
        exact Dict.mem_keys_of_get? hseen
    · right
      refine ⟨res, ?_, ?_⟩
      · show (OrderService.submit order ctx createdAt svc).2.ledger = _
        rw [hrun, emitting_ledger, recording_ledger]
      · rw [hs.answers.1]
        rfl
  | engageKillSwitch => exact Or.inl ⟨rfl, by simp [Event.submits]⟩
  | releaseKillSwitch => exact Or.inl ⟨rfl, by simp [Event.submits]⟩
  | assessCircuitBreaker equityKrw dailyPlRate now =>
    exact Or.inl ⟨rfl, by simp [Event.submits]⟩
  | setMode mode => exact Or.inl ⟨rfl, by simp [Event.submits]⟩

/-- An answer stays in the ledger. -/
theorem ledger_sub_run (svc : OrderService) (es : List Event) :
    svc.ledger ⊆ (svc.run es).ledger := by
  refine Run.foldl_invariant (I := fun s : OrderService => svc.ledger ⊆ s.ledger) ?_
    (List.Subset.refl _) es
  intro s e hs
  rcases ledger_step s e with ⟨heq, -⟩ | ⟨res, heq, -⟩
  · rw [heq]
    exact hs
  · rw [heq]
    exact List.subset_append_of_subset_left _ hs

/-- The ledger of a run answers exactly the ids that the run submitted. -/
theorem mem_ledger_run {svc : OrderService} (h : svc.Consistent) (es : List Event)
    (id : ClientOrderId) :
    id ∈ (svc.run es).ledger.map OrderResult.clientOrderId ↔
      id ∈ svc.ledger.map OrderResult.clientOrderId ∨ id ∈ es.filterMap Event.submits := by
  induction es generalizing svc with
  | nil => simp [run]
  | cons e es ih =>
    -- an event that adds no answer submits an id that has one
    have hstep : id ∈ (svc.step e).ledger.map OrderResult.clientOrderId ↔
        id ∈ svc.ledger.map OrderResult.clientOrderId ∨ e.submits = some id := by
      rcases ledger_step svc e with ⟨heq, hold⟩ | ⟨res, heq, hsub⟩
      · rw [heq]
        constructor
        · exact Or.inl
        · rintro (hmem | hid)
          · exact hmem
          · exact h.agrees.mem_keys.mp (hold id hid)
      · rw [heq, hsub]
        simp [eq_comm]
    show id ∈ ((svc.step e).run es).ledger.map OrderResult.clientOrderId ↔ _
    rw [ih (h.step e), hstep, List.mem_filterMap, List.mem_filterMap]
    simp only [List.mem_cons, exists_eq_or_imp, or_assoc]

/-- The first submission of an id settles it and adds its answer to the ledger. -/
theorem submit_first {svc : OrderService} (h : svc.Consistent) {order : OrderRequest}
    (hnew : order.clientOrderId ∉ svc.ledger.map OrderResult.clientOrderId)
    (ctx : GuardrailContext) (createdAt : Datetime) :
    ∃ first, first.request = order ∧ first.clientOrderId = order.clientOrderId ∧
      first.status ≠ .duplicate ∧
      (OrderService.submit order ctx createdAt svc).1 = svc.answer first ∧
      (OrderService.submit order ctx createdAt svc).2.ledger = svc.ledger ++ [first] := by
  rcases submit_cases svc order ctx createdAt with
    ⟨prior, hseen, -⟩ | ⟨-, first, calls, hs, hrun⟩
  · exact absurd (h.agrees.mem_keys.mp (Dict.mem_keys_of_get? hseen)) hnew
  · obtain ⟨hid, hreq, -, -⟩ := hs.answers
    have hstatus : first.status ≠ .duplicate := by
      cases hs <;> simp [OrderService.result]
    refine ⟨first, hreq, hid, hstatus, ?_, ?_⟩
    · rw [hrun]
    · rw [hrun]
      rfl

/-- **A repeated order is echoed**: from a consistent service, an order whose id
the ledger answers gets that answer as a duplicate, and nothing but the history
of the sink changes. -/
theorem submit_repeated {svc : OrderService} (h : svc.Consistent) {first : OrderResult}
    (hfirst : first ∈ svc.ledger) {order : OrderRequest}
    (hid : first.clientOrderId = order.clientOrderId) (ctx : GuardrailContext)
    (createdAt : Datetime) :
    OrderService.submit order ctx createdAt svc =
      (svc.answer { first with status := .duplicate },
        svc.emitting { first with status := .duplicate }) := by
  have hseen := (h.agrees.get?_iff order.clientOrderId first).mpr ⟨hfirst, hid⟩
  rcases submit_cases svc order ctx createdAt with ⟨prior, hprior, hrun⟩ | ⟨hnew, -⟩
  · rw [hseen] at hprior
    rw [hrun, Option.some.inj hprior]
  · rw [hseen] at hnew
    cases hnew

/-- **Sending and ledger safety.**  In every run of a new service, whatever the
executor and the sink do:
* the executor is called at most once an id, and only in `LIVE`, with the kill
  switch of the service and of the context off, for an order without violations;
* the ledger has exactly one answer for each submitted id and holds the same
  answers as `seen`;
* the first submission of an id adds its answer to the ledger, and a later one
  gets that answer as a duplicate, unless the sink raises, and changes neither
  the ledger nor `seen` nor calls the executor. -/
theorem submit_once (mode : TradingMode) (config : GuardrailConfig)
    (executor : Option Executor) (audit : Option AuditSink) (cb : CircuitBreaker)
    (es : List Event) :
    let start := new mode config executor audit cb
    let svc := start.run es
    (svc.placed.map fun p => p.order.clientOrderId).Nodup ∧
    (∀ pre e post, es = pre ++ e :: post →
      ((start.run pre).step e).placed = (start.run pre).placed ∨
      ∃ order ctx createdAt outcome, e = .submit order ctx createdAt ∧
        ((start.run pre).step e).placed =
          (start.run pre).placed ++ [⟨order, outcome, createdAt⟩] ∧
        (start.run pre).mode = .live ∧ (start.run pre).killSwitch = false ∧
        ctx.killSwitch = false ∧
        runGuardrails order ((start.run pre).effectiveContext ctx) (start.run pre).config = []) ∧
    (svc.ledger.map OrderResult.clientOrderId).Nodup ∧
    (∀ id, id ∈ svc.ledger.map OrderResult.clientOrderId ↔ id ∈ es.filterMap Event.submits) ∧
    (∀ id r, svc.seen.get? id = some r ↔ r ∈ svc.ledger ∧ r.clientOrderId = id) ∧
    (∀ pre order ctx createdAt mid, es = pre ++ .submit order ctx createdAt :: mid →
      order.clientOrderId ∉ pre.filterMap Event.submits →
      ∃ first, first.request = order ∧ first.clientOrderId = order.clientOrderId ∧
        first.status ≠ .duplicate ∧
        (submit order ctx createdAt (start.run pre)).1 = (start.run pre).answer first ∧
        (submit order ctx createdAt (start.run pre)).2.ledger =
          (start.run pre).ledger ++ [first] ∧
        ∀ order' ctx' createdAt', order'.clientOrderId = order.clientOrderId →
          (submit order' ctx' createdAt' svc).1 =
            (match svc.sinkRaises { first with status := .duplicate } with
              | none => .ok { first with status := .duplicate }
              | some e => .error e) ∧
          (submit order' ctx' createdAt' svc).2.ledger = svc.ledger ∧
          (submit order' ctx' createdAt' svc).2.seen = svc.seen ∧
          (submit order' ctx' createdAt' svc).2.placed = svc.placed) := by
  intro start svc
  have hstart : start.Consistent := consistent_new mode config executor audit cb
  have hsvc : svc.Consistent := hstart.run es
  refine ⟨hsvc.covers.nodup, ?_, hsvc.agrees.nodup, ?_, hsvc.agrees.get?_iff, ?_⟩
  · intro pre e post _
    exact placed_step (start.run pre) e
  · intro id
    have hempty : start.ledger = [] := rfl
    rw [mem_ledger_run hstart es id, hempty]
    simp
  · intro pre order ctx createdAt mid hes hpre
    have hempty : start.ledger = [] := rfl
    have hnew : order.clientOrderId ∉
        (start.run pre).ledger.map OrderResult.clientOrderId := by
      rw [mem_ledger_run hstart pre, hempty]
      simpa using hpre
    obtain ⟨first, hreq, hid, hstatus, hanswer, hledger⟩ :=
      submit_first (hstart.run pre) hnew ctx createdAt
    refine ⟨first, hreq, hid, hstatus, hanswer, hledger, ?_⟩
    intro order' ctx' createdAt' hid'
    -- the answer is in the ledger from then on
    have hmem : first ∈ svc.ledger := by
      have hsplit : svc = ((start.run pre).step (.submit order ctx createdAt)).run mid := by
        show start.run es = _
        rw [hes]
        simp [OrderService.run]
      rw [hsplit]
      apply ledger_sub_run
      show first ∈ (submit order ctx createdAt (start.run pre)).2.ledger
      rw [hledger]
      simp
    rw [submit_repeated hsvc hmem (hid.trans hid'.symm) ctx' createdAt']
    exact ⟨rfl, rfl, rfl, rfl⟩

end OrderService

end AutoTrade
