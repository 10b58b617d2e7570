/-
AutoTrade/OrderNames.lean

The ids of orders are names.

A tick draws an id for each order and a time for each answer.  In `DRY_RUN`
nobody outside sees them, and as long as no id is drawn twice nothing in the
tick depends on them: two ticks that draw different ones (`runTick_renamed`) end
alike, with the same orders up to the ids and the times.  The two runs go
through the same branches, so the proof follows the source of one.
-/
import AutoTrade.Lib.Coupled
import AutoTrade.Pipeline

namespace AutoTrade

open Effect OrderService

/-- The answer without the id and the time. -/
def OrderResult.anonymous (r : OrderResult) : OrderResult :=
  { r with clientOrderId := "", request := r.request.anonymous, createdAt := ⟨0, 0⟩ }

/-- The result with the orders up to their names. -/
def TickResult.anonymous (r : TickResult) : TickResult :=
  { r with orders := r.orders.map OrderResult.anonymous }

/-- None of the ids from the `n`-th on has been answered. -/
def Unseen (stamps : ℕ → Stamp) (n : ℕ) (svc : OrderService) : Prop :=
  ∀ i, n ≤ i → svc.seen.get? (stamps i).clientOrderId = none

/-- A service that sends nothing and reports to nobody. -/
structure Rehearses (svc : OrderService) : Prop where
  mode : svc.mode = .dryRun
  audit : svc.audit = none

theorem Rehearses.of_sameSetup {svc svc' : OrderService} (h : Rehearses svc)
    (hsame : SameSetup svc svc') : Rehearses svc' :=
  ⟨hsame.mode.trans h.mode, hsame.audit.trans h.audit⟩

/-- The guardrails do not look at the id. -/
theorem runGuardrails_anonymous (order : OrderRequest) (ctx : GuardrailContext)
    (cfg : GuardrailConfig) :
    runGuardrails order.anonymous ctx cfg = runGuardrails order ctx cfg := rfl

/-! ### A submission -/

section Submit

variable {svc svc' : OrderService} {order order' : OrderRequest} {ctx : GuardrailContext}
  {createdAt createdAt' : Datetime}

theorem effectiveContext_setup (h : SameSetup svc svc') (ctx : GuardrailContext) :
    svc'.effectiveContext ctx = svc.effectiveContext ctx := by
  unfold effectiveContext
  rw [h.killSwitch, h.circuitBreaker]

theorem Rehearses.answer (h : Rehearses svc) (res : OrderResult) : svc.answer res = .ok res := by
  unfold OrderService.answer sinkRaises
  rw [h.audit]
  rfl

/-- Two orders of one name are answered alike. -/
theorem OrderService.Settles.alike {res res' : OrderResult} {calls calls' : List Placement}
    (h : Settles svc order ctx createdAt res calls)
    (h' : Settles svc' order' ctx createdAt' res' calls') (hsame : SameSetup svc svc')
    (hmode : svc.mode = .dryRun) (horder : order'.anonymous = order.anonymous) :
    res'.anonymous = res.anonymous := by
  have hguard : runGuardrails order' (svc'.effectiveContext ctx) svc'.config =
      runGuardrails order (svc.effectiveContext ctx) svc.config := by
    rw [effectiveContext_setup hsame, hsame.config, ← runGuardrails_anonymous order', horder,
      runGuardrails_anonymous]
  have hmode' : svc'.mode = .dryRun := hsame.mode.trans hmode
  have hresult : ∀ status reason, (svc'.result order' status createdAt' reason none).anonymous =
      (svc.result order status createdAt reason none).anonymous := by
    intro status reason
    unfold OrderService.result OrderResult.anonymous
    simp only [horder, hsame.mode]
  -- in `DRY_RUN` the guardrails alone decide
  cases h with
  | rejected hviol =>
    cases h' with
    | rejected hviol' => rw [hresult, hguard]
    | dryRun hnil' => exact absurd (hguard ▸ hnil') hviol
    | unset _ hlive | submitted _ hlive | failed _ hlive =>
      rw [hmode'] at hlive
      cases hlive
  | dryRun hnil =>
    cases h' with
    | rejected hviol' => exact absurd (hguard ▸ hnil) hviol'
    | dryRun hnil' => exact hresult _ _
    | unset _ hlive | submitted _ hlive | failed _ hlive =>
      rw [hmode'] at hlive
      cases hlive
  | unset _ hlive | submitted _ hlive | failed _ hlive =>
    rw [hmode] at hlive
    cases hlive

/-- The service has answered the order `id`. -/
structure Answered (svc : OrderService) (id : ClientOrderId) (res : OrderResult)
    (svc' : OrderService) : Prop where
  setup : SameSetup svc svc'
  seen : svc'.seen = svc.seen.set id res

/-- A new order of a rehearsal is answered, and no exception leaves `submit`. -/
theorem submit_new (ctx : GuardrailContext) (createdAt : Datetime) (h : Rehearses svc)
    (hnew : svc.seen.get? order.clientOrderId = none) :
    ∃ res calls t, Settles svc order ctx createdAt res calls ∧
      submit order ctx createdAt svc = (.ok res, t) ∧
      Answered svc order.clientOrderId res t := by
  rcases submit_cases svc order ctx createdAt with ⟨prior, hseen, -⟩ | ⟨-, res, calls, hs, hrun⟩
  · rw [hnew] at hseen
    cases hseen
  · rw [h.answer] at hrun
    refine ⟨res, calls, _, hs, hrun, ⟨rfl, rfl, rfl, rfl, rfl, rfl⟩, ?_⟩
    rw [emitting_seen, recording_seen, hs.answers.1]

/-- Two orders of one name, submitted to two services that are set up alike. -/
theorem submit_renamed (hsame : SameSetup svc svc') (h : Rehearses svc)
    (hnew : svc.seen.get? order.clientOrderId = none)
    (hnew' : svc'.seen.get? order'.clientOrderId = none)
    (horder : order'.anonymous = order.anonymous)
    {R : Exn → OrderService → Exn → OrderService → Prop} :
    Coupled (submit order ctx createdAt) (submit order' ctx createdAt')
      (fun res t res' t' => res'.anonymous = res.anonymous ∧
        Answered svc order.clientOrderId res t ∧ Answered svc' order'.clientOrderId res' t')
      R svc svc' := by
  obtain ⟨res, calls, t, hs, hrun, hans⟩ := submit_new ctx createdAt h hnew
  obtain ⟨res', calls', t', hs', hrun', hans'⟩ :=
    submit_new ctx createdAt' (h.of_sameSetup hsame) hnew'
  exact coupled_of_ok hrun hrun' ⟨hs.alike hs' hsame h.mode horder, hans, hans'⟩

end Submit

/-! ### The order loop -/

/-- Two order loops midway, drawing from `stamps` and `stamps'`. -/
structure OrdersAlike (stamps stamps' : ℕ → Stamp) (acc : Orders) (s : OrderService)
    (acc' : Orders) (s' : OrderService) : Prop where
  used : acc'.dailyUsed = acc.dailyUsed
  gated : acc'.costGated = acc.costGated
  orders : acc'.orders.map OrderResult.anonymous = acc.orders.map OrderResult.anonymous
  setup : SameSetup s s'
  rehearses : Rehearses s
  unseen : Unseen stamps acc.orders.length s
  unseen' : Unseen stamps' acc'.orders.length s'

/-- An answered id is not drawn again. -/
theorem Unseen.answered {stamps : ℕ → Stamp} {n : ℕ} {svc svc' : OrderService}
    {res : OrderResult} (h : Unseen stamps n svc)
    (hinj : Function.Injective fun i => (stamps i).clientOrderId)
    (hans : Answered svc (stamps n).clientOrderId res svc') : Unseen stamps (n + 1) svc' := by
  intro i hi
  have hne : ¬ (stamps i).clientOrderId = (stamps n).clientOrderId := by
    intro heq
    have hin : i = n := hinj heq
    omega
  rw [hans.seen, Dict.get?_set, if_neg (Ne.symm hne)]
  exact h i (by omega)

section Loop

variable {env : OrderEnv} {stamps' : ℕ → Stamp} {acc acc' : Orders} {s s' : OrderService}

/-- One round of each. -/
theorem orderStep_renamed (d : Decision)
    (hinj : Function.Injective fun i => (env.stamps i).clientOrderId)
    (hinj' : Function.Injective fun i => (stamps' i).clientOrderId)
    (h : OrdersAlike env.stamps stamps' acc s acc' s') :
    Coupled (orderStep env acc d) (orderStep { env with stamps := stamps' } acc' d)
      (OrdersAlike env.stamps stamps') (fun e t e' t' => e' = e ∧ SameSetup t t') s s' := by
  have hlength : acc'.orders.length = acc.orders.length := by
    simpa using congrArg List.length h.orders
  unfold orderStep
  rcases env.contexts.get? d.symbol with - | ctx
  · exact coupled_raise ⟨rfl, h.setup⟩
  · have hgates : ({ env with stamps := stamps' } : OrderEnv).gates d ctx = env.gates d ctx := rfl
    simp only [hgates]
    split_ifs
    · exact coupled_pure { h with gated := by rw [h.gated] }
    · refine (coupled_look (Q := fun a t a' t' => s = a ∧ s = t ∧ s' = a' ∧ s' = t')
        ⟨rfl, rfl, rfl, rfl⟩).bind ?_
      rintro _ _ _ _ ⟨rfl, rfl, rfl, rfl⟩
      -- both sides raise, propose an order or propose none
      have hsize := allocate_renamed d ctx s.config (env.stamps acc.orders.length).clientOrderId
        (stamps' acc'.orders.length).clientOrderId env.multiplier
      rw [h.setup.config]
      rcases ha : allocate d ctx s.config (env.stamps acc.orders.length).clientOrderId
          env.multiplier with e | - | order
      · rw [ha] at hsize
        simp only [hsize]
        exact coupled_raise ⟨rfl, h.setup⟩
      · rw [ha] at hsize
        simp only [hsize]
        exact coupled_pure h
      · rw [ha] at hsize
        obtain ⟨order', ha', horder⟩ := hsize
        have hid := (allocate_symbol ha).2
        have hid' := (allocate_symbol ha').2
        simp only [ha']
        rw [h.used]
        refine (submit_renamed h.setup h.rehearses (hid ▸ h.unseen _ le_rfl)
          (hid' ▸ h.unseen' _ le_rfl) horder).bind ?_
        rintro res t res' t' ⟨hres, hans, hans'⟩
        rw [hid] at hans
        rw [hid'] at hans'
        have hside : order'.anonymous.side = order.anonymous.side := by rw [horder]
        have hnotional : order'.anonymous.notional = order.anonymous.notional := by rw [horder]
        have hstatus : res'.anonymous.status = res.anonymous.status := by rw [hres]
        refine coupled_pure ⟨?_, h.gated, ?_, ?_, ?_, ?_, ?_⟩
        · change (if order'.anonymous.side = .buy ∧ res'.anonymous.status.accepted then
              acc.dailyUsed + order'.anonymous.notional else acc.dailyUsed) = _
          rw [hside, hnotional, hstatus]
          rfl
        · rw [List.map_append, List.map_append, h.orders, List.map_singleton, List.map_singleton,
            hres]
        · exact (hans.setup.symm.trans h.setup).trans hans'.setup
        · exact h.rehearses.of_sameSetup hans.setup
        · rw [List.length_append, List.length_singleton]
          exact h.unseen.answered hinj hans
        · rw [List.length_append, List.length_singleton]
          exact h.unseen'.answered hinj' hans'

end Loop

/-! ### The tick -/

/-- The tick with other ids and times to draw. -/
def TickArgs.drawing (args : TickArgs) (stamps : ℕ → Stamp) : TickArgs := { args with stamps }

section Drawing

variable (args : TickArgs) (stamps : ℕ → Stamp) (g : Gathered) {svc svc' : OrderService}

theorem gather_drawing : gather (args.drawing stamps) = gather args := rfl

theorem assessed_drawing : assessed (args.drawing stamps) g = assessed args g := rfl

theorem tickCandidates_drawing :
    tickCandidates (args.drawing stamps) g = tickCandidates args g := rfl

theorem deliberate_drawing (candidates : List CandidateContext) :
    deliberate (args.drawing stamps) candidates = deliberate args candidates := rfl

theorem tickResult_drawing {final final' : OrderService} (h : SameSetup svc svc')
    (hfinal : SameSetup final final') :
    tickResult (args.drawing stamps) svc' final' = tickResult args svc final := by
  unfold tickResult
  rw [h.mode, h.killSwitch, hfinal.circuitBreaker]
  rfl

theorem assessed_sameSetup (h : SameSetup svc svc') :
    SameSetup (assessed args g svc) (assessed args g svc') := by
  refine ⟨h.mode, h.config, h.executor, h.audit, h.killSwitch, ?_⟩
  show (svc'.circuitBreaker.assess _ _ _).2 = (svc.circuitBreaker.assess _ _ _).2
  rw [h.circuitBreaker]

end Drawing

/-- The order loops of two ticks. -/
theorem orderLoop_renamed {args : TickArgs} {stamps' : ℕ → Stamp} {svc svc' : OrderService}
    (g : Gathered) (decisions : List Decision) (killSwitch : Bool) (hsame : SameSetup svc svc')
    (hrehearses : Rehearses svc)
    (hinj : Function.Injective fun i => (args.stamps i).clientOrderId)
    (hinj' : Function.Injective fun i => (stamps' i).clientOrderId)
    (hunseen : Unseen args.stamps 0 svc) (hunseen' : Unseen stamps' 0 svc') :
    Coupled (orderLoop args g killSwitch decisions)
      (orderLoop (args.drawing stamps') g killSwitch decisions)
      (OrdersAlike args.stamps stamps') (fun e s e' s' => e' = e ∧ SameSetup s s') svc svc' := by
  refine coupled_foldM (J := fun _ => OrdersAlike args.stamps stamps') ?_
    ⟨rfl, rfl, rfl, hsame, hrehearses, hunseen, hunseen'⟩
  intro _ d _ _ acc s acc' s' h
  exact orderStep_renamed d hinj hinj' h

/-- **The ids of a tick are names.**  Two ticks of a rehearsal that differ in
what they draw end alike: both return, with the same result up to the ids and
the times, or both raise the same exception. -/
theorem runTick_renamed (args : TickArgs) (stamps' : ℕ → Stamp) {svc svc' : OrderService}
    (hsame : SameSetup svc svc') (hrehearses : Rehearses svc)
    (hinj : Function.Injective fun i => (args.stamps i).clientOrderId)
    (hinj' : Function.Injective fun i => (stamps' i).clientOrderId)
    (hunseen : Unseen args.stamps 0 svc) (hunseen' : Unseen stamps' 0 svc') :
    Coupled (runTick args) (runTick (args.drawing stamps'))
      (fun r s r' s' => r'.anonymous = r.anonymous ∧ SameSetup s s')
      (fun e s e' s' => e' = e ∧ SameSetup s s') svc svc' := by
  unfold runTick
  refine (coupled_look (Q := fun a t a' t' => svc = a ∧ svc = t ∧ svc' = a' ∧ svc' = t')
    ⟨rfl, rfl, rfl, rfl⟩).bind ?_
  rintro _ _ _ _ ⟨rfl, rfl, rfl, rfl⟩
  rw [gather_drawing]
  refine (coupled_lift (Q := fun g t g' t' => g = g' ∧ svc = t ∧ svc' = t')
    (fun g _ => ⟨rfl, rfl, rfl⟩) fun e _ => ⟨rfl, hsame⟩).bind ?_
  rintro g _ _ _ ⟨rfl, rfl, rfl⟩
  -- what is gathered and decided does not depend on the ids
  rcases g with - | g
  · exact coupled_pure ⟨by rw [tickResult_drawing args stamps' hsame hsame], hsame⟩
  · simp only [tickCandidates_drawing, deliberate_drawing, assessed_drawing]
    have hassessed := assessed_sameSetup args g hsame
    refine (coupled_change (Q := fun _ t _ t' => assessed args g svc = t ∧
      assessed args g svc' = t') ⟨rfl, rfl⟩).bind ?_
    rintro _ _ _ _ ⟨rfl, rfl⟩
    by_cases hc : tickCandidates args g = []
    · simp only [hc, List.isEmpty_nil, if_true]
      refine Coupled.bind (coupled_look (Q := fun a t a' t' => SameSetup a a' ∧ SameSetup t t')
        (And.intro hassessed hassessed)) ?_
      rintro final t final' t' ⟨hfinal, ht⟩
      exact coupled_pure ⟨by rw [tickResult_drawing args stamps' hsame hfinal], ht⟩
    · have hne : (tickCandidates args g).isEmpty = false := by
        rwa [List.isEmpty_eq_false_iff]
      simp only [hne, Bool.false_eq_true, if_false]
      refine (coupled_lift (Q := fun ds t ds' t' => ds = ds' ∧ assessed args g svc = t ∧
        assessed args g svc' = t') (fun ds _ => ⟨rfl, rfl, rfl⟩) fun e _ =>
        ⟨rfl, hassessed⟩).bind ?_
      rintro decisions _ _ _ ⟨rfl, rfl, rfl⟩
      rw [hsame.killSwitch]
      -- the loop is where they are drawn
      refine (orderLoop_renamed g decisions svc.killSwitch hassessed
        ⟨hrehearses.mode, hrehearses.audit⟩ hinj hinj' hunseen hunseen').bind ?_
      intro done t done' t' hdone
      refine (coupled_look (Q := fun a t a' t' => SameSetup a a' ∧ SameSetup t t')
        ⟨hdone.setup, hdone.setup⟩).bind ?_
      rintro final u final' u' ⟨hfinal, hu⟩
      refine coupled_pure ⟨?_, hu⟩
      unfold tradedResult TickResult.anonymous
      simp only [hdone.orders, hdone.gated, tickResult_drawing args stamps' hsame hfinal]
      rfl

theorem Rehearses.runTick {svc : OrderService} (h : Rehearses svc) (args : TickArgs) :
    Rehearses (runTick args svc).2 := by
  rcases runTick_setup args svc with ⟨-, heq⟩ | ⟨g, -, hsame⟩
  · rw [heq]
    exact h
  · have hassessed : Rehearses (assessed args g svc) := ⟨h.mode, h.audit⟩
    exact hassessed.of_sameSetup hsame

/-- An id that a tick does not draw is not answered by it. -/
theorem runTick_unseen {args : TickArgs} {svc : OrderService} {id : ClientOrderId}
    (hid : ∀ i, (args.stamps i).clientOrderId ≠ id) (h : svc.seen.get? id = none) :
    (runTick args svc).2.seen.get? id = none := by
  obtain ⟨-, -, -, hseen⟩ := @runTick_rule (fun _ s => s.seen.get? id = none) args svc h
    (fun _ _ => h) (by
      intro g decisions hg hd d hmem orders s order res s' hsame hs hsub
      cases hsub with
      | duplicate hctx hgate halloc hseen => exact hs
      | settled hctx hgate halloc hseen hsettles =>
        have hne : ¬ order.clientOrderId = id := by
          rw [(allocate_symbol halloc).2]
          exact hid orders.length
        rw [emitting_seen, recording_seen, hsettles.answers.1, Dict.get?_set, if_neg hne]
        exact hs)
  exact hseen

end AutoTrade
