/-
AutoTrade/Clearance.lean

What stands behind the orders of a tick that are not turned down.

A buy (`BuyCleared`): nothing halts the tick, the regime leaves some exposure, and a
candidate that the judge was asked about is answered with the buy; the confidence of that
answer sizes the order, and the move that it makes expected covers the costs.  A sale
(`SaleCleared`): the symbol is held, and all of it is sold, because a rule forces it or
the judge answered so.  In `LIVE` this is so of every order that the executor is called
with, also when the call fails.
-/
import AutoTrade.ForcedSales

namespace AutoTrade

open Fallible

variable {args : TickArgs} {g : Gathered} {svc s s' : OrderService} {o res : OrderResult}
  {d : Decision} {decisions : List Decision} {used : ℚ} {orders : List OrderResult}
  {order : OrderRequest}

/-! ### The decision behind an order -/

/-- The judge's answer on a candidate of the tick, asked about it with the note that the
research of the tick gave. -/
structure Judged (args : TickArgs) (g : Gathered) (c : CandidateContext) (action : Action)
    (confidence : FloatValue) : Prop where
  candidate : c ∈ judgedCandidates args (tickCandidates args g)
  answered : ∃ noted ctx d, notedCandidates args (tickCandidates args g) = .ok noted ∧
    ctx ∈ noted ∧ ctx = { c with research := ctx.research } ∧
    args.judge ctx = .ok d ∧ d.action = action ∧ d.confidence = confidence

/-- What the judge is asked about is no forced sale. -/
theorem Judged.unforced {c : CandidateContext} {action : Action} {confidence : FloatValue}
    (h : Judged args g c action confidence) : c.symbol ∉ (forcedOf args).keys :=
  of_decide_eq_true (List.mem_filter.mp h.candidate).2

theorem claudeJudge_faithful (client : CandidateContext → Except Exn LlmResponse)
    (parse : String → Except Exn Decision) : Faithful (claudeJudge client parse) := by
  intro ctx d h
  obtain ⟨resp, -, hresp⟩ := bind_eq_ok.mp h
  by_cases hrefused : resp.stopReason = some "refusal"
  · simp only [hrefused, if_true] at hresp
    cases hresp
  · simp only [hrefused, if_false] at hresp
    split at hresp
    · cases hresp
    · obtain ⟨d₀, -, hd⟩ := bind_eq_ok.mp hresp
      cases hd
      rfl

/-- **A decision is a forced sale, or the judge's answer** on the candidate that it is
about. -/
theorem decision_cases (hfaithful : Faithful args.judge)
    (h : deliberate args (tickCandidates args g) = .ok decisions) (hd : d ∈ decisions) :
    (d.action = .sell ∧ d.symbol ∈ (forcedOf args).keys) ∨
      ∃ c, c.symbol = d.symbol ∧ Judged args g c d.action d.confidence := by
  obtain ⟨noted, answers, hnoted, hanswers, rfl⟩ := deliberate_ok h
  rcases List.mem_append.mp hd with hd | hd
  · left
    obtain ⟨d₀, hd₀, rfl⟩ := List.mem_map.mp hd
    obtain ⟨f, hf, rfl⟩ := List.mem_map.mp hd₀
    rw [pricedDecision_action, pricedDecision_symbol, ← forcedOf_symbols]
    exact ⟨rfl, List.mem_map_of_mem (List.mem_filter.mp hf).1⟩
  · right
    obtain ⟨d₀, hd₀, rfl⟩ := List.mem_map.mp hd
    obtain ⟨ctx, hctx, hjudge⟩ := exists_of_mapM_ok hanswers hd₀
    obtain ⟨c, hc, heq⟩ := mem_notedCandidates hnoted hctx
    rw [pricedDecision_action, pricedDecision_symbol, pricedDecision_confidence]
    refine ⟨c, ?_, hc, noted, ctx, d₀, hnoted, hctx, heq, hjudge, rfl, rfl⟩
    rw [hfaithful ctx d₀ hjudge, heq]

/-- A decision is about the one candidate of its symbol. -/
theorem Judged.of_decision (hfaithful : Faithful args.judge)
    (h : deliberate args (tickCandidates args g) = .ok decisions) (hd : d ∈ decisions)
    {ctx : CandidateContext}
    (hctx : (contextsBy (tickCandidates args g)).get? d.symbol = some ctx) :
    (d.action = .sell ∧ ctx.symbol ∈ (forcedOf args).keys) ∨
      Judged args g ctx d.action d.confidence := by
  have hsym : ctx.symbol = d.symbol := (get?_contextsBy.mp hctx).2
  rcases decision_cases hfaithful h hd with hforced | ⟨c, hcsym, hjudged⟩
  · rw [hsym]
    exact .inl hforced
  · have hget := get?_contextsBy.mpr ⟨judgedCandidates_subset _ _ hjudged.candidate, hcsym⟩
    rw [hctx] at hget
    cases hget
    exact .inr hjudged

/-! ### The clearance -/

/-- Nothing halts the tick. -/
structure Unhalted (args : TickArgs) (svc : OrderService) : Prop where
  killSwitch : svc.killSwitch = false
  marketOpen : MarketOpen svc.config args.now

/-- The exposure that the regime of the tick leaves. -/
def tickExposure (args : TickArgs) : ℚ :=
  match tickRegime args with
  | none => 1
  | some regime => regime.multiplier

/-- What stands behind a buy of a candidate: the judge's answer on it, whose confidence
sizes the order and clears the hurdle. -/
structure BuyBacked (args : TickArgs) (g : Gathered) (cfg : GuardrailConfig) (o : OrderResult)
    (c : CandidateContext) (confidence : ℚ) : Prop where
  symbol : c.symbol = o.request.symbol
  judged : Judged args g c .buy (.num confidence)
  sized : ∃ p, price c = some p ∧ o.request.price = some p ∧
    o.request.quantity = some (buyQuantity c confidence cfg p (tickExposure args)) ∧
    1 ≤ buyQuantity c confidence cfg p (tickExposure args)
  hurdle : ∀ gate ∈ args.entryGate, ∃ vol,
    realizedDailyVol args.stdev c.recentCloses gate.config.minReturns = some vol ∧
    gate.hurdleRate ≤ max 0 (min 1 confidence) * vol * gate.config.moveMultiple

/-- What stands behind a buy. -/
structure BuyCleared (args : TickArgs) (g : Gathered) (svc : OrderService) (o : OrderResult) :
    Prop where
  unhalted : Unhalted args svc
  breaker : (assessed args g svc).circuitBreaker.tripped = false
  regime : 0 < tickExposure args
  backed : ∃ c confidence, BuyBacked args g svc.config o c confidence

/-- The symbol of a buy is none whose sale is forced. -/
theorem BuyCleared.unforced (h : BuyCleared args g svc o) :
    o.request.symbol ∉ (forcedOf args).keys := by
  obtain ⟨c, confidence, hbacked⟩ := h.backed
  rw [← hbacked.symbol]
  exact hbacked.judged.unforced

/-- What stands behind a sale. -/
structure SaleCleared (args : TickArgs) (g : Gathered) (svc : OrderService) (o : OrderResult) :
    Prop where
  unhalted : Unhalted args svc
  held : ∃ item ∈ g.holdings.items, item.symbol = o.request.symbol ∧
    o.request.quantity = some item.quantity ∧ 0 < item.quantity
  asked : o.request.symbol ∈ (forcedOf args).keys ∨
    ∃ c confidence, c.symbol = o.request.symbol ∧ Judged args g c .sell confidence

/-- Only a rejected order has a violation. -/
theorem settles_passed {order : OrderRequest} {ctx : GuardrailContext} {createdAt : Datetime}
    {calls : List Placement} (h : OrderService.Settles s order ctx createdAt res calls)
    (hstatus : res.status ≠ .rejected) :
    runGuardrails order (s.effectiveContext ctx) s.config = [] := by
  cases h with
  | rejected _ => exact absurd rfl hstatus
  | dryRun h _ => exact h
  | unset h _ _ => exact h
  | submitted h _ _ _ => exact h
  | failed h _ _ _ => exact h

/-- A buy that the gate lets pass is expected to move enough. -/
theorem gates_passed {env : OrderEnv} {ctx : CandidateContext} (h : env.gates d ctx = false)
    (hbuy : d.action = .buy) {gate : EntryGate} (hgate : gate ∈ env.entryGate) :
    ∃ vol, realizedDailyVol env.stdev ctx.recentCloses gate.config.minReturns = some vol ∧
      gate.hurdleRate ≤ d.confidence.clamped * vol * gate.config.moveMultiple := by
  unfold OrderEnv.gates at h
  rw [Option.mem_def.mp hgate, hbuy] at h
  simp only [Bool.not_eq_false'] at h
  unfold EntryGate.evaluate at h
  rcases hvol : realizedDailyVol env.stdev ctx.recentCloses gate.config.minReturns with - | vol
  · rw [hvol] at h
    cases h
  · rw [hvol] at h
    exact ⟨vol, rfl, of_decide_eq_true h⟩

/-- A buy is sized to at least one share only where there is some exposure. -/
theorem multiplier_pos {ctx : CandidateContext} {cfg : GuardrailConfig} {confidence p mult : ℚ}
    (h : 1 ≤ buyQuantity ctx confidence cfg p mult) : 0 < mult := by
  by_contra hno
  have hzero : min (max mult 0) 1 = 0 := by
    rw [max_eq_right (not_lt.mp hno)]
    exact min_eq_left zero_le_one
  unfold buyQuantity at h
  simp only at h
  split at h
  · norm_num at h
  · rw [hzero, mul_zero, zero_div] at h
    norm_num [roundDown] at h

/-- What a candidate shows as held is one of the holdings. -/
theorem heldQuantity_item {c : CandidateContext} (hc : c ∈ tickCandidates args g) {q : ℚ}
    (hq : c.heldQuantity = some q) :
    ∃ item ∈ g.holdings.items, item.symbol = c.symbol ∧ item.quantity = q := by
  obtain ⟨c₀, hc₀, rfl⟩ := List.mem_map.mp hc
  obtain ⟨sym, -, rfl⟩ := List.mem_map.mp hc₀
  rw [told_heldQuantity] at hq
  obtain ⟨item, hitem, hqty⟩ := Option.map_eq_some_iff.mp hq
  obtain ⟨i, hi, heq⟩ := List.mem_map.mp (Dict.mem_of_ofList_get? hitem)
  obtain ⟨hsym, rfl⟩ := Prod.mk.inj heq
  refine ⟨i, hi, ?_, hqty⟩
  rw [told_symbol]
  exact hsym

section Cleared

variable (hfaithful : Faithful args.judge) (hd : d ∈ decisions)
  (hdecisions : deliberate args (tickCandidates args g) = .ok decisions)
  (hsame : OrderService.SameSetup (assessed args g svc) s)
  (hsub : Submitted (orderEnv args g svc.killSwitch) used orders s d order res s')
  (hdup : res.status ≠ .duplicate) (hstatus : res.status ≠ .rejected)

include hsame hsub hdup hstatus

/-- A new answer that is no rejection is about an order whose checks have passed. -/
theorem Submitted.unhalted : Unhalted args svc := by
  cases hsub with
  | duplicate hctx hgate halloc hseen => exact absurd rfl hdup
  | @settled ctx _ _ _ hctx hgate halloc hseen hs =>
    obtain ⟨hkill, -, hhours, -⟩ := runGuardrails_eq_nil.mp (settles_passed hs hstatus)
    rw [guardKillSwitch_eq_none] at hkill
    rw [guardMarketHours_eq_none] at hhours
    refine ⟨?_, ?_⟩
    · have hoff : (s.killSwitch) = false := (Bool.or_eq_false_iff.mp hkill).2
      rw [hsame.killSwitch] at hoff
      exact hoff
    · rw [hsame.config] at hhours
      have hnow : (s.effectiveContext ((orderEnv args g svc.killSwitch).guardContext ctx
          (used + acceptedBuyNotional orders))).now = args.now :=
        baseContext_now args g svc.killSwitch
      rwa [hnow] at hhours

include hfaithful hd hdecisions

theorem Submitted.buyCleared (hbuy : res.request.side = .buy) : BuyCleared args g svc res := by
  have hunhalted : Unhalted args svc := Submitted.unhalted hsame hsub hdup hstatus
  cases hsub with
  | duplicate hctx hgate halloc hseen => exact absurd rfl hdup
  | @settled ctx _ _ _ hctx hgate halloc hseen hs =>
    obtain ⟨-, hreq, -⟩ := hs.answers
    rw [hreq] at hbuy
    have hbreaker := (runGuardrails_eq_nil.mp (settles_passed hs hstatus)).2.1
    rw [guardCircuitBreaker_eq_none hbuy] at hbreaker
    have huntripped : s.circuitBreaker.tripped = false := (Bool.or_eq_false_iff.mp hbreaker).2
    rw [hsame.circuitBreaker] at huntripped
    have hconfig : s.config = svc.config := hsame.config
    obtain ⟨p, hp, ⟨-, -, q, -, -, rfl⟩ | ⟨haction, conf, hconf, hqty, rfl⟩⟩ :=
      allocate_cases halloc
    · cases hbuy
    -- the forced decisions sell, so a buy is the judge's
    have hjudged : Judged args g ctx .buy (.num conf) := by
      rcases Judged.of_decision hfaithful hdecisions hd hctx with ⟨hsell, -⟩ | hjudged
      · rw [haction] at hsell
        cases hsell
      · rwa [haction, hconf] at hjudged
    rw [hconfig] at hqty hreq
    refine ⟨hunhalted, huntripped, multiplier_pos hqty, ctx, conf, ?_, hjudged, ⟨p, hp, ?_⟩, ?_⟩
    · rw [hreq]
      rfl
    · rw [hreq]
      exact ⟨rfl, rfl, hqty⟩
    · intro gate hgated
      rw [← FloatValue.clamped_num, ← hconf]
      exact gates_passed hgate haction hgated

theorem Submitted.saleCleared (hsell : res.request.side = .sell) : SaleCleared args g svc res := by
  have hunhalted : Unhalted args svc := Submitted.unhalted hsame hsub hdup hstatus
  cases hsub with
  | duplicate hctx hgate halloc hseen => exact absurd rfl hdup
  | @settled ctx _ _ _ hctx hgate halloc hseen hs =>
    obtain ⟨-, hreq, -⟩ := hs.answers
    rw [hreq] at hsell
    have hmem := (get?_contextsBy.mp hctx).1
    obtain ⟨p, -, ⟨haction, hheld, q, hq, hpos, rfl⟩ | ⟨-, conf, -, -, rfl⟩⟩ :=
      allocate_cases halloc
    swap
    · cases hsell
    obtain ⟨item, hitem, hisym, hiq⟩ := heldQuantity_item hmem hq
    refine ⟨hunhalted, ⟨item, hitem, ?_, ?_, ?_⟩, ?_⟩
    · rw [hreq]
      exact hisym
    · rw [hreq, hiq]
      rfl
    · rwa [hiq]
    · rw [hreq]
      rcases Judged.of_decision hfaithful hdecisions hd hctx with ⟨-, hforced⟩ | hjudged
      · exact .inl hforced
      · rw [haction] at hjudged
        exact .inr ⟨ctx, _, rfl, hjudged⟩

end Cleared

/-- **What stands behind the orders of a tick.** -/
theorem settled_cleared (args : TickArgs) (svc : OrderService) (hfaithful : Faithful args.judge) :
    ∀ o ∈ settledIn args svc, o.status ≠ .rejected → ∃ g, gather args = .ok (some g) ∧
      (o.request.side = .buy ∧ BuyCleared args g svc o ∨
        o.request.side = .sell ∧ SaleCleared args g svc o) := by
  refine settledIn_forall ?_
  intro g decisions hg hdecisions d hd orders s order res s' hsame hsub hdup hstatus
  refine ⟨g, hg, ?_⟩
  rcases hside : res.request.side with - | -
  · exact .inl ⟨rfl, hsub.buyCleared hfaithful hd hdecisions hsame hdup hstatus hside⟩
  · exact .inr ⟨rfl, hsub.saleCleared hfaithful hd hdecisions hsame hdup hstatus hside⟩

/-! ### The orders of the server -/

namespace Server

variable {cfg : Settings} {t : TickInput}

/-- The orders that a tick answers as new. -/
def newOrders (cfg : Settings) (t : TickInput) (s : Server) : List OrderResult :=
  (executeTick cfg t s).2.svc.ledger.drop s.svc.ledger.length

/-- The judge of a tick answers about the symbol it is asked about. -/
theorem tickJudge_faithful (hllm : Faithful t.llm) (s : Server) :
    Faithful (s.tickJudge cfg t) := by
  unfold tickJudge
  split
  · exact hllm
  · exact deterministicJudge_faithful

/-- **No order gets past the devices.**  Whatever the model's client answers, and whichever
calls of the tick raise, an order of a tick of the server that is not turned down comes after
the tick has opened, with the kill switch off and the market open.  A buy has an untripped
breaker, some exposure under the regime and no forced sale of its symbol, and it is the
answer of the tick's judge on that candidate: sized with the confidence of the answer, and
with a move expected over the hurdle.  A sale is of all that is held, forced or answered by
the judge on that candidate. -/
theorem orders_cleared (cfg : Settings) (t : TickInput) (s : Server)
    (client : CandidateContext → Except Exn LlmResponse) (parse : String → Except Exn Decision)
    (hllm : t.llm = claudeJudge client parse) :
    ∀ o ∈ s.newOrders cfg t, o.status ≠ .rejected →
      s.svc.killSwitch = false ∧ MarketOpen s.svc.config t.now ∧
      ∃ toss opened s₁ g, t.toss = some toss ∧ openTick cfg t toss s = (.ok opened, s₁) ∧
        opened.args.judge = s.tickJudge cfg t ∧ gather opened.args = .ok (some g) ∧
        (o.request.side = .buy ∧ BuyCleared opened.args g s₁.svc o ∧
            o.request.symbol ∉ (forcedOf opened.args).keys ∨
          o.request.side = .sell ∧ SaleCleared opened.args g s₁.svc o) := by
  intro o ho hstatus
  unfold newOrders at ho
  have hends : TickEnds cfg t s (executeTick cfg t s).2 := executeTick_ends cfg t s
  generalize (executeTick cfg t s).2 = final at ho hends
  cases hends with
  | unopened hsame =>
    rw [hsame.svc, List.drop_length] at ho
    cases ho
  | @closed toss opened s₁ _ htoss hopen hopens hclose =>
    obtain ⟨-, -, -, hjudge, -⟩ := openTick_asked hopen
    have hledger : s₁.svc.ledger = s.svc.ledger := by rw [hopens.untraded.svc]
    have hfaithful : Faithful opened.args.judge := by
      rw [hjudge]
      exact tickJudge_faithful (hllm ▸ claudeJudge_faithful client parse) s
    have hsettled : o ∈ settledIn opened.args s₁.svc := by
      rwa [settledIn, hledger, ← hclose.svc]
    obtain ⟨g, hg, hcleared⟩ := settled_cleared opened.args s₁.svc hfaithful o hsettled hstatus
    have hunhalted : Unhalted opened.args s₁.svc := by
      rcases hcleared with ⟨-, hbuy⟩ | ⟨-, hsale⟩
      · exact hbuy.unhalted
      · exact hsale.unhalted
    refine ⟨?_, ?_, toss, opened, s₁, g, htoss, hopen, hjudge, hg, ?_⟩
    · by_contra hon
      have hoff := hopens.untraded.killSwitch (Bool.not_eq_false _ ▸ hon)
      rw [hunhalted.killSwitch] at hoff
      cases hoff
    · have hconfig : s₁.svc.config = s.svc.config := by rw [hopens.untraded.svc]
      rw [← hconfig, ← hopens.now]
      exact hunhalted.marketOpen
    · refine hcleared.imp ?_ id
      rintro ⟨hside, hbuy⟩
      exact ⟨hside, hbuy, hbuy.unforced⟩

end Server

namespace Sample

/-- A tick whose model answers with a buy, on a hundred shares. -/
def modelTick : TickInput :=
  { tickInput "a" (account 100) returning with
    llm := claudeJudge (fun _ => .ok ⟨some "end_turn", ["{}"]⟩) fun _ =>
      .ok { action := .buy, symbol := "", confidence := 2, rationale := [] } }

end Sample

/-- The model's buy is sent, and what backs it is the model's answer. -/
theorem orders_cleared_sent :
    ∃ o ∈ (Server.start Sample.settings {}).newOrders Sample.settings Sample.modelTick,
      o.status = .submitted ∧ ∃ (opened : Opened) (s₁ : OrderService) (g : Gathered),
        opened.args.judge = Sample.modelTick.llm ∧
        BuyCleared opened.args g s₁ o := by
  have hsent : ∃ o ∈ (Server.start Sample.settings {}).newOrders Sample.settings Sample.modelTick,
      o.status = .submitted ∧ o.request.side = .buy := by decide +kernel
  have hasks : (Server.start Sample.settings {}).AsksModel Sample.settings Sample.modelTick := by
    decide
  obtain ⟨o, ho, hstatus, hside⟩ := hsent
  obtain ⟨-, -, toss, opened, s₁, g, -, -, hjudge, -, ⟨-, hbuy, -⟩ | ⟨hsell, -⟩⟩ :=
    Server.orders_cleared Sample.settings Sample.modelTick (.start Sample.settings {}) _ _ rfl o ho
      (by rw [hstatus]; nofun)
  · exact ⟨o, ho, hstatus, opened, s₁.svc, g, hjudge.trans (if_pos hasks), hbuy⟩
  · rw [hside] at hsell
    cases hsell

end AutoTrade
