/-
AutoTrade/SellPath.lean

Nothing automatic interferes with selling.

`forSales` erases from the arguments of a tick and from the service all that
only buys are to depend on: the regime filter, the entry gate, the cash, the
day's buys, the breaker with the daily result, and the limits on buys.  For a
judge that does not look at the erased fields either, the sales of a tick are
those of the erased one (`settledIn_sales`): which decisions sell, at what price
and how much, and whether the sale is rejected.  So two ticks that differ in the
erased fields only make the same sales (`sells_unaffected`).
-/
import AutoTrade.ForcedExits
import AutoTrade.Pipeline

namespace AutoTrade

open Fallible

/-! ### What only buys depend on -/

/-- The context without the cash and the regime. -/
def CandidateContext.forSales (c : CandidateContext) : CandidateContext :=
  { c with cashBuyingPowerKrw := none, marketRegime := none }

/-- The holdings without the daily result. -/
def Holdings.forSales (h : Holdings) : Holdings := { h with dailyProfitLossRate := none }

/-- The limits without those on buys. -/
def GuardrailConfig.forSales (cfg : GuardrailConfig) : GuardrailConfig :=
  { enforceMarketHours := cfg.enforceMarketHours
    marketOpen := cfg.marketOpen
    marketClose := cfg.marketClose
    holidays := cfg.holidays }

/-- The broker without the market proxy, the cash and the daily result. -/
def Toss.forSales (toss : Toss) : Toss :=
  { toss with
    getHoldings := toss.getHoldings.map Holdings.forSales
    getProxyCandles := fun _ => .ok []
    getBuyingPower := .error "" }

/-- The arguments of a tick without what only buys depend on, and without what
it draws. -/
def TickArgs.forSales (args : TickArgs) : TickArgs :=
  { args with
    toss := args.toss.forSales
    entryGate := none
    dailyBuyUsedKrw := 0
    regimeConfig := none
    holdings := args.holdings.map Holdings.forSales
    cashBuyingPowerKrw := none
    stdev := fun _ => 0
    stamps := fun _ => ⟨"", ⟨0, 0⟩⟩ }

/-- The service without its breaker, its limits on buys and its history. -/
def OrderService.forSales (svc : OrderService) : OrderService :=
  { mode := svc.mode
    config := svc.config.forSales
    executor := svc.executor
    killSwitch := svc.killSwitch }

/-- A judge that does not look at the cash and the regime. -/
def SellsBlindly {α : Type*} (judge : CandidateContext → α) : Prop :=
  ∀ c c' : CandidateContext, c'.forSales = c.forSales → judge c' = judge c

/-! ### The sale of a decision -/

/-- The sale that a decision comes to, if it is one. -/
def saleOf (contexts : Dict Symbol CandidateContext) (d : Decision) : Option OrderRequest :=
  if d.action = .sell then
    (contexts.get? d.symbol).bind fun ctx => (allocate d ctx {} "").toOption.join
  else none

/-- The sales of the decisions, up to the first that is about no candidate. -/
def salesOf (contexts : Dict Symbol CandidateContext) (decisions : List Decision) :
    List OrderRequest :=
  (decisions.takeWhile fun d => (contexts.get? d.symbol).isSome).filterMap (saleOf contexts)

/-- How a sale is answered that has not been seen before, after the calls
`history` of the executor. -/
def saleStatus (svc : OrderService) (now : Datetime) (history : List OrderRequest)
    (order : OrderRequest) : OrderStatus :=
  if svc.killSwitch = false ∧ MarketOpen svc.config now then
    match svc.mode, svc.executor with
    | .dryRun, _ => .dryRun
    | .live, none => .failed
    | .live, some place => if (place history order).isOk then .submitted else .failed
  else .rejected

/-- The limits and the exposure size a buy, not a sale. -/
theorem allocate_sell {d : Decision} (hd : d.action = .sell) (ctx : CandidateContext)
    (cfg : GuardrailConfig) (id : ClientOrderId) (mult : ℚ) :
    (allocate d ctx cfg id mult).map (Option.map OrderRequest.anonymous) =
      allocate d ctx {} "" := by
  rw [allocate_anonymous]
  unfold allocate
  simp only [hd, reduceCtorEq, if_false, if_true]

/-- What is not proposed is no order, under any id. -/
theorem unproposed {x : Except Exn (Option OrderRequest)} (h : ∀ order, x ≠ .ok (some order)) :
    (x.map (Option.map OrderRequest.anonymous)).toOption.join = none := by
  rcases x with e | - | order
  · rfl
  · rfl
  · exact absurd rfl (h order)

/-- A decision is proposed as a sale exactly when it is one. -/
theorem allocate_side {d : Decision} {ctx : CandidateContext} {cfg : GuardrailConfig}
    {id : ClientOrderId} {mult : ℚ} {order : OrderRequest}
    (h : allocate d ctx cfg id mult = .ok (some order)) :
    order.side = .sell ↔ d.action = .sell := by
  obtain ⟨p, -, ⟨hact, -, q, -, -, rfl⟩ | ⟨hact, c, -, -, rfl⟩⟩ := allocate_cases h
  · simp [req, hact]
  · simp [req, hact]

/-- A new sale is answered by the switch, the hours and the executor. -/
theorem OrderService.Settles.saleStatus {svc : OrderService} {order : OrderRequest}
    {ctx : GuardrailContext} {createdAt : Datetime} {res : OrderResult} {calls : List Placement}
    (h : OrderService.Settles svc order ctx createdAt res calls) (hside : order.side = .sell)
    (hkill : ctx.killSwitch = svc.killSwitch) :
    res.status = AutoTrade.saleStatus svc ctx.now (svc.placed.map Placement.order) order := by
  have hpass : runGuardrails order (svc.effectiveContext ctx) svc.config = [] ↔
      svc.killSwitch = false ∧ MarketOpen svc.config ctx.now := by
    rw [runGuardrails_sell hside, OrderService.effectiveContext_killSwitch,
      OrderService.effectiveContext_now, hkill, Bool.or_self]
  unfold AutoTrade.saleStatus
  cases h with
  | rejected hviol => rw [if_neg (mt hpass.mpr hviol)]; rfl
  | dryRun hnil hmode => rw [if_pos (hpass.mp hnil), hmode]; rfl
  | unset hnil hmode hexec => rw [if_pos (hpass.mp hnil), hmode, hexec]; rfl
  | submitted hnil hmode hexec hplace =>
    rw [if_pos (hpass.mp hnil), hmode, hexec]
    simp only [hplace]
    rfl
  | failed hnil hmode hexec hplace =>
    rw [if_pos (hpass.mp hnil), hmode, hexec]
    simp only [hplace]
    rfl

/-! ### The order loop -/

/-- The sales among some results. -/
def sellOrders (rs : List OrderResult) : List OrderResult :=
  rs.filter fun o => o.request.side = .sell

/-- A result answers a sale. -/
def SoldAs (svc : OrderService) (now : Datetime) (sale : OrderRequest) (o : OrderResult) : Prop :=
  o.request.side = .sell ∧ o.request.anonymous = sale ∧
    ∃ history, o.status = saleStatus svc now history o.request

/-- A sale more, or none. -/
theorem sellOrders_concat (rs : List OrderResult) (r : OrderResult) :
    sellOrders (rs ++ [r]) = sellOrders rs ++ if r.request.side = .sell then [r] else [] := by
  unfold sellOrders
  rw [List.filter_append]
  split_ifs with hside
  · simp [hside]
  · simp [hside]

section Loop

variable {args : TickArgs} {g : Gathered} {svc s : OrderService}

/-- A tick answers its sales as the service that it began with. -/
theorem saleStatus_setup (h : OrderService.SameSetup (assessed args g svc) s) (now : Datetime)
    (history : List OrderRequest) (order : OrderRequest) :
    saleStatus s now history order = saleStatus svc now history order := by
  have hmode : s.mode = svc.mode := h.mode
  have hconfig : s.config = svc.config := h.config
  have hexec : s.executor = svc.executor := h.executor
  have hkill : s.killSwitch = svc.killSwitch := h.killSwitch
  unfold saleStatus
  rw [hmode, hconfig, hexec, hkill]

/-- What the order loop carries about its sales: the decisions done are about
candidates, the answers are all new, and those to sales answer the sales of the
decisions. -/
structure Sold (args : TickArgs) (g : Gathered) (svc : OrderService) (done : List Decision)
    (acc : Orders) (s : OrderService) : Prop where
  known : ∀ d ∈ done, ((contextsBy (tickCandidates args g)).get? d.symbol).isSome = true
  used : acc.dailyUsed = args.dailyBuyUsedKrw + acceptedBuyNotional acc.orders
  setup : OrderService.SameSetup (assessed args g svc) s
  unseen : ∀ i, acc.orders.length ≤ i → s.seen.get? (args.stamps i).clientOrderId = none
  ledger : s.ledger = svc.ledger ++ acc.orders
  sales : List.Forall₂ (SoldAs svc args.now)
    (done.filterMap (saleOf (contextsBy (tickCandidates args g)))) (sellOrders acc.orders)

/-- The orders of a loop are the ones the ledger has more, and the sales among
them are those of its decisions. -/
def SoldAll (args : TickArgs) (g : Gathered) (svc : OrderService) (decisions : List Decision)
    (orders : List OrderResult) (s : OrderService) : Prop :=
  s.ledger = svc.ledger ++ orders ∧
    List.Forall₂ (SoldAs svc args.now) (salesOf (contextsBy (tickCandidates args g)) decisions)
      (sellOrders orders)

/-- Before the first decision nothing is sold. -/
theorem Sold.start (hids : ∀ n, FreshIds args svc n) :
    Sold args g svc [] { dailyUsed := args.dailyBuyUsedKrw } (assessed args g svc) := by
  refine ⟨?_, by simp, .refl _, ?_, (List.append_nil _).symm, .nil⟩
  · intro d hd
    cases hd
  · intro i _
    exact (hids (i + 1)).unseen i (Nat.lt_succ_self i)

theorem Sold.all {done rest : List Decision} {acc : Orders}
    (h : Sold args g svc done acc s)
    (hrest : ∀ d ∈ rest.head?, (contextsBy (tickCandidates args g)).get? d.symbol = none) :
    SoldAll args g svc (done ++ rest) acc.orders s := by
  refine ⟨h.ledger, ?_⟩
  have htake : (done ++ rest).takeWhile (fun d =>
      ((contextsBy (tickCandidates args g)).get? d.symbol).isSome) = done := by
    rw [List.takeWhile_append_of_pos h.known]
    rcases rest with - | ⟨d, rest⟩
    · simp
    · rw [List.takeWhile_cons_of_neg, List.append_nil]
      rw [hrest d rfl]
      exact Bool.false_ne_true
  rw [salesOf, htake]
  exact h.sales

/-- A round that proposes no order sells nothing. -/
theorem Sold.idle {done : List Decision} {acc acc' : Orders} {d : Decision}
    (h : Sold args g svc done acc s) {ctx : CandidateContext}
    (hctx : (contextsBy (tickCandidates args g)).get? d.symbol = some ctx)
    (hnone : saleOf (contextsBy (tickCandidates args g)) d = none)
    (hused : acc'.dailyUsed = acc.dailyUsed) (horders : acc'.orders = acc.orders) :
    Sold args g svc (done ++ [d]) acc' s := by
  refine ⟨?_, by rw [hused, horders, h.used], h.setup, horders ▸ h.unseen, horders ▸ h.ledger, ?_⟩
  · intro d' hd'
    rcases List.mem_append.mp hd' with hd' | hd'
    · exact h.known d' hd'
    · rw [List.mem_singleton] at hd'
      rw [hd', hctx]
      rfl
  · rw [List.filterMap_append, horders, List.filterMap_cons_none hnone, List.filterMap_nil,
      List.append_nil]
    exact h.sales

/-- What a round proposes is answered as new. -/
theorem Sold.submitted {done : List Decision} {acc acc' : Orders} {d : Decision}
    {order : OrderRequest} {res : OrderResult} {s' : OrderService}
    (h : Sold args g svc done acc s)
    (hinj : Function.Injective fun i => (args.stamps i).clientOrderId)
    (hsub : Submitted (orderEnv args g svc.killSwitch) args.dailyBuyUsedKrw acc.orders s d order
      res s')
    (hused : acc'.dailyUsed = args.dailyBuyUsedKrw + acceptedBuyNotional acc'.orders)
    (horders : acc'.orders = acc.orders ++ [res]) :
    Sold args g svc (done ++ [d]) acc' s' := by
  have hsame := hsub.sameSetup
  cases hsub with
  | @duplicate ctx _ prior hctx hgate halloc hseen =>
    -- a fresh id has not been seen
    rw [(allocate_symbol halloc).2] at hseen
    exact absurd hseen (by simp [orderEnv, h.unseen])
  | @settled ctx _ _ calls hctx hgate halloc hseen hs =>
    obtain ⟨hid, hreq, -, -⟩ := hs.answers
    refine ⟨?_, hused, h.setup.trans hsame, ?_, ?_, ?_⟩
    · intro d' hd'
      rcases List.mem_append.mp hd' with hd' | hd'
      · exact h.known d' hd'
      · rw [List.mem_singleton] at hd'
        subst hd'
        exact Option.isSome_iff_exists.mpr ⟨ctx, hctx⟩
    · -- the ids still to be drawn are others
      intro i hi
      rw [horders, List.length_append, List.length_singleton] at hi
      rw [OrderService.emitting_seen, OrderService.recording_seen, hid, (allocate_symbol halloc).2,
        Dict.get?_set, if_neg]
      · exact h.unseen i (by omega)
      · intro heq
        have hindex : acc.orders.length = i := hinj heq
        omega
    · rw [OrderService.emitting_ledger, OrderService.recording_ledger, h.ledger, horders,
        List.append_assoc]
    · rw [List.filterMap_append, horders, sellOrders_concat, hreq]
      refine List.rel_append h.sales ?_
      by_cases hact : d.action = .sell
      -- a decision to sell makes the order of its sale, and the service answers it
      · have hside : order.side = .sell := (allocate_side halloc).mpr hact
        have hsale : saleOf (contextsBy (tickCandidates args g)) d = some order.anonymous := by
          unfold saleOf
          have hctx' : (contextsBy (tickCandidates args g)).get? d.symbol = some ctx := hctx
          rw [if_pos hact, hctx', Option.bind_some, ← allocate_sell hact, halloc]
          rfl
        rw [if_pos hside, List.filterMap_cons_some hsale, List.filterMap_nil]
        refine .cons ⟨hreq ▸ hside, by rw [hreq], s.placed.map Placement.order, ?_⟩ .nil
        rw [hreq, ← saleStatus_setup h.setup, hs.saleStatus hside]
        · exact congrArg (fun now => saleStatus s now _ order)
            (baseContext_now args g svc.killSwitch)
        · exact (baseContext_killSwitch args g svc.killSwitch).trans h.setup.killSwitch.symm
      · have hside : ¬ order.side = .sell := mt (allocate_side halloc).mp hact
        have hsale : saleOf (contextsBy (tickCandidates args g)) d = none := if_neg hact
        rw [if_neg hside, List.filterMap_cons_none hsale, List.filterMap_nil]
        exact .nil

/-- The entry gate does not stop a sale. -/
theorem gates_sell {env : OrderEnv} {d : Decision} (hd : d.action = .sell)
    (ctx : CandidateContext) : env.gates d ctx = false := by
  unfold OrderEnv.gates
  rw [hd]
  rcases env.entryGate with - | gate <;> rfl

/-- One round. -/
theorem orderStep_sales {done rest : List Decision} {acc : Orders} {d : Decision}
    (hfinite : d.action = .buy → d.confidence.Finite) (hquiet : QuietSink svc)
    (hinj : Function.Injective fun i => (args.stamps i).clientOrderId)
    (h : Sold args g svc done acc s) :
    Effect.wp (orderStep (orderEnv args g svc.killSwitch) acc d) (Sold args g svc (done ++ [d]))
      (fun _ s => ∃ orders, SoldAll args g svc (done ++ d :: rest) orders s) s := by
  rcases hctx : (contextsBy (tickCandidates args g)).get? d.symbol with - | ctx
  · -- no candidate: `KeyError`, and the sales are those before it
    have hctx' : (orderEnv args g svc.killSwitch).contexts.get? d.symbol = none := hctx
    unfold orderStep
    rw [hctx']
    refine Effect.wp_raise.mpr ⟨acc.orders, h.all ?_⟩
    rintro d' ⟨⟩
    exact hctx
  · by_cases hidle : ∀ ctx order,
        (orderEnv args g svc.killSwitch).contexts.get? d.symbol = some ctx →
        (orderEnv args g svc.killSwitch).gates d ctx = false →
        allocate d ctx s.config (args.stamps acc.orders.length).clientOrderId
          (orderEnv args g svc.killSwitch).multiplier ≠ .ok (some order)
    · have hnone : saleOf (contextsBy (tickCandidates args g)) d = none := by
        unfold saleOf
        split_ifs with hact
        · rw [hctx, Option.bind_some, ← allocate_sell hact]
          exact unproposed fun order => hidle ctx order hctx (gates_sell hact ctx)
        · rfl
      refine (orderStep_idle hidle).mono ?_ ?_
      · rintro acc' s' ⟨hused, horders, rfl⟩
        exact h.idle hctx hnone hused horders
      · -- there is a candidate, and the sizing raises only on a confidence that is no number
        rintro e s' ⟨-, hno | ⟨ctx', e, -, -, hraise⟩⟩
        · have hctx' : (orderEnv args g svc.killSwitch).contexts.get? d.symbol = some ctx := hctx
          rw [hctx'] at hno
          cases hno
        · obtain ⟨hbuy, hno⟩ := allocate_error hraise
          exact absurd (hfinite hbuy) hno
    · push Not at hidle
      obtain ⟨ctx', order, hctx', hgate, halloc⟩ := hidle
      obtain ⟨res, s', hsub, hrun⟩ := orderStep_submits h.used hctx' hgate halloc
      refine hrun.mono ?_ ?_
      · rintro acc' t ⟨hused, horders, rfl⟩
        exact h.submitted hinj hsub hused horders
      · -- the sink does not raise
        rintro e t ⟨-, hraise⟩
        rw [(hquiet.of_audit h.setup.audit).sinkRaises] at hraise
        cases hraise

/-- **The sales of an order loop.** -/
theorem orderLoop_sales {decisions : List Decision}
    (hfinite : ∀ d ∈ decisions, d.action = .buy → d.confidence.Finite) (hquiet : QuietSink svc)
    (hids : ∀ n, FreshIds args svc n) :
    Effect.wp (orderLoop args g svc.killSwitch decisions)
      (fun done s => SoldAll args g svc decisions done.orders s)
      (fun _ s => ∃ orders, SoldAll args g svc decisions orders s) (assessed args g svc) := by
  have hloop : Effect.wp (orderLoop args g svc.killSwitch decisions) (Sold args g svc decisions)
      (fun _ s => ∃ orders, SoldAll args g svc decisions orders s) (assessed args g svc) := by
    refine Effect.wp_foldM_done ?_ (Sold.start hids)
    intro done d rest hsplit acc s hsold
    subst hsplit
    exact orderStep_sales (hfinite d (by simp)) hquiet (injective_of_fresh hids) hsold
  refine hloop.mono ?_ fun _ _ => id
  intro done s hdone
  have hall : SoldAll args g svc (decisions ++ []) done.orders s := hdone.all nofun
  rwa [List.append_nil] at hall

end Loop

/-- No buy of the judge has a confidence that is an infinity or NaN. -/
def BuysFinitely (judge : Judge) : Prop :=
  ∀ ctx d, judge ctx = .ok d → d.action = .buy → d.confidence.Finite

/-- The buys of a tick are its judge's. -/
theorem BuysFinitely.deliberate {args : TickArgs} (h : BuysFinitely args.judge)
    {cs : List CandidateContext} {decisions : List Decision}
    (hd : AutoTrade.deliberate args cs = .ok decisions) :
    ∀ d ∈ decisions, d.action = .buy → d.confidence.Finite := by
  intro d hmem hbuy
  rcases mem_deliberate hd hmem with hsell | ⟨c, -, note, d₀, hanswer, rfl⟩
  · rw [hsell] at hbuy
    cases hbuy
  · rw [pricedDecision_action] at hbuy
    rw [pricedDecision_confidence]
    exact h _ d₀ hanswer hbuy

/-- The sales that a tick decides on, on the candidates it has. -/
def candidateSales (args : TickArgs) (candidates : List CandidateContext) : List OrderRequest :=
  match deliberate args candidates with
  | .ok decisions => salesOf (contextsBy candidates) decisions
  | .error _ => []

/-- The sales that a tick decides on, if it comes to decide. -/
def decidedSales (args : TickArgs) : List OrderRequest :=
  match gather args with
  | .ok (some g) => candidateSales args (tickCandidates args g)
  | _ => []

/-- Without candidates no decision is about one. -/
theorem candidateSales_nil (args : TickArgs) : candidateSales args [] = [] := by
  unfold candidateSales
  rcases deliberate args [] with e | decisions
  · rfl
  · rcases decisions with - | ⟨d, ds⟩
    · rfl
    · rfl

/-- **The sales of a tick** are those it decides on, in their order. -/
theorem settledIn_sales {args : TickArgs} {svc : OrderService} (hfinite : BuysFinitely args.judge)
    (hquiet : QuietSink svc) (hids : ∀ n, FreshIds args svc n) :
    List.Forall₂ (SoldAs svc args.now) (decidedSales args) (sellOrders (settledIn args svc)) := by
  by_cases hreach : ∃ g decisions, gather args = .ok (some g) ∧ tickCandidates args g ≠ [] ∧
      deliberate args (tickCandidates args g) = .ok decisions
  · obtain ⟨g, decisions, hg, hc, hd⟩ := hreach
    obtain ⟨orders, hledger, hsold⟩ := runTick_of_loop hg hc hd
      (orderLoop_sales (hfinite.deliberate hd) hquiet hids)
    have hsales : decidedSales args = salesOf (contextsBy (tickCandidates args g)) decisions := by
      unfold decidedSales
      rw [hg]
      show candidateSales args (tickCandidates args g) = _
      unfold candidateSales
      rw [hd]
    rw [hsales, settledIn, hledger, List.drop_left]
    exact hsold
  · have hidle : settledIn args svc = [] := by
      refine settledIn_idle ?_
      intro g decisions hg hc hd
      exact hreach ⟨g, decisions, hg, hc, hd⟩
    have hnone : decidedSales args = [] := by
      unfold decidedSales
      rcases hg : gather args with e | - | g
      · rfl
      · rfl
      · show candidateSales args (tickCandidates args g) = []
        by_cases hc : tickCandidates args g = []
        · rw [hc]
          exact candidateSales_nil args
        · unfold candidateSales
          rcases hd : deliberate args (tickCandidates args g) with e | decisions
          · rfl
          · exact absurd ⟨g, decisions, hg, hc, hd⟩ hreach
    rw [hidle, hnone]
    exact .nil

/-! ### The erased tick -/

section Erased

variable (args : TickArgs) (g : Gathered)

/-- What a tick has gathered, without the cash and the daily result. -/
def Gathered.forSales (g : Gathered) : Gathered :=
  { g with holdings := g.holdings.forSales, cash := none }

/-- The account is what is left of it for sales. -/
theorem tickHoldings_forSales :
    tickHoldings args.forSales = (tickHoldings args).map Holdings.forSales := by
  unfold tickHoldings TickArgs.forSales Toss.forSales
  rcases args.holdings with - | holdings
  · rfl
  · rfl

/-- The erased tick gathers what the tick gathers. -/
theorem gather_forSales :
    gather args.forSales = (gather args).map (Option.map Gathered.forSales) := by
  unfold gather
  rw [tickHoldings_forSales]
  rcases tickHoldings args with e | holdings
  · rfl
  -- the symbols, the master and the candles do not depend on the daily result
  · simp only [Except.map, bind, Except.bind]
    have hsymbols : tickSymbols args.forSales holdings.forSales = tickSymbols args holdings := rfl
    have hscreen : ∀ stocks, screenLoop args.forSales holdings.forSales stocks =
        screenLoop args holdings stocks := fun _ => rfl
    have hstocks : args.forSales.toss.getStocks = args.toss.getStocks := rfl
    rw [hsymbols, hstocks]
    split_ifs
    · rfl
    · rcases args.toss.getStocks (tickSymbols args holdings) with e | master
      · rfl
      · simp only [hscreen]
        rcases screenLoop args holdings (stocksBy master) with e | screening
        · rfl
        · rfl

/-- The candidates of the erased tick. -/
theorem tickCandidates_forSales :
    tickCandidates args.forSales g.forSales =
      (tickCandidates args g).map CandidateContext.forSales := by
  unfold tickCandidates candidateContexts
  simp only [List.map_map]
  apply List.map_congr_left
  intro sym _
  show told args.forSales _ = (told args _).forSales
  unfold told
  rcases tickRegime args with - | regime
  · rfl
  · rfl

end Erased

section Blind

variable {args : TickArgs} {cs : List CandidateContext}

/-- A judge that sells blindly does not miss what is erased. -/
theorem SellsBlindly.forSales {α : Type*} {judge : CandidateContext → α}
    (h : SellsBlindly judge) (c : CandidateContext) : judge c.forSales = judge c :=
  h c c.forSales rfl

theorem contextsBy_forSales (cs : List CandidateContext) :
    contextsBy (cs.map CandidateContext.forSales) =
      (contextsBy cs).mapValues CandidateContext.forSales := by
  unfold contextsBy
  rw [← Dict.ofList_map, List.map_map, List.map_map]
  rfl

/-- A context is found under its symbol, erased or not. -/
theorem get?_contextsBy_forSales (cs : List CandidateContext) (sym : Symbol) :
    (contextsBy (cs.map CandidateContext.forSales)).get? sym =
      ((contextsBy cs).get? sym).map CandidateContext.forSales := by
  rw [contextsBy_forSales, Dict.get?_mapValues]

theorem pricedDecision_forSales (cs : List CandidateContext) (d : Decision) :
    pricedDecision (contextsBy (cs.map CandidateContext.forSales)) d =
      pricedDecision (contextsBy cs) d := by
  unfold pricedDecision
  rw [get?_contextsBy_forSales]
  rcases (contextsBy cs).get? d.symbol with - | ctx
  · rfl
  · rfl

/-- The sales are made of what the erased contexts show. -/
theorem salesOf_forSales (cs : List CandidateContext) (decisions : List Decision) :
    salesOf (contextsBy (cs.map CandidateContext.forSales)) decisions =
      salesOf (contextsBy cs) decisions := by
  have hsale : ∀ d, saleOf (contextsBy (cs.map CandidateContext.forSales)) d =
      saleOf (contextsBy cs) d := by
    intro d
    unfold saleOf
    split_ifs with hact
    · rw [get?_contextsBy_forSales]
      rcases (contextsBy cs).get? d.symbol with - | ctx
      · rfl
      · show (allocate d ctx.forSales {} "").toOption.join = (allocate d ctx {} "").toOption.join
        unfold allocate
        simp only [hact, reduceCtorEq, if_false, if_true]
        rfl
    · rfl
  unfold salesOf
  rw [funext hsale]
  simp only [get?_contextsBy_forSales, Option.isSome_map]

theorem slicePrefix_map {α β : Type*} (f : α → β) (n : ℤ) (xs : List α) :
    slicePrefix n (xs.map f) = (slicePrefix n xs).map f := by
  unfold slicePrefix
  split_ifs
  · rw [List.map_take]
  · rw [List.map_take, List.length_map]

theorem targets_map {α β : Type*} (f : α → β) (n : Option ℤ) (xs : List α) :
    targets n (xs.map f) = (targets n xs).map f := by
  rcases n with - | n
  · rfl
  · exact slicePrefix_map f n xs

/-- The notes of the erased candidates. -/
theorem researchCandidates_forSales {provider : Research} (h : SellsBlindly provider)
    (cs : List CandidateContext) (n : Option ℤ) :
    researchCandidates (cs.map CandidateContext.forSales) provider n =
      (researchCandidates cs provider n).map (List.map CandidateContext.forSales) := by
  have hnote : ∀ c : CandidateContext, (do
      let note ← provider c.forSales
      pure { c.forSales with research := some note } : Except Exn CandidateContext) =
        (do
          let note ← provider c
          pure { c with research := some note }) >>= fun c => pure c.forSales := by
    intro c
    rw [h.forSales]
    rcases provider c with e | note
    · rfl
    · rfl
  unfold researchCandidates
  rw [targets_map, mapM_map, funext hnote, mapM_bind_pure]
  rcases ((targets n cs).mapM fun c => do
      let note ← provider c
      pure { c with research := some note } : Except Exn (List CandidateContext)) with e | noted
  · rfl
  · show Except.ok (noted.map CandidateContext.forSales ++ (cs.map CandidateContext.forSales).drop
      (noted.map CandidateContext.forSales).length) = Except.ok ((noted ++ cs.drop noted.length).map
        CandidateContext.forSales)
    rw [List.length_map, List.map_append, List.map_drop]

/-- Such a judge decides the same on what is left. -/
theorem decideCandidates_forSales {judge : Judge} (h : SellsBlindly judge)
    (cs : List CandidateContext) :
    decideCandidates (cs.map CandidateContext.forSales) judge = decideCandidates cs judge := by
  unfold decideCandidates
  rw [targets_map, mapM_map, funext h.forSales]

theorem judgedCandidates_forSales (args : TickArgs) (cs : List CandidateContext) :
    judgedCandidates args.forSales (cs.map CandidateContext.forSales) =
      (judgedCandidates args cs).map CandidateContext.forSales := by
  unfold judgedCandidates
  rw [List.filter_map]
  rfl

theorem notedCandidates_forSales
    (h : ∀ provider, args.research = some provider → SellsBlindly provider) :
    notedCandidates args.forSales (cs.map CandidateContext.forSales) =
      (notedCandidates args cs).map (List.map CandidateContext.forSales) := by
  have hresearch : args.forSales.research = args.research := rfl
  have hn : args.forSales.researchTopN = args.researchTopN := rfl
  unfold notedCandidates
  rw [hresearch, hn, judgedCandidates_forSales]
  rcases hr : args.research with - | provider
  · rfl
  · exact researchCandidates_forSales (h provider hr) _ _

/-- **A judge that does not look decides alike** on the erased candidates. -/
theorem deliberate_forSales (hjudge : SellsBlindly args.judge)
    (hresearch : ∀ provider, args.research = some provider → SellsBlindly provider) :
    deliberate args.forSales (cs.map CandidateContext.forSales) = deliberate args cs := by
  have hforced : forcedDecisions args.forSales (cs.map CandidateContext.forSales) =
      forcedDecisions args cs := by
    unfold forcedDecisions
    rw [List.map_map]
    rfl
  unfold deliberate
  rw [notedCandidates_forSales hresearch, hforced, funext (pricedDecision_forSales cs)]
  rcases notedCandidates args cs with e | noted
  · rfl
  · show decideCandidates (noted.map CandidateContext.forSales) args.judge >>= _ =
      decideCandidates noted args.judge >>= _
    rw [decideCandidates_forSales hjudge]

/-- The erased tick decides on the same sales. -/
theorem decidedSales_forSales (hjudge : SellsBlindly args.judge)
    (hresearch : ∀ provider, args.research = some provider → SellsBlindly provider) :
    decidedSales args.forSales = decidedSales args := by
  unfold decidedSales
  rw [gather_forSales]
  rcases gather args with e | - | g
  · rfl
  · rfl
  · show candidateSales args.forSales (tickCandidates args.forSales g.forSales) =
      candidateSales args (tickCandidates args g)
    unfold candidateSales
    rw [tickCandidates_forSales, deliberate_forSales hjudge hresearch]
    rcases deliberate args (tickCandidates args g) with e | decisions
    · rfl
    · exact salesOf_forSales _ _

end Blind

/-! ### Two ticks -/

/-- In `LIVE` the executor answers a sale by what is sold, whatever it was called
with before. -/
def AnswersSalesAlike (svc : OrderService) : Prop :=
  svc.mode = .live → ∀ place, svc.executor = some place →
    ∀ history history' (order order' : OrderRequest), order.side = .sell →
      order'.anonymous = order.anonymous →
      (place history' order').isOk = (place history order).isOk

/-- Two answers to the same sale. -/
structure SameSale (svc : OrderService) (o o' : OrderResult) : Prop where
  request : o'.request.anonymous = o.request.anonymous
  rejected : o'.status = .rejected ↔ o.status = .rejected
  status : AnswersSalesAlike svc → o'.status = o.status

/-- A sale meets the switch and the hours only. -/
theorem saleStatus_rejected {svc : OrderService} {now : Datetime} {history : List OrderRequest}
    {order : OrderRequest} :
    saleStatus svc now history order = .rejected ↔
      svc.killSwitch = true ∨ ¬ MarketOpen svc.config now := by
  have hor : (svc.killSwitch = true ∨ ¬ MarketOpen svc.config now) ↔
      ¬ (svc.killSwitch = false ∧ MarketOpen svc.config now) := by
    rw [not_and_or, Bool.not_eq_false]
  rw [hor]
  unfold saleStatus
  split_ifs with hpass
  · refine iff_of_false ?_ (not_not.mpr hpass)
    rcases svc.mode with - | -
    · exact nofun
    · rcases svc.executor with - | place
      · exact nofun
      · simp only
        split_ifs
        all_goals exact nofun
  · exact iff_of_true rfl hpass

/-- **A sale is rejected only for the switch and the hours.** -/
theorem sell_rejected_iff (args : TickArgs) (svc : OrderService) :
    ∀ o ∈ sellOrders (settledIn args svc), (o.status = .rejected ↔
      svc.killSwitch = true ∨ ¬ MarketOpen svc.config args.now) := by
  have hall : ∀ o ∈ settledIn args svc, o.request.side = .sell → (o.status = .rejected ↔
      svc.killSwitch = true ∨ ¬ MarketOpen svc.config args.now) := by
    refine settledIn_forall ?_
    intro g decisions hg hd d hmem orders s order res s' hsame hsub hdup hside
    cases hsub with
    | duplicate hctx hgate halloc hseen => exact absurd rfl hdup
    | @settled ctx _ _ _ hctx hgate halloc hseen hs =>
      rw [hs.answers.2.1] at hside
      have hkill : ((orderEnv args g svc.killSwitch).guardContext ctx
          (args.dailyBuyUsedKrw + acceptedBuyNotional orders)).killSwitch = s.killSwitch :=
        (baseContext_killSwitch args g svc.killSwitch).trans hsame.killSwitch.symm
      have hnow : ((orderEnv args g svc.killSwitch).guardContext ctx
          (args.dailyBuyUsedKrw + acceptedBuyNotional orders)).now = args.now :=
        baseContext_now args g svc.killSwitch
      rw [hs.saleStatus hside hkill, hnow, saleStatus_setup hsame, saleStatus_rejected]
  intro o ho
  obtain ⟨hmem, hside⟩ := List.mem_filter.mp ho
  exact hall o hmem (of_decide_eq_true hside)

theorem saleStatus_forSales (svc : OrderService) (now : Datetime) (history : List OrderRequest)
    (order : OrderRequest) :
    saleStatus svc.forSales now history order = saleStatus svc now history order := rfl

/-- Two services that are set up alike for sales answer them alike. -/
theorem SoldAs.same {svc svc' : OrderService} {now : Datetime} {sale : OrderRequest}
    {o o' : OrderResult} (hsvc : svc'.forSales = svc.forSales) (h : SoldAs svc now sale o)
    (h' : SoldAs svc' now sale o') : SameSale svc o o' := by
  obtain ⟨hside, hsale, history, hstatus⟩ := h
  obtain ⟨-, hsale', history', hstatus'⟩ := h'
  rw [← saleStatus_forSales, hsvc, saleStatus_forSales] at hstatus'
  have hanonymous : o'.request.anonymous = o.request.anonymous := hsale'.trans hsale.symm
  refine ⟨hanonymous, ?_, ?_⟩
  · rw [hstatus, hstatus', saleStatus_rejected, saleStatus_rejected]
  · intro halike
    rw [hstatus, hstatus']
    unfold saleStatus
    split_ifs
    · rcases hmode : svc.mode with - | -
      · rfl
      · rcases hexec : svc.executor with - | place
        · rfl
        · simp only [halike hmode place hexec history history' _ _ hside hanonymous]
    · rfl

/-- Two lists that answer one list answer each other. -/
theorem forall₂_of_common {α β γ : Type*} {R : α → β → Prop} {S : α → γ → Prop}
    {T : β → γ → Prop} (h : ∀ x a b, R x a → S x b → T a b) {xs : List α} {as : List β}
    {bs : List γ} (hR : List.Forall₂ R xs as) (hS : List.Forall₂ S xs bs) :
    List.Forall₂ T as bs := by
  induction hR generalizing bs with
  | nil =>
    cases hS
    exact .nil
  | cons hxa _ ih =>
    cases hS with
    | cons hxb hrest => exact .cons (h _ _ _ hxa hxb) (ih hrest)

/-- **No automatic device interferes with selling**, for a judge whose buys have
confidences that are numbers.  Two ticks that differ only in what `forSales` erases
make the same sales in the same order, rejected alike; and a sale is rejected only
for the kill switch or the market hours. -/
theorem sells_unaffected {args args' : TickArgs} {svc svc' : OrderService}
    (hargs : args'.forSales = args.forSales) (hsvc : svc'.forSales = svc.forSales)
    (hfinite : BuysFinitely args.judge) (hjudge : SellsBlindly args.judge)
    (hresearch : ∀ provider, args.research = some provider → SellsBlindly provider)
    (hquiet : QuietSink svc) (hquiet' : QuietSink svc')
    (hids : ∀ n, FreshIds args svc n) (hids' : ∀ n, FreshIds args' svc' n) :
    List.Forall₂ (SameSale svc) (sellOrders (settledIn args svc))
        (sellOrders (settledIn args' svc')) ∧
      ∀ o ∈ sellOrders (settledIn args svc), (o.status = .rejected ↔
        svc.killSwitch = true ∨ ¬ MarketOpen svc.config args.now) := by
  -- the fields that are not erased
  have hnow : args'.forSales.now = args.forSales.now := by rw [hargs]
  have hjudges : args'.forSales.judge = args.forSales.judge := by rw [hargs]
  have hproviders : args'.forSales.research = args.forSales.research := by rw [hargs]
  have hjudge' : SellsBlindly args'.judge := by
    change SellsBlindly args'.forSales.judge
    rwa [hjudges]
  have hfinite' : BuysFinitely args'.judge := by
    change BuysFinitely args'.forSales.judge
    rwa [hjudges]
  have hresearch' : ∀ provider, args'.research = some provider → SellsBlindly provider := by
    change ∀ provider, args'.forSales.research = some provider → SellsBlindly provider
    rwa [hproviders]
  change args'.now = args.now at hnow
  have hdecided : decidedSales args' = decidedSales args := by
    rw [← decidedSales_forSales hjudge' hresearch', hargs, decidedSales_forSales hjudge hresearch]
  have hsold := settledIn_sales hfinite hquiet hids
  have hsold' := settledIn_sales hfinite' hquiet' hids'
  rw [hdecided, hnow] at hsold'
  exact ⟨forall₂_of_common (fun _ _ _ h h' => h.same hsvc h') hsold hsold',
    sell_rejected_iff args svc⟩

namespace Sample

/-- Ids `""`, `"o"`, `"oo"` and so on. -/
def countedStamps (i : ℕ) : Stamp := ⟨String.ofList (List.replicate i 'o'), tenOClock⟩

/-- A tick that buys a third stock and sells its two holdings. -/
def sellingOut : TickArgs :=
  { args 1000000 exitingHoldings ["035720"] with
    judge := turnOver
    stamps := countedStamps }

/-- The same on a day of losses, with the regime filter and the entry gate on and
no cash. -/
def sellingOutHalted : TickArgs :=
  { sellingOut with
    toss := { flatToss 0 { exitingHoldings with dailyProfitLossRate := some (-1 / 10) } with
      getProxyCandles := fun _ => .error "ReadTimeout" }
    entryGate := some {}
    regimeConfig := some {}
    dailyBuyUsedKrw := 500000 }

/-- A service whose breaker is tripped and whose limits let nothing be bought. -/
def haltedService : OrderService where
  config := { perOrderMaxKrw := 0, dailyBuyCapKrw := 0, maxPositions := 0, perSymbolMaxWeight := 0 }
  circuitBreaker := { drawdownHalt := true }

theorem turnOver_blind : SellsBlindly turnOver := by
  intro c c' h
  have hsym : c'.forSales.symbol = c.forSales.symbol := by rw [h]
  have hheld : c'.forSales.alreadyHeld = c.forSales.alreadyHeld := by rw [h]
  show Except.ok _ = Except.ok _
  rw [show c'.symbol = c.symbol from hsym, show c'.alreadyHeld = c.alreadyHeld from hheld]

theorem turnOver_finite : BuysFinitely turnOver := by
  rintro ctx d ⟨⟩ -
  exact ⟨1, rfl⟩

theorem freshIds_counted {args : TickArgs} {svc : OrderService}
    (hargs : args.stamps = countedStamps) (hseen : svc.seen = ∅) (n : ℕ) :
    FreshIds args svc n := by
  refine ⟨fun i _ => by rw [hseen, Dict.get?_empty], ?_⟩
  intro i _ j _ hij
  rw [hargs] at hij
  have hlength := congrArg String.length hij
  simpa [countedStamps] using hlength

end Sample

theorem sells_unaffected_sample :
    List.Forall₂ (SameSale {}) (sellOrders (settledIn Sample.sellingOut {}))
        (sellOrders (settledIn Sample.sellingOutHalted Sample.haltedService)) ∧
      ∀ o ∈ sellOrders (settledIn Sample.sellingOut {}), (o.status = .rejected ↔
        false = true ∨ ¬ MarketOpen {} Sample.tenOClock) :=
  @sells_unaffected Sample.sellingOut Sample.sellingOutHalted {} Sample.haltedService rfl rfl
    Sample.turnOver_finite Sample.turnOver_blind nofun nofun nofun (Sample.freshIds_counted rfl rfl)
    (Sample.freshIds_counted rfl rfl)

/-! ### A confidence of NaN -/

namespace Sample

/-- A judge that buys more of one holding, with the confidence that `_normalize` makes
of NaN, and sells the other. -/
def nanJudge : Judge := fun ctx =>
  .ok (normalize
    { action := if ctx.symbol = "000660" then .buy else .sell
      symbol := ctx.symbol
      confidence := if ctx.symbol = "000660" then .nan else 1
      rationale := [] } ctx)

/-- A tick on two holdings, with `cash` won. -/
def unsure (cash : ℚ) : TickArgs :=
  { args cash exitingHoldings [] with
    judge := nanJudge
    stamps := countedStamps }

/-- The judge of the sample looks at the symbol alone. -/
theorem nanJudge_blind : SellsBlindly nanJudge := by
  intro c c' h
  have hsym : c'.forSales.symbol = c.forSales.symbol := by rw [h]
  have hheld : c'.forSales.alreadyHeld = c.forSales.alreadyHeld := by rw [h]
  show Except.ok (normalize _ c') = Except.ok (normalize _ c)
  unfold normalize
  rw [show c'.symbol = c.symbol from hsym, show c'.alreadyHeld = c.alreadyHeld from hheld]

end Sample

/-- The buy raises where there is cash, before the sale; without cash it is sized to
nothing and the sale is made. -/
theorem sell_cut_off :
    ¬ ∀ (args args' : TickArgs) (svc svc' : OrderService), args'.forSales = args.forSales →
      svc'.forSales = svc.forSales → SellsBlindly args.judge →
      (∀ provider, args.research = some provider → SellsBlindly provider) →
      QuietSink svc → QuietSink svc' → (∀ n, FreshIds args svc n) →
      (∀ n, FreshIds args' svc' n) →
      List.Forall₂ (SameSale svc) (sellOrders (settledIn args svc))
        (sellOrders (settledIn args' svc')) := by
  intro h
  have hsold := h (Sample.unsure 1000000) (Sample.unsure 0) {} {} rfl rfl Sample.nanJudge_blind
    nofun nofun nofun (Sample.freshIds_counted rfl rfl) (Sample.freshIds_counted rfl rfl)
  exact absurd hsold.length_eq (by decide +kernel)

end AutoTrade
