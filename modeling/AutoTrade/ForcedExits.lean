/-
AutoTrade/ForcedExits.lean

The forced exits of a tick.

Once a tick comes to its order loop, the forced sales are its first orders, and
they are what the holdings and their own candles make of them
(`orderLoop_forced`).  But they are built after the candle loop and submitted
after the judge, so a call that raises for another symbol cuts the tick before
them: `forced_exits_iff` says that this, `CutBeforeOrders`, is the only way to
lose them.
-/
import AutoTrade.Candidates

namespace AutoTrade

open Fallible

/-- The holding of a symbol. -/
def heldItem (holdings : Holdings) (symbol : Symbol) : Option HoldingItem :=
  (Dict.ofList (holdings.items.map fun i => (i.symbol, i))).get? symbol

/-- The result is a sale of all of the forced symbol at its last close, which the
guardrails let pass. -/
def IsSale (args : TickArgs) (holdings : Holdings) (f : ForcedExit) (r : OrderResult) : Prop :=
  ∃ item candles last, heldItem holdings f.symbol = some item ∧
    args.toss.getCandles f.symbol = .ok (candles ++ [last]) ∧
    r.request = req .sell f.symbol item.quantity last.closePrice r.clientOrderId ∧
    r.status ≠ .rejected

/-- A call before the order loop raises: for the stock master, the candles of
some eligible symbol, the research of some candidate or the judgement of one. -/
inductive CutBeforeOrders (args : TickArgs) (holdings : Holdings) : Prop
  | stocks (h : Raises (args.toss.getStocks (tickSymbols args holdings)))
  | candles {master : List Stock} {sym : Symbol}
      (hm : args.toss.getStocks (tickSymbols args holdings) = .ok master)
      (hs : sym ∈ (tickSymbols args holdings).filter
        (· ∈ eligibleSymbols (stocksBy master) (tickSymbols args holdings)
          (heldSymbols holdings)))
      (h : Raises (args.toss.getCandles sym))
  | research {g : Gathered} {provider : Research} {ctx : CandidateContext}
      (hg : gather args = .ok (some g)) (hr : args.research = some provider)
      (hc : ctx ∈ targets args.researchTopN (judgedCandidates args (tickCandidates args g)))
      (h : Raises (provider ctx))
  | judge {g : Gathered} {noted : List CandidateContext} {ctx : CandidateContext}
      (hg : gather args = .ok (some g))
      (hn : notedCandidates args (tickCandidates args g) = .ok noted) (hc : ctx ∈ noted)
      (h : Raises (args.judge ctx))

/-- What the sales need of their own: a positive quantity held and candles with
a positive last close. -/
def Sellable (args : TickArgs) (holdings : Holdings) (symbol : Symbol) : Prop :=
  ∃ item candles last, heldItem holdings symbol = some item ∧ 0 < item.quantity ∧
    args.toss.getCandles symbol = .ok (candles ++ [last]) ∧ 0 < last.closePrice

/-- The sink of the service, if it has one, does not raise. -/
def QuietSink (svc : OrderService) : Prop :=
  ∀ sink, svc.audit = some sink → ∀ before res, sink before res = none

theorem QuietSink.of_audit {svc svc' : OrderService} (h : QuietSink svc)
    (haudit : svc'.audit = svc.audit) : QuietSink svc' := by
  intro sink hsink
  exact h sink (haudit ▸ hsink)

theorem QuietSink.sinkRaises {svc : OrderService} (h : QuietSink svc) (res : OrderResult) :
    svc.sinkRaises res = none := by
  unfold OrderService.sinkRaises
  rcases ha : svc.audit with - | sink
  · rfl
  · exact h sink ha _ res

/-! ### The forced decisions -/

/-- The decision of a forced exit. -/
def forcedDecision (contexts : Dict Symbol CandidateContext) (f : ForcedExit) : Decision :=
  pricedDecision contexts
    { action := .sell, symbol := f.symbol, confidence := 1,
      rationale := [.lit "결정적 청산: "] ++ f.reason }

section Loop

variable {args : TickArgs} {g : Gathered} {svc s : OrderService} {acc : Orders}

/-- What the loop carries through the forced sales: the ids still to be drawn
are new to the service. -/
structure Selling (args : TickArgs) (g : Gathered) (svc : OrderService) (fresh : ℕ)
    (acc : Orders) (s : OrderService) : Prop where
  used : acc.dailyUsed = args.dailyBuyUsedKrw + acceptedBuyNotional acc.orders
  setup : OrderService.SameSetup (assessed args g svc) s
  unseen : ∀ i, acc.orders.length ≤ i → i < fresh →
    s.seen.get? (args.stamps i).clientOrderId = none

/-- A forced sale that can be made is proposed: all that is held, at the last
close of the symbol's own candles. -/
theorem forced_proposed (hg : gather args = .ok (some g)) {f : ForcedExit}
    (hf : Sellable args g.holdings f.symbol) (killSwitch : Bool) (cfg : GuardrailConfig)
    (id : ClientOrderId) :
    ∃ ctx item candles last,
      (orderEnv args g killSwitch).contexts.get?
        (forcedDecision (contextsBy (tickCandidates args g)) f).symbol = some ctx ∧
      (orderEnv args g killSwitch).gates
        (forcedDecision (contextsBy (tickCandidates args g)) f) ctx = false ∧
      allocate (forcedDecision (contextsBy (tickCandidates args g)) f) ctx cfg id
        (orderEnv args g killSwitch).multiplier =
          .ok (some (req .sell f.symbol item.quantity last.closePrice id)) ∧
      heldItem g.holdings f.symbol = some item ∧
      args.toss.getCandles f.symbol = .ok (candles ++ [last]) := by
  obtain ⟨item, candles, last, hitem, hq, hc, hclose⟩ := hf
  obtain ⟨ctx, ind, hctx, hsym, hheld, hqty, hind, hlast⟩ := heldCandidate hg hitem hc
  have haction : (forcedDecision (contextsBy (tickCandidates args g)) f).action = .sell :=
    pricedDecision_action _ _
  have hsymbol : (forcedDecision (contextsBy (tickCandidates args g)) f).symbol = f.symbol :=
    pricedDecision_symbol _ _
  have hprice : price ctx = some last.closePrice := by
    unfold price
    rw [hind]
    simp only [hlast, hclose, if_true]
  refine ⟨ctx, item, candles, last, ?_, ?_, ?_, hitem, hc⟩
  · rw [hsymbol]
    exact hctx
  · unfold OrderEnv.gates
    rw [haction]
    rcases (orderEnv args g killSwitch).entryGate with - | gate <;> rfl
  · unfold allocate
    rw [haction, hprice]
    simp only [reduceCtorEq, if_false, if_true, hheld, Bool.not_true, Bool.false_eq_true, hqty,
      not_le.mpr hq, hsym]

/-- **A sale meets the switch and the hours only**: with the switch off, the
market open and a new id it is answered as new, and not rejected. -/
theorem Submitted.sale {env : OrderEnv} {used : ℚ} {orders : List OrderResult}
    {s' : OrderService} {d : Decision} {order : OrderRequest} {res : OrderResult}
    (hsub : Submitted env used orders s d order res s') (hside : order.side = .sell)
    (hnew : s.seen.get? order.clientOrderId = none) (hoff : s.killSwitch = false)
    (hoff' : env.baseCtx.killSwitch = false) (hopen : MarketOpen s.config env.baseCtx.now) :
    res.request = order ∧ res.clientOrderId = order.clientOrderId ∧ res.status ≠ .rejected ∧
      (s.mode = .dryRun → res.status = .dryRun) ∧
      s'.ledger = s.ledger ++ [res] ∧ s'.seen = s.seen.set res.clientOrderId res := by
  cases hsub with
  | duplicate hctx hgate halloc hseen =>
    rw [hnew] at hseen
    cases hseen
  | settled hctx hgate halloc hseen hs =>
    obtain ⟨hid, hreq, -, -⟩ := hs.answers
    have hstatus : res.status ≠ .rejected ∧ (s.mode = .dryRun → res.status = .dryRun) := by
      cases hs with
      | rejected hviol =>
        refine absurd ((runGuardrails_sell hside).mpr ⟨?_, ?_⟩) hviol
        · rw [OrderService.effectiveContext_killSwitch, hoff, Bool.or_false]
          exact hoff'
        · rw [OrderService.effectiveContext_now]
          exact hopen
      | dryRun h hmode => simp [OrderService.result]
      | unset h hmode hexec => simp [OrderService.result, hmode]
      | submitted h hmode hexec hplace => simp [OrderService.result, hmode]
      | failed h hmode hexec hplace => simp [OrderService.result, hmode]
    exact ⟨hreq, hid, hstatus.1, hstatus.2, rfl, rfl⟩

/-- The result answers a forced exit: its sale, in `DRY_RUN` as an intended order. -/
structure Sells (args : TickArgs) (svc : OrderService) (holdings : Holdings) (f : ForcedExit)
    (r : OrderResult) : Prop where
  sale : IsSale args holdings f r
  intended : svc.mode = .dryRun → r.status = .dryRun

/-- What the loop carries survives the record of the order it comes to. -/
theorem Selling.next {fresh : ℕ} {acc' : Orders} {s' : OrderService} {res : OrderResult}
    (hsel : Selling args g svc fresh acc s) (hlen : acc.orders.length < fresh)
    (hinj : Set.InjOn (fun i => (args.stamps i).clientOrderId) {i | i < fresh})
    (hused : acc'.dailyUsed = args.dailyBuyUsedKrw + acceptedBuyNotional acc'.orders)
    (horders : acc'.orders = acc.orders ++ [res]) (hsame : OrderService.SameSetup s s')
    (hid : res.clientOrderId = (args.stamps acc.orders.length).clientOrderId)
    (hseen : s'.seen = s.seen.set res.clientOrderId res) :
    Selling args g svc fresh acc' s' := by
  refine ⟨hused, hsel.setup.trans hsame, ?_⟩
  intro i hi hlt
  rw [horders, List.length_append, List.length_singleton] at hi
  rw [hseen, hid, Dict.get?_set, if_neg]
  · exact hsel.unseen i (by omega) hlt
  · intro heq
    have hsameIndex : acc.orders.length = i := hinj hlen hlt heq
    omega

/-- **One forced sale**; only a raising sink ends its round early. -/
theorem orderStep_forced {fresh : ℕ} (hg : gather args = .ok (some g))
    (hsel : Selling args g svc fresh acc s) (hlen : acc.orders.length < fresh)
    (hopen : MarketOpen svc.config args.now) (hkill : svc.killSwitch = false)
    (hinj : Set.InjOn (fun i => (args.stamps i).clientOrderId) {i | i < fresh})
    {f : ForcedExit} (hf : Sellable args g.holdings f.symbol) :
    Effect.wp (orderStep (orderEnv args g svc.killSwitch) acc
        (forcedDecision (contextsBy (tickCandidates args g)) f))
      (fun acc' s' => Selling args g svc fresh acc' s' ∧ ∃ res,
        acc'.orders = acc.orders ++ [res] ∧ s'.ledger = s.ledger ++ [res] ∧
          Sells args svc g.holdings f res)
      (fun _ _ => ¬ QuietSink svc) s := by
  refine Effect.wp_of_forall ?_ ?_
  · intro acc' t hm
    obtain ⟨ctx, item, candles, last, hctx, hgate, halloc, hitem, hc⟩ :=
      forced_proposed hg hf svc.killSwitch s.config (args.stamps acc.orders.length).clientOrderId
    obtain ⟨res, s', hsub, hrun⟩ := orderStep_submits hsel.used hctx hgate halloc
    obtain ⟨hused, horders, rfl⟩ := hrun.of_ok hm
    have hconfig : s.config = svc.config := hsel.setup.config
    obtain ⟨hreq, hid, hstatus, hdry, hledger, hseen⟩ := hsub.sale rfl
      (hsel.unseen acc.orders.length (le_refl _) hlen) (hsel.setup.killSwitch.trans hkill)
      ((baseContext_killSwitch args g svc.killSwitch).trans hkill) (by
        rw [hconfig]
        exact (baseContext_now args g svc.killSwitch).symm ▸ hopen)
    have hsale : IsSale args g.holdings f res := by
      refine ⟨item, candles, last, hitem, hc, ?_, hstatus⟩
      rw [hreq, hid]
      rfl
    exact ⟨hsel.next hlen hinj hused horders hsub.sameSetup hid hseen, res, horders, hledger,
      hsale, fun hmode => hdry (hsel.setup.mode.trans hmode)⟩
  · intro e t hm hquiet
    obtain ⟨ctx, item, candles, last, hctx, hgate, halloc, hitem, hc⟩ :=
      forced_proposed hg hf svc.killSwitch s.config (args.stamps acc.orders.length).clientOrderId
    obtain ⟨res, s', hsub, hrun⟩ := orderStep_submits hsel.used hctx hgate halloc
    obtain ⟨-, hraise⟩ := hrun.of_error hm
    rw [(hquiet.of_audit hsel.setup.audit).sinkRaises] at hraise
    cases hraise

/-- **The forced sales of a loop**, one for each, in their order. -/
theorem foldM_forced {fresh : ℕ} (hg : gather args = .ok (some g))
    (hopen : MarketOpen svc.config args.now) (hkill : svc.killSwitch = false)
    (hinj : Set.InjOn (fun i => (args.stamps i).clientOrderId) {i | i < fresh})
    (fs : List ForcedExit) (hfs : ∀ f ∈ fs, Sellable args g.holdings f.symbol)
    (hsel : Selling args g svc fresh acc s) (hlen : acc.orders.length + fs.length ≤ fresh) :
    Effect.wp (Effect.foldM (orderStep (orderEnv args g svc.killSwitch)) acc
        (fs.map (forcedDecision (contextsBy (tickCandidates args g)))))
      (fun acc' s' => Selling args g svc fresh acc' s' ∧ ∃ sells,
        acc'.orders = acc.orders ++ sells ∧ s'.ledger = s.ledger ++ sells ∧
          List.Forall₂ (Sells args svc g.holdings) fs sells)
      (fun _ _ => ¬ QuietSink svc) s := by
  induction fs generalizing acc s with
  | nil => exact ⟨hsel, [], (List.append_nil _).symm, (List.append_nil _).symm, .nil⟩
  | cons f fs ih =>
    rw [List.length_cons] at hlen
    have hone := orderStep_forced hg hsel (by omega) hopen hkill hinj (hfs f List.mem_cons_self)
    rw [List.map_cons, Effect.foldM, Effect.wp_bind]
    refine hone.mono ?_ fun _ _ => id
    rintro acc' s' ⟨hsel', res, horders, hledger, hsale⟩
    have hlen' : acc'.orders.length + fs.length ≤ fresh := by
      rw [horders, List.length_append, List.length_singleton]
      omega
    refine (ih (fun f hf => hfs f (List.mem_cons_of_mem _ hf)) hsel' hlen').mono ?_ fun _ _ => id
    rintro acc'' s'' ⟨hsel'', sells, horders', hledger', hsales⟩
    refine ⟨hsel'', res :: sells, ?_, ?_, .cons hsale hsales⟩
    · rw [horders', horders, List.append_assoc, List.singleton_append]
    · rw [hledger', hledger, List.append_assoc, List.singleton_append]

/-- The rest of the loop adds to the ledger. -/
theorem foldM_ledger {env : OrderEnv} {used : ℚ} (base : List OrderResult)
    (decisions : List Decision) (hacc : acc.dailyUsed = used + acceptedBuyNotional acc.orders)
    (h : base <+: s.ledger) :
    Effect.wp (Effect.foldM (orderStep env) acc decisions)
      (fun _ s' => base <+: s'.ledger) (fun _ s' => base <+: s'.ledger) s := by
  have hloop : Effect.wp (Effect.foldM (orderStep env) acc decisions)
      (fun acc s => acc.dailyUsed = used + acceptedBuyNotional acc.orders ∧ base <+: s.ledger)
      (fun _ s => base <+: s.ledger) s := by
    refine Effect.wp_foldM ?_ ⟨hacc, h⟩
    rintro d - acc s ⟨hacc, hpre⟩
    refine (orderStep_rule (I := fun _ s => base <+: s.ledger) hacc hpre ?_).mono
      (fun _ _ => id) ?_
    · intro order res s' hsub
      rw [hsub.ledger]
      exact hpre.trans (List.prefix_append _ _)
    · rintro e s' ⟨-, hpre'⟩
      exact hpre'
  refine hloop.mono ?_ fun _ _ => id
  rintro acc' s' ⟨-, hpre⟩
  exact hpre

end Loop

/-! ### The tick -/

section Tick

variable {args : TickArgs} {holdings : Holdings} {svc : OrderService}

/-- The ids that the first `n` orders of the tick draw are new and distinct. -/
structure FreshIds (args : TickArgs) (svc : OrderService) (n : ℕ) : Prop where
  unseen : ∀ i < n, svc.seen.get? (args.stamps i).clientOrderId = none
  injOn : Set.InjOn (fun i => (args.stamps i).clientOrderId) {i | i < n}

theorem injective_of_fresh (h : ∀ n, FreshIds args svc n) :
    Function.Injective fun i => (args.stamps i).clientOrderId := by
  intro i j hij
  have hi : i < max i j + 1 := Nat.lt_succ_of_le (le_max_left i j)
  have hj : j < max i j + 1 := Nat.lt_succ_of_le (le_max_right i j)
  exact (h (max i j + 1)).injOn hi hj hij

theorem mem_forcedExits {f : ForcedExit} (h : f ∈ (forcedOf args).values) :
    f ∈ args.forcedExits := by
  obtain ⟨k, hk⟩ := Dict.mem_values.mp h
  obtain ⟨f', hf', heq⟩ := List.mem_map.mp (Dict.mem_of_ofList_get? hk)
  exact (Prod.mk.inj heq).2 ▸ hf'

/-- Each forced exit is represented by the last one of its symbol. -/
theorem exists_forcedOf {f : ForcedExit} (h : f ∈ args.forcedExits) :
    ∃ f' ∈ (forcedOf args).values, f'.symbol = f.symbol := by
  have hkey : f.symbol ∈ (forcedOf args).keys := by
    rw [forcedOf, Dict.mem_keys_ofList, List.map_map]
    exact List.mem_map_of_mem h
  obtain ⟨f', hf'⟩ := Dict.exists_get?_of_mem hkey
  refine ⟨f', Dict.mem_values.mpr ⟨_, hf'⟩, ?_⟩
  obtain ⟨f'', -, heq⟩ := List.mem_map.mp (Dict.mem_of_ofList_get? hf')
  obtain ⟨hsym, rfl⟩ := Prod.mk.inj heq
  exact hsym

theorem Sellable.held {symbol : Symbol} (h : Sellable args holdings symbol) :
    symbol ∈ heldSymbols holdings := by
  obtain ⟨item, -, -, hitem, -⟩ := h
  obtain ⟨i, hi, heq⟩ := List.mem_map.mp (Dict.mem_of_ofList_get? hitem)
  rw [← (Prod.mk.inj heq).1]
  exact List.mem_map_of_mem hi

/-- A held symbol is one to look at. -/
theorem tickSymbols_ne_nil {symbol : Symbol} (h : symbol ∈ heldSymbols holdings) :
    tickSymbols args holdings ≠ [] := by
  have hmem : symbol ∈ tickSymbols args holdings := by
    rw [tickSymbols, List.mem_unique]
    exact List.mem_append_right _ h
  exact List.ne_nil_of_mem hmem

/-- Every call before the order loop that raises is one of those that
`CutBeforeOrders` names. -/
theorem cutBeforeOrders_iff (hh : tickHoldings args = .ok holdings)
    (hsome : tickSymbols args holdings ≠ []) :
    CutBeforeOrders args holdings ↔ Raises (gather args) ∨
      ∃ g, gather args = .ok (some g) ∧ Raises (deliberate args (tickCandidates args g)) := by
  rw [gather_raises hh hsome]
  constructor
  · intro h
    cases h with
    | stocks h => exact Or.inl (Or.inl h)
    | candles hm hs h => exact Or.inl (Or.inr ⟨_, hm, _, hs, h⟩)
    | research hg hr hc h =>
      exact Or.inr ⟨_, hg, deliberate_raises.mpr (Or.inl ⟨_, hr, _, hc, h⟩)⟩
    | judge hg hn hc h =>
      exact Or.inr ⟨_, hg, deliberate_raises.mpr (Or.inr ⟨_, hn, _, hc, h⟩)⟩
  · rintro ((h | ⟨master, hm, sym, hs, h⟩) | ⟨g, hg, h⟩)
    · exact .stocks h
    · exact .candles hm hs h
    · rcases deliberate_raises.mp h with ⟨provider, hr, ctx, hc, h⟩ | ⟨noted, hn, ctx, hc, h⟩
      · exact .research hg hr hc h
      · exact .judge hg hn hc h

/-- A tick that is cut settles nothing. -/
theorem settledIn_of_cut (hh : tickHoldings args = .ok holdings)
    (hsome : tickSymbols args holdings ≠ []) (h : CutBeforeOrders args holdings) :
    settledIn args svc = [] := by
  refine settledIn_idle fun g decisions hg _ hd => ?_
  rcases (cutBeforeOrders_iff hh hsome).mp h with ⟨e, he⟩ | ⟨g', hg', e, he⟩
  · rw [hg] at he
    cases he
  · rw [hg] at hg'
    cases hg'
    rw [hd] at he
    cases he

/-- The decisions of a tick whose forced symbols are held: the forced sales, and then
what the judge answers. -/
theorem deliberate_forced {g : Gathered} {decisions : List Decision}
    (hforced : ∀ f ∈ args.forcedExits, f.symbol ∈ heldSymbols g.holdings)
    (hd : deliberate args (tickCandidates args g) = .ok decisions) :
    ∃ noted answers, notedCandidates args (tickCandidates args g) = .ok noted ∧
      noted.mapM args.judge = .ok answers ∧
      decisions =
        (forcedOf args).values.map (forcedDecision (contextsBy (tickCandidates args g))) ++
          answers.map (pricedDecision (contextsBy (tickCandidates args g))) := by
  obtain ⟨noted, answers, hn, ha, rfl⟩ := deliberate_ok hd
  refine ⟨noted, answers, hn, ha, congrArg (· ++ _) ?_⟩
  unfold forcedDecisions
  rw [List.filter_eq_self.mpr, List.map_map]
  · rfl
  · intro f hf
    exact decide_eq_true (held_mem_tickCandidates args (hforced f (mem_forcedExits hf)))

/-- Where the loop of a tick begins. -/
theorem Selling.start {g : Gathered} {n : ℕ} (hids : FreshIds args svc n) :
    Selling args g svc n { dailyUsed := args.dailyBuyUsedKrw } (assessed args g svc) :=
  ⟨by simp, .refl _, fun i _ hi => hids.unseen i hi⟩

/-- **The forced sales come first**: the order loop of a tick that decides begins
with them, in their order, and what they are depends on the holdings and on the
candles of their own symbols alone. -/
theorem orderLoop_forced {g : Gathered} {decisions : List Decision}
    (hforced : ∀ f ∈ args.forcedExits, Sellable args g.holdings f.symbol)
    (hopen : MarketOpen svc.config args.now) (hkill : svc.killSwitch = false)
    (hquiet : QuietSink svc) (hids : FreshIds args svc (forcedOf args).values.length)
    (hg : gather args = .ok (some g))
    (hd : deliberate args (tickCandidates args g) = .ok decisions) :
    Effect.wp (orderLoop args g svc.killSwitch decisions)
      (fun _ s' => ∃ sells, svc.ledger ++ sells <+: s'.ledger ∧
        List.Forall₂ (IsSale args g.holdings) (forcedOf args).values sells)
      (fun _ s' => ∃ sells, svc.ledger ++ sells <+: s'.ledger ∧
        List.Forall₂ (IsSale args g.holdings) (forcedOf args).values sells)
      (assessed args g svc) := by
  have hfirst := foldM_forced hg hopen hkill hids.injOn (forcedOf args).values
    (fun f hf => hforced f (mem_forcedExits hf)) (.start hids) (by simp)
  obtain ⟨noted, answers, -, -, rfl⟩ := deliberate_forced (fun f hf => (hforced f hf).held) hd
  unfold Effect.wp orderLoop
  rw [Effect.foldM_append]
  show Effect.wp _ _ _ _
  rw [Effect.wp_bind]
  refine hfirst.mono ?_ fun _ _ hloud => absurd hquiet hloud
  rintro acc' s' ⟨hsel, sells, -, hledger, hsales⟩
  have hsold : List.Forall₂ (IsSale args g.holdings) (forcedOf args).values sells :=
    hsales.imp fun _ _ h => h.sale
  have hpre : svc.ledger ++ sells <+: s'.ledger := by
    rw [hledger]
    exact List.prefix_refl _
  refine (foldM_ledger (svc.ledger ++ sells) _ hsel.used hpre).mono ?_ ?_
  · intro _ _ h
    exact ⟨sells, h, hsold⟩
  · intro _ _ h
    exact ⟨sells, h, hsold⟩

/-- **A tick that is not cut sells what is forced first.** -/
theorem settledIn_forced (hh : tickHoldings args = .ok holdings)
    (hforced : ∀ f ∈ args.forcedExits, Sellable args holdings f.symbol)
    (hopen : MarketOpen svc.config args.now) (hkill : svc.killSwitch = false)
    (hquiet : QuietSink svc) (hids : FreshIds args svc (forcedOf args).values.length)
    (hcut : ¬ CutBeforeOrders args holdings) :
    ∃ sells rest, settledIn args svc = sells ++ rest ∧
      List.Forall₂ (IsSale args holdings) (forcedOf args).values sells := by
  rcases hvals : (forcedOf args).values with - | ⟨f₀, fs⟩
  · exact ⟨[], settledIn args svc, rfl, .nil⟩
  rw [← hvals]
  have hheld₀ : f₀.symbol ∈ heldSymbols holdings :=
    (hforced f₀ (mem_forcedExits (by simp [hvals]))).held
  have hsome : tickSymbols args holdings ≠ [] := tickSymbols_ne_nil hheld₀
  rw [cutBeforeOrders_iff hh hsome, not_or] at hcut
  obtain ⟨hread, hdecide⟩ := hcut
  -- every way to end but the order loop is a cut, or there is nothing to sell
  have hfinal : ∃ sells, svc.ledger ++ sells <+: (runTick args svc).2.ledger ∧
      List.Forall₂ (IsSale args holdings) (forcedOf args).values sells := by
    rcases hrun : runTick args svc with ⟨out, final⟩
    cases ticks_of_run hrun with
    | unread hg => exact absurd ⟨_, hg⟩ hread
    | nothing hg => exact absurd hg (gather_eq_none hh hsome)
    | unmatched hg hc =>
      have hmem := held_mem_tickCandidates args (gather_holdings hh hg ▸ hheld₀)
      rw [hc] at hmem
      cases hmem
    | undecided hg hc hd => exact absurd ⟨_, hg, _, hd⟩ hdecide
    | halted hg hc hd hl =>
      have hsame := gather_holdings hh hg
      subst hsame
      exact (orderLoop_forced hforced hopen hkill hquiet hids hg hd).of_error hl
    | traded hg hc hd hl =>
      have hsame := gather_holdings hh hg
      subst hsame
      exact (orderLoop_forced hforced hopen hkill hquiet hids hg hd).of_ok hl
  obtain ⟨sells, ⟨rest, hrest⟩, hsales⟩ := hfinal
  refine ⟨sells, rest, ?_, hsales⟩
  rw [settledIn, ← hrest, List.append_assoc, List.drop_left]

/-- **Forced exits and the calls before them.**  For forced exits of held
symbols with a positive quantity and a positive last close of their own, with
the market open, the switch off and new ids: every one of them is sold, all of
it, exactly when there is none or no call before the order loop raises; and then
the sales are the first orders of the tick, in their order. -/
theorem forced_exits_iff (args : TickArgs) (svc : OrderService) (holdings : Holdings)
    (hh : tickHoldings args = .ok holdings)
    (hforced : ∀ f ∈ args.forcedExits, Sellable args holdings f.symbol)
    (hopen : MarketOpen svc.config args.now) (hkill : svc.killSwitch = false)
    (hquiet : QuietSink svc) (hids : FreshIds args svc (forcedOf args).values.length) :
    ((∀ f ∈ args.forcedExits, ∃ o ∈ settledIn args svc, IsSale args holdings f o) ↔
      args.forcedExits = [] ∨ ¬ CutBeforeOrders args holdings) ∧
    (¬ CutBeforeOrders args holdings → ∃ sells rest, settledIn args svc = sells ++ rest ∧
      List.Forall₂ (IsSale args holdings) (forcedOf args).values sells) := by
  have hfirst := settledIn_forced hh hforced hopen hkill hquiet hids
  refine ⟨⟨?_, ?_⟩, hfirst⟩
  · intro hsold
    rcases hf : args.forcedExits with - | ⟨f, fs⟩
    · exact Or.inl rfl
    · right
      intro hcut
      have hmem : f ∈ args.forcedExits := by simp [hf]
      obtain ⟨o, ho, -⟩ := hsold f hmem
      rw [settledIn_of_cut hh (tickSymbols_ne_nil (hforced f hmem).held) hcut] at ho
      cases ho
  · rintro (hnone | hcut) f hf
    · rw [hnone] at hf
      cases hf
    · obtain ⟨sells, rest, hset, hsales⟩ := hfirst hcut
      -- the sale of the last exit that names the symbol is the sale of this one
      obtain ⟨f', hf', hsym⟩ := exists_forcedOf hf
      obtain ⟨o, ho, item, candles, last, hitem, hc, hreq, hstatus⟩ :
          ∃ o ∈ sells, IsSale args holdings f' o := by
        obtain ⟨i, hi, rfl⟩ := List.mem_iff_getElem.mp hf'
        have hi' : i < sells.length := hsales.length_eq ▸ hi
        exact ⟨sells[i], List.getElem_mem hi', List.Forall₂.get hsales hi hi'⟩
      refine ⟨o, ?_, item, candles, last, hsym ▸ hitem, hsym ▸ hc, hsym ▸ hreq, hstatus⟩
      rw [hset]
      exact List.mem_append_left _ ho

end Tick

/-! ### An exit next to a refusal -/

namespace Sample

/-- Two positions at 1000 won a share. -/
def exitingHoldings : Holdings where
  marketValue := .ofKrw 15000
  items := [holding "000660" 10, holding "005930" 5]

/-- A tick that is to sell the first of two holdings. -/
def exiting (judge : Judge) : TickArgs :=
  { args 1000000 exitingHoldings [] with
    judge
    forcedExits := [⟨"000660", [.lit "손절"]⟩] }

/-- `ClaudeJudge`, with a model that refuses every candidate. -/
def refusing : Judge :=
  claudeJudge (fun _ => .ok ⟨some "refusal", []⟩) fun _ => .error "JSONDecodeError"

theorem exiting_sellable (judge : Judge) :
    ∀ f ∈ (exiting judge).forcedExits, Sellable (exiting judge) exitingHoldings f.symbol := by
  intro f hf
  have hf : f = ⟨"000660", [.lit "손절"]⟩ := List.mem_singleton.mp hf
  subst hf
  exact ⟨holding "000660" 10, List.replicate 5 ⟨1000, 1000⟩, ⟨1000, 1000⟩, by decide +kernel,
    by norm_num [holding], rfl, by norm_num⟩

theorem exiting_freshIds (judge : Judge) :
    FreshIds (exiting judge) {} (forcedOf (exiting judge)).values.length := by
  refine ⟨fun _ _ => rfl, ?_⟩
  intro i hi j hj _
  have hi : i < 1 := hi
  have hj : j < 1 := hj
  omega

theorem exiting_open : MarketOpen ({} : OrderService).config tenOClock := by decide +kernel

end Sample

/-- A judge that answers lets the sale through. -/
theorem forced_exits_sample :
    ∃ o ∈ settledIn (Sample.exiting Sample.buyAll) {},
      IsSale (Sample.exiting Sample.buyAll) Sample.exitingHoldings ⟨"000660", [.lit "손절"]⟩ o := by
  have hsold := (forced_exits_iff (Sample.exiting Sample.buyAll) {} Sample.exitingHoldings rfl
    (Sample.exiting_sellable _) Sample.exiting_open rfl (fun _ h => by cases h)
    (Sample.exiting_freshIds _)).1.mpr (by
      refine Or.inr fun hcut => ?_
      cases hcut with
      | stocks h => exact not_raises_ok _ h
      | candles hm hs h => exact not_raises_ok _ h
      | research hg hr hc h => cases hr
      | judge hg hn hc h => exact not_raises_ok _ h)
  exact hsold _ List.mem_cons_self

/-- The model refuses to judge the other holding, and the sale is lost. -/
theorem forced_exits_lost :
    ¬ ∀ (args : TickArgs) (svc : OrderService) (holdings : Holdings),
      tickHoldings args = .ok holdings →
      (∀ f ∈ args.forcedExits, Sellable args holdings f.symbol) →
      MarketOpen svc.config args.now → svc.killSwitch = false → QuietSink svc →
      FreshIds args svc (forcedOf args).values.length →
      ∀ f ∈ args.forcedExits, ∃ o ∈ settledIn args svc, IsSale args holdings f o := by
  intro h
  obtain ⟨o, ho, -⟩ := h (Sample.exiting Sample.refusing) {} Sample.exitingHoldings rfl
    (Sample.exiting_sellable _) Sample.exiting_open rfl (fun _ h => by cases h)
    (Sample.exiting_freshIds _) ⟨"000660", [.lit "손절"]⟩ List.mem_cons_self
  have hnone : settledIn (Sample.exiting Sample.refusing) {} = [] := by decide +kernel
  rw [hnone] at ho
  cases ho

end AutoTrade
