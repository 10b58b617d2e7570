/-
AutoTrade/ForcedSales.lean

The forced exits of a paper tick, from the ledger back to the ledger.

An exit is judged on a position of the book.  The account that the book shows has
the quantity of the position (`heldItem_synthetic`), so the exit can be sold, and
its sale is the one order of the tick for the symbol (`runTick_forced_orders`): the
loop begins with the forced sales, and the judge is not asked about their symbols.
Filled in the book, a sale of all that is held closes the position
(`afterFills_sold`), and nothing after it opens the symbol again.
-/
import AutoTrade.PaperInStep
import AutoTrade.PaperTick
import AutoTrade.SellPath

namespace AutoTrade

open Fallible PaperPortfolio

/-- A judge that answers about the symbol it was asked about. -/
def Faithful (judge : Judge) : Prop := ∀ ctx d, judge ctx = .ok d → d.symbol = ctx.symbol

theorem deterministicJudge_faithful : Faithful deterministicJudge := by
  intro ctx d h
  unfold deterministicJudge at h
  split at h
  all_goals
    cases h
    rfl

/-! ### The account of a book -/

section Account

variable {book : PaperPortfolio} {marks : Dict Symbol ℚ} {days : Dict Symbol ℕ} {cfg : ExitConfig}

/-- The account shows a position with its own quantity. -/
theorem heldItem_synthetic {symbol : Symbol} {pos : PaperPosition}
    (h : book.positions.get? symbol = some pos) :
    ∃ item, heldItem (book.toSyntheticHoldings marks) symbol = some item ∧
      item.quantity = pos.quantity := by
  have hkeys : (((book.toSyntheticHoldings marks).items.map fun i => (i.symbol, i)).map
      Prod.fst).Nodup := by
    rw [List.map_map]
    exact (toSyntheticHoldings_symbols book marks).nodup_iff.mpr book.positions.keys_nodup
  have hmem : (symbol, pos) ∈ sortedItems book.positions :=
    (sortedItems_perm book.positions).mem_iff.mpr (Dict.get?_eq_some.mp h)
  obtain ⟨item, hitem, hsymbol, hquantity⟩ : ∃ item ∈ (book.toSyntheticHoldings marks).items,
      item.symbol = symbol ∧ item.quantity = pos.quantity :=
    ⟨_, List.mem_map_of_mem hmem, rfl, rfl⟩
  refine ⟨item, (Dict.get?_ofList hkeys).mpr (List.mem_map.mpr ⟨item, hitem, ?_⟩), hquantity⟩
  rw [hsymbol]

/-- An exit is of a position that is held. -/
theorem mem_evaluateExits {f : ForcedExit} (h : f ∈ evaluateExits book.positions marks days cfg) :
    ∃ pos, book.positions.get? f.symbol = some pos ∧ 0 < pos.quantity := by
  unfold evaluateExits at h
  split at h
  · cases h
  · obtain ⟨⟨symbol, pos⟩, hmem, hexit⟩ := List.mem_filterMap.mp h
    obtain ⟨rfl, hpos⟩ := exitOf_symbol hexit
    exact ⟨pos, Dict.get?_eq_some.mpr ((sortedItems_perm book.positions).mem_iff.mp hmem), hpos⟩

end Account

/-! ### The orders of the tick -/

section Orders

variable {args : TickArgs} {g : Gathered} {svc s : OrderService}

/-- The judge is not asked about a symbol whose sale is forced. -/
theorem notedCandidates_symbols {candidates noted : List CandidateContext}
    (h : notedCandidates args candidates = .ok noted) :
    ∀ c ∈ noted, c.symbol ∉ (forcedOf args).keys := by
  intro c hc
  obtain ⟨c₀, hc₀, heq⟩ := mem_notedCandidates h hc
  rw [heq]
  exact of_decide_eq_true (List.mem_filter.mp hc₀).2

/-- An order with a new id is answered about itself. -/
theorem Submitted.fresh {env : OrderEnv} {used : ℚ} {orders : List OrderResult}
    {s' : OrderService} {d : Decision} {order : OrderRequest} {res : OrderResult}
    (hsub : Submitted env used orders s d order res s')
    (hnew : s.seen.get? (env.stamps orders.length).clientOrderId = none) :
    res.request = order ∧ res.clientOrderId = (env.stamps orders.length).clientOrderId ∧
      s'.seen = s.seen.set res.clientOrderId res := by
  cases hsub with
  | duplicate hctx hgate halloc hseen =>
    rw [(allocate_symbol halloc).2, hnew] at hseen
    cases hseen
  | settled hctx hgate halloc hseen hs =>
    obtain ⟨hid, hreq, -, -⟩ := hs.answers
    exact ⟨hreq, hid.trans (allocate_symbol halloc).2, rfl⟩

/-- An order of a tick is about the symbol of its decision. -/
theorem Submitted.symbol {used : ℚ} {orders : List OrderResult} {s' : OrderService}
    {d : Decision} {order : OrderRequest} {res : OrderResult} {killSwitch : Bool}
    (hsub : Submitted (orderEnv args g killSwitch) used orders s d order res s') :
    order.symbol = d.symbol := by
  have hsame : ∀ {ctx : CandidateContext} {cfg : GuardrailConfig} {id : ClientOrderId} {mult : ℚ},
      (contextsBy (tickCandidates args g)).get? d.symbol = some ctx →
      allocate d ctx cfg id mult = .ok (some order) → order.symbol = d.symbol := by
    intro ctx cfg id mult hctx halloc
    exact (allocate_symbol halloc).1.trans (get?_contextsBy.mp hctx).2
  cases hsub with
  | duplicate hctx hgate halloc hseen => exact hsame hctx halloc
  | settled hctx hgate halloc hseen hs => exact hsame hctx halloc

/-- **The rest of the loop** adds orders about the symbols of its decisions only. -/
theorem foldM_later (hids : ∀ n, FreshIds args svc n) {acc : Orders}
    (hused : acc.dailyUsed = args.dailyBuyUsedKrw + acceptedBuyNotional acc.orders)
    (hunseen : ∀ i, acc.orders.length ≤ i → s.seen.get? (args.stamps i).clientOrderId = none)
    (decisions : List Decision) :
    Effect.wp (Effect.foldM (orderStep (orderEnv args g svc.killSwitch)) acc decisions)
      (fun acc' _ => ∃ rest, acc'.orders = acc.orders ++ rest ∧
        ∀ o ∈ rest, ∃ d ∈ decisions, o.request.symbol = d.symbol)
      (fun _ _ => True) s := by
  -- the orders so far are named, since the invariant is about those after them
  obtain ⟨base, hbase⟩ : ∃ base, acc.orders = base := ⟨_, rfl⟩
  have hloop : Effect.wp (Effect.foldM (orderStep (orderEnv args g svc.killSwitch)) acc decisions)
      (fun acc' s' => acc'.dailyUsed = args.dailyBuyUsedKrw + acceptedBuyNotional acc'.orders ∧
        (∀ i, acc'.orders.length ≤ i → s'.seen.get? (args.stamps i).clientOrderId = none) ∧
        ∃ rest, acc'.orders = base ++ rest ∧
          ∀ o ∈ rest, ∃ d ∈ decisions, o.request.symbol = d.symbol)
      (fun _ _ => True) s := by
    refine Effect.wp_foldM ?_ ⟨hused, hunseen, [], by rw [hbase, List.append_nil], by simp⟩
    · rintro d hd acc s ⟨hused, hunseen, hrest⟩
      refine (orderStep_rule (I := fun orders s =>
        (∀ i, orders.length ≤ i → s.seen.get? (args.stamps i).clientOrderId = none) ∧
          ∃ rest, orders = base ++ rest ∧
            ∀ o ∈ rest, ∃ d ∈ decisions, o.request.symbol = d.symbol)
        hused ⟨hunseen, hrest⟩ ?_).mono (fun _ _ h => h) fun _ _ _ => trivial
      intro order res s' hsub
      obtain ⟨hreq, hid, hseen⟩ := hsub.fresh (hunseen _ (le_refl _))
      refine ⟨?_, ?_⟩
      · -- the ids still to be drawn are others
        intro i hi
        rw [List.length_append, List.length_singleton] at hi
        rw [hseen, hid, Dict.get?_set, if_neg]
        · exact hunseen i (by omega)
        · intro heq
          have hindex : acc.orders.length = i := injective_of_fresh hids heq
          omega
      · obtain ⟨rest, horders, hall⟩ := hrest
        refine ⟨rest ++ [res], by rw [horders, List.append_assoc], ?_⟩
        intro o ho
        rcases List.mem_append.mp ho with ho | ho
        · exact hall o ho
        · rw [List.mem_singleton] at ho
          exact ⟨d, hd, by rw [ho, hreq, hsub.symbol]⟩
  rw [hbase]
  exact hloop.mono (fun _ _ h => h.2.2) fun _ _ => id

/-- The exits are kept under their own symbols. -/
theorem forcedOf_symbols (args : TickArgs) :
    (forcedOf args).values.map ForcedExit.symbol = (forcedOf args).keys := by
  unfold Dict.values Dict.keys
  rw [List.map_map]
  apply List.map_congr_left
  rintro ⟨key, f⟩ hmem
  obtain ⟨f', -, heq⟩ := List.mem_map.mp (Dict.mem_of_ofList_get? (Dict.get?_eq_some.mpr hmem))
  obtain ⟨rfl, rfl⟩ := Prod.mk.inj heq
  rfl

/-- **The orders of a tick with forced exits**: their sales, and then orders about
other symbols. -/
theorem runTick_forced_orders {holdings : Holdings} (hh : tickHoldings args = .ok holdings)
    (hforced : ∀ f ∈ args.forcedExits, Sellable args holdings f.symbol)
    (hopen : MarketOpen svc.config args.now) (hkill : svc.killSwitch = false)
    (hids : ∀ n, FreshIds args svc n) (hjudge : Faithful args.judge) {r : TickResult}
    {final : OrderService} (hrun : runTick args svc = (.ok r, final)) :
    ∃ sells rest, r.orders = sells ++ rest ∧
      List.Forall₂ (Sells args svc holdings) (forcedOf args).values sells ∧
      ∀ o ∈ rest, o.request.symbol ∉ (forcedOf args).keys := by
  rcases hvals : (forcedOf args).values with - | ⟨f₀, fs⟩
  · refine ⟨[], r.orders, rfl, .nil, ?_⟩
    intro o _
    rw [← forcedOf_symbols, hvals]
    exact List.not_mem_nil
  rw [← hvals]
  have hheld : ∀ f ∈ args.forcedExits, f.symbol ∈ heldSymbols holdings :=
    fun f hf => (hforced f hf).held
  have hheld₀ : f₀.symbol ∈ heldSymbols holdings :=
    hheld f₀ (mem_forcedExits (by simp [hvals]))
  cases ticks_of_run hrun with
  | nothing hg => exact absurd hg (gather_eq_none hh (tickSymbols_ne_nil hheld₀))
  | unmatched hg hc =>
    have hmem := held_mem_tickCandidates args (gather_holdings hh hg ▸ hheld₀)
    rw [hc] at hmem
    cases hmem
  | @traded g decisions done _ hg hc hd hl =>
    have hsame := gather_holdings hh hg
    subst hsame
    obtain ⟨noted, answers, hn, ha, rfl⟩ := deliberate_forced hheld hd
    unfold orderLoop at hl
    rw [Effect.foldM_append] at hl
    obtain ⟨acc, s, hfirst, hlater⟩ := Effect.bind_eq_ok.mp hl
    have hfirst : ∀ n, (forcedOf args).values.length ≤ n →
        Selling args g svc n acc s ∧ ∃ sells, acc.orders = [] ++ sells ∧
          s.ledger = svc.ledger ++ sells ∧
          List.Forall₂ (Sells args svc g.holdings) (forcedOf args).values sells := by
      intro n hn
      exact (foldM_forced hg hopen hkill (hids n).injOn (forcedOf args).values
        (fun f hf => hforced f (mem_forcedExits hf)) (.start (hids n)) (by simpa using hn)).of_ok
          hfirst
    obtain ⟨hsel, sells, hsells, -, hall⟩ := hfirst _ (le_refl _)
    have hunseen : ∀ i, acc.orders.length ≤ i →
        s.seen.get? (args.stamps i).clientOrderId = none := by
      intro i hi
      exact (hfirst (max (forcedOf args).values.length (i + 1)) (le_max_left _ _)).1.unseen i hi
        (lt_max_of_lt_right (Nat.lt_succ_self i))
    obtain ⟨rest, hrest, hsymbols⟩ := (foldM_later hids hsel.used hunseen _).of_ok hlater
    refine ⟨sells, rest, hrest.trans (by rw [hsells]; rfl), hall, ?_⟩
    intro o ho
    obtain ⟨d, hmem, hsymbol⟩ := hsymbols o ho
    -- the judge answers about a symbol that it was asked about
    obtain ⟨answer, hanswer, rfl⟩ := List.mem_map.mp hmem
    obtain ⟨ctx, hctx, hdecided⟩ := exists_of_mapM_ok ha hanswer
    rw [hsymbol, pricedDecision_symbol, hjudge ctx answer hdecided]
    exact notedCandidates_symbols hn ctx hctx

/-- **One order for each forced symbol.** -/
theorem runTick_forced_order {holdings : Holdings} (hh : tickHoldings args = .ok holdings)
    (hforced : ∀ f ∈ args.forcedExits, Sellable args holdings f.symbol)
    (hopen : MarketOpen svc.config args.now) (hkill : svc.killSwitch = false)
    (hids : ∀ n, FreshIds args svc n) (hjudge : Faithful args.judge) {r : TickResult}
    {final : OrderService} (hrun : runTick args svc = (.ok r, final)) {f : ForcedExit}
    (hf : f ∈ args.forcedExits) :
    ∃ f' o, f'.symbol = f.symbol ∧ Sells args svc holdings f' o ∧
      r.orders.filter (fun o => o.request.symbol = f.symbol) = [o] := by
  obtain ⟨sells, rest, horders, hsells, hrest⟩ :=
    runTick_forced_orders hh hforced hopen hkill hids hjudge hrun
  obtain ⟨f', hf', hsymbol⟩ := exists_forcedOf hf
  have hnodup : ((forcedOf args).values.map ForcedExit.symbol).Nodup := by
    rw [forcedOf_symbols]
    exact (forcedOf args).keys_nodup
  -- among the exits the symbol is one, and so it is among their sales
  have hone : (forcedOf args).values.filter (fun x => x.symbol = f.symbol) = [f'] := by
    have hsame : (forcedOf args).values.filter (fun x => x.symbol = f.symbol) =
        (forcedOf args).values.filter (fun x => x = f') := by
      apply List.filter_congr
      intro x hx
      refine decide_eq_decide.mpr ⟨fun h => ?_, fun h => h ▸ hsymbol⟩
      exact List.inj_on_of_nodup_map hnodup hx hf' (h.trans hsymbol.symm)
    rw [hsame, List.filter_eq, List.count_eq_one_of_mem (List.Nodup.of_map _ hnodup) hf']
    rfl
  have hsold : List.Forall₂ (Sells args svc holdings)
      ((forcedOf args).values.filter (fun x => x.symbol = f.symbol))
      (sells.filter (fun o => o.request.symbol = f.symbol)) := by
    refine List.rel_filter ?_ hsells
    rintro x o ⟨⟨item, candles, last, -, -, hreq, -⟩, -⟩
    have hreqsymbol : o.request.symbol = x.symbol := by rw [hreq]; rfl
    simp [hreqsymbol]
  rw [hone] at hsold
  obtain ⟨o, os, hfo, hnil, hfilter⟩ := List.forall₂_cons_left_iff.mp hsold
  cases hnil
  refine ⟨f', o, hsymbol, hfo, ?_⟩
  rw [horders, List.filter_append, hfilter, List.filter_eq_nil_iff.mpr]
  · rfl
  · intro o' ho' heq
    refine hrest o' ho' ?_
    rw [of_decide_eq_true heq, ← hsymbol, ← forcedOf_symbols]
    exact List.mem_map_of_mem hf'

end Orders

/-! ### The fills -/

section Fills

variable (cost : CostConfig) (book : PaperPortfolio) {symbol : Symbol}

/-- A fill touches the position of its own symbol only. -/
theorem applyFill_frame {req : OrderRequest} (now : Option Datetime) (h : req.symbol ≠ symbol) :
    (book.applyFill req cost now).2.positions.get? symbol = book.positions.get? symbol := by
  have hout := applyFill_outcome cost book req now
  generalize book.applyFill req cost now = r at hout
  cases hout with
  | unfilled => rfl
  | skipped => rfl
  | opened => rw [Dict.get?_set, if_neg h]
  | added => rw [Dict.get?_set, if_neg h]
  | closed => rw [Dict.get?_erase, if_neg h]
  | reduced => rw [Dict.get?_set, if_neg h]

theorem afterFills_frame {calls : List FillCall} (h : ∀ c ∈ calls, c.1.symbol ≠ symbol) :
    (book.afterFills cost calls).positions.get? symbol = book.positions.get? symbol := by
  induction calls using List.reverseRecOn with
  | nil => rfl
  | append_singleton calls c ih =>
    rw [afterFills_concat, applyFill_frame cost _ c.2 (h c (by simp)),
      ih fun c' hc' => h c' (List.mem_append_left _ hc')]

/-- The sale of all that is held closes the position. -/
theorem applyFill_sellAll {req : OrderRequest} (now : Option Datetime) {price : ℚ}
    {pos : PaperPosition} (hpos : book.positions.get? req.symbol = some pos)
    (hqty : 0 < pos.quantity) (hside : req.side = .sell) (hprice : req.price = some price)
    (hall : req.quantity = some pos.quantity) :
    (book.applyFill req cost now).2.positions.get? req.symbol = none := by
  unfold applyFill
  simp only [hprice, hall, not_le.mpr hqty, if_false, hside]
  unfold fillSell
  simp only [hpos, not_le.mpr hqty, if_false, min_self, sub_self, if_true]
  rw [Dict.get?_erase, if_pos rfl]

theorem tickCalls_append (now : Datetime) (orders orders' : List OrderResult) :
    tickCalls now (orders ++ orders') = tickCalls now orders ++ tickCalls now orders' := by
  simp [tickCalls, intended]

theorem symbol_of_mem_tickCalls {now : Datetime} {orders : List OrderResult} {c : FillCall}
    (h : c ∈ tickCalls now orders) : ∃ o ∈ orders, c.1.symbol = o.request.symbol := by
  obtain ⟨o, ho, rfl⟩ := List.mem_map.mp h
  exact ⟨o, (List.mem_filter.mp ho).1, rfl⟩

/-- **The fills of a tick whose one order for a symbol sells all of it.** -/
theorem afterFills_sold {orders : List OrderResult} {o : OrderResult} (now : Datetime)
    (hone : orders.filter (fun o => o.request.symbol = symbol) = [o])
    (hstatus : o.status = .dryRun) {pos : PaperPosition} {price : ℚ}
    (hpos : book.positions.get? symbol = some pos) (hqty : 0 < pos.quantity)
    (hside : o.request.side = .sell) (hprice : o.request.price = some price)
    (hall : o.request.quantity = some pos.quantity) :
    (book.afterFills cost (tickCalls now orders)).positions.get? symbol = none := by
  obtain ⟨before, later, rfl, hbefore, hsymbol, hlater⟩ := List.filter_eq_cons_iff.mp hone
  have hsymbol : o.request.symbol = symbol := of_decide_eq_true hsymbol
  subst hsymbol
  have hcalls : tickCalls now (before ++ o :: later) =
      tickCalls now before ++ ((o.request, some now) :: tickCalls now later) := by
    rw [tickCalls_append]
    simp [tickCalls, intended, hstatus]
  rw [hcalls, afterFills_append]
  -- only the order itself is about the symbol
  have hpre : (book.afterFills cost (tickCalls now before)).positions.get? o.request.symbol =
      some pos := by
    rw [afterFills_frame, hpos]
    intro c hc heq
    obtain ⟨o', ho', hc'⟩ := symbol_of_mem_tickCalls hc
    exact hbefore o' ho' (decide_eq_true (hc'.symm.trans heq))
  have hpost : ∀ c ∈ tickCalls now later, c.1.symbol ≠ o.request.symbol := by
    intro c hc heq
    obtain ⟨o', ho', hc'⟩ := symbol_of_mem_tickCalls hc
    exact List.filter_eq_nil_iff.mp hlater o' ho' (decide_eq_true (hc'.symm.trans heq))
  exact (afterFills_frame cost _ hpost).trans
    (applyFill_sellAll cost _ (some now) hpre hqty hside hprice hall)

end Fills

/-! ### The tick -/

section Tick

variable {cfg : Settings} {t : TickInput} {s s' : Server} {args : TickArgs} {result : TickResult}

/-- An exit is of a position with shares. -/
theorem mem_paperExits {f : ForcedExit} (hf : f ∈ s.paperExits cfg t) :
    ∃ pos, (s.paperBook cfg).positions.get? f.symbol = some pos ∧ 0 < pos.quantity := by
  unfold Server.paperExits at hf
  simp only at hf
  split at hf
  · exact mem_evaluateExits hf
  · cases hf

/-- The account shows what the book holds, so each exit can be sold. -/
theorem PaperTicked.sellable (h : PaperTicked cfg t s args result s')
    (hcandles : ∀ toss, t.toss = some toss → ∀ symbol ∈ (s.paperBook cfg).positions.keys,
      ∃ candles last, toss.getCandles symbol = .ok (candles ++ [last]) ∧ 0 < last.closePrice) :
    ∀ f ∈ args.forcedExits,
      Sellable args ((s.paperRun cfg t).book.toSyntheticHoldings (s.paperRun cfg t).marks)
        f.symbol := by
  intro f hf
  rw [h.forced] at hf
  obtain ⟨pos, hpos, hqty⟩ := mem_paperExits hf
  obtain ⟨item, hitem, hquantity⟩ := heldItem_synthetic hpos
  obtain ⟨candles, last, hc, hclose⟩ :=
    hcandles args.toss h.toss f.symbol (Dict.mem_keys_of_get? hpos)
  exact ⟨item, candles, last, hitem, hquantity ▸ hqty, hc, hclose⟩

theorem PaperTicked.freshIds (h : PaperTicked cfg t s args result s')
    (hnew : ∀ i, s.svc.seen.get? (t.stamps i).clientOrderId = none)
    (hinj : Function.Injective fun i => (t.stamps i).clientOrderId) (n : ℕ) :
    FreshIds args s.svc n := by
  refine ⟨fun i _ => ?_, ?_⟩
  · rw [h.stamps]
    exact hnew i
  · rw [h.stamps]
    exact hinj.injOn

end Tick

/-- **A forced exit completes in the paper book.**  In a completed tick of the paper
mode, with the market open, the switch off, a judge that answers about the symbol it
is asked about and candles with a positive last close for each position: the orders
about the symbol of a forced exit are one, the intended sale of all that the book
holds, and the symbol is gone from the book that the tick stores. -/
theorem forced_exits_settle (cfg : Settings) (t : TickInput) (s : Server)
    (hpersisted : cfg.persisted) (hseed : 0 < cfg.paperSeedKrw) (hdry : s.svc.mode = .dryRun)
    (hopen : MarketOpen s.svc.config t.now) (hkill : s.svc.killSwitch = false)
    (hjudge : Faithful t.llm)
    (hcandles : ∀ toss, t.toss = some toss → ∀ symbol ∈ (s.paperBook cfg).positions.keys,
      ∃ candles last, toss.getCandles symbol = .ok (candles ++ [last]) ∧ 0 < last.closePrice)
    (hnew : ∀ i, s.svc.seen.get? (t.stamps i).clientOrderId = none)
    (hinj : Function.Injective fun i => (t.stamps i).clientOrderId) {tickId : Option ℕ}
    {engine : Text} {result : TickResult} {report : Option ReconcileReport}
    {summary : Option PaperSummary} {s' : Server}
    (hdone : executeTick cfg t s = (.ok (.done tickId engine result report summary), s')) :
    ∀ f ∈ s.paperExits cfg t, ∃ pos o,
      (s.paperBook cfg).positions.get? f.symbol = some pos ∧
      result.orders.filter (fun o => o.request.symbol = f.symbol) = [o] ∧
      o.request.side = .sell ∧ o.request.quantity = some pos.quantity ∧ o.status = .dryRun ∧
      ∃ book, s'.db.paper = some book ∧ f.symbol ∉ book.positions.keys := by
  obtain ⟨args, hticked⟩ := executeTick_paperTicked hpersisted hseed hdry hdone
  intro f hf
  have hfaithful : Faithful args.judge := by
    rcases hticked.judge with h | h
    · exact h ▸ deterministicJudge_faithful
    · exact h ▸ hjudge
  have hh : tickHoldings args =
      .ok ((s.paperRun cfg t).book.toSyntheticHoldings (s.paperRun cfg t).marks) := by
    unfold tickHoldings
    rw [hticked.holdings]
  obtain ⟨f', o, hsymbol, hsells, hone⟩ := runTick_forced_order hh
    (hticked.sellable hcandles) (hticked.now.symm ▸ hopen) hkill (hticked.freshIds hnew hinj)
    hfaithful hticked.ran (hticked.forced.symm ▸ hf)
  obtain ⟨pos, hpos, hqty⟩ := mem_paperExits hf
  obtain ⟨item, candles, last, hitem, -, hreq, -⟩ := hsells.sale
  -- what is sold is what the account shows, which is what the book holds
  have hall : o.request.quantity = some pos.quantity := by
    obtain ⟨item', hitem', hquantity⟩ := @heldItem_synthetic _ (s.paperRun cfg t).marks _ _ hpos
    rw [← hsymbol] at hitem'
    have hsame : item = item' := Option.some.inj (hitem.symm.trans hitem')
    rw [hreq, ← hquantity, ← hsame]
    rfl
  have hstatus := hsells.intended hdry
  refine ⟨pos, o, hpos, hone, by rw [hreq]; rfl, hall, hstatus, _, hticked.paper, ?_⟩
  rw [stored_keys, fillOrders_book, ← Dict.get?_eq_none]
  exact afterFills_sold cfg.entryGate.cost (s.paperRun cfg t).book t.now hone hstatus hpos hqty
    (by rw [hreq]; rfl) (by rw [hreq]; rfl) hall

namespace Sample

/-- A paper book of ten shares that have lost half of their cost. -/
def losing : Server where
  svc := {}
  db := { paper := some {
    cash := 100000
    positions := Dict.ofList [("000660", { quantity := 10, avgCost := 1000 })] } }

/-- A paper tick that sees a price of half the cost. -/
def lossTick : TickInput :=
  { tickInput "" noHoldings returning with
    prices := fun _ => .ok [("000660", 500)]
    stamps := countedStamps }

end Sample

/-- The shares are sold, all ten. -/
theorem forced_exits_settle_sample :
    ∃ tickId engine result report summary s',
      executeTick Sample.paperSettings Sample.lossTick Sample.losing =
          (.ok (.done tickId engine result report summary), s') ∧
        ∃ f ∈ Sample.losing.paperExits Sample.paperSettings Sample.lossTick, ∃ o,
          result.orders.filter (fun o => o.request.symbol = f.symbol) = [o] ∧
            o.request.quantity = some 10 ∧
            ∃ book, s'.db.paper = some book ∧ f.symbol ∉ book.positions.keys := by
  have hdone : Completes Sample.paperSettings Sample.lossTick Sample.losing = true := by
    decide +kernel
  obtain ⟨tickId, engine, result, report, summary, s', hdone⟩ := completes_iff.mp hdone
  refine ⟨tickId, engine, result, report, summary, s', hdone, ?_⟩
  obtain ⟨f, hf, hsymbol⟩ : ∃ f ∈ Sample.losing.paperExits Sample.paperSettings Sample.lossTick,
      f.symbol = "000660" := by decide +kernel
  refine ⟨f, hf, ?_⟩
  obtain ⟨pos, o, hpos, hone, -, hquantity, -, hgone⟩ := forced_exits_settle Sample.paperSettings
    Sample.lossTick Sample.losing rfl (by decide +kernel) rfl Sample.exiting_open rfl
    (by rintro ctx d ⟨⟩; rfl)
    (by
      rintro toss ⟨⟩ symbol -
      exact ⟨List.replicate 5 ⟨1000, 1000⟩, ⟨1000, 1000⟩, rfl, by norm_num⟩)
    (fun _ => rfl)
    (@injective_of_fresh Sample.sellingOut {} (Sample.freshIds_counted rfl rfl)) hdone f hf
  rw [hsymbol] at hpos
  cases hpos
  exact ⟨o, hone, hquantity, hgone⟩

end AutoTrade
