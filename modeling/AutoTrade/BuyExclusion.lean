/-
AutoTrade/BuyExclusion.lean

The conservative exclusion and the buys of a tick.

A symbol is barred when the stock master excludes it or the broker warns about
it.  A symbol that is not held comes to the order loop through the screen only,
and the screen takes no barred symbol (`screenedIn_of_new`).  A held symbol
comes past both filters, so that it can be sold; the loop then follows the judge
in either direction.  So every buy is one that the judge answers
(`settled_buy`), and the tick keeps the exclusion where the judge answers no buy
of a held symbol that is barred (`buys_unbarred`).
-/
import AutoTrade.Candidates

namespace AutoTrade

/-- The stock master excludes a symbol. -/
def excludes (stocks : Dict Symbol Stock) (sym : Symbol) : Bool :=
  match stocks.get? sym with
  | none => false
  | some stock => !(evaluateStock stock).eligible

/-- A symbol that the exclusion speaks against: by the stock master or by the
broker's warnings. -/
def barred (toss : Toss) (stocks : Dict Symbol Stock) (sym : Symbol) : Bool :=
  excludes stocks sym || warns toss sym

/-! ### New symbols -/

/-- What a symbol that is not held has come through to be a candidate. -/
structure ScreenedIn (toss : Toss) (cfg : ScreenConfig) (stocks : Dict Symbol Stock)
    (sym : Symbol) : Prop where
  included : ∃ stock, stocks.get? sym = some stock ∧ (evaluateStock stock).eligible = true
  passed : ∃ candles, toss.getCandles sym = .ok candles ∧
    (screenSymbol sym candles cfg).passed = true
  unwarned : warns toss sym = false

theorem ScreenedIn.unbarred {toss : Toss} {cfg : ScreenConfig} {stocks : Dict Symbol Stock}
    {sym : Symbol} (h : ScreenedIn toss cfg stocks sym) : barred toss stocks sym = false := by
  obtain ⟨stock, hstock, heligible⟩ := h.included
  unfold barred excludes
  simp only [hstock, heligible, h.unwarned, Bool.not_true, Bool.or_self]

/-- An eligible symbol that is not held is in the stock master, and not excluded. -/
theorem included_of_eligible {master : List Stock} {symbols held : List Symbol} {sym : Symbol}
    (h : sym ∈ eligibleSymbols (stocksBy master) symbols held) (hnew : sym ∉ held) :
    ∃ stock, (stocksBy master).get? sym = some stock ∧ (evaluateStock stock).eligible = true := by
  rw [eligibleSymbols, List.mem_unique, List.mem_append] at h
  obtain ⟨stock, hstock, rfl⟩ := List.mem_map.mp (h.resolve_right hnew)
  obtain ⟨hmem, heligible⟩ := mem_partitionUniverse.mp hstock
  obtain ⟨key, -, hkey⟩ := List.mem_filterMap.mp hmem
  -- the master is keyed by the symbol of the stock
  have hsym : stock.symbol = key := by
    obtain ⟨s, -, hs⟩ := List.mem_map.mp (Dict.mem_of_ofList_get? hkey)
    obtain ⟨hk, rfl⟩ := Prod.mk.inj hs
    exact hk
  exact ⟨stock, hsym ▸ hkey, heligible⟩

section Gathered

variable {args : TickArgs} {g : Gathered}

/-- **A candidate that is not held is on the watchlist and has come through the
filters.** -/
theorem screenedIn_of_new (hg : gather args = .ok (some g)) {c : CandidateContext}
    (hc : c ∈ tickCandidates args g) (hnew : c.symbol ∉ heldSymbols g.holdings) :
    c.symbol ∈ args.watchlist ∧ ScreenedIn args.toss args.screenConfig g.stocks c.symbol := by
  have hmem : c.symbol ∈ (tickCandidates args g).map CandidateContext.symbol :=
    List.mem_map_of_mem hc
  rw [tickCandidates_symbols, mem_candidateContexts_symbols] at hmem
  obtain ⟨r, hr, hsym⟩ := List.mem_map.mp (hmem.resolve_right hnew)
  obtain ⟨holdings, master, screening, -, -, hs, rfl⟩ := gather_eq_some hg
  obtain ⟨hbest, hwarned⟩ := List.mem_filter.mp hr
  obtain ⟨-, hlooked, heligible, candles, hcandles, hresult, hpassed⟩ :=
    screenLoop_buyResults hs r (compress_subset hbest)
  rw [hsym] at hlooked heligible hcandles hresult hwarned
  have hwatched : c.symbol ∈ args.watchlist := by
    rw [tickSymbols, List.mem_unique, List.mem_append] at hlooked
    exact hlooked.resolve_right hnew
  rw [Bool.not_eq_true'] at hwarned
  exact ⟨hwatched, included_of_eligible heligible hnew, ⟨candles, hcandles, hresult ▸ hpassed⟩,
    hwarned⟩

end Gathered

/-! ### What the judge answers -/

/-- The judge answers a buy of a symbol, on a context that shows what the account and
the broker say. -/
def JudgedBuy (toss : Toss) (cfg : ScreenConfig) (judge : Judge) (held : List Symbol)
    (sym : Symbol) : Prop :=
  ∃ ctx d, Shown toss cfg held ctx ∧ judge ctx = .ok d ∧ d.action = .buy ∧ d.symbol = sym

/-- A decision to buy is a buy that the judge answers. -/
theorem judgedBuy_of_decision {args : TickArgs} {g : Gathered} {decisions : List Decision}
    (hg : gather args = .ok (some g))
    (hd : deliberate args (tickCandidates args g) = .ok decisions) {d : Decision}
    (hmem : d ∈ decisions) (hbuy : d.action = .buy) :
    JudgedBuy args.toss args.screenConfig args.judge (heldSymbols g.holdings) d.symbol := by
  rcases mem_deliberate hd hmem with hsell | ⟨c, hc, note, d₀, hanswer, rfl⟩
  · rw [hsell] at hbuy
    cases hbuy
  · rw [pricedDecision_action] at hbuy
    rw [pricedDecision_symbol]
    -- the note is not part of what is shown
    have hshown := candidate_shown hg (judgedCandidates_subset args _ hc)
    exact ⟨{ c with research := note }, d₀, ⟨hshown.alreadyHeld, hshown.indicators⟩, hanswer,
      hbuy, rfl⟩

/-- **Where a buy of a tick comes from**: the judge, on a symbol that is held, or that
is on the watchlist and has come through the filters. -/
theorem settled_buy {args : TickArgs} {svc : OrderService} {g : Gathered}
    (hg : gather args = .ok (some g)) :
    ∀ o ∈ settledIn args svc, o.request.side = .buy →
      JudgedBuy args.toss args.screenConfig args.judge (heldSymbols g.holdings)
          o.request.symbol ∧
        (o.request.symbol ∉ heldSymbols g.holdings → o.request.symbol ∈ args.watchlist ∧
          ScreenedIn args.toss args.screenConfig g.stocks o.request.symbol) := by
  refine settledIn_forall ?_
  intro g' decisions hg' hd d hmem orders s order res s' hsame hsub hdup hbuy
  rw [hg] at hg'
  cases hg'
  cases hsub with
  | duplicate hctx hgate halloc hseen => exact absurd rfl hdup
  | settled hctx hgate halloc hseen hs =>
    rw [hs.answers.2.1] at hbuy ⊢
    obtain ⟨hcandidate, hsym⟩ := get?_contextsBy.mp hctx
    obtain ⟨p, -, ⟨-, -, q, -, -, rfl⟩ | ⟨haction, c, -, -, rfl⟩⟩ := allocate_cases halloc
    · cases hbuy
    · refine ⟨?_, screenedIn_of_new hg hcandidate⟩
      have hjudged := judgedBuy_of_decision hg hd hmem haction
      rwa [← hsym] at hjudged

/-! ### The exclusion over a tick -/

/-- The judge answers no buy of a held symbol that is barred. -/
def BuysNoBarred (args : TickArgs) : Prop :=
  ∀ holdings master, tickHoldings args = .ok holdings →
    args.toss.getStocks (tickSymbols args holdings) = .ok master →
    ∀ sym ∈ heldSymbols holdings, barred args.toss (stocksBy master) sym = true →
      ¬ JudgedBuy args.toss args.screenConfig args.judge (heldSymbols holdings) sym

/-- **The exclusion over a tick.**  Where the judge answers no buy of a held symbol
that is barred, no order of the tick buys a symbol that the stock master excludes or
the broker warns about. -/
theorem buys_unbarred (args : TickArgs) (svc : OrderService) (h : BuysNoBarred args) :
    ∀ g, gather args = .ok (some g) → ∀ o ∈ settledIn args svc, o.request.side = .buy →
      barred args.toss g.stocks o.request.symbol = false := by
  intro g hg o ho hbuy
  obtain ⟨hjudged, hnew⟩ := settled_buy hg o ho hbuy
  by_cases hheld : o.request.symbol ∈ heldSymbols g.holdings
  · obtain ⟨holdings, master, screening, hh, hm, -, rfl⟩ := gather_eq_some hg
    by_contra hbarred
    exact h holdings master hh hm _ hheld (Bool.not_eq_false _ ▸ hbarred) hjudged
  · exact (hnew hheld).2.unbarred

namespace Sample

/-- Ten shares in liquidation trading are held. -/
def inLiquidation : Holdings := { marketValue := .ofKrw 10000, items := [holding "005930" 10] }

/-- A tick on them, with the stocks of `watchlist` to buy. -/
def heldInLiquidation (judge : Judge) (watchlist : List Symbol) : TickArgs :=
  { args 1000000 inLiquidation watchlist with
    judge
    toss := { flatToss 1000000 inLiquidation with
      getStocks := fun symbols => .ok (symbols.map fun s =>
        { symbol := s, name := s,
          koreanMarketDetail := some ⟨decide (s = "005930"), false⟩ }) } }

/-- Whether the tick gathers something, with the holding barred. -/
def gathersBarred (args : TickArgs) : Bool :=
  match gather args with
  | .ok (some g) => barred args.toss g.stocks "005930"
  | _ => false

theorem gathered_barred (args : TickArgs) (h : gathersBarred args = true) :
    ∃ g, gather args = .ok (some g) ∧ barred args.toss g.stocks "005930" = true := by
  unfold gathersBarred at h
  split at h
  · next g hg => exact ⟨g, hg, h⟩
  · cases h

end Sample

/-- The judge sells the barred holding and buys another stock. -/
theorem buys_unbarred_sample :
    ∃ g, gather (Sample.heldInLiquidation Sample.turnOver ["000660"]) = .ok (some g) ∧
      barred (Sample.heldInLiquidation Sample.turnOver ["000660"]).toss g.stocks "005930" = true ∧
      ∀ o ∈ settledIn (Sample.heldInLiquidation Sample.turnOver ["000660"]) {},
        o.request.side = .buy →
          barred (Sample.heldInLiquidation Sample.turnOver ["000660"]).toss g.stocks
            o.request.symbol = false := by
  obtain ⟨g, hg, hbarred⟩ := Sample.gathered_barred
    (Sample.heldInLiquidation Sample.turnOver ["000660"]) (by decide +kernel)
  refine ⟨g, hg, hbarred, buys_unbarred _ {} ?_ g hg⟩
  -- it sells whatever is shown as held
  rintro holdings master hh - sym hheld - ⟨ctx, d, hshown, hjudge, hbuy, rfl⟩
  obtain rfl : Sample.inLiquidation = holdings := Except.ok.inj hh
  obtain rfl : _ = d := Except.ok.inj hjudge
  have hheld' : ctx.alreadyHeld = true := hshown.alreadyHeld.trans (decide_eq_true hheld)
  simp [hheld'] at hbuy

/-- A held symbol in liquidation trading is bought. -/
theorem barred_bought :
    ¬ ∀ (args : TickArgs) (svc : OrderService) (g : Gathered), gather args = .ok (some g) →
      ∀ o ∈ settledIn args svc, o.request.side = .buy →
        barred args.toss g.stocks o.request.symbol = false := by
  intro h
  have hbuy : ∃ o ∈ settledIn (Sample.heldInLiquidation Sample.buyAll []) {},
      o.request.side = .buy ∧ o.status = .dryRun ∧ o.request.symbol = "005930" := by
    decide +kernel
  obtain ⟨g, hg, hbarred⟩ := Sample.gathered_barred
    (Sample.heldInLiquidation Sample.buyAll []) (by decide +kernel)
  obtain ⟨o, ho, hside, -, hsym⟩ := hbuy
  have hfree := h _ _ g hg o ho hside
  rw [hsym, hbarred] at hfree
  cases hfree

end AutoTrade
