/-
AutoTrade/Candidates.lean

What the judge and the order loop see of a symbol.

The candidates of a tick are the symbols that passed the screen and the held
ones, each once; each shows the indicators of its own candles (`candidate_shown`),
and `heldCandidate` is what a held symbol shows, its whole quantity and the last
close of its own candles, whatever else the tick has gathered.  `mem_deliberate`
says where a decision comes from, and `gather_raises` and `deliberate_raises` which
calls can cut a tick before its first order.
-/
import AutoTrade.Pipeline
import AutoTrade.Lib.Fallible

namespace AutoTrade

open Fallible

variable {args : TickArgs} {g : Gathered}

/-! ### The account in the contexts -/

section Told

variable (args : TickArgs) (c : CandidateContext)

@[simp] theorem told_symbol : (told args c).symbol = c.symbol := by
  unfold told
  rcases tickRegime args with - | regime <;> rfl

@[simp] theorem told_indicators : (told args c).indicators = c.indicators := by
  unfold told
  rcases tickRegime args with - | regime <;> rfl

@[simp] theorem told_alreadyHeld : (told args c).alreadyHeld = c.alreadyHeld := by
  unfold told
  rcases tickRegime args with - | regime <;> rfl

@[simp] theorem told_heldQuantity : (told args c).heldQuantity = c.heldQuantity := by
  unfold told
  rcases tickRegime args with - | regime <;> rfl

@[simp] theorem told_cash : (told args c).cashBuyingPowerKrw = c.cashBuyingPowerKrw := by
  unfold told
  rcases tickRegime args with - | regime <;> rfl

@[simp] theorem told_portfolioValue : (told args c).portfolioValueKrw = c.portfolioValueKrw := by
  unfold told
  rcases tickRegime args with - | regime <;> rfl

end Told

theorem tickCandidates_symbols (args : TickArgs) (g : Gathered) :
    (tickCandidates args g).map CandidateContext.symbol =
      (candidateContexts g.buyResults g.stocks g.holdings g.screening.holdingIndicators
        g.screening.recent g.cash).map CandidateContext.symbol := by
  unfold tickCandidates
  rw [List.map_map]
  apply List.map_congr_left
  intro c _
  exact told_symbol args c

/-- One candidate a symbol. -/
theorem tickCandidates_nodup (args : TickArgs) (g : Gathered) :
    ((tickCandidates args g).map CandidateContext.symbol).Nodup := by
  rw [tickCandidates_symbols]
  exact candidateContexts_nodup

/-- A held symbol is a candidate. -/
theorem held_mem_tickCandidates (args : TickArgs) {sym : Symbol}
    (h : sym ∈ heldSymbols g.holdings) :
    sym ∈ (tickCandidates args g).map CandidateContext.symbol := by
  rw [tickCandidates_symbols]
  exact mem_candidateContexts_symbols.mpr (Or.inr h)

/-- Each context is sized against the cash of the whole tick. -/
theorem cash_of_mem_tickCandidates {c : CandidateContext} (h : c ∈ tickCandidates args g) :
    c.cashBuyingPowerKrw = g.cash := by
  obtain ⟨c₀, hc₀, rfl⟩ := List.mem_map.mp h
  obtain ⟨sym, -, rfl⟩ := List.mem_map.mp hc₀
  rw [told_cash]

/-- Each context is sized against the positions of the whole tick. -/
theorem portfolio_of_mem_tickCandidates {c : CandidateContext} (h : c ∈ tickCandidates args g) :
    c.portfolioValueKrw = some g.holdings.marketValue.krw := by
  obtain ⟨c₀, hc₀, rfl⟩ := List.mem_map.mp h
  obtain ⟨sym, -, rfl⟩ := List.mem_map.mp hc₀
  rw [told_portfolioValue]

theorem get?_contextsBy {sym : Symbol} {c : CandidateContext} :
    (contextsBy (tickCandidates args g)).get? sym = some c ↔
      c ∈ tickCandidates args g ∧ c.symbol = sym := by
  have hkeys : ((tickCandidates args g).map fun c => (c.symbol, c)).map Prod.fst =
      (tickCandidates args g).map CandidateContext.symbol := by
    rw [List.map_map]
    rfl
  rw [contextsBy, Dict.get?_ofList (hkeys ▸ tickCandidates_nodup args g), List.mem_map]
  constructor
  · rintro ⟨c', hc', heq⟩
    obtain ⟨hsym, rfl⟩ := Prod.mk.inj heq
    exact ⟨hc', hsym⟩
  · rintro ⟨hc, rfl⟩
    exact ⟨c, hc, rfl⟩

/-! ### The candle loop -/

section Screen

variable {held : List Symbol} {acc acc' : Screening} {sym : Symbol}

/-- A round of the candle loop raises exactly when its request does. -/
theorem screenStep_raises (acc : Screening) (sym : Symbol) :
    Raises (screenStep args held acc sym) ↔ Raises (args.toss.getCandles sym) := by
  unfold screenStep
  exact raises_bind_pure

theorem screenStep_ok (h : screenStep args held acc sym = .ok acc') :
    ∃ candles, args.toss.getCandles sym = .ok candles ∧
      acc' = screened args held acc sym candles := by
  obtain ⟨candles, hc, h⟩ := bind_eq_ok.mp h
  cases h
  exact ⟨candles, hc, rfl⟩

variable {holdings : Holdings} {stocks : Dict Symbol Stock} {screening : Screening}

/-- After the candle loop a held symbol has the indicators of its candles. -/
theorem screenLoop_held (h : screenLoop args holdings stocks = .ok screening)
    (hsym : sym ∈ heldSymbols holdings) {candles : List Candle}
    (hc : args.toss.getCandles sym = .ok candles) :
    screening.holdingIndicators.get? sym =
      some (screenSymbol sym candles args.screenConfig).indicators := by
  have hall := foldlM_forall (Q := fun sym (acc : Screening) => sym ∈ heldSymbols holdings →
      ∀ candles, args.toss.getCandles sym = .ok candles →
        acc.holdingIndicators.get? sym =
          some (screenSymbol sym candles args.screenConfig).indicators) ?_ ?_ h
  · refine hall sym ?_ hsym candles hc
    have hmem : sym ∈ tickSymbols args holdings := by
      rw [tickSymbols, List.mem_unique]
      exact List.mem_append_right _ hsym
    refine List.mem_filter.mpr ⟨hmem, decide_eq_true ?_⟩
    rw [eligibleSymbols, List.mem_unique]
    exact List.mem_append_right _ hsym
  · intro acc x acc' hx hheld candles hcandles
    obtain ⟨candles', hc', rfl⟩ := screenStep_ok hx
    rw [hcandles] at hc'
    cases hc'
    simp only [screened, if_pos hheld, Dict.get?_set_self]
  -- a later round of the same symbol sets the same indicators
  · intro acc x acc' y hy hx hheld candles hcandles
    obtain ⟨candles', hc', rfl⟩ := screenStep_ok hx
    have hkept := hy hheld candles hcandles
    by_cases hx : x ∈ heldSymbols holdings
    · simp only [screened, if_pos hx]
      rw [Dict.get?_set]
      split
      · next heq =>
        subst heq
        rw [hcandles] at hc'
        cases hc'
        rfl
      · exact hkept
    · simp only [screened, if_neg hx]
      exact hkept

/-- After the candle loop every symbol that is looked at has its candles. -/
theorem screenLoop_candles (h : screenLoop args holdings stocks = .ok screening)
    (hsym : sym ∈ tickSymbols args holdings)
    (heligible : sym ∈ eligibleSymbols stocks (tickSymbols args holdings) (heldSymbols holdings)) :
    ∃ candles, args.toss.getCandles sym = .ok candles := by
  have hall := foldlM_forall (Q := fun sym (_ : Screening) =>
    ∃ candles, args.toss.getCandles sym = .ok candles) ?_ (fun _ _ _ _ hy _ => hy) h
  · exact hall sym (List.mem_filter.mpr ⟨hsym, decide_eq_true heligible⟩)
  · intro acc x acc' hx
    obtain ⟨candles, hc, -⟩ := screenStep_ok hx
    exact ⟨candles, hc⟩

/-- Only symbols that are looked at, eligible and not held are screened as buys, each
on its own candles. -/
theorem screenLoop_buyResults (h : screenLoop args holdings stocks = .ok screening) :
    ∀ r ∈ screening.buyResults, r.symbol ∉ heldSymbols holdings ∧
      r.symbol ∈ tickSymbols args holdings ∧
      r.symbol ∈ eligibleSymbols stocks (tickSymbols args holdings) (heldSymbols holdings) ∧
      ∃ candles, args.toss.getCandles r.symbol = .ok candles ∧
        r = screenSymbol r.symbol candles args.screenConfig ∧ r.passed = true := by
  refine foldlM_invariant (I := fun acc : Screening =>
    ∀ r ∈ acc.buyResults, r.symbol ∉ heldSymbols holdings ∧
      r.symbol ∈ tickSymbols args holdings ∧
      r.symbol ∈ eligibleSymbols stocks (tickSymbols args holdings) (heldSymbols holdings) ∧
      ∃ candles, args.toss.getCandles r.symbol = .ok candles ∧
        r = screenSymbol r.symbol candles args.screenConfig ∧ r.passed = true) ?_ ?_ h
  · intro acc x acc' hmem hacc hx
    obtain ⟨candles, hc, rfl⟩ := screenStep_ok hx
    obtain ⟨hlooked, heligible⟩ := List.mem_filter.mp hmem
    intro r hr
    simp only [screened] at hr
    split_ifs at hr with hnew
    · rw [List.mem_append, List.mem_singleton] at hr
      rcases hr with hr | rfl
      · exact hacc r hr
      · exact ⟨hnew.1, hlooked, of_decide_eq_true heligible, candles, hc, rfl, hnew.2⟩
    · exact hacc r hr
  · intro r hr
    cases hr

end Screen

/-- The best results are results. -/
theorem compress_subset {n : Option ℤ} {results : List ScreenResult} :
    compress n results ⊆ results := by
  intro r hr
  unfold compress at hr
  split at hr
  · exact hr
  · split_ifs at hr
    · exact (List.perm_insertionSort _ _).subset ((slicePrefix_sublist _ _).subset hr)
    · exact hr

/-- **What a held symbol shows**: its own quantity and the last close of its own
candles. -/
theorem heldCandidate (h : gather args = .ok (some g)) {sym : Symbol} {item : HoldingItem}
    (hitem : (Dict.ofList (g.holdings.items.map fun i => (i.symbol, i))).get? sym = some item)
    {candles : List Candle} {last : Candle}
    (hc : args.toss.getCandles sym = .ok (candles ++ [last])) :
    ∃ ctx ind, (contextsBy (tickCandidates args g)).get? sym = some ctx ∧ ctx.symbol = sym ∧
      ctx.alreadyHeld = true ∧ ctx.heldQuantity = some item.quantity ∧
      ctx.indicators = some ind ∧ ind.lastClose = last.closePrice := by
  have hheld : sym ∈ heldSymbols g.holdings := by
    have hmem := Dict.mem_of_ofList_get? hitem
    obtain ⟨i, hi, heq⟩ := List.mem_map.mp hmem
    rw [← (Prod.mk.inj heq).1]
    exact List.mem_map_of_mem hi
  -- its context, before it is told the regime
  obtain ⟨ctx, hctx, hsym⟩ := List.mem_map.mp (held_mem_tickCandidates args hheld)
  obtain ⟨c₀, hc₀, rfl⟩ := List.mem_map.mp hctx
  obtain ⟨sym', -, rfl⟩ := List.mem_map.mp hc₀
  rw [told_symbol] at hsym
  subst hsym
  obtain ⟨holdings, master, screening, hh, hm, hs, rfl⟩ := gather_eq_some h
  have hind := screenLoop_held hs hheld hc
  -- no result of the screen is about a held symbol, so the indicators are its own
  have hnone : (Dict.ofList ((gathered args holdings (stocksBy master) screening).buyResults.map
      fun r => (r.symbol, (r.indicators, r.score)))).get? sym' = none := by
    rw [Dict.get?_eq_none, Dict.mem_keys_ofList, List.map_map]
    intro hmem
    obtain ⟨r, hr, hrsym⟩ := List.mem_map.mp hmem
    have hr' : r ∈ screening.buyResults := compress_subset (List.mem_filter.mp hr).1
    have hrsym' : r.symbol = sym' := hrsym
    exact (screenLoop_buyResults hs r hr').1 (hrsym' ▸ hheld)
  refine ⟨_, _, get?_contextsBy.mpr ⟨hctx, told_symbol _ _⟩, told_symbol _ _, ?_, ?_, ?_,
    lastClose_concat sym' candles last args.screenConfig⟩
  · rw [told_alreadyHeld]
    show Option.isSome _ = true
    rw [hitem]
    rfl
  · rw [told_heldQuantity]
    show Option.map _ _ = _
    rw [hitem]
    rfl
  · rw [told_indicators]
    simp only [hnone]
    exact hind

/-- The context shows of its symbol what the account and the broker say: whether it is
held, and the indicators of its candles. -/
structure Shown (toss : Toss) (cfg : ScreenConfig) (held : List Symbol) (c : CandidateContext) :
    Prop where
  alreadyHeld : c.alreadyHeld = decide (c.symbol ∈ held)
  indicators : ∃ candles, toss.getCandles c.symbol = .ok candles ∧
    c.indicators = some (screenSymbol c.symbol candles cfg).indicators

/-- **Each candidate is shown as the account and the broker say.** -/
theorem candidate_shown (h : gather args = .ok (some g)) {c : CandidateContext}
    (hc : c ∈ tickCandidates args g) :
    Shown args.toss args.screenConfig (heldSymbols g.holdings) c := by
  have hsym := List.mem_map_of_mem (f := CandidateContext.symbol) hc
  rw [tickCandidates_symbols, mem_candidateContexts_symbols] at hsym
  obtain ⟨c₀, hc₀, rfl⟩ := List.mem_map.mp hc
  obtain ⟨sym, -, rfl⟩ := List.mem_map.mp hc₀
  rw [told_symbol] at hsym
  refine ⟨?_, ?_⟩
  · rw [told_symbol, told_alreadyHeld]
    show Option.isSome _ = _
    rw [Bool.eq_iff_iff, decide_eq_true_iff, Dict.get?_isSome, Dict.mem_keys_ofList, List.map_map]
    rfl
  rw [told_symbol, told_indicators]
  obtain ⟨holdings, master, screening, hh, hm, hs, rfl⟩ := gather_eq_some h
  rcases hby : (Dict.ofList ((gathered args holdings (stocksBy master) screening).buyResults.map
      fun r => (r.symbol, (r.indicators, r.score)))).get? sym with - | ⟨ind, sc⟩
  · -- what the screen has no result of is held
    have hheld : sym ∈ heldSymbols holdings := by
      refine hsym.resolve_left fun hresult => ?_
      obtain ⟨r, hr, hrsym⟩ := List.mem_map.mp hresult
      rw [Dict.get?_eq_none, Dict.mem_keys_ofList, List.map_map] at hby
      exact hby (List.mem_map.mpr ⟨r, hr, hrsym⟩)
    have hlooked : sym ∈ tickSymbols args holdings := by
      rw [tickSymbols, List.mem_unique]
      exact List.mem_append_right _ hheld
    have heligible : sym ∈ eligibleSymbols (stocksBy master) (tickSymbols args holdings)
        (heldSymbols holdings) := by
      rw [eligibleSymbols, List.mem_unique]
      exact List.mem_append_right _ hheld
    obtain ⟨candles, hcandles⟩ := screenLoop_candles hs hlooked heligible
    refine ⟨candles, hcandles, ?_⟩
    simp only [hby]
    exact screenLoop_held hs hheld hcandles
  -- and a result that passed was computed from the candles of the symbol
  · obtain ⟨r, hr, heq⟩ := List.mem_map.mp (Dict.mem_of_ofList_get? hby)
    obtain ⟨rfl, hpair⟩ := Prod.mk.inj heq
    obtain ⟨rfl, -⟩ := Prod.mk.inj hpair
    have hr' : r ∈ screening.buyResults := compress_subset (List.mem_filter.mp hr).1
    obtain ⟨-, -, -, candles, hcandles, hresult, -⟩ := screenLoop_buyResults hs r hr'
    refine ⟨candles, hcandles, ?_⟩
    simp only [hby]
    exact congrArg (fun r => some (ScreenResult.indicators r)) hresult

/-! ### The context of an order -/

section GuardContext

variable (args : TickArgs) (g : Gathered) (killSwitch : Bool)

@[simp] theorem baseContext_killSwitch :
    (baseContext args g killSwitch).killSwitch = killSwitch := by
  unfold baseContext
  rcases g.cash with - | cash <;> rfl

@[simp] theorem baseContext_now : (baseContext args g killSwitch).now = args.now := by
  unfold baseContext
  rcases g.cash with - | cash <;> rfl

@[simp] theorem baseContext_heldSymbols :
    (baseContext args g killSwitch).heldSymbols = heldSymbols g.holdings := by
  unfold baseContext
  rcases g.cash with - | cash <;> rfl

@[simp] theorem baseContext_openPositions :
    (baseContext args g killSwitch).openPositions = g.holdings.items.length := by
  unfold baseContext
  rcases g.cash with - | cash <;> rfl

end GuardContext

/-! ### Where decisions come from -/

section Priced

variable (contexts : Dict Symbol CandidateContext) (d : Decision)

@[simp] theorem pricedDecision_action : (pricedDecision contexts d).action = d.action := by
  unfold pricedDecision
  split <;> rfl

@[simp] theorem pricedDecision_symbol : (pricedDecision contexts d).symbol = d.symbol := by
  unfold pricedDecision
  split <;> rfl

@[simp] theorem pricedDecision_confidence :
    (pricedDecision contexts d).confidence = d.confidence := by
  unfold pricedDecision
  split <;> rfl

end Priced

/-- The decisions of a tick: the forced sales, then the answers of the judge. -/
theorem deliberate_ok {candidates : List CandidateContext} {decisions : List Decision}
    (h : deliberate args candidates = .ok decisions) :
    ∃ noted answers, notedCandidates args candidates = .ok noted ∧
      noted.mapM args.judge = .ok answers ∧
      decisions = (forcedDecisions args candidates).map (pricedDecision (contextsBy candidates)) ++
        answers.map (pricedDecision (contextsBy candidates)) := by
  obtain ⟨noted, hn, h⟩ := bind_eq_ok.mp h
  obtain ⟨answers, ha, h⟩ := bind_eq_ok.mp h
  cases h
  exact ⟨noted, answers, hn, ha, List.map_append⟩

theorem targets_subset {α : Type*} {topN : Option ℤ} {xs : List α} : targets topN xs ⊆ xs := by
  rcases topN with - | n
  · exact List.Subset.refl xs
  · exact (slicePrefix_sublist n xs).subset

/-- The research adds nothing but a note to the candidates that the judge is asked
about. -/
theorem mem_notedCandidates {candidates noted : List CandidateContext}
    (h : notedCandidates args candidates = .ok noted) {c : CandidateContext} (hc : c ∈ noted) :
    ∃ c₀ ∈ judgedCandidates args candidates, c = { c₀ with research := c.research } := by
  unfold notedCandidates at h
  rcases hprovider : args.research with - | provider
  all_goals rw [hprovider] at h
  · cases h
    exact ⟨c, hc, rfl⟩
  · obtain ⟨researched, hr, h⟩ := bind_eq_ok.mp h
    cases h
    rcases List.mem_append.mp hc with hc | hc
    -- a researched candidate is one of the targets, with a note
    · obtain ⟨target, htarget, hnote⟩ := exists_of_mapM_ok hr hc
      obtain ⟨note, -, heq⟩ := bind_eq_ok.mp hnote
      cases heq
      exact ⟨target, targets_subset htarget, rfl⟩
    · exact ⟨c, List.mem_of_mem_drop hc, rfl⟩

/-- A decision is a sale, or what the judge answered on a candidate but for its
price. -/
theorem mem_deliberate {candidates : List CandidateContext} {decisions : List Decision}
    (h : deliberate args candidates = .ok decisions) {d : Decision} (hd : d ∈ decisions) :
    d.action = .sell ∨
      ∃ c ∈ judgedCandidates args candidates, ∃ note d₀,
        args.judge { c with research := note } = .ok d₀ ∧
          d = pricedDecision (contextsBy candidates) d₀ := by
  obtain ⟨noted, answers, hnoted, ha, rfl⟩ := deliberate_ok h
  rcases List.mem_append.mp hd with hd | hd
  · left
    obtain ⟨d₀, hd₀, rfl⟩ := List.mem_map.mp hd
    obtain ⟨f, -, rfl⟩ := List.mem_map.mp hd₀
    rw [pricedDecision_action]
  · right
    obtain ⟨d₀, hd₀, rfl⟩ := List.mem_map.mp hd
    obtain ⟨ctx, hctx, hjudge⟩ := exists_of_mapM_ok ha hd₀
    obtain ⟨c, hc, heq⟩ := mem_notedCandidates hnoted hctx
    exact ⟨c, hc, ctx.research, d₀, heq ▸ hjudge, rfl⟩

/-- The judge is asked about candidates. -/
theorem judgedCandidates_subset (args : TickArgs) (candidates : List CandidateContext) :
    judgedCandidates args candidates ⊆ candidates := fun _ h => (List.mem_filter.mp h).1

/-! ### What can cut a tick -/

/-- The broker cuts a tick that has a symbol to look at: the stock master, or
the candles of one of the eligible symbols. -/
theorem gather_raises {holdings : Holdings} (h : tickHoldings args = .ok holdings)
    (hsome : tickSymbols args holdings ≠ []) :
    Raises (gather args) ↔ Raises (args.toss.getStocks (tickSymbols args holdings)) ∨
      ∃ master, args.toss.getStocks (tickSymbols args holdings) = .ok master ∧
        ∃ sym ∈ (tickSymbols args holdings).filter
            (· ∈ eligibleSymbols (stocksBy master) (tickSymbols args holdings)
              (heldSymbols holdings)),
          Raises (args.toss.getCandles sym) := by
  have hgather : gather args = args.toss.getStocks (tickSymbols args holdings) >>= fun master =>
      screenLoop args holdings (stocksBy master) >>= fun screening =>
        pure (some (gathered args holdings (stocksBy master) screening)) := by
    have hempty : (tickSymbols args holdings).isEmpty = false :=
      List.isEmpty_eq_false_iff.mpr hsome
    unfold gather
    rw [h]
    simp only [bind, Except.bind, hempty, Bool.false_eq_true, if_false]
  rw [hgather, raises_bind]
  refine or_congr Iff.rfl (exists_congr fun master => and_congr Iff.rfl ?_)
  rw [raises_bind_pure, screenLoop, foldlM_raises fun acc sym => screenStep_raises acc sym]

/-- The research cuts a tick at one of the symbols it looks up. -/
theorem notedCandidates_raises {candidates : List CandidateContext} :
    Raises (notedCandidates args candidates) ↔
      ∃ provider, args.research = some provider ∧
        ∃ ctx ∈ targets args.researchTopN (judgedCandidates args candidates),
          Raises (provider ctx) := by
  unfold notedCandidates
  rcases args.research with - | provider
  · simp
  · simp only [Option.some.injEq, exists_eq_left']
    rw [researchCandidates, raises_bind_pure, mapM_raises]
    simp only [raises_bind_pure]

/-- The deliberation cuts a tick in the research, or at a candidate that the
judge raises on. -/
theorem deliberate_raises {candidates : List CandidateContext} :
    Raises (deliberate args candidates) ↔
      (∃ provider, args.research = some provider ∧
        ∃ ctx ∈ targets args.researchTopN (judgedCandidates args candidates),
          Raises (provider ctx)) ∨
      ∃ noted, notedCandidates args candidates = .ok noted ∧
        ∃ ctx ∈ noted, Raises (args.judge ctx) := by
  rw [deliberate, raises_bind, notedCandidates_raises]
  refine or_congr Iff.rfl (exists_congr fun noted => and_congr Iff.rfl ?_)
  rw [raises_bind_pure, decideCandidates, targets, mapM_raises]

end AutoTrade
