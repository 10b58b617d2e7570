/-
AutoTrade/TickLimits.lean

The limits of one tick.

The contexts of a tick are built before its first order, and the order loop
refreshes the day's buys only.  So the daily cap holds of all its buys together,
while the cash (`cash_commitment`) is a limit on each buy; and the number of
positions is kept (`positions_within`) where the account is at its limit before the
tick, or the symbols that may be bought anew (`Buyable`) fit in the room left.
-/
import AutoTrade.BuyExclusion
import AutoTrade.DailyCap
import Mathlib.Data.Finset.Card

namespace AutoTrade

/-! ### The cash -/

/-- What the accepted sales among some results bring in together. -/
def acceptedSellNotional (rs : List OrderResult) : ℚ :=
  ((rs.filter fun r => r.request.side = .sell ∧ r.status.accepted).map
    fun r => r.request.notional).sum

/-- **One buy of a tick costs at most the cash.** -/
theorem acceptedBuy_le_cash {args : TickArgs} {svc : OrderService} {cash : ℚ}
    (hcash : tickCash args = some cash)
    (hjudge : ∀ ctx d c, args.judge ctx = .ok d → d.confidence = .num c → 0 ≤ c ∧ c ≤ 1) :
    ∀ o ∈ settledIn args svc, o.acceptedBuy → o.request.notional ≤ cash := by
  refine settledIn_forall ?_
  intro g decisions hg hd d hmem orders s order res s' hsame hsub hdup hbuy
  cases hsub with
  | duplicate hctx hgate halloc hseen => exact absurd rfl hdup
  | settled hctx hgate halloc hseen hs =>
    have hside : order.side = .buy := hs.answers.2.1 ▸ (OrderResult.acceptedBuy_iff.mp hbuy).1
    obtain ⟨p, hp, ⟨-, -, q, -, -, rfl⟩ | ⟨haction, conf, hnum, hqty, rfl⟩⟩ :=
      allocate_cases halloc
    · cases hside
    -- a decision to buy is the judge's, with the confidence it gave
    · have hconf : 0 ≤ conf ∧ conf ≤ 1 := by
        rcases mem_deliberate hd hmem with hsell | ⟨c, -, note, d₀, hd₀, rfl⟩
        · rw [hsell] at haction
          cases haction
        · rw [pricedDecision_confidence] at hnum
          exact hjudge _ d₀ conf hd₀ hnum
      have hceil := ceiling_pos hqty
      have hroom := (ceiling_le _ s.config p).2 cash
        ((cash_of_mem_tickCandidates (get?_contextsBy.mp hctx).1).trans
          ((gather_account hg).2.trans hcash))
      rw [hs.answers.2.1]
      exact (buyQuantity_mul_le (price_pos hp) hconf.1 hconf.2 hceil.le).trans hroom

/-- **What a tick commits of its cash.**  Each accepted buy costs at most the
cash, so `n` of them at most `n` times the cash; and together with the day's
buys before the tick they are within the daily cap.  Nothing is reserved for
the buys before one. -/
theorem cash_commitment (args : TickArgs) (svc : OrderService) (cash : ℚ)
    (hcash : tickCash args = some cash)
    (hjudge : ∀ ctx d c, args.judge ctx = .ok d → d.confidence = .num c → 0 ≤ c ∧ c ≤ 1) :
    (∀ o ∈ settledIn args svc, o.acceptedBuy → o.request.notional ≤ cash) ∧
      acceptedBuyNotional (settledIn args svc) ≤
        (settledIn args svc).countP OrderResult.acceptedBuy * cash ∧
      ((∃ o ∈ settledIn args svc, o.acceptedBuy) →
        args.dailyBuyUsedKrw + acceptedBuyNotional (settledIn args svc) ≤
          svc.config.dailyBuyCapKrw) := by
  have heach : ∀ o ∈ settledIn args svc, o.acceptedBuy → o.request.notional ≤ cash :=
    acceptedBuy_le_cash hcash hjudge
  refine ⟨heach, ?_, ?_⟩
  · have hsum : ∀ x ∈ ((settledIn args svc).filter OrderResult.acceptedBuy).map
        fun r => r.request.notional, x ≤ cash := by
      intro x hx
      obtain ⟨o, ho, rfl⟩ := List.mem_map.mp hx
      obtain ⟨hmem, hbuy⟩ := List.mem_filter.mp ho
      exact heach o hmem hbuy
    have hle := List.sum_le_card_nsmul _ cash hsum
    rw [List.length_map, nsmul_eq_mul, ← List.countP_eq_length_filter] at hle
    exact hle
  -- the running sum of the loop is what the last accepted buy has passed with
  · rintro ⟨o, ho, hbuy⟩
    obtain ⟨orders, -, hset, hcap⟩ := runTick_withinCap args svc
    have hsame : acceptedBuyNotional (settledIn args svc) = Posting.total (buyPostings orders) := by
      rw [total_buyPostings, hset]
      unfold acceptedBuyNotional
      rw [filter_acceptedBuy_newAnswers]
    rw [hsame]
    refine hcap.granted ?_
    intro hnil
    have hmem : o ∈ orders.filter OrderResult.acceptedBuy := by
      rw [← filter_acceptedBuy_newAnswers, ← hset]
      exact List.mem_filter.mpr ⟨ho, hbuy⟩
    have hnone : orders.filter OrderResult.acceptedBuy = [] := List.map_eq_nil_iff.mp hnil
    rw [hnone] at hmem
    cases hmem

/-- A tick with 100000 won of cash next to a holding of 1000000 won. -/
def Sample.shortOfCash (watchlist : List Symbol) : TickArgs :=
  Sample.args 100000
    { marketValue := .ofKrw 1000000, items := [Sample.holding "035720" 1000] } watchlist

theorem cash_commitment_sample :
    (∀ o ∈ settledIn (Sample.shortOfCash ["000660"]) {}, o.acceptedBuy →
        o.request.notional ≤ 100000) ∧
      acceptedBuyNotional (settledIn (Sample.shortOfCash ["000660"]) {}) ≤
        (settledIn (Sample.shortOfCash ["000660"]) {}).countP OrderResult.acceptedBuy * 100000 ∧
      ((∃ o ∈ settledIn (Sample.shortOfCash ["000660"]) {}, o.acceptedBuy) →
        0 + acceptedBuyNotional (settledIn (Sample.shortOfCash ["000660"]) {}) ≤ 500000) :=
  cash_commitment (Sample.shortOfCash ["000660"]) {} 100000 rfl (by
    rintro ctx d c ⟨⟩ ⟨⟩
    exact ⟨zero_le_one, le_refl _⟩)

/-- Two new symbols are each bought for all of the cash, and nothing is sold. -/
theorem cash_overcommitted :
    ¬ ∀ (args : TickArgs) (svc : OrderService) (cash : ℚ), tickCash args = some cash →
      0 ≤ cash →
      (∀ ctx d, args.judge ctx = .ok d → ∃ c, d.confidence = .num c ∧ 0 ≤ c ∧ c ≤ 1) →
      acceptedBuyNotional (settledIn args svc) ≤
        cash + acceptedSellNotional (settledIn args svc) := by
  intro h
  have hsample := h (Sample.shortOfCash ["000660", "005930"]) {} 100000 rfl (by norm_num) (by
    rintro ctx d ⟨⟩
    exact ⟨1, rfl, zero_le_one, le_refl _⟩)
  exact absurd hsample (by decide +kernel)

/-! ### The number of positions -/

/-- The symbols of the accepted buys among some results. -/
def boughtSymbols (rs : List OrderResult) : List Symbol :=
  (rs.filter OrderResult.acceptedBuy).map fun r => r.request.symbol

/-- The symbols held and those bought since. -/
def positions (held : List Symbol) (rs : List OrderResult) : Finset Symbol :=
  (held ++ boughtSymbols rs).toFinset

theorem positions_newAnswers (held : List Symbol) (rs : List OrderResult) :
    positions held (newAnswers rs) = positions held rs := by
  unfold positions boughtSymbols
  rw [filter_acceptedBuy_newAnswers]

theorem positions_concat (held : List Symbol) (rs : List OrderResult) (r : OrderResult) :
    positions held (rs ++ [r]) =
      if r.acceptedBuy then insert r.request.symbol (positions held rs)
      else positions held rs := by
  by_cases hbuy : r.acceptedBuy
  · have hsymbols : boughtSymbols (rs ++ [r]) = boughtSymbols rs ++ [r.request.symbol] := by
      simp [boughtSymbols, hbuy]
    rw [if_pos hbuy, positions, hsymbols, positions, ← List.append_assoc, List.toFinset_append,
      Finset.union_comm]
    rfl
  · have hsymbols : boughtSymbols (rs ++ [r]) = boughtSymbols rs := by
      simp [boughtSymbols, hbuy]
    rw [if_neg hbuy, positions, hsymbols, positions]

/-- A symbol that may be bought anew: it is on the watchlist and not held, comes
through the filters, and the judge answers a buy of it. -/
structure Buyable (toss : Toss) (cfg : ScreenConfig) (judge : Judge) (watchlist held : List Symbol)
    (sym : Symbol) : Prop where
  watched : sym ∈ watchlist
  new : sym ∉ held
  screenedIn : ∃ symbols master, toss.getStocks symbols = .ok master ∧
    ScreenedIn toss cfg (stocksBy master) sym
  judged : JudgedBuy toss cfg judge held sym

/-- There is no room left, so that every new symbol is turned down; or the symbols that
may be bought anew fit in it: with those held they are at most `limit`. -/
def FitsRoom (toss : Toss) (cfg : ScreenConfig) (judge : Judge) (watchlist held : List Symbol)
    (limit : ℤ) : Prop :=
  limit ≤ held.toFinset.card ∨
    ∃ new : Finset Symbol, (∀ sym, Buyable toss cfg judge watchlist held sym → sym ∈ new) ∧
      ((held.toFinset ∪ new).card : ℤ) ≤ limit

/-- Only which symbols are held matters. -/
theorem FitsRoom.of_mem_iff {toss : Toss} {cfg : ScreenConfig} {judge : Judge}
    {watchlist held held' : List Symbol} {limit : ℤ}
    (h : FitsRoom toss cfg judge watchlist held limit) (hsame : held'.toFinset = held.toFinset) :
    FitsRoom toss cfg judge watchlist held' limit := by
  have hmem : ∀ sym, sym ∈ held' ↔ sym ∈ held := by
    intro sym
    rw [← List.mem_toFinset, hsame, List.mem_toFinset]
  rcases h with hfull | ⟨new, hnew, hcard⟩
  · exact .inl (hsame ▸ hfull)
  refine .inr ⟨new, ?_, hsame ▸ hcard⟩
  rintro sym ⟨hwatched, hno, hscreened, ctx, d, hshown, hjudged⟩
  refine hnew sym ⟨hwatched, mt (hmem sym).mpr hno, hscreened, ctx, d, ⟨?_, hshown.indicators⟩,
    hjudged⟩
  rw [hshown.alreadyHeld]
  exact decide_eq_decide.mpr (hmem ctx.symbol)

/-- A buy is of a symbol that is held or may be bought anew. -/
theorem buyable_of_settled {args : TickArgs} {svc : OrderService} {g : Gathered}
    (hg : gather args = .ok (some g)) {o : OrderResult} (ho : o ∈ settledIn args svc)
    (hbuy : o.request.side = .buy) (hnew : o.request.symbol ∉ heldSymbols g.holdings) :
    Buyable args.toss args.screenConfig args.judge args.watchlist (heldSymbols g.holdings)
      o.request.symbol := by
  obtain ⟨hjudged, hscreened⟩ := settled_buy hg o ho hbuy
  obtain ⟨holdings, master, screening, hh, hm, hs, rfl⟩ := gather_eq_some hg
  obtain ⟨hwatched, hscreenedIn⟩ := hscreened hnew
  exact ⟨hwatched, hnew, ⟨_, master, hm, hscreenedIn⟩, hjudged⟩

/-- An accepted buy of a symbol that is not held has found the account below the limit. -/
theorem acceptedBuy_room {args : TickArgs} {svc : OrderService} {g : Gathered}
    (hg : gather args = .ok (some g)) :
    ∀ o ∈ settledIn args svc, o.acceptedBuy → o.request.symbol ∉ heldSymbols g.holdings →
      ((heldSymbols g.holdings).toFinset.card : ℤ) < svc.config.maxPositions := by
  refine settledIn_forall ?_
  intro g' decisions hg' hd d hmem orders s order res s' hsame hsub hdup hbuy hnew
  obtain rfl : g = g' := Option.some.inj (Except.ok.inj (hg.symm.trans hg'))
  cases hsub with
  | duplicate hctx hgate halloc hseen => exact absurd rfl hdup
  | @settled ctx _ _ _ hctx hgate halloc hseen hs =>
    obtain ⟨hside, hstatus⟩ := OrderResult.acceptedBuy_iff.mp hbuy
    rw [hs.answers.2.1] at hside hnew
    have hpass := (runGuardrails_eq_nil.mp (hs.passed_of_accepted hstatus)).2.2.2.2.2.1
    -- the guardrail counts the positions of the account, as they were before the loop
    rw [← baseContext_heldSymbols args g svc.killSwitch] at hnew
    have hroom : (baseContext args g svc.killSwitch).openPositions < s.config.maxPositions :=
      guardMaxPositions_eq_none hside hnew hpass
    rw [baseContext_openPositions] at hroom
    have hcard : (heldSymbols g.holdings).toFinset.card ≤ g.holdings.items.length :=
      (List.toFinset_card_le _).trans (List.length_map _).le
    have hlimit : s.config.maxPositions = svc.config.maxPositions := by rw [hsame.config]; rfl
    omega

/-- **The limit of positions over a tick.**  Where there is no room left, or the symbols
that may be bought anew fit in it, the symbols held and those bought in a tick stay
within the limit, or within what was held before. -/
theorem positions_within {args : TickArgs} {svc : OrderService} {holdings : Holdings}
    (hh : tickHoldings args = .ok holdings)
    (hroom : FitsRoom args.toss args.screenConfig args.judge args.watchlist (heldSymbols holdings)
      svc.config.maxPositions) :
    ((positions (heldSymbols holdings) (settledIn args svc)).card : ℤ) ≤
      max svc.config.maxPositions (heldSymbols holdings).toFinset.card := by
  -- what is bought and not held, and the account it was bought on
  have hbought : ∀ sym ∈ positions (heldSymbols holdings) (settledIn args svc),
      sym ∈ heldSymbols holdings ∨
        (heldSymbols holdings).toFinset.card < svc.config.maxPositions ∧
          Buyable args.toss args.screenConfig args.judge args.watchlist (heldSymbols holdings)
            sym := by
    intro sym hsym
    rw [positions, List.mem_toFinset, List.mem_append] at hsym
    by_cases hheld : sym ∈ heldSymbols holdings
    · exact .inl hheld
    obtain ⟨o, ho, rfl⟩ := List.mem_map.mp (hsym.resolve_left hheld)
    obtain ⟨hmem, hbuy⟩ := List.mem_filter.mp ho
    -- a tick that settles an order has gathered
    obtain ⟨g, hg⟩ : ∃ g, gather args = .ok (some g) := by
      by_contra hno
      rw [settledIn_idle fun g _ hg => absurd ⟨g, hg⟩ hno] at hmem
      cases hmem
    obtain rfl := gather_holdings hh hg
    have hside := (OrderResult.acceptedBuy_iff.mp hbuy).1
    exact .inr ⟨acceptedBuy_room hg o hmem hbuy hheld, buyable_of_settled hg hmem hside hheld⟩
  rcases hroom with hfull | ⟨new, hnew, hcard⟩
  · refine le_trans ?_ (le_max_right _ _)
    rw [Nat.cast_le]
    refine Finset.card_le_card fun sym hsym => List.mem_toFinset.mpr ?_
    exact (hbought sym hsym).resolve_right fun h => absurd h.1 (not_lt.mpr hfull)
  · refine (le_trans ?_ hcard).trans (le_max_left _ _)
    rw [Nat.cast_le]
    refine Finset.card_le_card fun sym hsym => Finset.mem_union.mpr ?_
    exact (hbought sym hsym).imp List.mem_toFinset.mpr fun h => hnew sym h.2

end AutoTrade
