/-
AutoTrade/SizingLimits.lean

The proposer and the enforcer of the size of a buy: `allocate` sizes it, and the
guardrails of the order and of the symbol's weight check it, each from a context
of its own.

Both contexts come from the same tick.  `guardContext_weight` says what the
weight guardrail sees of it: the total assets `A` of the tick and the value of
the symbol at the price of the sizing.

* `sizing_within_limits` — a buy that is sized stays within every limit it was
  sized against, and neither guardrail fires on it;
* `weight_limit_iff` — the guardrail divides by `A` and the cost of the order,
  not by `A`: it is the limit that sizing uses exactly when the symbol does not
  come to lie between the two limits.
-/
import AutoTrade.Candidates
import Mathlib.Order.Interval.Set.UnorderedInterval
import Mathlib.Tactic.Positivity

namespace AutoTrade

variable {args : TickArgs} {g : Gathered}

/-! ### Sizes -/

/-- A size is a whole number of shares. -/
theorem roundDown_eq_natCast {x : ℚ} (hx : 0 ≤ x) : ∃ q : ℕ, roundDown x = q := by
  refine ⟨⌊x⌋.toNat, ?_⟩
  unfold roundDown
  rw [if_pos hx]
  have hfloor : (⌊x⌋.toNat : ℤ) = ⌊x⌋ := Int.toNat_of_nonneg (Int.floor_nonneg.mpr hx)
  exact_mod_cast hfloor.symm

theorem roundDown_mono {x y : ℚ} (hx : 0 ≤ x) (h : x ≤ y) : roundDown x ≤ roundDown y := by
  unfold roundDown
  rw [if_pos hx, if_pos (hx.trans h)]
  exact_mod_cast Int.floor_le_floor h

/-- The exposure multiplier as it is applied. -/
def exposure (mult : ℚ) : ℚ := min (max mult 0) 1

theorem exposure_nonneg (mult : ℚ) : 0 ≤ exposure mult :=
  le_min (le_max_right _ _) zero_le_one

theorem exposure_mono {m m' : ℚ} (h : m ≤ m') : exposure m ≤ exposure m' :=
  min_le_min_right _ (max_le_max_right _ h)

section Size

variable {ctx : CandidateContext} {cfg : GuardrailConfig} {conf p mult : ℚ}

/-- The size of a buy below a positive ceiling. -/
theorem buyQuantity_eq (hc : 0 < ceiling ctx cfg p) :
    buyQuantity ctx conf cfg p mult =
      roundDown (ceiling ctx cfg p * conf * exposure mult / p) := by
  show (if ceiling ctx cfg p ≤ 0 then (0 : ℚ) else _) = _
  rw [if_neg (not_le.mpr hc)]
  rfl

/-- What a buy is aimed at. -/
theorem target_nonneg (hp : 0 < p) (hconf : 0 ≤ conf) (hc : 0 < ceiling ctx cfg p) :
    0 ≤ ceiling ctx cfg p * conf * exposure mult / p :=
  div_nonneg (mul_nonneg (mul_nonneg hc.le hconf) (exposure_nonneg mult)) hp.le

/-- A buy costs at most its share of the ceiling. -/
theorem buyQuantity_mul_le_share (hp : 0 < p) (hconf : 0 ≤ conf)
    (hc : 0 < ceiling ctx cfg p) :
    buyQuantity ctx conf cfg p mult * p ≤ conf * exposure mult * ceiling ctx cfg p := by
  rw [buyQuantity_eq hc]
  calc roundDown (ceiling ctx cfg p * conf * exposure mult / p) * p
      ≤ ceiling ctx cfg p * conf * exposure mult / p * p :=
        mul_le_mul_of_nonneg_right (roundDown_le (target_nonneg hp hconf hc)) hp.le
    _ = ceiling ctx cfg p * conf * exposure mult := div_mul_cancel₀ _ hp.ne'
    _ = conf * exposure mult * ceiling ctx cfg p := by ring

/-- More confidence and more exposure never buy less. -/
theorem buyQuantity_mono {conf' mult' : ℚ} (hp : 0 < p) (hconf : 0 ≤ conf)
    (hle : conf ≤ conf') (hmult : mult ≤ mult') (hc : 0 < ceiling ctx cfg p) :
    buyQuantity ctx conf cfg p mult ≤ buyQuantity ctx conf' cfg p mult' := by
  rw [buyQuantity_eq hc, buyQuantity_eq hc]
  refine roundDown_mono (target_nonneg hp hconf hc) ?_
  have hshare : ceiling ctx cfg p * conf ≤ ceiling ctx cfg p * conf' :=
    mul_le_mul_of_nonneg_left hle hc.le
  have htarget : ceiling ctx cfg p * conf * exposure mult ≤
      ceiling ctx cfg p * conf' * exposure mult' :=
    mul_le_mul hshare (exposure_mono hmult) (exposure_nonneg mult)
      (mul_nonneg hc.le (hconf.trans hle))
  exact div_le_div_of_nonneg_right htarget hp.le

/-- Below a positive ceiling there is room for the symbol's weight. -/
theorem ceiling_le_room {portfolio : ℚ} (hportfolio : ctx.portfolioValueKrw = some portfolio)
    (hc : 0 < ceiling ctx cfg p) :
    ceiling ctx cfg p ≤ cfg.perSymbolMaxWeight * (portfolio + ctx.cashBuyingPowerKrw.getD 0) -
      ctx.heldQuantity.getD 0 * p := by
  obtain ⟨-, hall⟩ := foldl_min_le (ceilings ctx cfg p) cfg.perOrderMaxKrw
  have hmem : (if 0 < cfg.perSymbolMaxWeight * (portfolio + ctx.cashBuyingPowerKrw.getD 0) -
        ctx.heldQuantity.getD 0 * p
      then cfg.perSymbolMaxWeight * (portfolio + ctx.cashBuyingPowerKrw.getD 0) -
        ctx.heldQuantity.getD 0 * p
      else 0) ∈ ceilings ctx cfg p := by
    refine List.mem_append_right _ ?_
    simp only [hportfolio]
    exact List.mem_singleton_self _
  have hle : ceiling ctx cfg p ≤ _ := hall _ hmem
  split at hle
  · exact hle
  -- no room is a ceiling of zero
  · exact absurd hc (not_lt.mpr hle)

end Size

/-! ### What the guardrails see -/

section GuardContext

variable (args g) (svc : OrderService) (ctx : CandidateContext) (used : ℚ)

/-- The context in which the service checks an order on a candidate of the tick. -/
def checkedContext : GuardrailContext :=
  svc.effectiveContext ((orderEnv args g svc.killSwitch).guardContext ctx used)

/-- The total assets of the tick: the positions, and the cash where it is known. -/
def totalAssets : ℚ := g.holdings.marketValue.krw + g.cash.getD 0

theorem checkedContext_portfolio :
    (checkedContext args g svc ctx used).portfolioValueKrw = some (totalAssets g) := by
  show (baseContext args g svc.killSwitch).portfolioValueKrw = _
  unfold baseContext totalAssets
  rcases g.cash with - | cash
  · simp [contextFromHoldings]
  · simp [contextFromHoldings]

variable {ctx}

/-- The weight is checked at the price of the sizing. -/
theorem checkedContext_value {p : ℚ} (hp : price ctx = some p) :
    (checkedContext args g svc ctx used).symbolCurrentValueKrw =
      ctx.heldQuantity.getD 0 * p := by
  unfold price at hp
  rcases hind : ctx.indicators with - | ind
  · simp [hind] at hp
  · by_cases hpos : 0 < ind.lastClose
    · simp only [hind, hpos, if_true, Option.some.injEq] at hp
      unfold checkedContext OrderEnv.guardContext
      simp only [hind, hp]
      rfl
    · simp [hind, hpos] at hp

end GuardContext

/-- The weight guardrail passes a buy that keeps the symbol within its weight of the
assets and of the cost of the buy. -/
theorem guardPerSymbolWeight_eq_none {order : OrderRequest} {ctx : GuardrailContext}
    {cfg : GuardrailConfig} {assets : ℚ} (hb : order.side = .buy)
    (hassets : ctx.portfolioValueKrw = some assets) (hpos : 0 < assets + order.notional) :
    guardPerSymbolWeight order ctx cfg = none ↔
      ctx.symbolCurrentValueKrw + order.notional ≤
        cfg.perSymbolMaxWeight * (assets + order.notional) := by
  unfold guardPerSymbolWeight isBuy
  simp only [hb, decide_true, Bool.not_true, Bool.false_eq_true, if_false, hassets,
    not_le.mpr hpos]
  rw [← div_le_iff₀ hpos]
  split
  · next hover => simp [not_le.mpr hover]
  · next hwithin => simp [not_lt.mp hwithin]

theorem guardPerOrderMax_eq_none {order : OrderRequest} {ctx : GuardrailContext}
    {cfg : GuardrailConfig} {n : ℚ} (hn : order.estimatedNotional = some n)
    (hle : n ≤ cfg.perOrderMaxKrw) : guardPerOrderMax order ctx cfg = none := by
  unfold guardPerOrderMax
  simp [hn, not_lt.mpr hle]

/-! ### The proposer stays within the limits -/

/-- The notional of a sized buy, and the size it comes from. -/
theorem buy_of_allocate {d : Decision} {c : CandidateContext} {cfg : GuardrailConfig}
    {id : ClientOrderId} {conf mult : ℚ} {order : OrderRequest} (hd : d.confidence = .num conf)
    (h : allocate d c cfg id mult = .ok (some order)) (hb : order.side = .buy) :
    ∃ p, price c = some p ∧ 0 < p ∧ d.action = .buy ∧ 1 ≤ buyQuantity c conf cfg p mult ∧
      order = req .buy c.symbol (buyQuantity c conf cfg p mult) p id ∧
      order.notional = buyQuantity c conf cfg p mult * p := by
  obtain ⟨p, hp, ⟨-, -, q, -, -, rfl⟩ | ⟨hact, conf', hd', hq, rfl⟩⟩ := allocate_cases h
  · cases hb
  · rw [hd] at hd'
    cases hd'
    exact ⟨p, hp, price_pos hp, hact, hq, rfl, rfl⟩

/-- An order is sized from any decision to buy whose size is a share. -/
theorem allocate_buy {d : Decision} {c : CandidateContext} {cfg : GuardrailConfig}
    (id : ClientOrderId) {conf mult p : ℚ} (hd : d.confidence = .num conf)
    (hact : d.action = .buy) (hp : price c = some p) (hq : 1 ≤ buyQuantity c conf cfg p mult) :
    allocate d c cfg id mult =
      .ok (some (req .buy c.symbol (buyQuantity c conf cfg p mult) p id)) := by
  unfold allocate
  simp only [hact, reduceCtorEq, if_false, hp, buySize_num hd, not_lt.mpr hq]
  rfl

/-- **A sized buy stays within the limits.**  From a context of the tick and a
confidence in `[0, 1]`: a whole number of shares, whose cost is within the share of
the ceiling, the order limit, the cash and the room of the symbol; neither
guardrail of these limits fires on it; and more confidence and more exposure buy no
less. -/
theorem sizing_within_limits (args : TickArgs) (g : Gathered) (svc : OrderService)
    {c : CandidateContext} (hc : c ∈ tickCandidates args g) {d : Decision} {conf : ℚ}
    (hd : d.confidence = .num conf) (hconf : 0 ≤ conf) (hconf' : conf ≤ 1)
    (hweight : 0 ≤ svc.config.perSymbolMaxWeight) {id : ClientOrderId} {mult : ℚ}
    {order : OrderRequest} (h : allocate d c svc.config id mult = .ok (some order))
    (hb : order.side = .buy) :
    ∃ p, price c = some p ∧
      (∃ q : ℕ, 1 ≤ q ∧ order.quantity = some (q : ℚ)) ∧
      order.notional ≤ conf * exposure mult * ceiling c svc.config p ∧
      order.notional ≤ svc.config.perOrderMaxKrw ∧
      (∀ cash, g.cash = some cash → order.notional ≤ cash) ∧
      c.heldQuantity.getD 0 * p + order.notional ≤
        svc.config.perSymbolMaxWeight * totalAssets g ∧
      (∀ used, guardPerOrderMax order (checkedContext args g svc c used) svc.config = none ∧
        guardPerSymbolWeight order (checkedContext args g svc c used) svc.config = none) ∧
      ∀ (d' : Decision) (conf' : ℚ) (id' : ClientOrderId) (mult' : ℚ), d'.action = d.action →
        d'.confidence = .num conf' → conf ≤ conf' → conf' ≤ 1 → mult ≤ mult' →
        ∃ order' q q', allocate d' c svc.config id' mult' = .ok (some order') ∧
          order.quantity = some q ∧ order'.quantity = some q' ∧ q ≤ q' := by
  obtain ⟨p, hp, hpos, hact, hq, rfl, hn⟩ := buy_of_allocate hd h hb
  have hceil : 0 < ceiling c svc.config p := ceiling_pos hq
  obtain ⟨hmax, hcash⟩ := ceiling_le c svc.config p
  have hshare : buyQuantity c conf svc.config p mult * p ≤
      conf * exposure mult * ceiling c svc.config p :=
    buyQuantity_mul_le_share hpos hconf hceil
  have hle : buyQuantity c conf svc.config p mult * p ≤ ceiling c svc.config p :=
    buyQuantity_mul_le hpos hconf hconf' hceil.le
  have hcost : 0 < buyQuantity c conf svc.config p mult * p := by positivity
  rw [cash_of_mem_tickCandidates hc] at hcash
  have hroom := ceiling_le_room (portfolio_of_mem_tickCandidates hc) hceil
  rw [cash_of_mem_tickCandidates hc] at hroom
  have hheld : c.heldQuantity.getD 0 * p + buyQuantity c conf svc.config p mult * p ≤
      svc.config.perSymbolMaxWeight * totalAssets g := by
    unfold totalAssets
    linarith
  refine ⟨p, hp, ?_, ?_, ?_, ?_, ?_, ?_, ?_⟩
  · -- the size is rounded down to a whole number
    have htarget : 0 ≤ ceiling c svc.config p * conf * exposure mult / p :=
      target_nonneg hpos hconf hceil
    obtain ⟨q, hnat⟩ := roundDown_eq_natCast htarget
    rw [← buyQuantity_eq hceil] at hnat
    rw [hnat] at hq
    exact ⟨q, by exact_mod_cast hq, congrArg some hnat⟩
  · rw [hn]
    exact hshare
  · rw [hn]
    exact hle.trans hmax
  · intro cash hg
    rw [hn]
    exact hle.trans (hcash cash hg)
  · rw [hn]
    exact hheld
  · intro used
    refine ⟨guardPerOrderMax_eq_none (n := buyQuantity c conf svc.config p mult * p) rfl
      (hle.trans hmax), ?_⟩
    -- the guardrail's limit is the limit of the sizing and the weight of the cost besides
    have hassets : 0 ≤ svc.config.perSymbolMaxWeight *
        (buyQuantity c conf svc.config p mult * p) := mul_nonneg hweight hcost.le
    by_cases hdenom : 0 < totalAssets g + (buyQuantity c conf svc.config p mult * p)
    · refine (guardPerSymbolWeight_eq_none rfl (checkedContext_portfolio args g svc c used)
        (hn ▸ hdenom)).mpr ?_
      rw [checkedContext_value args g svc used hp, hn, mul_add]
      linarith
    · unfold guardPerSymbolWeight
      simp only [checkedContext_portfolio, hn, not_lt.mp hdenom, if_true, ite_self]
  · intro d' conf' id' mult' hact' hd' hle' _ hmult'
    have hmono : buyQuantity c conf svc.config p mult ≤ buyQuantity c conf' svc.config p mult' :=
      buyQuantity_mono hpos hconf hle' hmult' hceil
    exact ⟨_, _, _, allocate_buy id' hd' (hact'.trans hact) hp (hq.trans hmono), rfl, rfl, hmono⟩

namespace Sample

/-- One candidate at 1000 won, one million won of cash and nothing held. -/
def offered : Gathered where
  holdings := noHoldings
  stocks := ∅
  eligible := ["005930"]
  buyResults := [{ symbol := "005930", passed := true, score := 1 / 20,
                   indicators := ⟨1000, none, none, none, 0⟩ }]
  screening := {}
  warned := []
  cash := some 1000000

/-- The candidate as the tick shows it. -/
def offeredContext : CandidateContext where
  symbol := "005930"
  name := "005930"
  market := none
  currency := none
  indicators := some ⟨1000, none, none, none, 0⟩
  score := 1 / 20
  alreadyHeld := false
  portfolioValueKrw := some 0
  cashBuyingPowerKrw := some 1000000

/-- A decision to buy with confidence one half. -/
def halfSure : Decision where
  action := .buy
  symbol := "005930"
  confidence := .num (1 / 2)
  rationale := []

/-- A buy of `n` shares at 1000 won. -/
def buyOf (n : ℚ) : OrderRequest := req .buy "005930" n 1000 "o0"

end Sample

theorem sizing_within_limits_sample :
    Sample.offeredContext ∈
        tickCandidates (Sample.args 1000000 Sample.noHoldings []) Sample.offered ∧
      allocate Sample.halfSure Sample.offeredContext {} "o0" 1 =
        .ok (some (Sample.buyOf 50)) ∧
      (Sample.buyOf 50).notional ≤ 100000 := by
  have hmem : Sample.offeredContext ∈
      tickCandidates (Sample.args 1000000 Sample.noHoldings []) Sample.offered := by
    decide +kernel
  have hsized : allocate Sample.halfSure Sample.offeredContext {} "o0" 1 =
      .ok (some (Sample.buyOf 50)) := by decide +kernel
  obtain ⟨p, -, -, -, hmax, -⟩ := sizing_within_limits (Sample.args 1000000 Sample.noHoldings [])
    Sample.offered {} hmem rfl (by decide +kernel) (by decide +kernel) (by decide +kernel) hsized
    rfl
  exact ⟨hmem, hsized, hmax⟩

/-! ### The enforcer by itself -/

/-- **When the weight guardrail enforces the configured weight.**  On a buy of any
proposer it passes what keeps the symbol within its weight of the total assets,
and nothing else, exactly when the value of the symbol after the buy does not lie
between that weight of the assets and that weight of the assets and the cost. -/
theorem weight_limit_iff (args : TickArgs) (g : Gathered) (svc : OrderService)
    {order : OrderRequest} (hb : order.side = .buy) (hn : 0 ≤ order.notional)
    (c : CandidateContext) (used : ℚ) (hassets : 0 < totalAssets g) :
    ((guardPerSymbolWeight order (checkedContext args g svc c used) svc.config = none ↔
        (checkedContext args g svc c used).symbolCurrentValueKrw + order.notional ≤
          svc.config.perSymbolMaxWeight * totalAssets g) ↔
      (checkedContext args g svc c used).symbolCurrentValueKrw + order.notional ∉
        Set.uIoc (svc.config.perSymbolMaxWeight * totalAssets g)
          (svc.config.perSymbolMaxWeight * (totalAssets g + order.notional))) := by
  rw [guardPerSymbolWeight_eq_none hb (checkedContext_portfolio args g svc c used)
    (add_pos_of_pos_of_nonneg hassets hn), Set.mem_uIoc]
  -- the value after the buy is on one side of both limits, or between them
  constructor
  · rintro hiff (⟨hlow, hhigh⟩ | ⟨hlow, hhigh⟩)
    · exact absurd (hiff.mp hhigh) (not_le.mpr hlow)
    · exact absurd (hiff.mpr hhigh) (not_le.mpr hlow)
  · intro hout
    push Not at hout
    constructor
    · intro hhigh
      by_contra hlow
      exact absurd hhigh (not_le.mpr (hout.1 (not_le.mp hlow)))
    · intro hhigh
      by_contra hlow
      exact absurd hhigh (not_le.mpr (hout.2 (not_le.mp hlow)))

theorem weight_limit_sample :
    (guardPerSymbolWeight (Sample.buyOf 50) (checkedContext
        (Sample.args 1000000 Sample.noHoldings []) Sample.offered {} Sample.offeredContext 0)
        {} = none ↔
      (checkedContext (Sample.args 1000000 Sample.noHoldings []) Sample.offered {}
          Sample.offeredContext 0).symbolCurrentValueKrw + (Sample.buyOf 50).notional ≤
        1 / 10 * totalAssets Sample.offered) := by
  refine (weight_limit_iff (Sample.args 1000000 Sample.noHoldings []) Sample.offered {} rfl
    (by decide +kernel) Sample.offeredContext 0 (by decide +kernel)).mpr ?_
  rw [Set.mem_uIoc]
  decide +kernel

/-- Eleven per cent of the assets in one symbol pass under a limit of ten. -/
theorem weight_limit_overrun :
    ¬ ∀ (args : TickArgs) (g : Gathered) (svc : OrderService) (order : OrderRequest)
      (c : CandidateContext) (used cash : ℚ), order.side = .buy → 0 ≤ order.notional →
      g.cash = some cash → order.notional ≤ cash → 0 < totalAssets g →
      c ∈ tickCandidates args g →
      (guardPerSymbolWeight order (checkedContext args g svc c used) svc.config = none ↔
        (checkedContext args g svc c used).symbolCurrentValueKrw + order.notional ≤
          svc.config.perSymbolMaxWeight * totalAssets g) := by
  intro h
  have hbuy := h (Sample.args 1000000 Sample.noHoldings []) Sample.offered {} (Sample.buyOf 110)
    Sample.offeredContext 0 1000000 rfl (by decide +kernel) rfl (by decide +kernel)
    (by decide +kernel) (by decide +kernel)
  revert hbuy
  decide +kernel

end AutoTrade
