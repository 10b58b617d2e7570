/-
AutoTrade/Allocator.lean

Deterministic sizing (`engine/allocator.py`): from a decision and the context
it was made in to an order, or to none.  Nothing is reserved: each decision is
sized against the cash of its own context.
-/
import AutoTrade.Judge
import AutoTrade.Guardrails
import Mathlib.Tactic.Linarith
import Mathlib.Algebra.Order.Field.Basic

namespace AutoTrade

/-- `x.to_integral_value(rounding=ROUND_DOWN)`. -/
def roundDown (x : ℚ) : ℚ := if 0 ≤ x then (⌊x⌋ : ℤ) else (⌈x⌉ : ℤ)

/-- `_price`: the last close, when it is positive. -/
def price (ctx : CandidateContext) : Option ℚ :=
  match ctx.indicators with
  | none => none
  | some ind => if 0 < ind.lastClose then some ind.lastClose else none

/-- The most a buy may cost: the order limit, the cash, and the room below the
symbol's weight of the total assets. -/
def ceilings (ctx : CandidateContext) (cfg : GuardrailConfig) (price : ℚ) : List ℚ :=
  let cash : List ℚ := match ctx.cashBuyingPowerKrw with
    | none => []
    | some cash => [cash]
  let room : List ℚ := match ctx.portfolioValueKrw with
    | none => []
    | some portfolio =>
      let heldValue := ctx.heldQuantity.getD 0 * price
      -- of the total assets: an empty book has room as well
      let equity := portfolio + ctx.cashBuyingPowerKrw.getD 0
      let room := cfg.perSymbolMaxWeight * equity - heldValue
      [if 0 < room then room else 0]
  cash ++ room

/-- `min(ceilings)`, the order limit being always one of them. -/
def ceiling (ctx : CandidateContext) (cfg : GuardrailConfig) (price : ℚ) : ℚ :=
  (ceilings ctx cfg price).foldl min cfg.perOrderMaxKrw

/-- `_buy_quantity`, for a confidence that is a number. -/
def buyQuantity (ctx : CandidateContext) (confidence : ℚ) (cfg : GuardrailConfig)
    (price exposureMultiplier : ℚ) : ℚ :=
  let ceiling := ceiling ctx cfg price
  if ceiling ≤ 0 then 0
  else
    let mult := min (max exposureMultiplier 0) 1   -- it only reduces
    let target := ceiling * confidence * mult
    roundDown (target / price)

/-- The quantity of a buy, if it is a share at least.  One of NaN raises when it is
compared with 1, an infinity when it is multiplied by a multiplier of 0, and an
infinite quantity when the request is validated. -/
def buySize (ctx : CandidateContext) (decision : Decision) (cfg : GuardrailConfig)
    (price exposureMultiplier : ℚ) : Except Exn (Option ℚ) :=
  match decision.confidence with
  | .num confidence =>
    let qty := buyQuantity ctx confidence cfg price exposureMultiplier
    .ok (if qty < 1 then none else some qty)
  | confidence =>
    if ceiling ctx cfg price ≤ 0 then .ok none
    else if confidence = .nan ∨ exposureMultiplier ≤ 0 then .error "InvalidOperation"
    else if confidence = .inf then .error "ValidationError"
    else .ok none

/-- `_req`. -/
def req (side : Side) (symbol : Symbol) (quantity price : ℚ) (clientOrderId : ClientOrderId) :
    OrderRequest :=
  { clientOrderId, symbol, side, orderType := .limit, quantity := some quantity,
    price := some price, timeInForce := .day }

/-- From a decision to an order; `clientOrderId` is the id a new request draws. -/
def allocate (decision : Decision) (ctx : CandidateContext) (config : GuardrailConfig)
    (clientOrderId : ClientOrderId) (exposureMultiplier : ℚ := 1) :
    Except Exn (Option OrderRequest) :=
  if decision.action = .hold then .ok none
  else match price ctx with
    | none => .ok none
    | some price =>
      if decision.action = .sell then
        -- a sale is of all that is held
        if !ctx.alreadyHeld then .ok none
        else match ctx.heldQuantity with
          | none => .ok none
          | some quantity =>
            if quantity ≤ 0 then .ok none
            else .ok (some (req .sell ctx.symbol quantity price clientOrderId))
      else
        (buySize ctx decision config price exposureMultiplier).map
          (Option.map fun qty => req .buy ctx.symbol qty price clientOrderId)

/-! ### What an order can be -/

/-- A size comes from a confidence that is a number. -/
theorem buySize_eq_some {ctx : CandidateContext} {decision : Decision} {cfg : GuardrailConfig}
    {p mult q : ℚ} (h : buySize ctx decision cfg p mult = .ok (some q)) :
    ∃ c, decision.confidence = .num c ∧ q = buyQuantity ctx c cfg p mult ∧ 1 ≤ q := by
  unfold buySize at h
  rcases hc : decision.confidence with c | - | - | -
  · simp only [hc, Except.ok.injEq] at h
    split at h
    · cases h
    · next hq => exact ⟨c, rfl, (Option.some.inj h).symm, Option.some.inj h ▸ not_lt.mp hq⟩
  all_goals
    simp only [hc] at h
    split_ifs at h <;> simp at h

/-- The size of a buy whose confidence is a number. -/
theorem buySize_num {ctx : CandidateContext} {decision : Decision} {cfg : GuardrailConfig}
    {c p mult : ℚ} (h : decision.confidence = .num c) :
    buySize ctx decision cfg p mult = .ok (if buyQuantity ctx c cfg p mult < 1 then none
      else some (buyQuantity ctx c cfg p mult)) := by
  unfold buySize
  rw [h]

/-- **All that `allocate` proposes**: the sale of everything held, or a buy of
at least one share, at the last close. -/
theorem allocate_cases {decision : Decision} {ctx : CandidateContext}
    {config : GuardrailConfig} {id : ClientOrderId} {mult : ℚ} {order : OrderRequest}
    (h : allocate decision ctx config id mult = .ok (some order)) :
    ∃ p, price ctx = some p ∧
      ((decision.action = .sell ∧ ctx.alreadyHeld ∧ ∃ q, ctx.heldQuantity = some q ∧ 0 < q ∧
          order = req .sell ctx.symbol q p id) ∨
        (decision.action = .buy ∧ ∃ c, decision.confidence = .num c ∧
          1 ≤ buyQuantity ctx c config p mult ∧
          order = req .buy ctx.symbol (buyQuantity ctx c config p mult) p id)) := by
  unfold allocate at h
  rcases hp : price ctx with - | p
  · simp [hp] at h
  · refine ⟨p, rfl, ?_⟩
    -- a buy, a sale, or a hold
    rcases ha : decision.action with - | - | -
    · right
      simp only [ha, reduceCtorEq, if_false, hp] at h
      rcases hsize : buySize ctx decision config p mult with e | - | q
      · simp [hsize, Except.map] at h
      · simp [hsize, Except.map] at h
      · obtain ⟨c, hc, rfl, hq⟩ := buySize_eq_some hsize
        simp only [hsize, Except.map, Option.map_some, Except.ok.injEq, Option.some.injEq] at h
        exact ⟨rfl, c, hc, hq, h.symm⟩
    · left
      simp only [ha, reduceCtorEq, if_false, hp, if_true] at h
      rcases hheld : ctx.alreadyHeld with - | -
      · simp [hheld] at h
      · rcases hq : ctx.heldQuantity with - | q
        · simp [hheld, hq] at h
        · by_cases hpos : q ≤ 0
          · simp [hheld, hq, hpos] at h
          · simp only [hheld, hq, hpos, Bool.not_true, Bool.false_eq_true, if_false,
              Except.ok.injEq, Option.some.injEq] at h
            exact ⟨rfl, rfl, q, rfl, not_le.mp hpos, h.symm⟩
    · simp [ha] at h

/-- **When `allocate` raises**: on a buy whose confidence is no number. -/
theorem allocate_error {decision : Decision} {ctx : CandidateContext}
    {config : GuardrailConfig} {id : ClientOrderId} {mult : ℚ} {e : Exn}
    (h : allocate decision ctx config id mult = .error e) :
    decision.action = .buy ∧ ¬ decision.confidence.Finite := by
  unfold allocate at h
  rcases ha : decision.action with - | - | -
  · refine ⟨rfl, ?_⟩
    rintro ⟨c, hc⟩
    simp only [ha, reduceCtorEq, if_false] at h
    rcases hp : price ctx with - | p
    · simp [hp] at h
    · simp only [hp, buySize_num hc, Except.map, reduceCtorEq] at h
  · simp only [ha, reduceCtorEq, if_false, if_true] at h
    rcases hp : price ctx with - | p
    · simp [hp] at h
    · rcases hheld : ctx.alreadyHeld with - | -
      · simp [hp, hheld] at h
      · rcases hq : ctx.heldQuantity with - | q
        · simp [hp, hheld, hq] at h
        · by_cases hpos : q ≤ 0
          · simp [hp, hheld, hq, hpos] at h
          · simp [hp, hheld, hq, hpos] at h
  · simp [ha] at h

theorem price_pos {ctx : CandidateContext} {p : ℚ} (h : price ctx = some p) : 0 < p := by
  unfold price at h
  rcases hi : ctx.indicators with - | ind
  · simp [hi] at h
  · by_cases hpos : 0 < ind.lastClose
    · simp only [hi, hpos, if_true, Option.some.injEq] at h
      exact h ▸ hpos
    · simp [hi, hpos] at h

/-- The symbol of an order is the symbol of its context. -/
theorem allocate_symbol {decision : Decision} {ctx : CandidateContext}
    {config : GuardrailConfig} {id : ClientOrderId} {mult : ℚ} {order : OrderRequest}
    (h : allocate decision ctx config id mult = .ok (some order)) :
    order.symbol = ctx.symbol ∧ order.clientOrderId = id := by
  obtain ⟨p, -, ⟨-, -, q, -, -, rfl⟩ | ⟨-, c, -, -, rfl⟩⟩ := allocate_cases h
  · exact ⟨rfl, rfl⟩
  · exact ⟨rfl, rfl⟩

/-- The size of an order does not depend on its id. -/
theorem allocate_anonymous (d : Decision) (ctx : CandidateContext) (cfg : GuardrailConfig)
    (id : ClientOrderId) (mult : ℚ) :
    (allocate d ctx cfg id mult).map (Option.map OrderRequest.anonymous) =
      allocate d ctx cfg "" mult := by
  unfold allocate
  rcases d.action with - | - | -
  · simp only [reduceCtorEq, if_false]
    rcases price ctx with - | p
    · rfl
    · simp only
      rcases buySize ctx d cfg p mult with e | - | q
      · rfl
      · rfl
      · rfl
  · simp only [reduceCtorEq, if_false, if_true]
    rcases price ctx with - | p
    · rfl
    · rcases ctx.alreadyHeld with - | -
      · rfl
      · rcases ctx.heldQuantity with - | q
        · rfl
        · simp only [Bool.not_true, Bool.false_eq_true, if_false]
          split_ifs
          · rfl
          · rfl
  · rfl

/-- With another id the same order is proposed under that id. -/
theorem allocate_renamed (d : Decision) (ctx : CandidateContext) (cfg : GuardrailConfig)
    (id id' : ClientOrderId) (mult : ℚ) :
    match allocate d ctx cfg id mult with
    | .ok (some order) => ∃ order', allocate d ctx cfg id' mult = .ok (some order') ∧
        order'.anonymous = order.anonymous
    | .ok none => allocate d ctx cfg id' mult = .ok none
    | .error e => allocate d ctx cfg id' mult = .error e := by
  have hsame : (allocate d ctx cfg id' mult).map (Option.map OrderRequest.anonymous) =
      (allocate d ctx cfg id mult).map (Option.map OrderRequest.anonymous) := by
    rw [allocate_anonymous, allocate_anonymous]
  generalize allocate d ctx cfg id mult = x at hsame ⊢
  generalize allocate d ctx cfg id' mult = y at hsame ⊢
  rcases x with e | - | order
  · rcases y with e' | o
    · exact hsame
    · cases hsame
  · rcases y with e | - | order'
    · cases hsame
    · rfl
    · cases hsame
  · rcases y with e | - | order'
    · cases hsame
    · cases hsame
    · exact ⟨order', rfl, Option.some.inj (Except.ok.inj hsame)⟩

/-- An order has a cost that is not negative. -/
theorem allocate_notional_nonneg {decision : Decision} {ctx : CandidateContext}
    {config : GuardrailConfig} {id : ClientOrderId} {mult : ℚ} {order : OrderRequest}
    (h : allocate decision ctx config id mult = .ok (some order)) : 0 ≤ order.notional := by
  obtain ⟨p, hp, ⟨-, -, q, -, hq, rfl⟩ | ⟨-, c, -, hq, rfl⟩⟩ := allocate_cases h
  · exact mul_nonneg hq.le (price_pos hp).le
  · exact mul_nonneg (by linarith) (price_pos hp).le

/-! ### The size of a buy -/

theorem foldl_min_le (xs : List ℚ) (x : ℚ) :
    xs.foldl min x ≤ x ∧ ∀ y ∈ xs, xs.foldl min x ≤ y := by
  induction xs generalizing x with
  | nil => simp
  | cons z xs ih =>
    obtain ⟨hle, hall⟩ := ih (min x z)
    refine ⟨hle.trans (min_le_left x z), ?_⟩
    intro y hy
    rcases List.mem_cons.mp hy with rfl | hy
    · exact hle.trans (min_le_right x y)
    · exact hall y hy

/-- The ceiling is within the order limit and within the cash. -/
theorem ceiling_le (ctx : CandidateContext) (cfg : GuardrailConfig) (p : ℚ) :
    ceiling ctx cfg p ≤ cfg.perOrderMaxKrw ∧
      ∀ cash, ctx.cashBuyingPowerKrw = some cash → ceiling ctx cfg p ≤ cash := by
  obtain ⟨hle, hall⟩ := foldl_min_le (ceilings ctx cfg p) cfg.perOrderMaxKrw
  refine ⟨hle, ?_⟩
  intro cash hcash
  apply hall
  simp [ceilings, hcash]

theorem roundDown_le {x : ℚ} (hx : 0 ≤ x) : roundDown x ≤ x := by
  unfold roundDown
  rw [if_pos hx]
  exact Int.floor_le x

/-- Only a positive ceiling leaves room for a share. -/
theorem ceiling_pos {ctx : CandidateContext} {cfg : GuardrailConfig} {conf p mult : ℚ}
    (h : 1 ≤ buyQuantity ctx conf cfg p mult) : 0 < ceiling ctx cfg p := by
  by_contra hc
  have hzero : buyQuantity ctx conf cfg p mult = 0 := by
    show (if ceiling ctx cfg p ≤ 0 then (0 : ℚ) else _) = 0
    rw [if_pos (not_lt.mp hc)]
  rw [hzero] at h
  norm_num at h

/-- **A buy never costs more than its ceiling**, for a confidence of at most 1. -/
theorem buyQuantity_mul_le {ctx : CandidateContext} {cfg : GuardrailConfig}
    {conf p mult : ℚ} (hp : 0 < p) (hconf : 0 ≤ conf) (hconf' : conf ≤ 1)
    (hc : 0 ≤ ceiling ctx cfg p) :
    buyQuantity ctx conf cfg p mult * p ≤ ceiling ctx cfg p := by
  unfold buyQuantity
  show (if ceiling ctx cfg p ≤ 0 then (0 : ℚ) else _) * p ≤ _
  split
  · rw [zero_mul]
    exact hc
  -- confidence and multiplier are in `[0, 1]`, and rounding is down
  · have hm0 : (0 : ℚ) ≤ min (max mult 0) 1 := le_min (le_max_right _ _) zero_le_one
    have hm1 : min (max mult 0) 1 ≤ (1 : ℚ) := min_le_right _ _
    have ht0 : 0 ≤ ceiling ctx cfg p * conf * min (max mult 0) 1 :=
      mul_nonneg (mul_nonneg hc hconf) hm0
    have ht : ceiling ctx cfg p * conf * min (max mult 0) 1 ≤
        ceiling ctx cfg p := by
      calc ceiling ctx cfg p * conf * min (max mult 0) 1
          ≤ ceiling ctx cfg p * conf * 1 :=
            mul_le_mul_of_nonneg_left hm1 (mul_nonneg hc hconf)
        _ ≤ ceiling ctx cfg p * 1 := by
            rw [mul_one]
            exact mul_le_mul_of_nonneg_left hconf' hc
        _ = ceiling ctx cfg p := mul_one _
    have hround := roundDown_le (div_nonneg ht0 hp.le)
    calc roundDown (ceiling ctx cfg p * conf * min (max mult 0) 1 / p) * p
        ≤ ceiling ctx cfg p * conf * min (max mult 0) 1 / p * p :=
          mul_le_mul_of_nonneg_right hround hp.le
      _ = ceiling ctx cfg p * conf * min (max mult 0) 1 :=
          div_mul_cancel₀ _ hp.ne'
      _ ≤ ceiling ctx cfg p := ht

end AutoTrade
