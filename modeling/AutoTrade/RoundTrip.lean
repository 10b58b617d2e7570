/-
AutoTrade/RoundTrip.lean

What the paper book charges for buying and selling one symbol at one price,
against the rate that the entry gate assumes.

The gate adds rates; the book takes the commission from a price already moved
by the slippage, and the commission and the tax from the proceeds together.
Whatever the fills in between, a share that was bought and sold has cost
`buyCost` of one share and brought `sellProceeds` of one, and the average cost
carries the rest (`RoundTrip`).  Once the position is gone the loss is the
number of shares times the difference, which the gate overstates by the product
of the slippage and the tax (`roundTrip_loss`).
-/
import AutoTrade.PaperBook
import Mathlib.Tactic.Ring

namespace AutoTrade

namespace PaperPortfolio

variable (cost : CostConfig) (symbol : Symbol) (price : ℚ)

/-- The shares held of a symbol. -/
def heldShares (book : PaperPortfolio) : ℚ :=
  ((book.positions.get? symbol).map PaperPosition.quantity).getD 0

/-- What they have cost. -/
def heldCost (book : PaperPortfolio) : ℚ :=
  ((book.positions.get? symbol).map fun pos => pos.quantity * pos.avgCost).getD 0

/-- The shares that some fills bought. -/
def bought (log : List (Option PaperFill)) : ℚ :=
  (((log.filterMap id).filter fun fill => fill.side = .buy ∧ fill.skipped = none).map
    PaperFill.quantity).sum

/-- The shares bought add up over the fills. -/
theorem bought_append (log log' : List (Option PaperFill)) :
    bought (log ++ log') = bought log + bought log' := by
  simp [bought]

@[simp] theorem bought_unfilled : bought [none] = 0 := rfl

/-- A fill that was skipped bought nothing. -/
theorem bought_skipped {fill : PaperFill} (h : fill.skipped ≠ none) :
    bought [some fill] = 0 := by
  simp [bought, h]

@[simp] theorem bought_boughtFill (qty : ℚ) :
    bought [some (boughtFill cost symbol qty price)] = qty := by
  simp [bought, boughtFill]

@[simp] theorem bought_soldFill (pos : PaperPosition) (qty : ℚ) :
    bought [some (soldFill cost symbol pos qty price)] = 0 := by
  simp [bought, soldFill]

/-- The calls trade the symbol at the price. -/
def AtPrice (calls : List FillCall) : Prop :=
  ∀ c ∈ calls, c.1.symbol = symbol ∧ c.1.price = some price

/-- The invariant of trading at one price: of the `shares` bought so far, those
no longer held were sold, and what was realized is what they brought less what
they had cost. -/
structure RoundTrip (start book : PaperPortfolio) (shares : ℚ) : Prop where
  held_pos : ∀ pos, book.positions.get? symbol = some pos → 0 < pos.quantity
  realized : book.realizedCum = start.realizedCum +
    (shares - book.heldShares symbol) * sellProceeds cost 1 price -
      (shares * buyCost cost 1 price - book.heldCost symbol)

variable {cost symbol price}

/-- Before the first fill nothing is lost. -/
theorem roundTrip_start {start : PaperPortfolio} (hflat : start.positions.get? symbol = none) :
    RoundTrip cost symbol price start start 0 where
  held_pos := by
    intro pos hpos
    rw [hflat] at hpos
    cases hpos
  realized := by
    simp [heldShares, heldCost, hflat]

/-- **A fill at the price keeps the invariant.** -/
theorem RoundTrip.applyFill {start book : PaperPortfolio} {shares : ℚ}
    (h : RoundTrip cost symbol price start book shares) (c : FillCall)
    (hsymbol : c.1.symbol = symbol) (hprice : c.1.price = some price) :
    RoundTrip cost symbol price start (book.applyFill c.1 cost c.2).2
      (shares + bought [(book.applyFill c.1 cost c.2).1]) := by
  have hout := applyFill_outcome cost book c.1 c.2
  generalize book.applyFill c.1 cost c.2 = r at hout
  have hreal := h.realized
  subst hsymbol
  cases hout with
  | unfilled =>
    rw [bought_unfilled, add_zero]
    exact h
  | skipped fill hskip =>
    rw [bought_skipped hskip, add_zero]
    exact h
  -- a first buy: the cost of the shares is what was paid for them
  | opened qty p hp hqty hside hcash hpos =>
    obtain rfl : p = price := Option.some.inj (hp.symm.trans hprice)
    have hcost : qty * (buyCost cost qty p / qty) = buyCost cost qty p :=
      mul_div_cancel₀ _ hqty.ne'
    rw [bought_boughtFill]
    refine ⟨fun pos hget => ?_, ?_⟩
    · rw [Dict.get?_set_self] at hget
      rw [← Option.some.inj hget]
      exact hqty
    · simp only [heldShares, heldCost, hpos, Dict.get?_set_self, Option.map_some,
        Option.map_none, Option.getD_some, Option.getD_none, hcost] at hreal ⊢
      rw [hreal]
      unfold buyCost
      ring
  | added qty p hp hqty hside hcash pos hpos =>
    obtain rfl : p = price := Option.some.inj (hp.symm.trans hprice)
    -- a further one: the average cost times the shares is what was paid for all
    have hheld := h.held_pos pos hpos
    have hcost : (PaperPortfolio.added cost pos qty p).quantity *
        (PaperPortfolio.added cost pos qty p).avgCost =
          pos.quantity * pos.avgCost + buyCost cost qty p :=
      mul_div_cancel₀ _ (add_pos hheld hqty).ne'
    rw [bought_boughtFill]
    refine ⟨fun pos' hget => ?_, ?_⟩
    · rw [Dict.get?_set_self] at hget
      rw [← Option.some.inj hget]
      exact add_pos hheld hqty
    · simp only [heldShares, heldCost, hpos, Dict.get?_set_self, Option.map_some,
        Option.getD_some, hcost] at hreal ⊢
      rw [hreal]
      simp only [PaperPortfolio.added]
      unfold buyCost
      ring
  | closed p hp hside pos hpos hqty =>
    obtain rfl : p = price := Option.some.inj (hp.symm.trans hprice)
    -- a sale of all leaves no cost behind
    have herase : (book.positions.erase c.1.symbol).get? c.1.symbol = none := by
      rw [Dict.get?_erase, if_pos rfl]
    -- a sale of some leaves the average as it was
    rw [bought_soldFill, add_zero]
    refine ⟨fun pos' hget => ?_, ?_⟩
    · simp only [herase] at hget
      cases hget
    · simp only [heldShares, heldCost, hpos, herase, banked, Option.map_some, Option.map_none,
        Option.getD_some, Option.getD_none] at hreal ⊢
      rw [hreal]
      unfold sellProceeds
      ring
  | reduced qty p hp hside pos hpos hqty hless =>
    obtain rfl : p = price := Option.some.inj (hp.symm.trans hprice)
    rw [bought_soldFill, add_zero]
    refine ⟨fun pos' hget => ?_, ?_⟩
    · rw [Dict.get?_set_self] at hget
      rw [← Option.some.inj hget]
      exact sub_pos.mpr hless
    · simp only [heldShares, heldCost, hpos, Dict.get?_set_self, banked, Option.map_some,
        Option.getD_some] at hreal ⊢
      rw [hreal]
      unfold sellProceeds
      ring

/-- The invariant holds over any fills at the price. -/
theorem roundTrip_afterFills {start : PaperPortfolio}
    (hflat : start.positions.get? symbol = none) {calls : List FillCall}
    (hcalls : AtPrice symbol price calls) :
    RoundTrip cost symbol price start (start.afterFills cost calls)
      (bought (start.returned cost calls)) := by
  induction calls using List.reverseRecOn with
  | nil => exact roundTrip_start hflat
  | append_singleton calls c ih =>
    obtain ⟨hsymbol, hprice⟩ := hcalls c (by simp)
    rw [afterFills_concat, returned_concat, bought_append]
    exact (ih fun c' hc' => hcalls c' (List.mem_append_left _ hc')).applyFill c hsymbol hprice

/-- No fill buys less than nothing. -/
theorem bought_nonneg (book : PaperPortfolio) (calls : List FillCall) :
    0 ≤ bought (book.returned cost calls) := by
  induction calls generalizing book with
  | nil => exact le_rfl
  | cons c calls ih =>
    have hone : 0 ≤ bought [(book.applyFill c.1 cost c.2).1] := by
      have hout := applyFill_outcome cost book c.1 c.2
      generalize book.applyFill c.1 cost c.2 = r at hout
      cases hout with
      | unfilled => exact le_rfl
      | skipped fill hskip => exact (bought_skipped hskip).ge
      | opened qty _ _ hqty => simpa using hqty.le
      | added qty _ _ hqty => simpa using hqty.le
      | closed => simp
      | reduced => simp
    rw [returned, ← List.singleton_append, bought_append]
    exact add_nonneg hone (ih _)

/-- **What a flat position has cost**, at one price: the gate's rate on what was
bought, less the product of slippage and tax, which the hurdle counts too. -/
theorem roundTrip_loss (gate : EntryGate) (hslip : 0 ≤ gate.cost.slippageRate)
    (htax : 0 ≤ gate.cost.sellTaxRate) (hprice : 0 < price) (start : PaperPortfolio)
    (hflat : start.positions.get? symbol = none) (calls : List FillCall)
    (hcalls : AtPrice symbol price calls)
    (hend : (start.afterFills gate.cost calls).positions.get? symbol = none) :
    let loss := start.realizedCum - (start.afterFills gate.cost calls).realizedCum
    let notional := price * bought (start.returned gate.cost calls)
    let s := gate.cost.slippageRate
    let c := gate.cost.commissionRate
    let t := gate.cost.sellTaxRate
    loss = notional * (2 * s + 2 * c + t - s * t) ∧
      loss ≤ notional * gate.cost.roundTripRate ∧
      notional * gate.cost.roundTripRate - loss = notional * (s * t) ∧
      notional * gate.hurdleRate = (loss + notional * (s * t)) * gate.config.costMultiple := by
  intro loss notional s c t
  have hreal := (@roundTrip_afterFills gate.cost symbol price start hflat calls hcalls).realized
  simp only [heldShares, heldCost, hend, Option.map_none, Option.getD_none] at hreal
  have hloss : loss = notional * (2 * s + 2 * c + t - s * t) := by
    simp only [loss, hreal, notional, buyCost, sellProceeds, s, c, t]
    ring
  have hrate : gate.cost.roundTripRate = 2 * c + 2 * s + t := rfl
  have hover : 0 ≤ notional * (s * t) :=
    mul_nonneg (mul_nonneg hprice.le (bought_nonneg start calls)) (mul_nonneg hslip htax)
  have hdiff : notional * gate.cost.roundTripRate - loss = notional * (s * t) := by
    rw [hloss, hrate]
    ring
  refine ⟨hloss, ?_, hdiff, ?_⟩
  · linarith
  · rw [EntryGate.hurdleRate, ← hdiff]
    ring

namespace Sample

/-- Ten shares in two buys, sold in two sales, at 1000. -/
def flatTrip : List FillCall :=
  [({ clientOrderId := "o1", symbol := "005930", side := .buy, orderType := .limit,
      quantity := some 4, price := some 1000 }, none),
    ({ clientOrderId := "o2", symbol := "005930", side := .buy, orderType := .limit,
       quantity := some 6, price := some 1000 }, none),
    ({ clientOrderId := "o3", symbol := "005930", side := .sell, orderType := .limit,
       quantity := some 7, price := some 1000 }, none),
    ({ clientOrderId := "o4", symbol := "005930", side := .sell, orderType := .limit,
       quantity := some 9, price := some 1000 }, none)]

end Sample

/-- A round trip of the default costs. -/
theorem roundTrip_loss_sample :
    let book : PaperPortfolio := { cash := 100000 }
    (0 : ℚ) - (book.afterFills ({} : CostConfig) Sample.flatTrip).realizedCum =
      1000 * bought (book.returned ({} : CostConfig) Sample.flatTrip) *
        (2 * (15 / 10000) + 2 * (15 / 100000) + 15 / 10000 - 15 / 10000 * (15 / 10000)) := by
  intro book
  have hcalls : AtPrice "005930" 1000 Sample.flatTrip := by
    simp [AtPrice, Sample.flatTrip]
  exact (roundTrip_loss {} (by norm_num) (by norm_num) (by norm_num) book rfl Sample.flatTrip
    hcalls (by decide +kernel)).1

end PaperPortfolio

end AutoTrade
