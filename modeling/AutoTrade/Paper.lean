/-
AutoTrade/Paper.lean

The paper portfolio (`engine/paper.py`): intended orders are filled at once and
in full, at the limit price moved by the slippage, and the book drives the
pipeline as if it were the account.
-/
import AutoTrade.Costs
import Mathlib.Data.List.Sort

namespace AutoTrade

/-- `sorted(d.items())`. -/
def sortedItems {υ : Type} (d : Dict Symbol υ) : List (Symbol × υ) :=
  d.entries.insertionSort fun a b => a.1 ≤ b.1

theorem sortedItems_perm {υ : Type} (d : Dict Symbol υ) : (sortedItems d).Perm d.entries :=
  List.perm_insertionSort _ _

/-- A position of the paper book. -/
structure PaperPosition where
  quantity : ℚ
  /-- the purchase cost of a share, fees included -/
  avgCost : ℚ
  /-- the first entry; later buys keep it -/
  openedAt : Option Datetime := none
  deriving DecidableEq

/-- What became of an order in the book. -/
structure PaperFill where
  symbol : Symbol
  side : Side
  quantity : ℚ
  fillPrice : ℚ
  /-- negative for a buy -/
  cashDelta : ℚ
  realized : Option ℚ := none
  skipped : Option Text := none
  deriving DecidableEq

/-- The paper book: cash, positions and what was realized. -/
structure PaperPortfolio where
  cash : ℚ
  positions : Dict Symbol PaperPosition := ∅
  realizedCum : ℚ := 0
  /-- the number of sales -/
  tradeCount : ℕ := 0
  deriving DecidableEq

namespace PaperPortfolio

/-! ### Fills -/

/-- `_fill_buy`. -/
def fillBuy (book : PaperPortfolio) (symbol : Symbol) (qty price : ℚ) (cost : CostConfig)
    (now : Option Datetime) : PaperFill × PaperPortfolio :=
  let fillPrice := price * (1 + cost.slippageRate)
  let gross := qty * fillPrice
  let totalCost := gross * (1 + cost.commissionRate)
  -- the book cannot go below zero: what overspends is skipped
  if book.cash < totalCost then
    ({ symbol, side := .buy, quantity := qty, fillPrice, cashDelta := 0,
       skipped := some [.lit "현금 부족(", .dec totalCost, .lit " > ", .dec book.cash, .lit ")"] },
      book)
  else
    let pos := match book.positions.get? symbol with
      | none => { quantity := qty, avgCost := totalCost / qty, openedAt := now }
      | some pos =>
        -- a later buy averages the cost and keeps the day of the entry
        let newQty := pos.quantity + qty
        { pos with
          avgCost := (pos.quantity * pos.avgCost + totalCost) / newQty, quantity := newQty }
    ({ symbol, side := .buy, quantity := qty, fillPrice, cashDelta := -totalCost },
      { book with cash := book.cash - totalCost, positions := book.positions.set symbol pos })

/-- `_fill_sell`. -/
def fillSell (book : PaperPortfolio) (symbol : Symbol) (qty price : ℚ) (cost : CostConfig) :
    PaperFill × PaperPortfolio :=
  match book.positions.get? symbol with
  | none =>
    ({ symbol, side := .sell, quantity := qty, fillPrice := price, cashDelta := 0,
       skipped := some [.lit "페이퍼 미보유"] }, book)
  | some pos =>
    if pos.quantity ≤ 0 then
      ({ symbol, side := .sell, quantity := qty, fillPrice := price, cashDelta := 0,
         skipped := some [.lit "페이퍼 미보유"] }, book)
    else
      -- no more is sold than is there
      let qty := min qty pos.quantity
      let fillPrice := price * (1 - cost.slippageRate)
      let gross := qty * fillPrice
      let proceeds := gross * (1 - cost.commissionRate - cost.sellTaxRate)
      let realized := proceeds - qty * pos.avgCost
      let left := pos.quantity - qty
      ({ symbol, side := .sell, quantity := qty, fillPrice, cashDelta := proceeds,
         realized := some realized },
        { cash := book.cash + proceeds
          positions :=
            -- a position that is sold out is gone
            if left = 0 then book.positions.erase symbol
            else book.positions.set symbol { pos with quantity := left }
          realizedCum := book.realizedCum + realized
          tradeCount := book.tradeCount + 1 })

/-- Fill an intended order; without a price or a positive quantity nothing is
filled. -/
def applyFill (book : PaperPortfolio) (req : OrderRequest) (cost : CostConfig)
    (now : Option Datetime := none) : Option PaperFill × PaperPortfolio :=
  match req.price, req.quantity with
  | some price, some qty =>
    if qty ≤ 0 then (none, book)
    else
      let (fill, book') := match req.side with
        | .buy => book.fillBuy req.symbol qty price cost now
        | .sell => book.fillSell req.symbol qty price cost
      (some fill, book')
  | _, _ => (none, book)

/-! ### Valuation -/

/-- `_mark`: the quoted price, unless it is missing or zero. -/
def mark (pos : PaperPosition) (quote : Option ℚ) : ℚ :=
  match quote with
  | none => pos.avgCost
  | some q => if q = 0 then pos.avgCost else q

/-- The total of the book and the value of its positions. -/
def markEquity (book : PaperPortfolio) (marks : Dict Symbol ℚ) : ℚ × ℚ :=
  let positionsValue :=
    (book.positions.entries.map fun p => p.2.quantity * mark p.2 (marks.get? p.1)).sum
  (book.cash + positionsValue, positionsValue)

/-- `to_synthetic_holdings`: the book as the account that the pipeline sees. -/
def toSyntheticHoldings (book : PaperPortfolio) (marks : Dict Symbol ℚ) : Holdings :=
  let value (p : Symbol × PaperPosition) : ℚ := p.2.quantity * mark p.2 (marks.get? p.1)
  { marketValue := .ofKrw (((sortedItems book.positions).map value).sum)
    items := (sortedItems book.positions).map fun p =>
      let purchase := p.2.quantity * p.2.avgCost
      { symbol := p.1
        name := p.1
        currency := "KRW"
        quantity := p.2.quantity
        lastPrice := mark p.2 (marks.get? p.1)
        averagePurchasePrice := p.2.avgCost
        profitLossRate := if 0 < purchase then (value p - purchase) / purchase else 0 } }

/-- The account shows the symbols of the book, each once. -/
theorem toSyntheticHoldings_symbols (book : PaperPortfolio) (marks : Dict Symbol ℚ) :
    ((book.toSyntheticHoldings marks).items.map HoldingItem.symbol).Perm book.positions.keys := by
  have hitems : (book.toSyntheticHoldings marks).items.map HoldingItem.symbol =
      (sortedItems book.positions).map Prod.fst := by
    show ((sortedItems book.positions).map _).map HoldingItem.symbol = _
    rw [List.map_map]
    rfl
  rw [hitems]
  exact (sortedItems_perm book.positions).map Prod.fst

/-! ### Storage -/

/-- The book as `save_paper` stores it: the times of the entries in UTC. -/
def stored (book : PaperPortfolio) : PaperPortfolio :=
  { book with positions := book.positions.mapValues fun pos =>
      { pos with openedAt := pos.openedAt.map fun t => t.astimezone 0 } }

@[simp] theorem stored_keys (book : PaperPortfolio) :
    book.stored.positions.keys = book.positions.keys := Dict.keys_mapValues _ _

end PaperPortfolio

end AutoTrade
