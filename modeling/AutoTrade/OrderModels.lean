/-
AutoTrade/OrderModels.lean

Order requests and results (`orders/models.py`).
-/
import AutoTrade.Values

namespace AutoTrade

/-- A stock code. -/
abbrev Symbol := String

/-- The id that the client draws for an order (`uuid4`). -/
abbrev ClientOrderId := String

/-- Which way an order goes. -/
inductive Side
  | buy
  | sell
  deriving DecidableEq, Repr

/-- With a price or at the market's. -/
inductive OrderType
  | limit
  | market
  deriving DecidableEq, Repr

/-- How long an order stands: the day, or the close. -/
inductive TimeInForce
  | day
  | cls
  deriving DecidableEq, Repr

/-- `DRY_RUN` never calls the executor; `LIVE` sends real orders. -/
inductive TradingMode
  | dryRun
  | live
  deriving DecidableEq, Repr

/-- What became of an order. -/
inductive OrderStatus
  /-- intended, not sent -/
  | dryRun
  /-- stopped by a guardrail -/
  | rejected
  /-- sent (LIVE) -/
  | submitted
  /-- sending failed (LIVE) -/
  | failed
  /-- the echo of an earlier result -/
  | duplicate
  deriving DecidableEq, Repr

/-- An order as it is asked for; the amounts are Decimals, read as exact rationals. -/
structure OrderRequest where
  clientOrderId : ClientOrderId
  symbol : Symbol
  side : Side
  orderType : OrderType
  quantity : Option ℚ := none
  price : Option ℚ := none
  orderAmount : Option ℚ := none
  timeInForce : TimeInForce := .day
  deriving DecidableEq

/-- The cost of a buy: `orderAmount` first, else quantity times price, else
unknown. -/
def OrderRequest.estimatedNotional (o : OrderRequest) : Option ℚ :=
  match o.orderAmount, o.quantity, o.price with
  | some a, _, _ => some a
  | none, some q, some p => some (q * p)
  | none, _, _ => none

/-- `order.estimated_notional() or Decimal(0)`. -/
def OrderRequest.notional (o : OrderRequest) : ℚ := o.estimatedNotional.getD 0

/-- The order without its id. -/
def OrderRequest.anonymous (order : OrderRequest) : OrderRequest :=
  { order with clientOrderId := "" }

/-- The answer of `submit` to a request. -/
structure OrderResult where
  clientOrderId : ClientOrderId
  status : OrderStatus
  mode : TradingMode
  request : OrderRequest
  reason : Option Text := none
  tossOrderId : Option String := none
  createdAt : Datetime
  deriving DecidableEq

/-- Accepted: intended in `DRY_RUN` or sent in `LIVE`. -/
def OrderStatus.accepted (s : OrderStatus) : Bool := s = .dryRun ∨ s = .submitted

/-- `req.side is BUY and res.status in (DRY_RUN, SUBMITTED)`. -/
def OrderResult.acceptedBuy (r : OrderResult) : Bool :=
  r.request.side = .buy ∧ r.status.accepted

theorem OrderResult.acceptedBuy_iff {r : OrderResult} :
    r.acceptedBuy ↔ r.request.side = .buy ∧ r.status.accepted := by
  simp [OrderResult.acceptedBuy]

/-- An echo is not accepted. -/
theorem OrderStatus.ne_duplicate {s : OrderStatus} (h : s.accepted) : s ≠ .duplicate := by
  rintro rfl
  cases h

/-- What the accepted buys among some results cost together. -/
def acceptedBuyNotional (rs : List OrderResult) : ℚ :=
  ((rs.filter OrderResult.acceptedBuy).map fun r => r.request.notional).sum

@[simp] theorem acceptedBuyNotional_nil : acceptedBuyNotional [] = 0 := rfl

theorem acceptedBuyNotional_append (rs ts : List OrderResult) :
    acceptedBuyNotional (rs ++ ts) = acceptedBuyNotional rs + acceptedBuyNotional ts := by
  simp [acceptedBuyNotional]

end AutoTrade
