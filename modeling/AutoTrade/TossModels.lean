/-
AutoTrade/TossModels.lean

The broker's responses (`toss/models.py`), with the fields the engine reads,
and the broker itself as a function of what it is asked.

A tick asks for each symbol's candles once while it screens, and once more for
the market proxy if it has one; the second request may end differently from
the first, so it is a function of its own.
-/
import AutoTrade.OrderModels
import AutoTrade.Lib.Dict

namespace AutoTrade

/-- Amounts by currency, not converted. -/
structure CurrencyBucket where
  root : Dict String ℚ
  deriving DecidableEq

namespace CurrencyBucket

/-- The amount in won, nothing where there is none. -/
def krw (b : CurrencyBucket) : ℚ := (b.root.get? "krw").getD 0

/-- A bucket with won only. -/
def ofKrw (amount : ℚ) : CurrencyBucket := ⟨(∅ : Dict String ℚ).set "krw" amount⟩

@[simp] theorem krw_ofKrw (amount : ℚ) : (ofKrw amount).krw = amount := by
  unfold krw ofKrw
  rw [Dict.get?_set_self, Option.getD_some]

end CurrencyBucket

/-- A position of the account. -/
structure HoldingItem where
  symbol : Symbol
  name : String
  currency : String
  quantity : ℚ
  lastPrice : ℚ
  averagePurchasePrice : ℚ
  /-- `profit_loss.rate` -/
  profitLossRate : ℚ
  deriving DecidableEq

/-- The account as the broker shows it. -/
structure Holdings where
  /-- `market_value.amount` -/
  marketValue : CurrencyBucket
  /-- `daily_profit_loss.rate`, where there is one -/
  dailyProfitLossRate : Option ℚ := none
  items : List HoldingItem := []
  deriving DecidableEq

/-- The flags of a stock in the Korean market. -/
structure KoreanMarketDetail where
  liquidationTrading : Bool
  krxTradingSuspended : Bool
  deriving DecidableEq

/-- The stock master. -/
structure Stock where
  symbol : Symbol
  name : String
  market : Option String := none
  securityType : Option String := none
  /-- `some false`: a preferred share -/
  isCommonShare : Option Bool := none
  status : Option String := none
  currency : Option String := none
  /-- present: leveraged or inverse -/
  leverageFactor : Option ℚ := none
  koreanMarketDetail : Option KoreanMarketDetail := none
  deriving DecidableEq

/-- A bar, with what the engine reads of it. -/
structure Candle where
  closePrice : ℚ
  volume : ℚ
  deriving DecidableEq

/-- A warning; its fields are not settled, only whether there is one. -/
structure StockWarning where
  extra : List (String × String) := []
  deriving DecidableEq

/-- The broker, as what it answers or raises. -/
structure Toss where
  getHoldings : Except Exn Holdings
  getStocks : List Symbol → Except Exn (List Stock)
  getCandles : Symbol → Except Exn (List Candle)
  /-- `get_candles` for the market proxy -/
  getProxyCandles : Symbol → Except Exn (List Candle)
  getStockWarnings : Symbol → Except Exn (List StockWarning)
  /-- `get_buying_power("KRW").cash_buying_power` -/
  getBuyingPower : Except Exn ℚ

end AutoTrade
