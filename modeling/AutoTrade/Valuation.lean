/-
AutoTrade/Valuation.lean

The price that a paper position is worth, in its three readers: the equity of
the book, the account the pipeline sees, and the exits.

The exits read the quote when there is one.  The other two read it with `or`,
so that a quote of zero counts as none and the position keeps the price it was
bought at.  They agree with each other always, and with the exits exactly when
no position is quoted at zero (`oneMark_iff`).
-/
import AutoTrade.Exits
import AutoTrade.Pipeline

namespace AutoTrade

namespace PaperPortfolio

/-- What a share is worth: the quote if there is one, else what it has cost. -/
def priceOf (pos : PaperPosition) (quote : Option ℚ) : ℚ := quote.getD pos.avgCost

/-- The marked equity of a book. -/
def trueEquity (book : PaperPortfolio) (marks : Dict Symbol ℚ) : ℚ :=
  book.cash +
    (book.positions.entries.map fun p => p.2.quantity * priceOf p.2 (marks.get? p.1)).sum

/-- The three valuations of a book use one price for each position. -/
structure OneMark (book : PaperPortfolio) (marks : Dict Symbol ℚ) : Prop where
  /-- the account shows it -/
  account : ∀ item ∈ (book.toSyntheticHoldings marks).items,
    ∃ pos, book.positions.get? item.symbol = some pos ∧
      item.lastPrice = priceOf pos (marks.get? item.symbol)
  /-- the exits are decided at the price that the account shows, where there is a quote -/
  exits : ∀ item ∈ (book.toSyntheticHoldings marks).items, ∀ cfg pos held,
    book.positions.get? item.symbol = some pos →
      exitOf cfg item.symbol pos (marks.get? item.symbol) held =
        exitOf cfg item.symbol pos ((marks.get? item.symbol).map fun _ => item.lastPrice) held
  /-- the account is worth the positions of the book -/
  value : (book.toSyntheticHoldings marks).marketValue.krw = (book.markEquity marks).2
  equity : (book.markEquity marks).1 = book.trueEquity marks
  /-- and this is the equity that the breaker assesses -/
  assessed : ∀ g : Gathered, g.holdings = book.toSyntheticHoldings marks →
    g.cash = some book.cash → g.equity = some (book.trueEquity marks)

/-- No position that has cost something is quoted at zero. -/
def NoZeroQuote (book : PaperPortfolio) (marks : Dict Symbol ℚ) : Prop :=
  ∀ symbol pos, book.positions.get? symbol = some pos → marks.get? symbol = some 0 →
    pos.avgCost = 0

variable {book : PaperPortfolio} {marks : Dict Symbol ℚ}

/-- `mark` and the price of a share differ in nothing but a zero quote. -/
theorem mark_eq_priceOf_iff (pos : PaperPosition) (quote : Option ℚ) :
    mark pos quote = priceOf pos quote ↔ (quote = some 0 → pos.avgCost = 0) := by
  rcases quote with - | q
  · simp [mark, priceOf]
  · by_cases hq : q = 0
    · subst hq
      simp [mark, priceOf]
    · simp [mark, priceOf, hq]

/-- The items of the account, from the positions. -/
theorem mem_items_iff {item : HoldingItem} :
    item ∈ (book.toSyntheticHoldings marks).items →
      ∃ pos, book.positions.get? item.symbol = some pos ∧
        item.lastPrice = mark pos (marks.get? item.symbol) := by
  intro h
  obtain ⟨p, hp, rfl⟩ := List.mem_map.mp h
  exact ⟨p.2, Dict.get?_eq_some.mpr ((sortedItems_perm _).mem_iff.mp hp), rfl⟩

theorem exists_item {symbol : Symbol} {pos : PaperPosition}
    (h : book.positions.get? symbol = some pos) :
    ∃ item ∈ (book.toSyntheticHoldings marks).items,
      item.symbol = symbol ∧ item.lastPrice = mark pos (marks.get? symbol) := by
  refine ⟨_, List.mem_map.mpr ⟨(symbol, pos), ?_, rfl⟩, rfl, rfl⟩
  exact (sortedItems_perm _).mem_iff.mpr (Dict.get?_eq_some.mp h)

/-- **The account is worth what the book says**, whatever the quotes. -/
theorem marketValue_eq_positionsValue (book : PaperPortfolio) (marks : Dict Symbol ℚ) :
    (book.toSyntheticHoldings marks).marketValue.krw = (book.markEquity marks).2 := by
  have hperm := (sortedItems_perm book.positions).map fun p =>
    p.2.quantity * mark p.2 (marks.get? p.1)
  rw [toSyntheticHoldings, CurrencyBucket.krw_ofKrw]
  exact hperm.sum_eq

theorem equity_eq_trueEquity (h : NoZeroQuote book marks) :
    (book.markEquity marks).1 = book.trueEquity marks := by
  have hsame : ∀ p ∈ book.positions.entries,
      p.2.quantity * mark p.2 (marks.get? p.1) = p.2.quantity * priceOf p.2 (marks.get? p.1) := by
    intro p hp
    rw [(mark_eq_priceOf_iff _ _).mpr (h p.1 p.2 (Dict.get?_eq_some.mpr hp))]
  show book.cash + _ = book.cash + _
  rw [List.map_congr_left hsame]

/-- **The three valuations use one price exactly when no position is quoted at
zero.** -/
theorem oneMark_iff (book : PaperPortfolio) (marks : Dict Symbol ℚ) :
    OneMark book marks ↔ NoZeroQuote book marks := by
  constructor
  · intro h symbol pos hpos
    obtain ⟨item, hitem, rfl, hprice⟩ := @exists_item book marks _ _ hpos
    obtain ⟨pos', hpos', hprice'⟩ := h.account item hitem
    obtain rfl : pos = pos' := Option.some.inj (hpos.symm.trans hpos')
    exact (mark_eq_priceOf_iff _ _).mp (hprice.symm.trans hprice')
  · intro h
    have hvalue := marketValue_eq_positionsValue book marks
    refine ⟨?_, ?_, hvalue, equity_eq_trueEquity h, ?_⟩
    · intro item hitem
      obtain ⟨pos, hpos, hprice⟩ := mem_items_iff hitem
      exact ⟨pos, hpos, hprice.trans ((mark_eq_priceOf_iff _ _).mpr (h _ pos hpos))⟩
    · intro item hitem cfg pos held hpos
      obtain ⟨pos', hpos', hprice⟩ := mem_items_iff hitem
      obtain rfl : pos = pos' := Option.some.inj (hpos.symm.trans hpos')
      rcases hquote : marks.get? item.symbol with - | q
      · rfl
      · have hsame := (mark_eq_priceOf_iff pos (marks.get? item.symbol)).mpr (h _ pos hpos)
        rw [hprice, hsame, hquote]
        rfl
    · intro g hg hcash
      rw [Gathered.equity, hg, hcash, ← equity_eq_trueEquity h, Option.map_some, hvalue]
      rfl

namespace Sample

/-- A position whose stock is quoted at zero. -/
def worthless : PaperPortfolio where
  cash := 0
  positions := (∅ : Dict Symbol PaperPosition).set "005930" { quantity := 10, avgCost := 1000 }

end Sample

/-- The exits see a loss of all, the equity none. -/
theorem not_oneMark_sample :
    ¬ OneMark Sample.worthless ((∅ : Dict Symbol ℚ).set "005930" 0) := by
  intro h
  have hne : (Sample.worthless.markEquity ((∅ : Dict Symbol ℚ).set "005930" 0)).1 ≠
      Sample.worthless.trueEquity ((∅ : Dict Symbol ℚ).set "005930" 0) := by
    decide +kernel
  exact hne h.equity

end PaperPortfolio

end AutoTrade
