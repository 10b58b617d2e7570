/-
AutoTrade/PaperBook.lean

The book-keeping of the paper portfolio (`engine/paper.py`) over any sequence of
fills, with the book stored and loaded again at any point.

`FillOutcome` says once what a fill can do to the book.  From it come the facts
about one fill, and by induction on the fills those about a book:

* `Sound` — the cash is not negative, what is held is positive, and the cash and
  the cost of the positions are the seed and what was realized;
* `sold_afterFills` — what was realized is what the sales realized, and they are
  counted;
* `opened_afterFills` — a position keeps the time of the buy that opened it.

A stored book differs from the book in nothing but the offset of these times
(`PaperPortfolio.stored`), and fills do not read them (`applyFill_stored_eq`), so
that a ledger that is stored and loaded has the book of its fills
(`PaperLedger.run_book`), and `paper_bookkeeping` holds of it.
-/
import AutoTrade.Repo
import AutoTrade.Lib.DictTotal
import AutoTrade.Lib.Run
import Mathlib.Data.List.Induction

namespace AutoTrade

namespace PaperPortfolio

/-! ### What a fill does -/

/-- What a buy costs. -/
def buyCost (cost : CostConfig) (qty price : ℚ) : ℚ :=
  qty * (price * (1 + cost.slippageRate)) * (1 + cost.commissionRate)

/-- What a sale brings in. -/
def sellProceeds (cost : CostConfig) (qty price : ℚ) : ℚ :=
  qty * (price * (1 - cost.slippageRate)) * (1 - cost.commissionRate - cost.sellTaxRate)

/-- The fill of a buy that is paid for. -/
def boughtFill (cost : CostConfig) (symbol : Symbol) (qty price : ℚ) : PaperFill where
  symbol := symbol
  side := .buy
  quantity := qty
  fillPrice := price * (1 + cost.slippageRate)
  cashDelta := -buyCost cost qty price

/-- The fill of a sale of `qty` shares out of a position. -/
def soldFill (cost : CostConfig) (symbol : Symbol) (pos : PaperPosition) (qty price : ℚ) :
    PaperFill where
  symbol := symbol
  side := .sell
  quantity := qty
  fillPrice := price * (1 - cost.slippageRate)
  cashDelta := sellProceeds cost qty price
  realized := some (sellProceeds cost qty price - qty * pos.avgCost)

/-- The position after a further buy. -/
def added (cost : CostConfig) (pos : PaperPosition) (qty price : ℚ) : PaperPosition :=
  { pos with
    avgCost := (pos.quantity * pos.avgCost + buyCost cost qty price) / (pos.quantity + qty)
    quantity := pos.quantity + qty }

/-- The book after a sale, but for its positions. -/
def banked (book : PaperPortfolio) (cost : CostConfig) (pos : PaperPosition) (qty price : ℚ) :
    PaperPortfolio :=
  { book with
    cash := book.cash + sellProceeds cost qty price
    realizedCum := book.realizedCum + (sellProceeds cost qty price - qty * pos.avgCost)
    tradeCount := book.tradeCount + 1 }

/-- What a fill returns and makes of the book. -/
inductive FillOutcome (cost : CostConfig) (book : PaperPortfolio) (req : OrderRequest)
    (now : Option Datetime) : Option PaperFill × PaperPortfolio → Prop
  /-- without a price or a positive quantity -/
  | unfilled : FillOutcome cost book req now (none, book)
  /-- the cash does not suffice, or there is nothing to sell -/
  | skipped (fill : PaperFill) (h : fill.skipped ≠ none) :
    FillOutcome cost book req now (some fill, book)
  | opened (qty price : ℚ) (hprice : req.price = some price) (hqty : 0 < qty)
    (hside : req.side = .buy) (hcash : buyCost cost qty price ≤ book.cash)
    (hpos : book.positions.get? req.symbol = none) :
    FillOutcome cost book req now
      (some (boughtFill cost req.symbol qty price),
        { book with
          cash := book.cash - buyCost cost qty price
          positions := book.positions.set req.symbol
            { quantity := qty, avgCost := buyCost cost qty price / qty, openedAt := now } })
  | added (qty price : ℚ) (hprice : req.price = some price) (hqty : 0 < qty)
    (hside : req.side = .buy) (hcash : buyCost cost qty price ≤ book.cash)
    (pos : PaperPosition) (hpos : book.positions.get? req.symbol = some pos) :
    FillOutcome cost book req now
      (some (boughtFill cost req.symbol qty price),
        { book with
          cash := book.cash - buyCost cost qty price
          positions := book.positions.set req.symbol (added cost pos qty price) })
  | closed (price : ℚ) (hprice : req.price = some price) (hside : req.side = .sell)
    (pos : PaperPosition) (hpos : book.positions.get? req.symbol = some pos)
    (hqty : 0 < pos.quantity) :
    FillOutcome cost book req now
      (some (soldFill cost req.symbol pos pos.quantity price),
        { book.banked cost pos pos.quantity price with
          positions := book.positions.erase req.symbol })
  | reduced (qty price : ℚ) (hprice : req.price = some price) (hside : req.side = .sell)
    (pos : PaperPosition) (hpos : book.positions.get? req.symbol = some pos)
    (hqty : 0 < qty) (hless : qty < pos.quantity) :
    FillOutcome cost book req now
      (some (soldFill cost req.symbol pos qty price),
        { book.banked cost pos qty price with
          positions := book.positions.set req.symbol { pos with quantity := pos.quantity - qty } })

variable (cost : CostConfig)

theorem fillBuy_outcome (book : PaperPortfolio) (req : OrderRequest) (now : Option Datetime)
    {qty price : ℚ} (hprice : req.price = some price) (hqty : 0 < qty) (hside : req.side = .buy) :
    FillOutcome cost book req now
      (some (book.fillBuy req.symbol qty price cost now).1,
        (book.fillBuy req.symbol qty price cost now).2) := by
  unfold fillBuy
  simp only
  split
  · exact .skipped _ (by simp)
  · next hcash =>
    have hcash' : buyCost cost qty price ≤ book.cash := not_lt.mp hcash
    rcases hpos : book.positions.get? req.symbol with - | pos
    · exact .opened qty price hprice hqty hside hcash' hpos
    · exact .added qty price hprice hqty hside hcash' pos hpos

theorem fillSell_outcome (book : PaperPortfolio) (req : OrderRequest) (now : Option Datetime)
    {qty price : ℚ} (hprice : req.price = some price) (hqty : 0 < qty)
    (hside : req.side = .sell) :
    FillOutcome cost book req now
      (some (book.fillSell req.symbol qty price cost).1,
        (book.fillSell req.symbol qty price cost).2) := by
  unfold fillSell
  rcases hpos : book.positions.get? req.symbol with - | pos
  · exact .skipped _ (by simp)
  · simp only
    split
    · exact .skipped _ (by simp)
    · next hheld =>
      -- what is sold is the smaller of what is asked and what is held
      rcases lt_or_ge qty pos.quantity with hless | hall
      · rw [min_eq_left hless.le, if_neg (sub_pos.mpr hless).ne']
        exact .reduced qty price hprice hside pos hpos hqty hless
      · rw [min_eq_right hall, sub_self, if_pos rfl]
        exact .closed price hprice hside pos hpos (not_le.mp hheld)

/-- **What a fill can do.** -/
theorem applyFill_outcome (book : PaperPortfolio) (req : OrderRequest) (now : Option Datetime) :
    FillOutcome cost book req now (book.applyFill req cost now) := by
  unfold applyFill
  rcases hprice : req.price with - | price
  · exact .unfilled
  · rcases req.quantity with - | qty
    · exact .unfilled
    · simp only
      split
      · exact .unfilled
      · next hqty =>
        rcases hside : req.side with - | -
        · exact fillBuy_outcome cost book req now hprice (not_le.mp hqty) hside
        · exact fillSell_outcome cost book req now hprice (not_le.mp hqty) hside

/-- A call that fills nothing: it returns nothing, or a skipped fill. -/
def Unfilled (fill : Option PaperFill) : Prop := ∀ f, fill = some f → f.skipped ≠ none

/-- A call that fills nothing leaves the book as it was. -/
theorem applyFill_unfilled (book : PaperPortfolio) (req : OrderRequest) (now : Option Datetime)
    (h : Unfilled (book.applyFill req cost now).1) : (book.applyFill req cost now).2 = book := by
  have hout := applyFill_outcome cost book req now
  generalize book.applyFill req cost now = r at h hout
  cases hout with
  | unfilled => rfl
  | skipped fill hskip => rfl
  | opened => exact absurd rfl (h _ rfl)
  | added => exact absurd rfl (h _ rfl)
  | closed => exact absurd rfl (h _ rfl)
  | reduced => exact absurd rfl (h _ rfl)

/-! ### A sequence of fills -/

/-- The arguments of a fill: the order and the time. -/
abbrev FillCall := OrderRequest × Option Datetime

/-- The book after some fills. -/
def afterFills (book : PaperPortfolio) (calls : List FillCall) : PaperPortfolio :=
  calls.foldl (fun b c => (b.applyFill c.1 cost c.2).2) book

/-- What some fills return, in order. -/
def returned (book : PaperPortfolio) : List FillCall → List (Option PaperFill)
  | [] => []
  | c :: calls =>
    (book.applyFill c.1 cost c.2).1 :: (book.applyFill c.1 cost c.2).2.returned calls

theorem afterFills_append (book : PaperPortfolio) (calls calls' : List FillCall) :
    book.afterFills cost (calls ++ calls') = (book.afterFills cost calls).afterFills cost calls' :=
  List.foldl_append

theorem afterFills_concat (book : PaperPortfolio) (calls : List FillCall) (c : FillCall) :
    book.afterFills cost (calls ++ [c]) =
      ((book.afterFills cost calls).applyFill c.1 cost c.2).2 := by
  simp [afterFills]

theorem returned_concat (book : PaperPortfolio) (calls : List FillCall) (c : FillCall) :
    book.returned cost (calls ++ [c]) =
      book.returned cost calls ++ [((book.afterFills cost calls).applyFill c.1 cost c.2).1] := by
  induction calls generalizing book with
  | nil => rfl
  | cons c' calls ih =>
    rw [List.cons_append, returned, ih, returned, List.cons_append]
    rfl

/-! ### The identity -/

/-- What the positions of a book cost. -/
def costBasis (book : PaperPortfolio) : ℚ :=
  book.positions.total fun pos => pos.quantity * pos.avgCost

/-- The invariant of the book: nothing is negative, and the cash and the cost of the
positions are the seed and what was realized. -/
structure Sound (seed : ℚ) (book : PaperPortfolio) : Prop where
  cash_nonneg : 0 ≤ book.cash
  quantity_pos : ∀ symbol pos, book.positions.get? symbol = some pos → 0 < pos.quantity
  balance : book.cash + book.costBasis = seed + book.realizedCum

/-- A book starts sound from any seed. -/
theorem sound_seed {seed : ℚ} (hseed : 0 ≤ seed) : Sound seed { cash := seed } where
  cash_nonneg := hseed
  quantity_pos := by
    intro symbol pos hpos
    cases hpos
  balance := by
    show seed + 0 = seed + 0
    rfl

/-- What a set position is, of a book whose positions are all positive. -/
theorem quantity_pos_set {d : Dict Symbol PaperPosition}
    (hd : ∀ symbol pos, d.get? symbol = some pos → 0 < pos.quantity) (symbol : Symbol)
    {new : PaperPosition} (hnew : 0 < new.quantity) :
    ∀ symbol' pos, (d.set symbol new).get? symbol' = some pos → 0 < pos.quantity := by
  intro symbol' pos hpos
  rw [Dict.get?_set] at hpos
  split at hpos
  · rw [← Option.some.inj hpos]
    exact hnew
  · exact hd symbol' pos hpos

/-- A sale brings in something, or nothing. -/
theorem sellProceeds_nonneg (hslip : cost.slippageRate ≤ 1)
    (hsell : cost.commissionRate + cost.sellTaxRate ≤ 1) {qty price : ℚ} (hqty : 0 ≤ qty)
    (hprice : 0 ≤ price) : 0 ≤ sellProceeds cost qty price :=
  mul_nonneg (mul_nonneg hqty (mul_nonneg hprice (sub_nonneg.mpr hslip))) (by linarith)

/-- **A fill keeps the identity.** -/
theorem Sound.applyFill {cost : CostConfig} (hslip : cost.slippageRate ≤ 1)
    (hsell : cost.commissionRate + cost.sellTaxRate ≤ 1) {seed : ℚ} {book : PaperPortfolio}
    (h : Sound seed book) (req : OrderRequest) (hnonneg : ∀ p, req.price = some p → 0 ≤ p)
    (now : Option Datetime) : Sound seed (book.applyFill req cost now).2 := by
  have hout := applyFill_outcome cost book req now
  generalize book.applyFill req cost now = r at hout
  have hbal := h.balance
  cases hout with
  | unfilled => exact h
  | skipped => exact h
  | opened qty price hprice hqty hside hcash hpos =>
    refine ⟨sub_nonneg.mpr hcash, quantity_pos_set h.quantity_pos _ hqty, ?_⟩
    -- what was paid is what the new position cost
    have hbasis : qty * (buyCost cost qty price / qty) = buyCost cost qty price :=
      mul_div_cancel₀ _ hqty.ne'
    rw [costBasis] at hbal ⊢
    rw [Dict.total_set_new _ _ hpos, hbasis]
    linarith
  | added qty price hprice hqty hside hcash pos hpos =>
    have hheld := h.quantity_pos _ _ hpos
    refine ⟨sub_nonneg.mpr hcash, quantity_pos_set h.quantity_pos _ (add_pos hheld hqty), ?_⟩
    -- the average is weighted, so it costs what both buys did
    have hbasis : (PaperPortfolio.added cost pos qty price).quantity *
        (PaperPortfolio.added cost pos qty price).avgCost =
          pos.quantity * pos.avgCost + buyCost cost qty price :=
      mul_div_cancel₀ _ (add_pos hheld hqty).ne'
    rw [costBasis] at hbal ⊢
    rw [Dict.total_set_old _ _ hpos, hbasis]
    linarith
  | closed price hprice hside pos hpos hqty =>
    have hin := sellProceeds_nonneg cost hslip hsell hqty.le (hnonneg _ hprice)
    refine ⟨add_nonneg h.cash_nonneg hin, ?_, ?_⟩
    · intro symbol' pos' hpos'
      rw [Dict.get?_erase] at hpos'
      split at hpos'
      · cases hpos'
      · exact h.quantity_pos symbol' pos' hpos'
    · rw [costBasis] at hbal ⊢
      rw [Dict.total_erase _ hpos]
      simp only [banked]
      linarith
  | reduced qty price hprice hside pos hpos hqty hless =>
    have hin := sellProceeds_nonneg cost hslip hsell hqty.le (hnonneg _ hprice)
    refine ⟨add_nonneg h.cash_nonneg hin,
      quantity_pos_set h.quantity_pos _ (sub_pos.mpr hless), ?_⟩
    rw [costBasis] at hbal ⊢
    rw [Dict.total_set_old _ _ hpos]
    simp only [banked]
    linarith

/-- No price is negative. -/
def PricesNonneg (calls : List FillCall) : Prop :=
  ∀ c ∈ calls, ∀ p, c.1.price = some p → 0 ≤ p

/-- A book stays sound over any fills at prices that are not negative. -/
theorem sound_afterFills {cost : CostConfig} (hslip : cost.slippageRate ≤ 1)
    (hsell : cost.commissionRate + cost.sellTaxRate ≤ 1) {seed : ℚ} (hseed : 0 ≤ seed)
    {calls : List FillCall} (hprices : PricesNonneg calls) :
    Sound seed (afterFills cost { cash := seed } calls) := by
  induction calls using List.reverseRecOn with
  | nil => exact sound_seed hseed
  | append_singleton calls c ih =>
    rw [afterFills_concat]
    have hbefore := ih fun c' hc' => hprices c' (List.mem_append_left _ hc')
    exact hbefore.applyFill hslip hsell c.1 (hprices c (by simp)) c.2

/-! ### What was realized -/

/-- The sales among what some fills returned. -/
def sales (log : List (Option PaperFill)) : List PaperFill :=
  (log.filterMap id).filter fun fill => fill.side = .sell ∧ fill.skipped = none

theorem sales_append (log log' : List (Option PaperFill)) :
    sales (log ++ log') = sales log ++ sales log' := by
  simp [sales]

/-- What one fill adds to the count of the sales and to what they realized. -/
theorem applyFill_sales (book : PaperPortfolio) (req : OrderRequest) (now : Option Datetime) :
    ∃ values : List ℚ,
      (sales [(book.applyFill req cost now).1]).map PaperFill.realized = values.map some ∧
        (book.applyFill req cost now).2.realizedCum = book.realizedCum + values.sum ∧
        (book.applyFill req cost now).2.tradeCount = book.tradeCount + values.length := by
  have hout := applyFill_outcome cost book req now
  generalize book.applyFill req cost now = r at hout
  cases hout with
  | unfilled => exact ⟨[], rfl, (add_zero _).symm, rfl⟩
  | skipped fill h =>
    have hnone : sales [some fill] = [] := by simp [sales, h]
    exact ⟨[], by rw [hnone]; rfl, (add_zero _).symm, rfl⟩
  | opened => exact ⟨[], rfl, (add_zero _).symm, rfl⟩
  | added => exact ⟨[], rfl, (add_zero _).symm, rfl⟩
  | closed price hprice hside pos hpos hqty =>
    exact ⟨[_], rfl, congrArg (book.realizedCum + ·) (List.sum_singleton).symm, rfl⟩
  | reduced qty price hprice hside pos hpos hqty hless =>
    exact ⟨[_], rfl, congrArg (book.realizedCum + ·) (List.sum_singleton).symm, rfl⟩

/-- **What was realized is what the sales realized.** -/
theorem sold_afterFills (seed : ℚ) (calls : List FillCall) :
    ∃ values : List ℚ,
      (sales (returned cost { cash := seed } calls)).map PaperFill.realized = values.map some ∧
        (afterFills cost { cash := seed } calls).realizedCum = values.sum ∧
        (afterFills cost { cash := seed } calls).tradeCount = values.length := by
  induction calls using List.reverseRecOn with
  | nil => exact ⟨[], rfl, rfl, rfl⟩
  | append_singleton calls c ih =>
    obtain ⟨values, hvalues, hcum, hcount⟩ := ih
    obtain ⟨new, hnew, hcum', hcount'⟩ :=
      applyFill_sales cost (afterFills cost { cash := seed } calls) c.1 c.2
    rw [returned_concat, sales_append, afterFills_concat]
    refine ⟨values ++ new, ?_, ?_, ?_⟩
    · rw [List.map_append, List.map_append, hvalues, hnew]
    · rw [hcum', hcum, List.sum_append]
    · rw [hcount', hcount, List.length_append]

/-! ### The time of a position -/

/-- The call `c` opened the position of `symbol`: it bought the symbol when the book
did not have it, and the book has had it since. -/
structure OpenedBy (seed : ℚ) (calls : List FillCall) (symbol : Symbol)
    (pre : List FillCall) (c : FillCall) (post : List FillCall) : Prop where
  split : calls = pre ++ c :: post
  buys : c.1.side = .buy ∧ c.1.symbol = symbol
  absent : symbol ∉ (afterFills cost { cash := seed } pre).positions.keys
  present : ∀ mid, mid <+: post →
    symbol ∈ (afterFills cost { cash := seed } (pre ++ c :: mid)).positions.keys

/-- A position after a fill was there before, with its time, or the fill opened it. -/
theorem applyFill_openedAt (book : PaperPortfolio) (req : OrderRequest) (now : Option Datetime)
    {symbol : Symbol} {pos : PaperPosition}
    (hpos : (book.applyFill req cost now).2.positions.get? symbol = some pos) :
    (∃ old, book.positions.get? symbol = some old ∧ pos.openedAt = old.openedAt) ∨
      (book.positions.get? symbol = none ∧ req.side = .buy ∧ req.symbol = symbol ∧
        pos.openedAt = now) := by
  have hout := applyFill_outcome cost book req now
  generalize book.applyFill req cost now = r at hpos hout
  cases hout with
  | unfilled => exact Or.inl ⟨pos, hpos, rfl⟩
  | skipped => exact Or.inl ⟨pos, hpos, rfl⟩
  | opened qty price hprice hqty hside hcash hnone =>
    rw [Dict.get?_set] at hpos
    split at hpos
    · next hsym =>
      right
      refine ⟨hsym ▸ hnone, hside, hsym, ?_⟩
      rw [← Option.some.inj hpos]
    · exact Or.inl ⟨pos, hpos, rfl⟩
  | added qty price hprice hqty hside hcash old hold =>
    left
    rw [Dict.get?_set] at hpos
    split at hpos
    · next hsym =>
      refine ⟨old, hsym ▸ hold, ?_⟩
      rw [← Option.some.inj hpos]
      rfl
    · exact ⟨pos, hpos, rfl⟩
  | closed price hprice hside old hold hqty =>
    left
    rw [Dict.get?_erase] at hpos
    split at hpos
    · cases hpos
    · exact ⟨pos, hpos, rfl⟩
  | reduced qty price hprice hside old hold hqty hless =>
    left
    rw [Dict.get?_set] at hpos
    split at hpos
    · next hsym =>
      refine ⟨old, hsym ▸ hold, ?_⟩
      rw [← Option.some.inj hpos]
    · exact ⟨pos, hpos, rfl⟩

/-- **A position keeps the time of the buy that opened it.** -/
theorem opened_afterFills (seed : ℚ) (calls : List FillCall) :
    ∀ symbol pos, (afterFills cost { cash := seed } calls).positions.get? symbol = some pos →
      ∃ pre c post, OpenedBy cost seed calls symbol pre c post ∧ pos.openedAt = c.2 := by
  induction calls using List.reverseRecOn with
  | nil =>
    intro symbol pos hpos
    cases hpos
  | append_singleton calls c ih =>
    intro symbol pos hpos
    have hmem := Dict.mem_keys_of_get? hpos
    rw [afterFills_concat] at hpos
    rcases applyFill_openedAt cost _ c.1 c.2 hpos with ⟨old, hold, htime⟩ | ⟨hnone, hb, hs, htime⟩
    · obtain ⟨pre, c', post, hopen, htime'⟩ := ih symbol old hold
      refine ⟨pre, c', post ++ [c], ⟨?_, hopen.buys, hopen.absent, ?_⟩, htime.trans htime'⟩
      · rw [hopen.split]
        simp
      · intro mid hmid
        rcases List.prefix_concat_iff.mp hmid with rfl | hmid
        · rw [hopen.split] at hmem
          simpa using hmem
        · exact hopen.present mid hmid
    · refine ⟨calls, c, [], ⟨rfl, ⟨hb, hs⟩, Dict.get?_eq_none.mp hnone, ?_⟩, htime⟩
      intro mid hmid
      rw [List.prefix_nil.mp hmid]
      exact hmem

/-! ### Storing a book -/

end PaperPortfolio

/-- A position as it is stored. -/
def PaperPosition.stored (pos : PaperPosition) : PaperPosition :=
  { pos with openedAt := pos.openedAt.map fun t => t.astimezone 0 }

@[simp] theorem PaperPosition.stored_stored (pos : PaperPosition) :
    pos.stored.stored = pos.stored := by
  simp [PaperPosition.stored, Function.comp_def, Datetime.astimezone]

/-- A trade in a stored position is stored as the trade in the position. -/
theorem PaperPosition.stored_trade (pos : PaperPosition) (qty avgCost : ℚ) :
    ({ pos.stored with quantity := qty, avgCost := avgCost } : PaperPosition).stored =
      ({ pos with quantity := qty, avgCost := avgCost } : PaperPosition).stored := by
  simp [PaperPosition.stored, Function.comp_def, Datetime.astimezone]

/-- A stored position has the instant of its time. -/
theorem PaperPosition.stored_instant (pos : PaperPosition) :
    pos.stored.openedAt.map Datetime.instant = pos.openedAt.map Datetime.instant := by
  simp [PaperPosition.stored, Function.comp_def, Datetime.astimezone]

namespace PaperPortfolio

variable (cost : CostConfig)

theorem stored_positions (book : PaperPortfolio) :
    book.stored.positions = book.positions.mapValues PaperPosition.stored := rfl

theorem stored_get? (book : PaperPortfolio) (symbol : Symbol) :
    book.stored.positions.get? symbol =
      (book.positions.get? symbol).map PaperPosition.stored := by
  rw [stored_positions, Dict.get?_mapValues]

/-- Two books that are stored alike. -/
theorem stored_ext {book book' : PaperPortfolio} (hcash : book.cash = book'.cash)
    (hpos : book.positions.mapValues PaperPosition.stored =
      book'.positions.mapValues PaperPosition.stored)
    (hcum : book.realizedCum = book'.realizedCum) (hcount : book.tradeCount = book'.tradeCount) :
    book.stored = book'.stored := by
  unfold stored
  rw [hcash, hcum, hcount]
  exact congrArg (fun d => PaperPortfolio.mk book'.cash d book'.realizedCum book'.tradeCount) hpos

/-- What is stored is stored as it is. -/
@[simp] theorem stored_stored (book : PaperPortfolio) : book.stored.stored = book.stored := by
  apply @stored_ext book.stored book rfl ?_ rfl rfl
  rw [stored_positions]
  apply Dict.ext
  simp [Dict.mapValues]

theorem fillBuy_stored (book : PaperPortfolio) (symbol : Symbol) (qty price : ℚ)
    (now : Option Datetime) :
    (book.stored.fillBuy symbol qty price cost now).1 =
        (book.fillBuy symbol qty price cost now).1 ∧
      (book.stored.fillBuy symbol qty price cost now).2.stored =
        (book.fillBuy symbol qty price cost now).2.stored := by
  have hcash : book.stored.cash = book.cash := rfl
  unfold fillBuy
  simp only [hcash, stored_get?]
  split
  · exact ⟨rfl, stored_stored book⟩
  · refine ⟨rfl, stored_ext rfl ?_ rfl rfl⟩
    rw [stored_positions]
    rcases book.positions.get? symbol with - | pos
    · simp only [Option.map_none, Dict.mapValues_set]
      rw [← stored_positions, ← stored_positions, stored_stored]
    · simp only [Option.map_some, Dict.mapValues_set]
      rw [← stored_positions, ← stored_positions, stored_stored]
      exact congrArg _ (pos.stored_trade _ _)

theorem fillSell_stored (book : PaperPortfolio) (symbol : Symbol) (qty price : ℚ) :
    (book.stored.fillSell symbol qty price cost).1 =
        (book.fillSell symbol qty price cost).1 ∧
      (book.stored.fillSell symbol qty price cost).2.stored =
        (book.fillSell symbol qty price cost).2.stored := by
  unfold fillSell
  rw [stored_get?]
  rcases book.positions.get? symbol with - | pos
  · exact ⟨rfl, stored_stored book⟩
  · have hqty : pos.stored.quantity = pos.quantity := rfl
    simp only [Option.map_some, hqty]
    split
    · exact ⟨rfl, stored_stored book⟩
    · refine ⟨rfl, stored_ext rfl ?_ rfl rfl⟩
      simp only
      split
      · rw [Dict.mapValues_erase, Dict.mapValues_erase, ← stored_positions, ← stored_positions,
          stored_stored]
      · rw [Dict.mapValues_set, Dict.mapValues_set, ← stored_positions, ← stored_positions,
          stored_stored]
        exact congrArg _ (pos.stored_trade _ _)

/-- A fill of a stored book is the fill of the book. -/
theorem applyFill_stored (book : PaperPortfolio) (req : OrderRequest) (now : Option Datetime) :
    (book.stored.applyFill req cost now).1 = (book.applyFill req cost now).1 ∧
      (book.stored.applyFill req cost now).2.stored =
        (book.applyFill req cost now).2.stored := by
  have hsame : book.stored.stored = book.stored := stored_stored book
  unfold applyFill
  rcases req.price with - | price
  · exact ⟨rfl, hsame⟩
  · rcases req.quantity with - | qty
    · exact ⟨rfl, hsame⟩
    · simp only
      split
      · exact ⟨rfl, hsame⟩
      · rcases req.side with - | -
        · have h := fillBuy_stored cost book req.symbol qty price now
          exact ⟨congrArg some h.1, h.2⟩
        · have h := fillSell_stored cost book req.symbol qty price
          exact ⟨congrArg some h.1, h.2⟩

/-- **Fills do not read the times**: books that are stored alike stay so. -/
theorem afterFills_stored_eq {book book' : PaperPortfolio} (h : book.stored = book'.stored)
    (calls : List FillCall) :
    (book.afterFills cost calls).stored = (book'.afterFills cost calls).stored := by
  induction calls using List.reverseRecOn with
  | nil => exact h
  | append_singleton calls c ih =>
    rw [afterFills_concat, afterFills_concat, ← (applyFill_stored cost _ c.1 c.2).2, ih,
      (applyFill_stored cost _ c.1 c.2).2]

/-! ### What books that are stored alike have in common -/

/-- Soundness does not depend on the zone of a moment. -/
theorem Sound.of_stored_eq {seed : ℚ} {book book' : PaperPortfolio} (h : Sound seed book)
    (heq : book.stored = book'.stored) : Sound seed book' := by
  have hpositions : book.positions.mapValues PaperPosition.stored =
      book'.positions.mapValues PaperPosition.stored := congrArg positions heq
  have hcash : book.stored.cash = book'.stored.cash := congrArg PaperPortfolio.cash heq
  have hcum : book.stored.realizedCum = book'.stored.realizedCum :=
    congrArg PaperPortfolio.realizedCum heq
  refine ⟨le_of_le_of_eq h.cash_nonneg hcash, ?_, ?_⟩
  · intro symbol pos hpos
    have hget : book.stored.positions.get? symbol = some pos.stored := by
      rw [heq, stored_get?, hpos, Option.map_some]
    rw [stored_get?, Option.map_eq_some_iff] at hget
    obtain ⟨old, hold, hstored⟩ := hget
    have hqty : old.stored.quantity = pos.stored.quantity :=
      congrArg PaperPosition.quantity hstored
    exact lt_of_lt_of_eq (h.quantity_pos symbol old hold) hqty
  · have hbasis : book.costBasis = book'.costBasis := by
      have htotal := congrArg (Dict.total fun pos => pos.quantity * pos.avgCost) hpositions
      rw [Dict.total_mapValues, Dict.total_mapValues] at htotal
      exact htotal
    have hbalance := h.balance
    rw [hbasis] at hbalance
    exact hcash ▸ hcum ▸ hbalance

end PaperPortfolio

/-! ### A ledger that is stored and loaded -/

open PaperPortfolio

/-- A paper book with its storage; the logs are the calls that each comes from, with
what they returned. -/
structure PaperLedger where
  book : PaperPortfolio
  db : Db
  log : List (FillCall × Option PaperFill) := []
  savedLog : List (FillCall × Option PaperFill) := []

/-- What happens to the ledger. -/
inductive LedgerEvent
  | fill (req : OrderRequest) (now : Option Datetime)
  | save
  /-- without a stored book it starts again from the seed -/
  | load

/-- The call of an event. -/
def LedgerEvent.call : LedgerEvent → Option FillCall
  | .fill req now => some (req, now)
  | .save => none
  | .load => none

namespace PaperLedger

/-- The fills that the book comes from. -/
def calls (l : PaperLedger) : List FillCall := l.log.map Prod.fst

/-- What they returned. -/
def fills (l : PaperLedger) : List (Option PaperFill) := l.log.map Prod.snd

variable (cost : CostConfig) (seed : ℚ)

/-- The ledger of a new process, on an empty database. -/
def start : PaperLedger where
  book := { cash := seed }
  db := {}

/-- One event; what is loaded is what was saved, and so is its log. -/
def step (l : PaperLedger) : LedgerEvent → PaperLedger
  | .fill req now =>
    let (fill, book) := l.book.applyFill req cost now
    { l with book, log := l.log ++ [((req, now), fill)] }
  | .save => { l with db := l.db.savePaper l.book, savedLog := l.log }
  | .load => { l with book := l.db.loadPaper.getD { cash := seed }, log := l.savedLog }

/-- Events one after another. -/
def run (es : List LedgerEvent) : PaperLedger := es.foldl (step cost seed) (start seed)

theorem run_concat (es : List LedgerEvent) (e : LedgerEvent) :
    run cost seed (es ++ [e]) = step cost seed (run cost seed es) e := by
  simp [run]

/-- A book and a log of the calls that it comes from. -/
structure Traced (book : PaperPortfolio) (log : List (FillCall × Option PaperFill)) : Prop where
  book : book.stored = (afterFills cost { cash := seed } (log.map Prod.fst)).stored
  fills : log.map Prod.snd = returned cost { cash := seed } (log.map Prod.fst)

theorem Traced.fill {cost : CostConfig} {seed : ℚ} {book : PaperPortfolio}
    {log : List (FillCall × Option PaperFill)} (h : Traced cost seed book log)
    (c : FillCall) :
    Traced cost seed (book.applyFill c.1 cost c.2).2
      (log ++ [(c, (book.applyFill c.1 cost c.2).1)]) := by
  -- the traced book and the book of the fills are stored alike
  have hstep := applyFill_stored cost book c.1 c.2
  have hstep' := applyFill_stored cost (afterFills cost { cash := seed } (log.map Prod.fst)) c.1 c.2
  rw [h.book] at hstep
  constructor
  · rw [List.map_append, List.map_singleton, afterFills_concat, ← hstep.2, hstep'.2]
  · rw [List.map_append, List.map_append, List.map_singleton, List.map_singleton,
      returned_concat, h.fills, ← hstep.1, hstep'.1]

/-- **The book of a run is the book of its fills, and so is the stored book.** -/
theorem traced_run (es : List LedgerEvent) :
    Traced cost seed (run cost seed es).book (run cost seed es).log ∧
      Traced cost seed ((run cost seed es).db.loadPaper.getD { cash := seed })
        (run cost seed es).savedLog := by
  refine @Run.foldl_invariant _ _ (step cost seed)
    (fun l => Traced cost seed l.book l.log ∧
      Traced cost seed (l.db.loadPaper.getD { cash := seed }) l.savedLog)
    ?_ _ ⟨⟨rfl, rfl⟩, ⟨rfl, rfl⟩⟩ es
  rintro l e ⟨hbook, hsaved⟩
  cases e with
  | fill req now => exact ⟨hbook.fill (req, now), hsaved⟩
  | save => exact ⟨hbook, ⟨(stored_stored l.book).trans hbook.book, hbook.fills⟩⟩
  | load => exact ⟨hsaved, hsaved⟩

/-- The calls in the logs are calls of the run. -/
theorem calls_run (es : List LedgerEvent) :
    (∀ c ∈ (run cost seed es).calls, ∃ e ∈ es, e.call = some c) ∧
      ∀ c ∈ (run cost seed es).savedLog.map Prod.fst, ∃ e ∈ es, e.call = some c := by
  induction es using List.reverseRecOn with
  | nil =>
    constructor
    all_goals
      intro c hc
      cases hc
  | append_singleton es e ih =>
    have hold : ∀ c, (∃ e ∈ es, e.call = some c) → ∃ e' ∈ es ++ [e], e'.call = some c := by
      rintro c ⟨e', he', hc⟩
      exact ⟨e', List.mem_append_left _ he', hc⟩
    rw [run_concat]
    cases e with
    | fill req now =>
      refine ⟨?_, fun c hc => hold c (ih.2 c hc)⟩
      intro c hc
      rw [calls, step, List.map_append, List.mem_append, List.map_singleton,
        List.mem_singleton] at hc
      rcases hc with hc | rfl
      · exact hold c (ih.1 c hc)
      · exact ⟨.fill req now, by simp, rfl⟩
    | save => exact ⟨fun c hc => hold c (ih.1 c hc), fun c hc => hold c (ih.1 c hc)⟩
    | load => exact ⟨fun c hc => hold c (ih.2 c hc), fun c hc => hold c (ih.2 c hc)⟩

/-- A load that takes back no fill: the stored book has the fills that the book has. -/
def KeepsFills (l : PaperLedger) (e : LedgerEvent) : Prop := e = .load → l.savedLog = l.log

/-- If no load takes a fill back, the book has the fills of the run. -/
theorem calls_eq {es : List LedgerEvent}
    (h : Run.Admits (step cost seed) KeepsFills (start seed) es) :
    (run cost seed es).calls = es.filterMap LedgerEvent.call := by
  induction es using List.reverseRecOn with
  | nil => rfl
  | append_singleton es e ih =>
    obtain ⟨hpre, hlast, -⟩ := h.split
    rw [run_concat, List.filterMap_append, ← ih hpre]
    cases e with
    | fill req now => simp [calls, step, LedgerEvent.call]
    | save => simp [calls, step, LedgerEvent.call]
    | load =>
      have hsame : (run cost seed es).savedLog = (run cost seed es).log := hlast rfl
      simp [calls, step, LedgerEvent.call, hsame]

/-- The book-keeping of a ledger. -/
structure Bookkept (l : PaperLedger) : Prop where
  sound : Sound seed l.book
  /-- what was realized is what the sales returned, and they are counted -/
  sold : ∃ values : List ℚ,
    (sales l.fills).map PaperFill.realized = values.map some ∧
      l.book.realizedCum = values.sum ∧ l.book.tradeCount = values.length
  /-- a position has the time of the buy that opened it -/
  opened : ∀ symbol pos, l.book.positions.get? symbol = some pos →
    ∃ pre c post, OpenedBy cost seed l.calls symbol pre c post ∧
      pos.openedAt.map Datetime.instant = c.2.map Datetime.instant
  /-- a call that fills nothing changes nothing -/
  unfilled : ∀ req now, Unfilled (l.book.applyFill req cost now).1 →
    (l.book.applyFill req cost now).2 = l.book

/-- **The paper book keeps its books**, however it is filled, stored and loaded; and it
has all the fills of the run unless a load takes some back. -/
theorem paper_bookkeeping (hslip : cost.slippageRate ≤ 1)
    (hsell : cost.commissionRate + cost.sellTaxRate ≤ 1) (hseed : 0 ≤ seed)
    {es : List LedgerEvent}
    (hprices : ∀ e ∈ es, ∀ c, e.call = some c → ∀ p, c.1.price = some p → 0 ≤ p) :
    Bookkept cost seed (run cost seed es) ∧
      (Run.Admits (step cost seed) KeepsFills (start seed) es →
        (run cost seed es).calls = es.filterMap LedgerEvent.call) := by
  refine ⟨?_, calls_eq cost seed⟩
  have htraced := (traced_run cost seed es).1
  have hcalls : PricesNonneg (run cost seed es).calls := by
    intro c hc
    obtain ⟨e, he, hcall⟩ := (calls_run cost seed es).1 c hc
    exact hprices e he c hcall
  generalize run cost seed es = l at htraced hcalls ⊢
  constructor
  · exact (sound_afterFills hslip hsell hseed hcalls).of_stored_eq htraced.book.symm
  · obtain ⟨values, hvalues, hcum, hcount⟩ := sold_afterFills cost seed l.calls
    have hcum' : l.book.stored.realizedCum = _ := congrArg realizedCum htraced.book
    have hcount' : l.book.stored.tradeCount = _ := congrArg tradeCount htraced.book
    refine ⟨values, ?_, hcum'.trans hcum, hcount'.trans hcount⟩
    rw [fills, htraced.fills]
    exact hvalues
  · intro symbol pos hpos
    have hget : (afterFills cost { cash := seed } l.calls).stored.positions.get? symbol =
        some pos.stored := by
      rw [calls, ← htraced.book, stored_get?, hpos, Option.map_some]
    rw [stored_get?, Option.map_eq_some_iff] at hget
    obtain ⟨old, hold, hstored⟩ := hget
    obtain ⟨pre, c, post, hopen, htime⟩ := opened_afterFills cost seed l.calls symbol old hold
    refine ⟨pre, c, post, hopen, ?_⟩
    rw [← pos.stored_instant, ← hstored, old.stored_instant, htime]
  · intro req now hun
    exact applyFill_unfilled cost l.book req now hun

namespace Sample

/-- Ten shares are bought and the book is stored; after a restart six are sold. -/
def roundTrip : List LedgerEvent :=
  [.fill { clientOrderId := "o1", symbol := "005930", side := .buy, orderType := .limit,
           quantity := some 10, price := some 1000 } (some ⟨0, KST⟩),
    .save, .load,
    .fill { clientOrderId := "o2", symbol := "005930", side := .sell, orderType := .limit,
            quantity := some 6, price := some 1200 } (some ⟨usPerDay, KST⟩)]

end Sample

/-- A buy, a sale and a restart between them. -/
theorem paper_bookkeeping_sample :
    Bookkept {} 100000 (run {} 100000 Sample.roundTrip) ∧
      (run {} 100000 Sample.roundTrip).calls = Sample.roundTrip.filterMap LedgerEvent.call ∧
      (run {} 100000 Sample.roundTrip).book.tradeCount = 1 := by
  have hprices : ∀ e ∈ Sample.roundTrip, ∀ c, e.call = some c → ∀ p, c.1.price = some p →
      0 ≤ p := by
    simp [Sample.roundTrip, LedgerEvent.call]
  have hkept := paper_bookkeeping {} 100000 (by decide +kernel) (by decide +kernel)
    (by decide +kernel) hprices
  have hadmits : Run.Admits (step {} 100000) KeepsFills (start 100000) Sample.roundTrip := by
    simp [Sample.roundTrip, KeepsFills, step]
  exact ⟨hkept.1, hkept.2 hadmits, by decide +kernel⟩

end PaperLedger

end AutoTrade
