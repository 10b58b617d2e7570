/-
AutoTrade/NextOpen.lean

The fills of a backtest.

The orders that a tick accepted are filled at the opens of the next day, once,
and nothing else changes the book.  Every one of them adds one to the buys, the
sales or the unfilled, and the map of the entry days follows the positions
(`Filled`, one order; `Opens`, one day).  By induction on the days this is what
`next_open_fills` says of a whole backtest.

A missing bar is not filled.  A bar with an open of zero is there, though, and
an order meets it like any other (`positiveFill_iff`).  So a backtest pays for all
that it fills when its history has no such bar on a day with orders to fill
(`positive_fills`).
-/
import AutoTrade.LookAhead
import AutoTrade.PaperBook
import Mathlib.Algebra.BigOperators.Group.Finset.Basic

namespace AutoTrade

open Effect PaperPortfolio

namespace BacktestArgs

variable (a : BacktestArgs)

/-! ### The days of a run -/

/-- The loop over the first days. -/
def after (i : ℕ) : Except Exn PUnit × Backtest := a.run (a.days.take i) a.start

/-- What the tick of a day gives, from the variables before the day. -/
def tickOn (d : Date) (b : Backtest) : Except Exn TickResult × OrderService :=
  runTick (a.tickArgs (a.opening d b) d) (a.opening d b).svc

/-- The orders that the tick of the day `i` accepted. -/
def acceptedOn (i : ℕ) : List OrderRequest :=
  match a.days[i]? with
  | none => []
  | some d =>
    match (a.tickOn d (a.after i).2).1 with
    | .error _ => []
    | .ok tick => (tick.orders.filter fun o => o.status = .dryRun).map OrderResult.request

/-- The orders that the tick of the day before `i` accepted. -/
def acceptedBefore : ℕ → List OrderRequest
  | 0 => []
  | i + 1 => a.acceptedOn i

/-- The book after an order meets the open of its symbol. -/
def fillAtOpen (d : Date) (book : PaperPortfolio) (req : OrderRequest) : PaperPortfolio :=
  match a.replay.openOn req.symbol d with
  | none => book
  | some px => (book.applyFill { req with price := some px } {} (some (closingTime d))).2

theorem day_eq_ok {d : Date} {b c : Backtest} {u : PUnit} (h : a.day d b = (.ok u, c)) :
    ∃ tick svc, a.tickOn d b = (.ok tick, svc) ∧
      c = a.closing d tick { a.opening d b with svc := svc } := by
  rw [day, bind_ok (change_apply (a.opening d) b), bind_ok (look_apply id _)] at h
  obtain ⟨tick, mid, htick, hclose⟩ := bind_eq_ok.mp h
  obtain ⟨hok, hmid⟩ := Prod.mk.inj htick
  refine ⟨tick, (a.tickOn d b).2, Prod.ext hok rfl, ?_⟩
  rw [change_apply] at hclose
  rw [← (Prod.mk.inj hclose).2, ← hmid]
  rfl

theorem run_concat (ds : List Date) (d : Date) (b : Backtest) :
    a.run (ds ++ [d]) b = (a.run ds >>= fun _ => a.day d) b := by
  refine (foldM_append _ _ _ _ _).trans ?_
  have hfold : foldM (fun _ d => a.day d) ⟨⟩ ds b = a.run ds b := rfl
  rw [bind_apply, bind_apply, hfold]
  rcases a.run ds b with ⟨e | u, c⟩
  · rfl
  · show (a.day d >>= fun _ => pure ⟨⟩) c = a.day d c
    rw [bind_apply]
    rcases a.day d c with ⟨e | v, c'⟩
    · rfl
    · rfl

/-- A backtest that returns went through every day. -/
theorem after_ok {b : Backtest} {u : PUnit} (h : a.runBacktest = (.ok u, b)) (i : ℕ) :
    (a.after i).1 = .ok ⟨⟩ := by
  have hsplit : a.runBacktest =
      (a.run (a.days.take i) >>= fun _ => a.run (a.days.drop i)) a.start := by
    show a.run a.days a.start = _
    conv_lhs => rw [← List.take_append_drop i a.days]
    exact foldM_append _ _ _ _ _
  obtain ⟨v, mid, hmid, -⟩ := bind_eq_ok.mp (hsplit.symm.trans h)
  rw [after, hmid]

theorem after_day {b : Backtest} {u : PUnit} (h : a.runBacktest = (.ok u, b)) {i : ℕ} {d : Date}
    (hd : a.days[i]? = some d) :
    ∃ tick svc, a.tickOn d (a.after i).2 = (.ok tick, svc) ∧
      (a.after (i + 1)).2 =
        a.closing d tick { a.opening d (a.after i).2 with svc := svc } := by
  have hnext : a.after (i + 1) = (.ok ⟨⟩, (a.after (i + 1)).2) :=
    Prod.ext (a.after_ok h (i + 1)) rfl
  have hstep : a.after (i + 1) =
      (a.run (a.days.take i) >>= fun _ => a.day d) a.start := by
    rw [after, List.take_add_one, hd, Option.toList_some]
    exact a.run_concat _ _ _
  obtain ⟨v, mid, hmid, hday⟩ := bind_eq_ok.mp (hstep.symm.trans hnext)
  have hi : (a.after i).2 = mid := by
    rw [after, hmid]
  rw [hi]
  exact a.day_eq_ok hday

/-! ### One order -/

/-- The orders that a backtest has counted. -/
def counted (b : Backtest) : ℕ := b.buys + b.paper.tradeCount + b.unfilled

/-- The entry days are those of the positions. -/
def Tracked (b : Backtest) : Prop := ∀ s, s ∈ b.opened.keys ↔ s ∈ b.paper.positions.keys

/-- What an order of the day before does to the variables. -/
structure Filled (d : Date) (req : OrderRequest) (b c : Backtest) : Prop where
  paper : c.paper = a.fillAtOpen d b.paper req
  counted : counted c = counted b + 1
  pending : c.pending = b.pending
  tracked : Tracked b → Tracked c

/-- **An order of the day before is counted once.** -/
theorem filled_fillPending (d : Date) (b : Backtest) (req : OrderRequest) :
    a.Filled d req b (a.fillPending d b req) := by
  rcases hopen : a.replay.openOn req.symbol d with - | px
  · have hfill : a.fillPending d b req = { b with unfilled := b.unfilled + 1 } := by
      simp only [fillPending, hopen]
    rw [hfill]
    exact ⟨by simp only [fillAtOpen, hopen], (Nat.add_assoc _ _ _).symm, rfl, id⟩
  · have hout := applyFill_outcome {} b.paper { req with price := some px }
      (some (closingTime d))
    have hpaper : a.fillAtOpen d b.paper req =
        (b.paper.applyFill { req with price := some px } {} (some (closingTime d))).2 := by
      simp only [fillAtOpen, hopen]
    unfold fillPending
    simp only [hopen]
    generalize b.paper.applyFill { req with price := some px } {} (some (closingTime d)) = r
      at hout hpaper
    -- an order that is not filled, and the four ways it can be
    cases hout with
    | unfilled => exact ⟨hpaper.symm, (Nat.add_assoc _ _ _).symm, rfl, id⟩
    | skipped fill hskip =>
      have hsome : fill.skipped.isSome = true := Option.isSome_iff_ne_none.mpr hskip
      simp only [hsome, if_true]
      exact ⟨hpaper.symm, (Nat.add_assoc _ _ _).symm, rfl, id⟩
    | opened qty price hprice hqty hside hcash hpos =>
      have hside : req.side = .buy := hside
      have hnew : req.symbol ∉ b.paper.positions.keys := Dict.get?_eq_none.mp hpos
      simp only [boughtFill, Option.isSome_none, Bool.false_eq_true, if_false, hside, if_true]
      refine ⟨hpaper.symm, ?_, rfl, ?_⟩
      · simp only [counted]
        omega
      · intro h s
        have hopened : req.symbol ∉ b.opened.keys := fun hs => hnew ((h _).mp hs)
        simp only [hopened, if_false, Dict.mem_keys_set, h s]
    | added qty price hprice hqty hside hcash pos hpos =>
      have hside : req.side = .buy := hside
      have hheld : req.symbol ∈ b.paper.positions.keys := Dict.mem_keys_of_get? hpos
      simp only [boughtFill, Option.isSome_none, Bool.false_eq_true, if_false, hside, if_true]
      refine ⟨hpaper.symm, ?_, rfl, ?_⟩
      · simp only [counted]
        omega
      · intro h s
        simp only [(h req.symbol).mpr hheld, if_true, Dict.mem_keys_set, h s]
        grind
    | closed price hprice hside pos hpos hqty =>
      have hside : req.side = .sell := hside
      have hgone : req.symbol ∉ (b.paper.positions.erase req.symbol).keys :=
        fun hs => (Dict.mem_keys_erase.mp hs).1 rfl
      simp only [soldFill, banked, Option.isSome_none, Bool.false_eq_true, hside, hgone,
        reduceCtorEq, if_false]
      refine ⟨hpaper.symm, ?_, rfl, ?_⟩
      · simp only [counted]
        omega
      · intro h s
        simp only [Dict.mem_keys_erase, h s]
    | reduced qty price hprice hside pos hpos hqty hless =>
      have hside : req.side = .sell := hside
      have hheld : req.symbol ∈ b.paper.positions.keys := Dict.mem_keys_of_get? hpos
      simp only [soldFill, banked, Option.isSome_none, Bool.false_eq_true, hside, reduceCtorEq,
        if_false, Dict.mem_keys_set]
      refine ⟨hpaper.symm, ?_, rfl, ?_⟩
      · simp only [counted]
        omega
      · intro h s
        simp only [true_or, if_true, Dict.mem_keys_set, h s]
        grind

/-! ### One day -/

/-- The orders of the day before, one after the other. -/
theorem filled_foldl (d : Date) (reqs : List OrderRequest) (b : Backtest) :
    (reqs.foldl (a.fillPending d) b).paper = reqs.foldl (a.fillAtOpen d) b.paper ∧
      counted (reqs.foldl (a.fillPending d) b) = counted b + reqs.length ∧
      (Tracked b → Tracked (reqs.foldl (a.fillPending d) b)) := by
  induction reqs generalizing b with
  | nil => exact ⟨rfl, rfl, id⟩
  | cons req reqs ih =>
    have hone := a.filled_fillPending d b req
    obtain ⟨hpaper, hcounted, htracked⟩ := ih (a.fillPending d b req)
    refine ⟨?_, ?_, fun h => htracked (hone.tracked h)⟩
    · rw [List.foldl_cons, hpaper, hone.paper, List.foldl_cons]
    · rw [List.foldl_cons, hcounted, hone.counted, List.length_cons]
      omega

/-- What the day `i` makes of the variables. -/
structure Opens (i : ℕ) (d : Date) (b c : Backtest) : Prop where
  paper : c.paper = b.pending.foldl (a.fillAtOpen d) b.paper
  counted : counted c = counted b + b.pending.length
  pending : c.pending = a.acceptedOn i
  tracked : Tracked b → Tracked c

/-- **A day fills what is pending, and leaves pending what its tick accepts.** -/
theorem opens_day {b : Backtest} {u : PUnit} (h : a.runBacktest = (.ok u, b)) {i : ℕ} {d : Date}
    (hd : a.days[i]? = some d) : a.Opens i d (a.after i).2 (a.after (i + 1)).2 := by
  obtain ⟨tick, svc, htick, hafter⟩ := a.after_day h hd
  obtain ⟨hpaper, hcounted, htracked⟩ := a.filled_foldl d (a.after i).2.pending (a.after i).2
  rw [hafter]
  refine ⟨hpaper, hcounted, ?_, htracked⟩
  have haccepted : a.acceptedOn i =
      (tick.orders.filter fun o => o.status = .dryRun).map OrderResult.request := by
    unfold acceptedOn
    rw [hd]
    simp only [htick]
  exact haccepted.symm

/-! ### The whole backtest -/

theorem after_pending {b : Backtest} {u : PUnit} (h : a.runBacktest = (.ok u, b)) {i : ℕ}
    (hi : i ≤ a.days.length) : (a.after i).2.pending = a.acceptedBefore i := by
  rcases i with - | i
  · rfl
  · exact (a.opens_day h (List.getElem?_eq_getElem (by omega))).pending

/-- The orders accepted so far are counted or pending. -/
theorem after_counted {b : Backtest} {u : PUnit} (h : a.runBacktest = (.ok u, b)) {i : ℕ}
    (hi : i ≤ a.days.length) :
    counted (a.after i).2 + (a.after i).2.pending.length =
        ∑ j ∈ Finset.range i, (a.acceptedOn j).length ∧ Tracked (a.after i).2 := by
  induction i with
  | zero => exact ⟨rfl, fun s => Iff.rfl⟩
  | succ i ih =>
    obtain ⟨hcounted, htracked⟩ := ih (by omega)
    have hday := a.opens_day h (List.getElem?_eq_getElem (by omega : i < a.days.length))
    refine ⟨?_, hday.tracked htracked⟩
    rw [hday.counted, hcounted, hday.pending, Finset.sum_range_succ]

/-- The discipline of a backtest that ended with the variables `b`. -/
structure NextOpen (b : Backtest) : Prop where
  /-- the book of a day is that of the day before, after the orders that the
  tick of the day before accepted have met the opens -/
  ledger : ∀ i d, a.days[i]? = some d →
    (a.after (i + 1)).2.paper =
      (a.acceptedBefore i).foldl (a.fillAtOpen d) (a.after i).2.paper
  /-- an order is pending for one day, those of the last day for ever -/
  pending : ∀ i, i < a.days.length → (a.after (i + 1)).2.pending = a.acceptedOn i
  final : b = (a.after a.days.length).2
  counted : ∑ i ∈ Finset.range (a.days.length - 1), (a.acceptedOn i).length =
    b.buys + b.paper.tradeCount + b.unfilled
  tracked : ∀ i, i ≤ a.days.length → ∀ s,
    s ∈ (a.after i).2.opened.keys ↔ s ∈ (a.after i).2.paper.positions.keys

/-- **Orders are filled at the next open, once, and all of them are counted.** -/
theorem next_open_fills {b : Backtest} {u : PUnit} (h : a.runBacktest = (.ok u, b)) :
    a.NextOpen b := by
  have hfinal : b = (a.after a.days.length).2 := by
    rw [after, List.take_length]
    exact (congrArg Prod.snd h).symm
  refine ⟨?_, ?_, hfinal, ?_, fun i hi => (a.after_counted h hi).2⟩
  · intro i d hd
    have hi : i < a.days.length := (List.getElem?_eq_some_iff.mp hd).1
    rw [(a.opens_day h hd).paper, a.after_pending h hi.le]
  · intro i hi
    exact a.after_pending h hi
  · -- what the last day accepted is pending, all before it is counted
    rcases hlen : a.days.length with - | m
    · rw [hfinal, hlen]
      rfl
    · have hcounted := (a.after_counted h le_rfl).1
      rw [← hfinal, hlen, Finset.sum_range_succ] at hcounted
      have hlast := a.after_pending h le_rfl
      rw [← hfinal, hlen] at hlast
      have hlast : b.pending = a.acceptedOn m := hlast
      rw [hlast] at hcounted
      rw [Nat.add_sub_cancel]
      exact (Nat.add_right_cancel hcounted).symm

/-! ### A bar without an open -/

/-- No bar has a negative open. -/
def OpensNonneg : Prop := ∀ bars ∈ a.histories.values, ∀ bar ∈ bars, 0 ≤ bar.openPrice

/-- The backtest meets the order `req` on the day `d`, with the variables `b`. -/
def Meets (d : Date) (b : Backtest) (req : OrderRequest) : Prop :=
  ∃ i done rest, a.days[i]? = some d ∧ (a.after i).1 = .ok ⟨⟩ ∧
    (a.after i).2.pending = done ++ req :: rest ∧ b = done.foldl (a.fillPending d) (a.after i).2

/-- The order is filled at a positive price, for money, or not at all. -/
structure PositiveFill (d : Date) (b : Backtest) (req : OrderRequest) : Prop where
  price : ∀ px f book, a.replay.openOn req.symbol d = some px →
    b.paper.applyFill { req with price := some px } {} (some (closingTime d)) = (some f, book) →
      f.skipped = none →
        0 < f.fillPrice ∧ (f.side = .buy → book.cash < b.paper.cash) ∧
          (f.side = .sell → b.paper.cash < book.cash)
  /-- an open of zero is no open -/
  missing : a.replay.openOn req.symbol d = some 0 →
    (a.fillPending d b req).paper = b.paper ∧
      (a.fillPending d b req).unfilled = b.unfilled + 1 ∧
      (a.fillPending d b req).buys = b.buys ∧ (a.fillPending d b req).opened = b.opened

/-- The book can fill the order at a price of zero. -/
def Fillable (book : PaperPortfolio) (req : OrderRequest) : Prop :=
  ∃ qty, req.quantity = some qty ∧ 0 < qty ∧
    match req.side with
    | .buy => 0 ≤ book.cash
    | .sell => ∃ pos, book.positions.get? req.symbol = some pos ∧ 0 < pos.quantity

variable {a}

/-- An open is that of a bar of the histories. -/
theorem exists_bar_of_openOn {s : Symbol} {d : Date} {px : ℚ}
    (h : a.replay.openOn s d = some px) :
    ∃ bars ∈ a.histories.values, ∃ bar ∈ bars, bar.openPrice = px := by
  obtain ⟨bar, hbar, hpx⟩ := Option.map_eq_some_iff.mp h
  have hmem := List.mem_of_find?_eq_some hbar
  rw [ReplayToss.bars, replay, ReplayToss.new, Dict.get?_mapValues] at hmem
  rcases hbars : a.histories.get? s with - | bars
  · rw [hbars] at hmem
    cases hmem
  · rw [hbars] at hmem
    exact ⟨bars, Dict.mem_values.mpr ⟨s, hbars⟩, bar, (List.mem_insertionSort _).mp hmem, hpx⟩

/-- At a positive price a fill moves money. -/
theorem positive_of_price {book book' : PaperPortfolio} {req : OrderRequest} {px : ℚ}
    {now : Option Datetime} {f : PaperFill} (hpx : 0 < px)
    (h : book.applyFill { req with price := some px } {} now = (some f, book'))
    (hfilled : f.skipped = none) :
    0 < f.fillPrice ∧ (f.side = .buy → book'.cash < book.cash) ∧
      (f.side = .sell → book.cash < book'.cash) := by
  have hbuy : ∀ qty : ℚ, 0 < qty → 0 < buyCost {} qty px := by
    intro qty hqty
    unfold buyCost
    positivity
  have hsell : ∀ qty : ℚ, 0 < qty → 0 < sellProceeds {} qty px := by
    intro qty hqty
    have hpos : (0 : ℚ) < qty * px := mul_pos hqty hpx
    unfold sellProceeds
    norm_num
    positivity
  have hup : 0 < px * (1 + ({} : CostConfig).slippageRate) := by
    norm_num
    exact hpx
  have hdown : 0 < px * (1 - ({} : CostConfig).slippageRate) := by
    norm_num
    exact hpx
  have hout := applyFill_outcome {} book { req with price := some px } now
  rw [h] at hout
  cases hout with
  | skipped _ hskip => exact absurd hfilled hskip
  | opened qty price hprice hqty hside hcash hpos =>
    obtain rfl : px = price := Option.some.inj hprice
    exact ⟨hup, fun _ => sub_lt_self _ (hbuy qty hqty), fun hs => (nomatch hs)⟩
  | added qty price hprice hqty hside hcash pos hpos =>
    obtain rfl : px = price := Option.some.inj hprice
    exact ⟨hup, fun _ => sub_lt_self _ (hbuy qty hqty), fun hs => (nomatch hs)⟩
  | closed price hprice hside pos hpos hqty =>
    obtain rfl : px = price := Option.some.inj hprice
    exact ⟨hdown, fun hs => (nomatch hs), fun _ => lt_add_of_pos_right _ (hsell _ hqty)⟩
  | reduced qty price hprice hside pos hpos hqty hless =>
    obtain rfl : px = price := Option.some.inj hprice
    exact ⟨hdown, fun hs => (nomatch hs), fun _ => lt_add_of_pos_right _ (hsell _ hqty)⟩

theorem side_cases (side : Side) : side = .buy ∨ side = .sell := by
  cases side
  · exact Or.inl rfl
  · exact Or.inr rfl

/-- A fill at a price of zero. -/
theorem applyFill_zero_buy (book : PaperPortfolio) {req : OrderRequest} {qty : ℚ}
    (hqty : req.quantity = some qty) (hpos : 0 < qty) (hside : req.side = .buy)
    (now : Option Datetime) :
    book.applyFill { req with price := some 0 } {} now =
      (some (book.fillBuy req.symbol qty 0 {} now).1,
        (book.fillBuy req.symbol qty 0 {} now).2) := by
  unfold applyFill
  simp only [hqty, not_le.mpr hpos, if_false, hside]

theorem applyFill_zero_sell (book : PaperPortfolio) {req : OrderRequest} {qty : ℚ}
    (hqty : req.quantity = some qty) (hpos : 0 < qty) (hside : req.side = .sell)
    (now : Option Datetime) :
    book.applyFill { req with price := some 0 } {} now =
      (some (book.fillSell req.symbol qty 0 {}).1, (book.fillSell req.symbol qty 0 {}).2) := by
  unfold applyFill
  simp only [hqty, not_le.mpr hpos, if_false, hside]

/-- What can be filled at zero is filled, and at zero. -/
theorem filled_of_fillable {book : PaperPortfolio} {req : OrderRequest} (h : Fillable book req)
    (now : Option Datetime) :
    ∃ f, (book.applyFill { req with price := some 0 } {} now).1 = some f ∧
      f.skipped = none ∧ f.fillPrice = 0 := by
  obtain ⟨qty, hqty, hpos, hside⟩ := h
  rcases side_cases req.side with hs | hs
  · rw [hs] at hside
    have hcash : ¬ book.cash < 0 := not_lt.mpr hside
    rw [applyFill_zero_buy book hqty hpos hs]
    refine ⟨_, rfl, ?_, ?_⟩
    all_goals simp [fillBuy, hcash]
  · rw [hs] at hside
    obtain ⟨pos, hget, hheld⟩ := hside
    rw [applyFill_zero_sell book hqty hpos hs]
    refine ⟨_, rfl, ?_, ?_⟩
    all_goals simp [fillSell, hget, not_le.mpr hheld]

/-- What cannot be filled at zero is not filled. -/
theorem unfilled_of_not_fillable {book : PaperPortfolio} {req : OrderRequest}
    (h : ¬ Fillable book req) (now : Option Datetime) :
    Unfilled (book.applyFill { req with price := some 0 } {} now).1 := by
  rcases Option.eq_none_or_eq_some req.quantity with hqty | ⟨qty, hqty⟩
  · intro f hf
    simp [applyFill, hqty] at hf
  · by_cases hpos : 0 < qty
    · rcases side_cases req.side with hs | hs
      · have hcash : book.cash < 0 :=
          not_le.mp fun hc => h ⟨qty, hqty, hpos, by rw [hs]; exact hc⟩
        rw [applyFill_zero_buy book hqty hpos hs]
        intro f hf
        rw [← Option.some.inj hf]
        simp [fillBuy, hcash]
      · have hheld : ∀ pos, book.positions.get? req.symbol = some pos → pos.quantity ≤ 0 := by
          intro pos hget
          exact not_lt.mp fun hp => h ⟨qty, hqty, hpos, by rw [hs]; exact ⟨pos, hget, hp⟩⟩
        rw [applyFill_zero_sell book hqty hpos hs]
        intro f hf
        rw [← Option.some.inj hf]
        rcases hget : book.positions.get? req.symbol with - | pos
        · simp [fillSell, hget]
        · simp [fillSell, hget, hheld pos hget]
    · intro f hf
      simp [applyFill, hqty, not_lt.mp hpos] at hf

variable (a)

/-- An order is filled at a positive price exactly when it does not meet an
open of zero that the book can fill it at. -/
theorem positiveFill_iff (hopens : a.OpensNonneg) (d : Date) (b : Backtest) (req : OrderRequest) :
    a.PositiveFill d b req ↔
      ¬ (a.replay.openOn req.symbol d = some 0 ∧ Fillable b.paper req) := by
  constructor
  · rintro h ⟨hzero, hfillable⟩
    obtain ⟨f, hf, hskip, hprice⟩ := filled_of_fillable hfillable (some (closingTime d))
    exact (h.price 0 f _ hzero (Prod.ext hf rfl) hskip).1.ne' hprice
  · intro h
    refine ⟨fun px f book hopen hfill hskip => ?_, fun hzero => ?_⟩
    · obtain ⟨bars, hbars, bar, hbar, rfl⟩ := exists_bar_of_openOn hopen
      rcases (hopens bars hbars bar hbar).eq_or_lt with hzero | hpx
      · rw [← hzero] at hopen hfill
        have hno := unfilled_of_not_fillable (fun hf => h ⟨hopen, hf⟩) (some (closingTime d))
        exact absurd hskip (hno f (congrArg Prod.fst hfill))
      · exact positive_of_price hpx hfill hskip
    · have hno := unfilled_of_not_fillable (fun hf => h ⟨hzero, hf⟩) (some (closingTime d))
      have hsame := applyFill_unfilled {} b.paper { req with price := some 0 } _ hno
      unfold fillPending
      simp only [hzero]
      generalize b.paper.applyFill { req with price := some 0 } {} (some (closingTime d)) = r
        at hno hsame
      rcases r with ⟨f | f, book⟩
      · exact ⟨hsame, rfl, rfl, rfl⟩
      · have hsome : f.skipped.isSome = true := Option.isSome_iff_ne_none.mpr (hno f rfl)
        simp only [hsome, if_true, and_true]
        exact hsame

/-- No symbol opens at zero on a simulated day after the first. -/
def OpensTrade : Prop := ∀ s, ∀ d ∈ a.days.tail, a.replay.openOn s d ≠ some 0

/-- The first day has no order to fill. -/
theorem Meets.day {a : BacktestArgs} {d : Date} {b : Backtest} {req : OrderRequest}
    (h : a.Meets d b req) : d ∈ a.days.tail := by
  obtain ⟨i, done, rest, hd, -, hpending, -⟩ := h
  rcases i with - | i
  · have hnone : (a.after 0).2.pending = [] := rfl
    rw [hnone] at hpending
    exact absurd hpending.symm (by simp)
  · refine List.mem_of_getElem? (i := i) ?_
    rw [List.getElem?_tail]
    exact hd

/-- **A backtest fills no order at a price of zero** when no symbol opens at zero on a
day with orders to fill. -/
theorem positive_fills (hopens : a.OpensNonneg) (htrade : a.OpensTrade) :
    ∀ d b req, a.Meets d b req → a.PositiveFill d b req := by
  intro d b req hmeets
  refine (a.positiveFill_iff hopens d b req).mpr ?_
  rintro ⟨hzero, -⟩
  exact htrade req.symbol d hmeets.day hzero

end BacktestArgs

namespace Sample

theorem after_buyOnce (px : ℚ) :
    (buyOnce px).after 1 = (buyOnce px).run [6] (buyOnce px).start := by
  rw [BacktestArgs.after, days_buyOnce]
  rfl

end Sample

/-- A zero open on the seventh day: the shares are free. -/
theorem free_shares :
    (Sample.buyOnce 0).OpensNonneg ∧
      (∀ bars ∈ (Sample.buyOnce 0).histories.values, ∀ bar ∈ bars, 0 < bar.closePrice) ∧
      ¬ ∀ d b req, (Sample.buyOnce 0).Meets d b req → (Sample.buyOnce 0).PositiveFill d b req := by
  have hopens : (Sample.buyOnce 0).OpensNonneg := by
    unfold BacktestArgs.OpensNonneg
    decide +kernel
  refine ⟨hopens, by decide +kernel, fun h => ?_⟩
  -- the one order of the sixth day, and what it meets
  have hok : ((Sample.buyOnce 0).after 1).1 = .ok ⟨⟩ := by
    rw [Sample.after_buyOnce]
    decide +kernel
  have hcash : 0 ≤ ((Sample.buyOnce 0).after 1).2.paper.cash := by
    rw [Sample.after_buyOnce]
    decide +kernel
  have hlen : ((Sample.buyOnce 0).after 1).2.pending.length = 1 := by
    rw [Sample.after_buyOnce]
    decide +kernel
  have horder : ∀ req ∈ ((Sample.buyOnce 0).after 1).2.pending,
      req.symbol = "005930" ∧ req.side = .buy ∧ req.quantity = some 72 := by
    rw [Sample.after_buyOnce]
    decide +kernel
  obtain ⟨req, hreq⟩ := List.length_eq_one_iff.mp hlen
  obtain ⟨hsymbol, hside, hqty⟩ := horder req (by simp [hreq])
  have hmeets : (Sample.buyOnce 0).Meets 7 ((Sample.buyOnce 0).after 1).2 req :=
    ⟨1, [], [], by rw [Sample.days_buyOnce]; rfl, hok, hreq, rfl⟩
  refine ((Sample.buyOnce 0).positiveFill_iff hopens _ _ _).mp (h _ _ _ hmeets) ⟨?_, ?_⟩
  · rw [hsymbol]
    decide +kernel
  · exact ⟨72, hqty, by norm_num, by rw [hside]; exact hcash⟩

/-- At an open of 990 the order is bought, and counted. -/
theorem next_open_fills_sample :
    (Sample.buyOnce 990).NextOpen (Sample.buyOnce 990).runBacktest.2 ∧
      (Sample.buyOnce 990).runBacktest.2.buys = 1 := by
  have hrun : (Sample.buyOnce 990).runBacktest =
      (Sample.buyOnce 990).run [6, 7] (Sample.buyOnce 990).start := by
    show (Sample.buyOnce 990).run (Sample.buyOnce 990).days _ = _
    rw [Sample.days_buyOnce]
  have hok : (Sample.buyOnce 990).runBacktest.1 = .ok ⟨⟩ := by
    rw [hrun]
    decide +kernel
  refine ⟨BacktestArgs.next_open_fills (u := ⟨⟩) (Sample.buyOnce 990) (Prod.ext hok rfl), ?_⟩
  rw [hrun]
  decide +kernel

/-- And it is paid for. -/
theorem positive_fills_sample : ∃ b req, (Sample.buyOnce 990).Meets 7 b req ∧
    req.quantity = some 72 ∧ (Sample.buyOnce 990).PositiveFill 7 b req := by
  have hopens : (Sample.buyOnce 990).OpensNonneg := by
    unfold BacktestArgs.OpensNonneg
    decide +kernel
  have hpositive : ∀ bars ∈ (Sample.buyOnce 990).histories.values, ∀ bar ∈ bars,
      0 < bar.openPrice := by
    decide +kernel
  have htrade : (Sample.buyOnce 990).OpensTrade := by
    intro s d _ hzero
    obtain ⟨bars, hbars, bar, hbar, hopen⟩ := BacktestArgs.exists_bar_of_openOn hzero
    exact (hpositive bars hbars bar hbar).ne' hopen
  have hok : ((Sample.buyOnce 990).after 1).1 = .ok ⟨⟩ := by
    rw [Sample.after_buyOnce]
    decide +kernel
  have hlen : ((Sample.buyOnce 990).after 1).2.pending.length = 1 := by
    rw [Sample.after_buyOnce]
    decide +kernel
  have horder : ∀ req ∈ ((Sample.buyOnce 990).after 1).2.pending, req.quantity = some 72 := by
    rw [Sample.after_buyOnce]
    decide +kernel
  obtain ⟨req, hreq⟩ := List.length_eq_one_iff.mp hlen
  have hmeets : (Sample.buyOnce 990).Meets 7 ((Sample.buyOnce 990).after 1).2 req :=
    ⟨1, [], [], by rw [Sample.days_buyOnce]; rfl, hok, hreq, rfl⟩
  exact ⟨_, req, hmeets, horder req (by simp [hreq]),
    (Sample.buyOnce 990).positive_fills hopens htrade _ _ _ hmeets⟩

end AutoTrade
