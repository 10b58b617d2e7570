/-
AutoTrade/LookAhead.lean

A backtest does not look ahead.

`cut T` takes the bars after the day `T` out of the histories.  Every read of a
day up to `T` (the candles, the closes and opens of the day, the marks, the
trading days since an entry) is the same on the cut histories, so a run over such
days is (`run_cut`); this is the whole of the argument about the past.  The ids
that two backtests draw are different, and `run_renamed` shows that they are
names only.  Together: two backtests whose histories agree up to `T` agree in
all they have done when they are through with `T` (`no_look_ahead`).

The offset `warmup` is the exception: a negative one counts the days from the
end, so on which day a backtest begins then depends on how many there are.
-/
import AutoTrade.Lib.Sorted
import AutoTrade.OrderNames
import AutoTrade.Replay
import Mathlib.Logic.Denumerable

namespace AutoTrade

open Effect OrderService

namespace BacktestArgs

/-- The backtest on the bars up to the day `T`. -/
def cut (a : BacktestArgs) (T : Date) : BacktestArgs :=
  { a with histories := a.histories.mapValues fun bars => bars.filter fun b => b.date ≤ T }

/-- The backtest with other ids and times to draw. -/
def drawing (a : BacktestArgs) (stamps : Date → ℕ → Stamp) : BacktestArgs := { a with stamps }

/-- No id is drawn twice. -/
def FreshIds (a : BacktestArgs) : Prop :=
  Function.Injective fun p : Date × ℕ => (a.stamps p.1 p.2).clientOrderId

/-- The days of the loop. -/
def days (a : BacktestArgs) : List Date := sliceFrom a.warmup a.dates

/-- The loop up to the day `T`. -/
def through (a : BacktestArgs) (T : Date) : Except Exn PUnit × Backtest :=
  a.run (a.days.filter (· ≤ T)) a.start

/-! ### What a day reads -/

section Reads

variable (a : BacktestArgs) {T d : Date}

/-- The bars of a symbol, cut with the histories. -/
theorem bars_cut (s : Symbol) :
    (a.cut T).replay.bars s = (a.replay.bars s).filter fun b => b.date ≤ T := by
  unfold ReplayToss.bars replay ReplayToss.new cut
  rw [Dict.get?_mapValues, Dict.get?_mapValues, Dict.get?_mapValues]
  rcases a.histories.get? s with - | bars
  · rfl
  · exact (Sorted.filter_insertionSort _ bars).symm

/-- The bar of a day up to `T` is not cut. -/
theorem find?_cut (h : d ≤ T) (s : Symbol) :
    ((a.cut T).replay.bars s).find? (fun b => b.date = d) =
      (a.replay.bars s).find? fun b => b.date = d := by
  rw [bars_cut, List.find?_filter]
  congr 1
  funext b
  by_cases hb : b.date = d
  · simp [hb, h]
  · simp [hb]

theorem closeOn_cut (h : d ≤ T) (s : Symbol) :
    (a.cut T).replay.closeOn s d = a.replay.closeOn s d :=
  congrArg (Option.map Bar.closePrice) (a.find?_cut h s)

theorem openOn_cut (h : d ≤ T) (s : Symbol) :
    (a.cut T).replay.openOn s d = a.replay.openOn s d :=
  congrArg (Option.map Bar.openPrice) (a.find?_cut h s)

theorem getCandles_cut (h : d ≤ T) : (a.cut T).replay.getCandles d = a.replay.getCandles d := by
  funext s
  unfold ReplayToss.getCandles
  rw [bars_cut, List.filter_filter]
  congr 2
  funext b
  by_cases hb : b.date ≤ d
  · simp [hb, hb.trans h]
  · simp [hb]

/-- The market of an early day does not see what is cut off. -/
theorem toss_cut (h : d ≤ T) : (a.cut T).replay.toss d = a.replay.toss d := by
  unfold ReplayToss.toss
  rw [getCandles_cut a h]

theorem symbols_cut : (a.cut T).symbols = a.symbols := by
  unfold symbols cut
  rw [Dict.keys_mapValues]

theorem marks_cut (h : d ≤ T) : (a.cut T).marks d = a.marks d := by
  unfold marks
  rw [symbols_cut]
  simp only [closeOn_cut a h]
  rfl

theorem dates_sorted : a.dates.Pairwise (· < ·) := (Finset.sortedLT_sort _).pairwise

/-- The dates are cut with the histories. -/
theorem dates_cut : (a.cut T).dates = a.dates.filter (· ≤ T) := by
  unfold dates
  rw [← Sorted.sort_filter]
  congr 1
  ext d
  rw [Finset.mem_filter, List.mem_toFinset, List.mem_toFinset, cut, Dict.values_mapValues,
    List.flatMap_map, List.mem_flatMap, List.mem_flatMap]
  constructor
  · rintro ⟨bars, hbars, hd⟩
    obtain ⟨b, hb, rfl⟩ := List.mem_map.mp hd
    obtain ⟨hb, hle⟩ := List.mem_filter.mp hb
    exact ⟨⟨bars, hbars, List.mem_map_of_mem hb⟩, of_decide_eq_true hle⟩
  · rintro ⟨⟨bars, hbars, hd⟩, hle⟩
    obtain ⟨b, hb, rfl⟩ := List.mem_map.mp hd
    exact ⟨bars, hbars, List.mem_map_of_mem (List.mem_filter.mpr ⟨hb, decide_eq_true hle⟩)⟩

/-- No position was opened after the day `T`. -/
def OpenedBy (T : Date) (b : Backtest) : Prop :=
  ∀ s entry, b.opened.get? s = some entry → entry ≤ T

/-- A position that was opened in time has been held as long. -/
theorem daysHeld_cut (h : d ∈ a.dates) (hd : d ≤ T) {b : Backtest} (hb : OpenedBy T b) :
    (a.cut T).daysHeld b d = a.daysHeld b d := by
  unfold daysHeld
  congr 2
  funext s
  rcases hentry : b.opened.get? s with - | entry
  · rfl
  · have hle := hb s entry hentry
    rw [Option.bind_some, Option.bind_some, dates_cut, Sorted.idxOf_filter a.dates_sorted h hd]
    by_cases hmem : entry ∈ a.dates
    · have hmem' : entry ∈ a.dates.filter (· ≤ T) :=
        List.mem_filter.mpr ⟨hmem, decide_eq_true hle⟩
      rw [if_pos hmem, if_pos hmem', Sorted.idxOf_filter a.dates_sorted hmem hle]
    · rw [if_neg hmem, if_neg fun hmem' => hmem (List.mem_filter.mp hmem').1]

/-- **A tick is told only what there was by its day.** -/
theorem tickArgs_cut (h : d ∈ a.dates) (hd : d ≤ T) {b : Backtest} (hb : OpenedBy T b) :
    (a.cut T).tickArgs b d = a.tickArgs b d := by
  unfold tickArgs
  rw [toss_cut a hd, symbols_cut, marks_cut a hd, daysHeld_cut a h hd hb]
  rfl

theorem fillPending_cut (hd : d ≤ T) : (a.cut T).fillPending d = a.fillPending d := by
  funext b req
  unfold fillPending
  rw [openOn_cut a hd]

/-! ### A run over the past -/

/-- What the fill of one order does to the variables. -/
structure Filling (d : Date) (req : OrderRequest) (b c : Backtest) : Prop where
  svc : c.svc = b.svc
  equityCurve : c.equityCurve = b.equityCurve
  fills : ∃ new, c.fills = b.fills ++ new ∧ ∀ f ∈ new, f.1 = d
  opened : c.opened = b.opened ∨ c.opened = b.opened.set req.symbol d ∨
    c.opened = b.opened.erase req.symbol

/-- One pending order changes no more than a filling. -/
theorem filling_fillPending (b : Backtest) (req : OrderRequest) :
    Filling d req b (a.fillPending d b req) := by
  have hnone : ∃ new, b.fills = b.fills ++ new ∧ ∀ f ∈ new, f.1 = d :=
    ⟨[], (List.append_nil _).symm, by simp⟩
  have hone : ∀ f, ∃ new, b.fills ++ [(d, f)] = b.fills ++ new ∧ ∀ g ∈ new, g.1 = d :=
    fun f => ⟨[(d, f)], rfl, by simp⟩
  unfold fillPending
  -- no bar, nothing to fill, skipped, a buy, a sale
  rcases a.replay.openOn req.symbol d with - | openPx
  · exact ⟨rfl, rfl, hnone, Or.inl rfl⟩
  · simp only
    rcases b.paper.applyFill { req with price := some openPx } {} (some (closingTime d)) with
      ⟨f, paper⟩
    rcases f with - | f
    · exact ⟨rfl, rfl, hnone, Or.inl rfl⟩
    · simp only
      split_ifs
      · exact ⟨rfl, rfl, hone f, Or.inl rfl⟩
      · exact ⟨rfl, rfl, hone f, Or.inl rfl⟩
      · exact ⟨rfl, rfl, hone f, Or.inr (Or.inl rfl)⟩
      · exact ⟨rfl, rfl, hone f, Or.inl rfl⟩
      · exact ⟨rfl, rfl, hone f, Or.inr (Or.inr rfl)⟩

variable {a}

theorem OpenedBy.fillPending (hd : d ≤ T) {b : Backtest} (h : OpenedBy T b)
    (req : OrderRequest) : OpenedBy T (a.fillPending d b req) := by
  intro s entry hentry
  rcases (a.filling_fillPending b req).opened with heq | heq | heq
  · rw [heq] at hentry
    exact h s entry hentry
  · rw [heq, Dict.get?_set] at hentry
    split_ifs at hentry with hs
    · exact Option.some.inj hentry ▸ hd
    · exact h s entry hentry
  · rw [heq, Dict.get?_erase] at hentry
    split_ifs at hentry with hs
    exact h s entry hentry

/-- The morning opens no position later than its day. -/
theorem OpenedBy.opening (hd : d ≤ T) {b : Backtest} (h : OpenedBy T b) :
    OpenedBy T (a.opening d b) := by
  have hstep : ∀ c req, OpenedBy T c → OpenedBy T (a.fillPending d c req) :=
    fun _ req hc => hc.fillPending hd req
  exact Run.foldl_invariant hstep h b.pending

/-- A day opens no position after itself. -/
theorem OpenedBy.day (hd : d ≤ T) {b : Backtest} (h : OpenedBy T b) :
    OpenedBy T (a.day d b).2 := by
  apply wp.state
  rw [BacktestArgs.day, wp_bind, wp_change, wp_bind, wp_look, wp_bind, wp_zoom]
  refine wp_of_forall ?_ ?_
  · intro tick svc _
    exact OpenedBy.opening hd h
  · intro e svc _
    exact OpenedBy.opening hd h

/-- **A day is the same on the cut histories.** -/
theorem day_cut (h : d ∈ a.dates) (hd : d ≤ T) {b : Backtest} (hb : OpenedBy T b) :
    (a.cut T).day d b = a.day d b := by
  have hopening : (a.cut T).opening d = a.opening d := by
    funext c
    unfold BacktestArgs.opening
    rw [fillPending_cut a hd]
  have hclosing : (a.cut T).closing d = a.closing d := by
    funext tick c
    unfold closing
    rw [marks_cut a hd]
    rfl
  have hargs := tickArgs_cut a h hd (OpenedBy.opening (a := a) hd hb)
  rw [day, day, hopening, hclosing]
  simp only [bind_apply, change_apply, look_apply, id, hargs]

/-- **A run over the past is the same on the cut histories.** -/
theorem run_cut {ds : List Date} (hds : ∀ d ∈ ds, d ∈ a.dates ∧ d ≤ T) {b : Backtest}
    (hb : OpenedBy T b) : (a.cut T).run ds b = a.run ds b := by
  induction ds generalizing b with
  | nil => rfl
  | cons d ds ih =>
    obtain ⟨hd, hds⟩ := List.forall_mem_cons.mp hds
    show ((a.cut T).day d >>= fun _ => (a.cut T).run ds) b = (a.day d >>= fun _ => a.run ds) b
    have hafter : OpenedBy T (a.day d b).2 := OpenedBy.day hd.2 hb
    rw [bind_apply, bind_apply, day_cut hd.1 hd.2 hb]
    rcases hday : a.day d b with ⟨e | u, c⟩
    · rfl
    · rw [hday] at hafter
      exact ih hds hafter

end Reads

end BacktestArgs

/-! ### The names of the orders -/

/-- Two backtests that have done the same, up to the ids of the orders. -/
structure Backtest.Alike (b b' : Backtest) : Prop where
  svc : SameSetup b.svc b'.svc
  paper : b'.paper = b.paper
  pending : b'.pending.map OrderRequest.anonymous = b.pending.map OrderRequest.anonymous
  opened : b'.opened = b.opened
  equityCurve : b'.equityCurve = b.equityCurve
  buys : b'.buys = b.buys
  unfilled : b'.unfilled = b.unfilled
  fills : b'.fills = b.fills

namespace Backtest.Alike

variable {a : BacktestArgs} {d : Date} {b b' : Backtest}

theorem refl (b : Backtest) : Alike b b := ⟨.refl _, rfl, rfl, rfl, rfl, rfl, rfl, rfl⟩

/-- The book does not look at the id. -/
theorem applyFill_anonymous (book : PaperPortfolio) (req : OrderRequest) (cost : CostConfig)
    (now : Option Datetime) : book.applyFill req.anonymous cost now = book.applyFill req cost now :=
  rfl

/-- Two orders of one name are filled alike. -/
theorem fillPending (h : Alike b b') {req req' : OrderRequest}
    (hreq : req'.anonymous = req.anonymous) :
    Alike (a.fillPending d b req) (a.fillPending d b' req') := by
  have hsymbol : req'.anonymous.symbol = req.anonymous.symbol := by rw [hreq]
  have hside : req'.anonymous.side = req.anonymous.side := by rw [hreq]
  have hopen : a.replay.openOn req'.symbol d = a.replay.openOn req.symbol d :=
    congrArg (fun s => a.replay.openOn s d) hsymbol
  have hfill : ∀ px, b'.paper.applyFill { req' with price := some px } {} (some (closingTime d)) =
      b.paper.applyFill { req with price := some px } {} (some (closingTime d)) := by
    intro px
    have hpriced : ({ req' with price := some px } : OrderRequest).anonymous =
        ({ req with price := some px } : OrderRequest).anonymous := by
      show ({ req'.anonymous with price := some px } : OrderRequest) =
        { req.anonymous with price := some px }
      rw [hreq]
    rw [h.paper, ← applyFill_anonymous, hpriced, applyFill_anonymous]
  unfold BacktestArgs.fillPending
  rw [hopen]
  rcases a.replay.openOn req.symbol d with - | openPx
  · exact { h with unfilled := congrArg (· + 1) h.unfilled }
  · simp only [hfill]
    rcases b.paper.applyFill { req with price := some openPx } {} (some (closingTime d)) with
      ⟨f, paper⟩
    rcases f with - | f
    · exact { h with paper := rfl, unfilled := congrArg (· + 1) h.unfilled }
    · have hfills : b'.fills ++ [(d, f)] = b.fills ++ [(d, f)] := by rw [h.fills]
      simp only
      rw [show req'.side = req.side from hside, show req'.symbol = req.symbol from hsymbol,
        h.opened]
      split_ifs
      · exact { h with
          paper := rfl
          opened := rfl
          unfilled := congrArg (· + 1) h.unfilled
          fills := hfills }
      · exact { h with
          paper := rfl
          opened := rfl
          buys := congrArg (· + 1) h.buys
          fills := hfills }
      · exact { h with
          paper := rfl
          opened := rfl
          buys := congrArg (· + 1) h.buys
          fills := hfills }
      · exact { h with paper := rfl, opened := rfl, fills := hfills }
      · exact { h with paper := rfl, opened := rfl, fills := hfills }

/-- Orders that differ in their ids alone fill alike. -/
theorem foldl_fillPending (h : Alike b b') {reqs reqs' : List OrderRequest}
    (hreqs : reqs'.map OrderRequest.anonymous = reqs.map OrderRequest.anonymous) :
    Alike (reqs.foldl (a.fillPending d) b) (reqs'.foldl (a.fillPending d) b') := by
  induction reqs generalizing b b' reqs' with
  | nil =>
    rw [List.map_nil, List.map_eq_nil_iff] at hreqs
    rw [hreqs]
    exact h
  | cons req reqs ih =>
    rcases reqs' with - | ⟨req', reqs'⟩
    · cases hreqs
    · obtain ⟨hreq, hreqs⟩ := List.cons.inj hreqs
      exact ih (h.fillPending hreq) hreqs

theorem opening (h : Alike b b') : Alike (a.opening d b) (a.opening d b') :=
  { h.foldl_fillPending h.pending with pending := rfl }

/-- Two ticks of one result leave the same orders for the next day. -/
theorem closing (h : Alike b b') {tick tick' : TickResult}
    (htick : tick'.anonymous = tick.anonymous) {svc svc' : OrderService}
    (hsvc : SameSetup svc svc') :
    Alike (a.closing d tick { b with svc }) (a.closing d tick' { b' with svc := svc' }) := by
  have horders : tick'.orders.map OrderResult.anonymous = tick.orders.map OrderResult.anonymous :=
    congrArg TickResult.orders htick
  have hkept : ∀ orders : List OrderResult,
      ((orders.filter fun o => o.status = .dryRun).map OrderResult.request).map
          OrderRequest.anonymous =
        ((orders.map OrderResult.anonymous).filter fun o => o.status = .dryRun).map
          OrderResult.request := by
    intro orders
    rw [List.filter_map, List.map_map, List.map_map]
    rfl
  refine { h with svc := hsvc, pending := ?_, equityCurve := ?_ }
  · show (List.map OrderResult.request _).map _ = (List.map OrderResult.request _).map _
    rw [hkept, hkept, horders]
  · show b'.equityCurve ++ [(d, (b'.paper.markEquity _).1, _)] = _
    rw [h.equityCurve, h.paper]
    rfl

end Backtest.Alike

namespace BacktestArgs

section Names

variable {a : BacktestArgs} {stamps' : Date → ℕ → Stamp} {d : Date} {left : Set Date}
  {b b' : Backtest}

/-- Two backtests midway that draw different ids: none of those of the days
`left` has been answered. -/
structure Renamed (stamps stamps' : Date → ℕ → Stamp) (left : Set Date) (b b' : Backtest) :
    Prop where
  alike : b.Alike b'
  rehearses : Rehearses b.svc
  unseen : ∀ d ∈ left, Unseen (stamps d) 0 b.svc
  unseen' : ∀ d ∈ left, Unseen (stamps' d) 0 b'.svc

/-- The morning leaves the order service. -/
theorem opening_svc (b : Backtest) : (a.opening d b).svc = b.svc := by
  have hstep : ∀ c req, c.svc = b.svc → (a.fillPending d c req).svc = b.svc :=
    fun c req hc => (a.filling_fillPending c req).svc.trans hc
  exact Run.foldl_invariant hstep rfl b.pending

/-- The tick of a day is asked the same, but for what it draws. -/
theorem tickArgs_drawing (h : b.Alike b') :
    (a.drawing stamps').tickArgs b' d = (a.tickArgs b d).drawing (stamps' d) := by
  have hheld : (a.drawing stamps').daysHeld b' d = a.daysHeld b d := by
    unfold daysHeld
    rw [h.paper, h.opened]
    rfl
  unfold tickArgs
  rw [hheld, h.paper]
  rfl

/-- The ids of the other days are not answered by the tick of a day. -/
theorem runTick_later {stamps : Date → ℕ → Stamp} {args : TickArgs} {svc : OrderService}
    {later : Date} (hids : Function.Injective fun p : Date × ℕ => (stamps p.1 p.2).clientOrderId)
    (hargs : args.stamps = stamps d) (hne : later ≠ d) (h : Unseen (stamps later) 0 svc) :
    Unseen (stamps later) 0 (runTick args svc).2 := by
  intro i hi
  refine runTick_unseen ?_ (h i hi)
  intro j heq
  rw [hargs] at heq
  have hpair : (d, j) = (later, i) := hids heq
  exact hne (congrArg Prod.fst hpair).symm

/-- What the tick of a day leaves for the days after it. -/
theorem wp_runTick_later {stamps : Date → ℕ → Stamp} {args : TickArgs} {svc : OrderService}
    (hids : Function.Injective fun p : Date × ℕ => (stamps p.1 p.2).clientOrderId)
    (hargs : args.stamps = stamps d) (hrehearses : Rehearses svc)
    (h : ∀ e ∈ left, Unseen (stamps e) 0 svc) :
    wp (runTick args) (fun _ s => Rehearses s ∧ ∀ e ∈ left \ {d}, Unseen (stamps e) 0 s)
      (fun _ _ => True) svc := by
  refine wp_of_forall ?_ fun _ _ _ => trivial
  intro r s hrun
  have hs : (runTick args svc).2 = s := by rw [hrun]
  subst hs
  exact ⟨hrehearses.runTick args, fun e he => runTick_later hids hargs he.2 (h e he.1)⟩

/-- One day. -/
theorem day_renamed (hids : a.FreshIds) (hids' : (a.drawing stamps').FreshIds) (hd : d ∈ left)
    (h : Renamed a.stamps stamps' left b b') :
    Coupled (a.day d) ((a.drawing stamps').day d)
      (fun _ b _ b' => Renamed a.stamps stamps' (left \ {d}) b b')
      (fun e b e' b' => e' = e ∧ b.Alike b') b b' := by
  have halike : (a.opening d b).Alike (a.opening d b') := h.alike.opening
  have hinj : Function.Injective fun i => (a.stamps d i).clientOrderId := by
    intro i j hij
    have hpair : (d, i) = (d, j) := hids hij
    exact congrArg Prod.snd hpair
  have hinj' : Function.Injective fun i => (stamps' d i).clientOrderId := by
    intro i j hij
    have hpair : (d, i) = (d, j) := hids' hij
    exact congrArg Prod.snd hpair
  -- the tick is the one part that draws ids
  have htick := (runTick_renamed (a.tickArgs (a.opening d b) d) (stamps' d) h.alike.svc
    h.rehearses hinj hinj' (h.unseen d hd) (h.unseen' d hd)).and_wp
      (wp_runTick_later hids rfl h.rehearses h.unseen)
      (wp_runTick_later hids' rfl (h.rehearses.of_sameSetup h.alike.svc) h.unseen')
  rw [← opening_svc (a := a) (d := d) b, ← opening_svc (a := a) (d := d) b'] at htick
  rw [day, day]
  refine Coupled.bind (coupled_change (Q := fun _ c _ c' => a.opening d b = c ∧
    a.opening d b' = c') ⟨rfl, rfl⟩) ?_
  rintro _ _ _ _ ⟨rfl, rfl⟩
  refine Coupled.bind (coupled_look (Q := fun c t c' t' => a.opening d b = c ∧
    a.opening d b = t ∧ a.opening d b' = c' ∧ a.opening d b' = t') ⟨rfl, rfl, rfl, rfl⟩) ?_
  rintro _ _ _ _ ⟨rfl, rfl, rfl, rfl⟩
  rw [tickArgs_drawing halike]
  refine Coupled.bind (Coupled.zoom (Q := fun tick c tick' c' => ∃ svc svc',
      c = { a.opening d b with svc } ∧ c' = { a.opening d b' with svc := svc' } ∧
      tick'.anonymous = tick.anonymous ∧ SameSetup svc svc' ∧
      (Rehearses svc ∧ ∀ e ∈ left \ {d}, Unseen (a.stamps e) 0 svc) ∧
      (Rehearses svc' ∧ ∀ e ∈ left \ {d}, Unseen (stamps' e) 0 svc'))
    (htick.mono ?_ ?_)) ?_
  · rintro tick svc tick' svc' ⟨⟨hsame, hsetup⟩, hP, hP'⟩
    exact ⟨svc, svc', rfl, rfl, hsame, hsetup, hP, hP'⟩
  · rintro e svc e' svc' ⟨he, hsetup⟩
    exact ⟨he, { halike with svc := hsetup }⟩
  · rintro tick _ tick' _ ⟨svc, svc', rfl, rfl, hsame, hsetup, ⟨hrehearses, hunseen⟩, -, hunseen'⟩
    exact coupled_change ⟨halike.closing hsame hsetup, hrehearses, hunseen, hunseen'⟩

/-- **The ids of a backtest are names.** -/
theorem run_renamed (hids : a.FreshIds) (hids' : (a.drawing stamps').FreshIds) {ds : List Date}
    (hds : ds.Nodup) :
    Coupled (a.run ds) ((a.drawing stamps').run ds) (fun _ b _ b' => b.Alike b')
      (fun e b e' b' => e' = e ∧ b.Alike b') a.start a.start := by
  have hstart : Renamed a.stamps stamps' {d | d ∉ ([] : List Date)} a.start a.start :=
    ⟨.refl _, ⟨rfl, rfl⟩, fun _ _ _ _ => rfl, fun _ _ _ _ => rfl⟩
  refine Coupled.mono (coupled_foldM
    (J := fun done _ b _ b' => Renamed a.stamps stamps' {d | d ∉ done} b b') ?_ hstart)
    (fun _ _ _ _ h => h.alike) fun _ _ _ _ => id
  rintro done d rest rfl - b - b' h
  -- a day comes once
  have hd : d ∉ done := by
    intro hmem
    exact (List.nodup_append.mp hds).2.2 d hmem d List.mem_cons_self rfl
  have hleft : {e | e ∉ done} \ {d} = {e | e ∉ done ++ [d]} := by
    ext e
    simp [not_or]
  rw [← hleft]
  exact day_renamed hids hids' hd h

end Names

end BacktestArgs

/-! ### Two histories with one past -/

/-- The fills and the equity curve of the days up to `T`. -/
def Backtest.recordThrough (b : Backtest) (T : Date) :
    List (Date × PaperFill) × List (Date × ℚ × Option ℚ) :=
  (b.fills.filter fun f => f.1 ≤ T, b.equityCurve.filter fun p => p.1 ≤ T)

theorem Backtest.Alike.recordThrough {b b' : Backtest} (h : b.Alike b') (T : Date) :
    b'.recordThrough T = b.recordThrough T := by
  unfold Backtest.recordThrough
  rw [h.fills, h.equityCurve]

namespace BacktestArgs

section Later

variable (a : BacktestArgs) {T d : Date}

/-- What happens on a later day is not recorded before. -/
theorem opening_later (hd : T < d) (b : Backtest) :
    (a.opening d b).recordThrough T = b.recordThrough T := by
  have hstep : ∀ c req, c.recordThrough T = b.recordThrough T →
      (a.fillPending d c req).recordThrough T = b.recordThrough T := by
    intro c req hc
    have hfilling := a.filling_fillPending (d := d) c req
    obtain ⟨new, hfills, hnew⟩ := hfilling.fills
    have hnone : new.filter (fun f => f.1 ≤ T) = [] := by
      rw [List.filter_eq_nil_iff]
      intro f hf
      rw [hnew f hf]
      simpa using hd
    rw [← hc]
    unfold Backtest.recordThrough
    rw [hfilling.equityCurve, hfills, List.filter_append, hnone, List.append_nil]
  exact Run.foldl_invariant hstep rfl b.pending

theorem closing_later (hd : T < d) (tick : TickResult) (b : Backtest) :
    (a.closing d tick b).recordThrough T = b.recordThrough T := by
  show (_, (b.equityCurve ++ [(d, _)]).filter _) = _
  rw [List.filter_append, List.filter_cons_of_neg (by simpa using hd), List.filter_nil,
    List.append_nil]
  rfl

/-- A later day leaves the record of the days before. -/
theorem day_later (hd : T < d) (b : Backtest) :
    (a.day d b).2.recordThrough T = b.recordThrough T := by
  apply wp.state (P := fun c : Backtest => c.recordThrough T = b.recordThrough T)
  rw [BacktestArgs.day, wp_bind, wp_change, wp_bind, wp_look, wp_bind, wp_zoom]
  refine wp_of_forall ?_ ?_
  · intro tick svc _
    exact (a.closing_later hd tick _).trans (a.opening_later hd b)
  · intro e svc _
    exact a.opening_later hd b

/-- So do all later days. -/
theorem run_later {ds : List Date} (hds : ∀ d ∈ ds, T < d) (b : Backtest) :
    (a.run ds b).2.recordThrough T = b.recordThrough T := by
  apply wp.state (P := fun c : Backtest => c.recordThrough T = b.recordThrough T)
  refine wp_foldM ?_ rfl
  intro d hd _ c hc
  refine wp_of_forall ?_ ?_
  · intro _ c' hday
    rw [← hc, ← a.day_later (hds d hd) c, hday]
  · intro _ c' hday
    rw [← hc, ← a.day_later (hds d hd) c, hday]

end Later

section Past

variable {a a' : BacktestArgs} {T : Date}

/-- A slice from `n` drops, and a negative `n` counts from the end. -/
theorem sliceFrom_eq_drop {α : Type*} (n : ℤ) (xs : List α) :
    sliceFrom n xs = xs.drop (if 0 ≤ n then n.toNat else xs.length - (-n).toNat) := by
  unfold sliceFrom
  split_ifs
  · rfl
  · rfl

/-- The simulated days come in order. -/
theorem days_sorted (a : BacktestArgs) : a.days.Pairwise (· < ·) := by
  unfold days
  rw [sliceFrom_eq_drop]
  exact a.dates_sorted.drop

/-- **A backtest is its run through a day, and the run over the days after.** -/
theorem runBacktest_through (a : BacktestArgs) (T : Date) :
    a.runBacktest = (a.run (a.days.filter (· ≤ T)) >>= fun _ =>
      a.run (a.days.filter (T < ·))) a.start := by
  show a.run a.days a.start = _
  conv_lhs => rw [← Sorted.le_append_lt a.days_sorted T]
  exact foldM_append _ _ _ _ _

/-- The run through a day has recorded all there is of it. -/
theorem recordThrough_through (a : BacktestArgs) (T : Date) :
    a.runBacktest.2.recordThrough T = (a.through T).2.recordThrough T := by
  rw [runBacktest_through a T, bind_apply, through]
  rcases a.run (a.days.filter (· ≤ T)) a.start with ⟨e | u, b⟩
  · rfl
  · exact a.run_later (fun d hd => of_decide_eq_true (List.mem_filter.mp hd).2) b

/-- Two backtests with one past begin on the same day. -/
theorem days_cut (hsame : a'.cut T = (a.cut T).drawing a'.stamps)
    (hwarmup : 0 ≤ a.warmup ∨ a'.dates.length = a.dates.length) :
    a'.days.filter (· ≤ T) = a.days.filter (· ≤ T) := by
  have hdates : a'.dates.filter (· ≤ T) = a.dates.filter (· ≤ T) := by
    rw [← dates_cut, ← dates_cut, hsame]
    rfl
  have hoffset : a'.warmup = a.warmup := by
    show (a'.cut T).warmup = _
    rw [hsame]
    rfl
  unfold days
  rw [sliceFrom_eq_drop, sliceFrom_eq_drop, Sorted.filter_drop a'.dates_sorted,
    Sorted.filter_drop a.dates_sorted, hdates, hoffset]
  congr 1
  rcases hwarmup with hpos | hlength
  · rw [if_pos hpos, if_pos hpos]
  · rw [hlength]

/-- A simulated day up to `T` is a date up to `T`. -/
theorem mem_days {d : Date} (h : d ∈ a.days.filter (· ≤ T)) : d ∈ a.dates ∧ d ≤ T := by
  obtain ⟨hd, hle⟩ := List.mem_filter.mp h
  refine ⟨?_, of_decide_eq_true hle⟩
  unfold days at hd
  rw [sliceFrom_eq_drop] at hd
  exact List.mem_of_mem_drop hd

/-- The run through `T` reads the histories up to `T`. -/
theorem through_cut (a : BacktestArgs) (T : Date) :
    a.through T = (a.cut T).run (a.days.filter (· ≤ T)) a.start := by
  have hopened : OpenedBy T a.start := by
    intro s entry hentry
    cases hentry
  exact (run_cut (fun _ hd => mem_days hd) hopened).symm

/-- **A backtest does not look ahead.**  Two backtests with the same arguments
whose histories have the same bars up to the day `T`, and that begin on the same
day, are alike when they are through with `T`: the same book, the same buys and
unfilled orders, the same pending orders up to their ids, or the same exception.
So are the fills and the equity curve of the days up to `T` in the whole run. -/
theorem no_look_ahead (hsame : a'.cut T = (a.cut T).drawing a'.stamps)
    (hwarmup : 0 ≤ a.warmup ∨ a'.dates.length = a.dates.length) (hids : a.FreshIds)
    (hids' : a'.FreshIds) :
    (a'.through T).1 = (a.through T).1 ∧ (a.through T).2.Alike (a'.through T).2 ∧
      a'.runBacktest.2.recordThrough T = a.runBacktest.2.recordThrough T := by
  have hstart : a'.start = a.start := by
    show ({ svc := _, paper := { cash := (a'.cut T).seed } } : Backtest) = _
    rw [hsame]
    rfl
  have hcut : a'.through T =
      ((a.cut T).drawing a'.stamps).run (a.days.filter (· ≤ T)) a.start := by
    rw [through_cut, hsame, days_cut hsame hwarmup, hstart]
  have hnodup : (a.days.filter (· ≤ T)).Nodup :=
    (a.days_sorted.imp fun h => ne_of_lt h).filter _
  have hcoupled : Coupled ((a.cut T).run (a.days.filter (· ≤ T)))
      (((a.cut T).drawing a'.stamps).run (a.days.filter (· ≤ T)))
      (fun u b u' b' => u' = u ∧ b.Alike b') (fun e b e' b' => e' = e ∧ b.Alike b')
      a.start a.start := by
    have hrun := @run_renamed (a.cut T) a'.stamps hids hids' _ hnodup
    exact hrun.mono (fun _ _ _ _ h => ⟨rfl, h⟩) fun _ _ _ _ => id
  have hthrough : (a'.through T).1 = (a.through T).1 ∧
      (a.through T).2.Alike (a'.through T).2 := by
    rw [hcut, through_cut a]
    exact hcoupled.ends
  refine ⟨hthrough.1, hthrough.2, ?_⟩
  rw [recordThrough_through, recordThrough_through]
  exact hthrough.2.recordThrough T

end Past

end BacktestArgs

namespace Sample

/-- Ids that count the days and the draws. -/
def dayStamps (d : Date) (i : ℕ) : Stamp :=
  ⟨String.ofList (List.replicate (Encodable.encode (d, i)) 'o'), tenOClock⟩

/-- A bar at one price. -/
def flatBar (d : Date) (px : ℚ) : Bar := ⟨d, px, px, 1000⟩

/-- Two days of a share and of the index. -/
def twoDays : Histories :=
  Dict.ofList [("005930", [flatBar 1 1000, flatBar 2 1100]),
    ("069500", [flatBar 1 300, flatBar 2 310])]

/-- The same two days, and the one after them. -/
def threeDays : Histories :=
  Dict.ofList [("005930", [flatBar 1 1000, flatBar 2 1100, flatBar 3 500]),
    ("069500", [flatBar 1 300, flatBar 2 310, flatBar 3 200])]

/-- A backtest next to its market, with the ids of each day counted. -/
def backtest (histories : Histories) (warmup : ℤ) : BacktestArgs where
  histories
  benchmark := some "069500"
  warmup
  stdev := fun _ => 0
  stamps := dayStamps

/-- The ids of the samples are distinct. -/
theorem freshIds_dayStamps {a : BacktestArgs} (h : a.stamps = dayStamps) : a.FreshIds := by
  unfold BacktestArgs.FreshIds
  rw [h]
  intro p q hpq
  have hlength : (dayStamps p.1 p.2).clientOrderId.length =
      (dayStamps q.1 q.2).clientOrderId.length := congrArg String.length hpq
  apply Encodable.encode_injective
  simpa [dayStamps] using hlength

theorem dates_twoDays : (backtest twoDays (-1)).dates = [1, 2] := by
  have hset : (twoDays.values.flatMap fun bars => bars.map Bar.date).toFinset =
      ([1, 2] : List Date).toFinset := by decide
  show Finset.sort _ _ = _
  rw [show (backtest twoDays (-1)).histories = twoDays from rfl, hset,
    List.toFinset_sort (· ≤ ·) (by decide)]
  decide

theorem dates_threeDays : (backtest threeDays (-1)).dates = [1, 2, 3] := by
  have hset : (threeDays.values.flatMap fun bars => bars.map Bar.date).toFinset =
      ([1, 2, 3] : List Date).toFinset := by decide
  show Finset.sort _ _ = _
  rw [show (backtest threeDays (-1)).histories = threeDays from rfl, hset,
    List.toFinset_sort (· ≤ ·) (by decide)]
  decide

/-- Six days of closes with a daily volatility of a tenth, a seventh day that opens at
`px`, and later days. -/
def sevenDays (px : ℚ) (later : List Bar) : Histories :=
  Dict.ofList [("005930", [⟨1, 1000, 1000, 1000⟩, ⟨2, 1000, 900, 1000⟩, ⟨3, 900, 810, 1000⟩,
    ⟨4, 810, 891, 1000⟩, ⟨5, 891, 9801 / 10, 1000⟩, ⟨6, 980, 9801 / 10, 1000⟩,
    ⟨7, px, 1000, 1000⟩] ++ later)]

/-- The sixth day buys, and the seventh fills. -/
def buyOnce (px : ℚ) (later : List Bar := []) : BacktestArgs where
  histories := sevenDays px later
  warmup := 5
  screenConfig := { minHistory := 1, smaShort := 1, smaLong := 4, rsiPeriod := 2,
                    rsiOverbought := 101, minAvgVolume := 1, minClosePrice := 1 }
  exitConfig := { enabled := false }
  stdev := fun _ => 1 / 10
  stamps := dayStamps

/-- The days of the sample. -/
theorem days_buyOnce (px : ℚ) : (buyOnce px).days = [6, 7] := by
  have hset : ((sevenDays px []).values.flatMap fun bars => bars.map Bar.date).toFinset =
      ([1, 2, 3, 4, 5, 6, 7] : List Date).toFinset := rfl
  have hdates : (buyOnce px).dates = [1, 2, 3, 4, 5, 6, 7] := by
    show Finset.sort _ _ = _
    rw [show (buyOnce px).histories = sevenDays px [] from rfl, hset,
      List.toFinset_sort (· ≤ ·) (by decide)]
    decide
  rw [BacktestArgs.days, hdates]
  rfl

end Sample

/-- Whatever the eighth day brings, the seventh has filled the order of the sixth. -/
theorem no_look_ahead_sample :
    let later : List Bar := [⟨8, 500, 400, 1000⟩]
    ((Sample.buyOnce 990).through 7).2.fills.length = 1 ∧
      ((Sample.buyOnce 990 later).through 7).1 = ((Sample.buyOnce 990).through 7).1 ∧
      ((Sample.buyOnce 990).through 7).2.Alike ((Sample.buyOnce 990 later).through 7).2 ∧
      (Sample.buyOnce 990 later).runBacktest.2.recordThrough 7 =
        (Sample.buyOnce 990).runBacktest.2.recordThrough 7 := by
  intro later
  refine ⟨?_, ?_⟩
  · rw [BacktestArgs.through, Sample.days_buyOnce]
    decide +kernel
  · exact BacktestArgs.no_look_ahead rfl (Or.inl (by decide)) (Sample.freshIds_dayStamps rfl)
      (Sample.freshIds_dayStamps rfl)

/-- A backtest of the last day looks ahead: which day that is depends on the
bars to come. -/
theorem last_day_looks_ahead :
    (Sample.backtest Sample.threeDays (-1)).cut 2 =
        ((Sample.backtest Sample.twoDays (-1)).cut 2).drawing Sample.dayStamps ∧
      (Sample.backtest Sample.twoDays (-1)).FreshIds ∧
      (Sample.backtest Sample.threeDays (-1)).FreshIds ∧
      (Sample.backtest Sample.threeDays (-1)).runBacktest.2.recordThrough 2 ≠
        (Sample.backtest Sample.twoDays (-1)).runBacktest.2.recordThrough 2 := by
  refine ⟨rfl, Sample.freshIds_dayStamps rfl, Sample.freshIds_dayStamps rfl, ?_⟩
  unfold BacktestArgs.runBacktest
  rw [Sample.dates_twoDays, Sample.dates_threeDays]
  decide +kernel

end AutoTrade
