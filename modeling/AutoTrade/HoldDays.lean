/-
AutoTrade/HoldDays.lean

The days that a position is held, live and in the replay.

A live tick counts the dates of the asset curve after the date of the entry; the
replay takes the difference of two indices into its sorted dates
(`replay_daysHeld`: the number of its dates after the entry and up to the day).
The curve gets the date of a tick at the end of the tick only, so the first tick of
a date does not count its own date, and the later ticks of the date do:
`held_days_iff` says that the two counts agree at a tick of a run exactly when an
earlier tick had its date.
-/
import AutoTrade.LookAhead
import AutoTrade.PaperInStep
import AutoTrade.PaperTick

namespace AutoTrade

open PaperPortfolio

/-- The dates of some ticks. -/
def tickDates (ts : List TickInput) : List Date := ts.map fun t => tradeDateKst t.now

/-- The number of the dates after `entry` and up to `d`. -/
def datesBetween (dates : List Date) (entry d : Date) : ℕ :=
  (dates.toFinset.filter fun x => entry < x ∧ x ≤ d).card

theorem tickDates_append (ts ts' : List TickInput) :
    tickDates (ts ++ ts') = tickDates ts ++ tickDates ts' := List.map_append

namespace Server

/-- The server after some ticks. -/
def ticks (cfg : Settings) (s : Server) (ts : List TickInput) : Server :=
  ts.foldl (fun s t => s.step cfg (.tick t)) s

/-- Every tick of a run returns its result. -/
def AllComplete (cfg : Settings) (s : Server) (ts : List TickInput) : Prop :=
  Run.Admits (fun s t => step cfg s (.tick t)) (fun s t => Completes cfg t s = true) s ts

instance (cfg : Settings) (s : Server) (ts : List TickInput) : Decidable (AllComplete cfg s ts) :=
  inferInstanceAs (Decidable (Run.Admits _ _ _ _))

end Server

/-! ### The replay -/

/-- **The replay's count** is the number of the dates after the entry. -/
theorem BacktestArgs.replay_daysHeld (a : BacktestArgs) (b : Backtest) {symbol : Symbol}
    {entry d : Date} (hheld : symbol ∈ b.paper.positions.keys)
    (hopened : b.opened.get? symbol = some entry) (hentry : entry ∈ a.dates) (hd : d ∈ a.dates) :
    (a.daysHeld b d).get? symbol = some (datesBetween a.dates entry d) := by
  have hcount : a.dates.idxOf d - a.dates.idxOf entry = datesBetween a.dates entry d := by
    rw [Sorted.idxOf_sub_idxOf a.dates_sorted hentry hd, datesBetween,
      ← List.toFinset_card_of_nodup ((a.dates_sorted.imp fun h => h.ne).filter _)]
    congr 1
    ext x
    simp
  have hkeys : (b.paper.positions.keys.map id).Nodup := by
    rw [List.map_id]
    exact b.paper.positions.keys_nodup
  unfold BacktestArgs.daysHeld
  rw [Dict.get?_ofList_filterMap hkeys]
  · refine ⟨symbol, hheld, ?_⟩
    rw [hopened, Option.bind_some, if_pos hentry, hcount]
  · intro s p hp
    obtain ⟨entry', -, hentry'⟩ := Option.bind_eq_some_iff.mp hp
    split_ifs at hentry'
    rw [← Option.some.inj hentry']
    rfl

/-! ### The curve and the entries -/

theorem Db.countTradingDaysSince_eq (db : Db) (entry : Date) :
    db.countTradingDaysSince entry =
      ((db.paperEquity.map PaperEquityRow.tradeDate).toFinset.filter (entry < ·)).card := by
  unfold Db.countTradingDaysSince
  rw [← List.toFinset_card_of_nodup List.nodup_unique]
  congr 1
  ext d
  simp

/-- Every position has the time of its entry, on one of the dates. -/
def OpenedIn (dates : List Date) (book : PaperPortfolio) : Prop :=
  ∀ symbol pos, book.positions.get? symbol = some pos →
    ∃ openedAt, pos.openedAt = some openedAt ∧ tradeDateKst openedAt ∈ dates

section Entries

variable {dates : List Date} {book : PaperPortfolio}

theorem OpenedIn.stored (h : OpenedIn dates book) : OpenedIn dates book.stored := by
  intro symbol pos hpos
  rw [stored_get?, Option.map_eq_some_iff] at hpos
  obtain ⟨old, hold, rfl⟩ := hpos
  obtain ⟨openedAt, hopened, hdate⟩ := h symbol old hold
  exact ⟨openedAt.astimezone 0, by simp [PaperPosition.stored, hopened], hdate⟩

/-- What is set in a book with such entries. -/
theorem OpenedIn.set (h : OpenedIn dates book) {book' : PaperPortfolio} (symbol : Symbol)
    {new : PaperPosition} (hpositions : book'.positions = book.positions.set symbol new)
    (hnew : ∃ openedAt, new.openedAt = some openedAt ∧ tradeDateKst openedAt ∈ dates) :
    OpenedIn dates book' := by
  intro symbol' pos hpos
  rw [hpositions, Dict.get?_set] at hpos
  split at hpos
  · rw [← Option.some.inj hpos]
    exact hnew
  · exact h symbol' pos hpos

/-- A fill opens a position at its own time, and keeps the times of the others. -/
theorem OpenedIn.applyFill (h : OpenedIn dates book) (req : OrderRequest) (cost : CostConfig)
    {now : Datetime} (hnow : tradeDateKst now ∈ dates) :
    OpenedIn dates (book.applyFill req cost (some now)).2 := by
  have hout := applyFill_outcome cost book req (some now)
  generalize book.applyFill req cost (some now) = r at hout
  cases hout with
  | unfilled => exact h
  | skipped => exact h
  | opened => exact h.set req.symbol rfl ⟨now, rfl, hnow⟩
  | added qty price hprice hqty hside hcash pos hpos =>
    exact h.set req.symbol rfl (h req.symbol pos hpos)
  | closed =>
    intro symbol pos hpos
    rw [Dict.get?_erase] at hpos
    split at hpos
    · cases hpos
    · exact h symbol pos hpos
  | reduced qty price hprice hside pos hpos =>
    exact h.set req.symbol rfl (h req.symbol pos hpos)

theorem OpenedIn.tickCalls (h : OpenedIn dates book) (cost : CostConfig) {now : Datetime}
    (hnow : tradeDateKst now ∈ dates) (orders : List OrderResult) :
    OpenedIn dates (book.afterFills cost (tickCalls now orders)) := by
  unfold AutoTrade.tickCalls
  induction intended orders using List.reverseRecOn with
  | nil => exact h
  | append_singleton orders o ih =>
    rw [List.map_append, List.map_singleton, afterFills_concat]
    exact ih.applyFill o.request cost hnow

end Entries

/-! ### The run -/

namespace Server

/-- What a run of completed paper ticks with some dates leaves: the curve has the dates,
and the positions were opened on them. -/
structure Curved (cfg : Settings) (dates : List Date) (s : Server) : Prop where
  mode : s.svc.mode = .dryRun
  curve : s.db.paperEquity.map PaperEquityRow.tradeDate = dates
  opened : OpenedIn dates (s.paperBook cfg)

section Run

variable {cfg : Settings} {dates : List Date} {s : Server} {t : TickInput}

theorem curved_start (hdry : cfg.tradingMode = .dryRun) : Curved cfg [] (start cfg {}) := by
  refine ⟨(configured_start cfg {}).mode.trans hdry, rfl, ?_⟩
  intro symbol pos hpos
  cases hpos

/-- A completed tick of the paper mode, read off its run. -/
theorem Curved.ticked (h : Curved cfg dates s) (hpersisted : cfg.persisted)
    (hseed : 0 < cfg.paperSeedKrw) (hdone : Completes cfg t s) :
    ∃ args result, PaperTicked cfg t s args result (s.step cfg (.tick t)) := by
  obtain ⟨tickId, engine, result, report, summary, s', hrun⟩ := completes_iff.mp hdone
  obtain ⟨args, hticked⟩ := executeTick_paperTicked hpersisted hseed h.mode hrun
  have hs' : s.step cfg (.tick t) = s' := congrArg Prod.snd hrun
  exact ⟨args, result, hs' ▸ hticked⟩

/-- **A completed tick adds its date**, and what it opens it opens on it. -/
theorem Curved.tick (h : Curved cfg dates s) (hpersisted : cfg.persisted)
    (hseed : 0 < cfg.paperSeedKrw) (hdone : Completes cfg t s) :
    Curved cfg (dates ++ [tradeDateKst t.now]) (s.step cfg (.tick t)) := by
  obtain ⟨args, result, hticked⟩ := h.ticked hpersisted hseed hdone
  refine ⟨?_, ?_, ?_⟩
  · have hmode : (s.step cfg (.tick t)).svc.mode = s.svc.mode := by
      have hsetup := runTick_setup args s.svc
      rw [hticked.ran] at hsetup
      rcases hsetup with ⟨-, hsame⟩ | ⟨g, -, hsame⟩
      · exact congrArg OrderService.mode hsame
      · exact hsame.mode
    exact hmode.trans h.mode
  · rw [hticked.dates, h.curve]
  · have hbefore : OpenedIn (dates ++ [tradeDateKst t.now]) (s.paperBook cfg) := by
      intro symbol pos hpos
      obtain ⟨openedAt, hopened, hdate⟩ := h.opened symbol pos hpos
      exact ⟨openedAt, hopened, List.mem_append_left _ hdate⟩
    have hnow : tradeDateKst t.now ∈ dates ++ [tradeDateKst t.now] := by simp
    have hafter := (hbefore.tickCalls cfg.entryGate.cost hnow result.orders).stored
    have hbook : (s.step cfg (.tick t)).paperBook cfg =
        ((s.paperBook cfg).afterFills cfg.entryGate.cost
          (AutoTrade.tickCalls t.now result.orders)).stored := by
      unfold paperBook
      rw [Db.loadPaper, hticked.paper, Option.getD_some, fillOrders_book]
      rfl
    rw [hbook]
    exact hafter

theorem curved_ticks (hdry : cfg.tradingMode = .dryRun) (hpersisted : cfg.persisted)
    (hseed : 0 < cfg.paperSeedKrw) {ts : List TickInput}
    (hdone : AllComplete cfg (start cfg {}) ts) :
    Curved cfg (tickDates ts) ((start cfg {}).ticks cfg ts) := by
  induction ts using List.reverseRecOn with
  | nil => exact curved_start hdry
  | append_singleton ts t ih =>
    obtain ⟨hpre, hlast, -⟩ := hdone.split
    have hticks : (start cfg {}).ticks cfg (ts ++ [t]) =
        ((start cfg {}).ticks cfg ts).step cfg (.tick t) := List.foldl_concat ..
    rw [hticks, tickDates_append]
    exact (ih hpre).tick hpersisted hseed hlast

/-- Up to a tick of a run in the order of its dates, the dates after an entry are the
earlier ones and its own. -/
theorem between_eq {ts pre post : List TickInput} (horder : (tickDates ts).Pairwise (· ≤ ·))
    (hts : ts = pre ++ t :: post) (entry : Date) :
    ((tickDates ts).toFinset.filter fun x => entry < x ∧ x ≤ tradeDateKst t.now) =
      ((tickDates pre ++ [tradeDateKst t.now]).toFinset.filter (entry < ·)) := by
  have hdates : tickDates ts = tickDates pre ++ tradeDateKst t.now :: tickDates post := by
    rw [hts, tickDates_append]
    rfl
  rw [hdates, List.pairwise_append, List.pairwise_cons] at horder
  obtain ⟨-, ⟨hlater, -⟩, hearlier⟩ := horder
  ext d
  simp only [hdates, Finset.mem_filter, List.mem_toFinset, List.mem_append, List.mem_cons,
    List.not_mem_nil, or_false]
  constructor
  · rintro ⟨hd | hd | hd, hlt, hle⟩
    · exact ⟨Or.inl hd, hlt⟩
    · exact ⟨Or.inr hd, hlt⟩
    · exact ⟨Or.inr (le_antisymm hle (hlater d hd)), hlt⟩
  · rintro ⟨hd | rfl, hlt⟩
    · exact ⟨Or.inl hd, hlt, hearlier d hd _ List.mem_cons_self⟩
    · exact ⟨Or.inr (Or.inl rfl), hlt, le_refl _⟩

end Run

/-- A date counts once more exactly when it is not among the dates. -/
theorem card_after_eq_iff {dates : List Date} {entry d : Date} (hentry : entry ∈ dates)
    (hle : entry ≤ d) :
    (dates.toFinset.filter (entry < ·)).card =
        ((dates ++ [d]).toFinset.filter (entry < ·)).card ↔ d ∈ dates := by
  have hsub : dates.toFinset.filter (entry < ·) ⊆ (dates ++ [d]).toFinset.filter (entry < ·) := by
    intro x hx
    simp only [Finset.mem_filter, List.mem_toFinset, List.mem_append] at hx ⊢
    exact ⟨Or.inl hx.1, hx.2⟩
  constructor
  · intro hcard
    rcases hle.eq_or_lt with heq | hlt
    · exact heq ▸ hentry
    · have hsame := Finset.eq_of_subset_of_card_le hsub hcard.ge
      have hmem : d ∈ (dates ++ [d]).toFinset.filter (entry < ·) := by simp [hlt]
      rw [← hsame] at hmem
      exact List.mem_toFinset.mp (Finset.mem_filter.mp hmem).1
  · intro hmem
    congr 1
    refine hsub.antisymm ?_
    intro x hx
    simp only [Finset.mem_filter, List.mem_toFinset, List.mem_append, List.mem_singleton] at hx ⊢
    rcases hx with ⟨hx | rfl, hlt⟩
    · exact ⟨hx, hlt⟩
    · exact ⟨hmem, hlt⟩

/-- **The days held, live and in the replay.**  At every tick of a run of completed
paper ticks in the order of their dates, a position has the time of an entry on an
earlier tick's date; the replay counts the dates after the entry and up to the
tick's; and the count that the tick judges the exits on is the same exactly when an
earlier tick had the date of the tick. -/
theorem held_days_iff (cfg : Settings) (hdry : cfg.tradingMode = .dryRun)
    (hpersisted : cfg.persisted) (hseed : 0 < cfg.paperSeedKrw) (ts : List TickInput)
    (hdone : AllComplete cfg (start cfg {}) ts) (horder : (tickDates ts).Pairwise (· ≤ ·))
    {pre post : List TickInput} {t : TickInput} (hts : ts = pre ++ t :: post) :
    (∃ args result, PaperTicked cfg t ((start cfg {}).ticks cfg pre) args result
      ((start cfg {}).ticks cfg (pre ++ [t]))) ∧
    ∀ symbol pos,
      (((start cfg {}).ticks cfg pre).paperBook cfg).positions.get? symbol = some pos →
      ∃ openedAt n, pos.openedAt = some openedAt ∧ tradeDateKst openedAt ∈ tickDates pre ∧
        (heldDays ((start cfg {}).ticks cfg pre).db
          (((start cfg {}).ticks cfg pre).paperBook cfg)).get? symbol = some n ∧
        (∀ (a : BacktestArgs) (b : Backtest), (∀ d, d ∈ a.dates ↔ d ∈ tickDates ts) →
          symbol ∈ b.paper.positions.keys →
          b.opened.get? symbol = some (tradeDateKst openedAt) →
          (a.daysHeld b (tradeDateKst t.now)).get? symbol =
            some (datesBetween (tickDates ts) (tradeDateKst openedAt) (tradeDateKst t.now))) ∧
        (n = datesBetween (tickDates ts) (tradeDateKst openedAt) (tradeDateKst t.now) ↔
          tradeDateKst t.now ∈ tickDates pre) := by
  have hsplit : AllComplete cfg (start cfg {}) (pre ++ t :: post) := hts ▸ hdone
  obtain ⟨hpre, hcompletes, -⟩ := hsplit.split
  have hcurved := curved_ticks hdry hpersisted hseed hpre
  have hticks : (start cfg {}).ticks cfg (pre ++ [t]) =
      ((start cfg {}).ticks cfg pre).step cfg (.tick t) := List.foldl_concat ..
  refine ⟨hticks ▸ hcurved.ticked hpersisted hseed hcompletes, ?_⟩
  intro symbol pos hpos
  obtain ⟨openedAt, hopened, hentry⟩ := hcurved.opened symbol pos hpos
  have hdates : tickDates ts = tickDates pre ++ tradeDateKst t.now :: tickDates post := by
    rw [hts, tickDates_append]
    rfl
  have hle : tradeDateKst openedAt ≤ tradeDateKst t.now := by
    have hsorted := horder
    rw [hdates, List.pairwise_append] at hsorted
    exact hsorted.2.2 _ hentry _ List.mem_cons_self
  refine ⟨openedAt, ((start cfg {}).ticks cfg pre).db.countTradingDaysSince
    (tradeDateKst openedAt), hopened, hentry, ?_, ?_, ?_⟩
  · rw [heldDays_get?, hpos, Option.bind_some, hopened, Option.map_some]
  · intro a b hall hheld hb
    have hentry' : tradeDateKst openedAt ∈ a.dates := by
      rw [hall, hdates]
      exact List.mem_append_left _ hentry
    have hd : tradeDateKst t.now ∈ a.dates := by
      rw [hall, hdates]
      exact List.mem_append_right _ List.mem_cons_self
    rw [a.replay_daysHeld b hheld hb hentry' hd]
    have hset : a.dates.toFinset = (tickDates ts).toFinset := by
      ext d
      simp [hall]
    rw [datesBetween, hset, datesBetween]
  · -- the live dates are among the replay's, and lack at most the date of the tick
    rw [Db.countTradingDaysSince_eq, hcurved.curve, datesBetween, between_eq horder hts]
    exact card_after_eq_iff hentry hle

end Server

namespace Sample

/-- A paper tick at ten o'clock, `days` days later. -/
def tickAfter (id : ClientOrderId) (days : ℤ) : TickInput :=
  { tickInput id noHoldings returning with
    toss := some upMarket
    watch := .ok ["005930"]
    now := ⟨tenOClock.instant + days * usPerDay, KST⟩ }

/-- A buy on the first day, and two ticks on the next. -/
def heldTicks : List TickInput := [tickAfter "a" 0, tickAfter "b" 1, tickAfter "c" 1]

end Sample

namespace Server

/-- At the second tick of the next day both count one day. -/
theorem held_days_iff_sample :
    ∃ pos n, (((start Sample.paperSettings {}).ticks Sample.paperSettings
        [Sample.tickAfter "a" 0, Sample.tickAfter "b" 1]).paperBook
          Sample.paperSettings).positions.get? "005930" = some pos ∧
      (heldDays ((start Sample.paperSettings {}).ticks Sample.paperSettings
        [Sample.tickAfter "a" 0, Sample.tickAfter "b" 1]).db
          (((start Sample.paperSettings {}).ticks Sample.paperSettings
            [Sample.tickAfter "a" 0, Sample.tickAfter "b" 1]).paperBook
              Sample.paperSettings)).get? "005930" = some n ∧
      ∃ openedAt, pos.openedAt = some openedAt ∧
        n = datesBetween (tickDates Sample.heldTicks) (tradeDateKst openedAt)
          (tradeDateKst (Sample.tickAfter "c" 1).now) := by
  have hsample := (held_days_iff Sample.paperSettings rfl rfl (by decide +kernel)
    Sample.heldTicks (by decide +kernel) (by decide +kernel)
    (show Sample.heldTicks = [Sample.tickAfter "a" 0, Sample.tickAfter "b" 1] ++
      Sample.tickAfter "c" 1 :: [] from rfl)).2
  have hheld : ((((start Sample.paperSettings {}).ticks Sample.paperSettings
      [Sample.tickAfter "a" 0, Sample.tickAfter "b" 1]).paperBook
        Sample.paperSettings).positions.get? "005930").isSome = true := by decide +kernel
  obtain ⟨pos, hpos⟩ := Option.isSome_iff_exists.mp hheld
  obtain ⟨openedAt, n, hopened, -, hn, -, hiff⟩ := hsample "005930" pos hpos
  exact ⟨pos, n, hpos, hn, openedAt, hopened, hiff.mpr (by decide +kernel)⟩

/-- At the first tick of the next day the live count is still none. -/
theorem held_days_short :
    ¬ ∀ (cfg : Settings), cfg.tradingMode = .dryRun → cfg.persisted → 0 < cfg.paperSeedKrw →
      ∀ ts : List TickInput, AllComplete cfg (start cfg {}) ts →
        (tickDates ts).Pairwise (· ≤ ·) → ∀ pre t post, ts = pre ++ t :: post →
        ∀ symbol pos openedAt n,
          (((start cfg {}).ticks cfg pre).paperBook cfg).positions.get? symbol = some pos →
          pos.openedAt = some openedAt →
          (heldDays ((start cfg {}).ticks cfg pre).db
            (((start cfg {}).ticks cfg pre).paperBook cfg)).get? symbol = some n →
          n = datesBetween (tickDates ts) (tradeDateKst openedAt) (tradeDateKst t.now) := by
  intro h
  have hbook : ((((start Sample.paperSettings {}).ticks Sample.paperSettings
      [Sample.tickAfter "a" 0]).paperBook Sample.paperSettings).positions.get? "005930").bind
        PaperPosition.openedAt = some ⟨Sample.tenOClock.instant, 0⟩ := by decide +kernel
  obtain ⟨pos, hpos, hopened⟩ := Option.bind_eq_some_iff.mp hbook
  have hcount := h Sample.paperSettings rfl rfl (by decide +kernel) Sample.heldTicks
    (by decide +kernel) (by decide +kernel) [Sample.tickAfter "a" 0] (Sample.tickAfter "b" 1)
    [Sample.tickAfter "c" 1] rfl "005930" pos _ 0 hpos hopened (by decide +kernel)
  exact absurd hcount (by decide +kernel)

end Server

end AutoTrade
