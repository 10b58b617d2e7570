/-
AutoTrade/DailyCap.lean

The daily buy cap across ticks.

The cap is kept in three places: the guardrail on each order, the running sum
of a tick, and the aggregate of the orders table that the next tick starts
from.  Here each is read as postings on a day: `buyPostings` of the results of
a tick, `rowPostings` of the rows of the table.  `runTick_withinCap` is what
one tick does with the cap, `Kept.session` carries it over the ticks.
-/
import AutoTrade.Repo
import AutoTrade.Lib.Quota

namespace AutoTrade

/-! ### Buys as postings -/

/-- The accepted buys among some results. -/
def buyPostings (rs : List OrderResult) : List (Posting Date ℚ) :=
  (rs.filter OrderResult.acceptedBuy).map fun r =>
    ⟨tradeDateKst r.createdAt, r.request.notional⟩

/-- The rows that count as the day's buys. -/
def rowPostings (rows : List OrderRow) : List (Posting Date ℚ) :=
  (rows.filter OrderRow.used).map fun r => ⟨r.tradeDate, r.cost⟩

theorem total_buyPostings (rs : List OrderResult) :
    Posting.total (buyPostings rs) = acceptedBuyNotional rs := by
  simp only [Posting.total, buyPostings, acceptedBuyNotional, List.map_map]
  rfl

theorem buyPostings_append (rs ts : List OrderResult) :
    buyPostings (rs ++ ts) = buyPostings rs ++ buyPostings ts := by
  simp [buyPostings]

theorem buyPostings_sublist {rs ts : List OrderResult} (h : rs.Sublist ts) :
    (buyPostings rs).Sublist (buyPostings ts) := (h.filter _).map _

/-- An echo is no accepted buy. -/
theorem filter_acceptedBuy_newAnswers (rs : List OrderResult) :
    (newAnswers rs).filter OrderResult.acceptedBuy = rs.filter OrderResult.acceptedBuy := by
  rw [newAnswers, List.filter_filter]
  apply List.filter_congr
  intro r _
  rcases hs : r.status with - | - | - | - | -
  all_goals simp [OrderResult.acceptedBuy, OrderStatus.accepted, hs]

theorem buyPostings_newAnswers (rs : List OrderResult) :
    buyPostings (newAnswers rs) = buyPostings rs := by
  rw [buyPostings, filter_acceptedBuy_newAnswers, buyPostings]

/-- The rows of some results are posted as the results are. -/
theorem rowPostings_orderRow (rs : List OrderResult) (tickId : ℕ) :
    rowPostings (rs.map fun r => Db.orderRow r tickId) = buyPostings rs := by
  unfold rowPostings buyPostings
  rw [List.filter_map, List.map_map]
  have hused : OrderRow.used ∘ (fun r => Db.orderRow r tickId) = OrderResult.acceptedBuy := rfl
  rw [hused]
  apply List.map_congr_left
  intro r _
  show (⟨(Db.orderRow r tickId).tradeDate, (Db.orderRow r tickId).cost⟩ : Posting Date ℚ) = _
  rw [Db.orderRow_cost]
  rfl

/-- The aggregate of the table is what its postings spend on the day. -/
theorem buyNotionalToday_eq (db : Db) (d : Date) :
    db.buyNotionalToday d = Posting.spent (rowPostings db.orders) d := by
  unfold Db.buyNotionalToday Posting.spent Posting.total rowPostings
  rw [List.filter_map, List.filter_filter, List.map_map]
  congr 2
  apply List.filter_congr
  intro row _
  simp

/-! ### One tick -/

/-- The buys of a tick together stay within the cap, none costs less than
nothing, and each is dated by a reading of the tick's clock. -/
structure WithinCap (args : TickArgs) (cap : ℚ) (orders : List OrderResult) : Prop where
  granted : buyPostings orders ≠ [] →
    args.dailyBuyUsedKrw + Posting.total (buyPostings orders) ≤ cap
  nonneg : ∀ p ∈ buyPostings orders, 0 ≤ p.amount
  dated : ∀ p ∈ buyPostings orders, ∃ i, p.day = tradeDateKst (args.stamps i).createdAt

theorem withinCap_nil (args : TickArgs) (cap : ℚ) : WithinCap args cap [] where
  granted := fun h => absurd rfl h
  nonneg := by simp [buyPostings]
  dated := by simp [buyPostings]

/-- A submission keeps the cap: a buy that is not accepted posts nothing, and
one that is has passed the guardrail with the running sum. -/
theorem WithinCap.submitted {args : TickArgs} {g : Gathered} {ks : Bool}
    {svc svc' : OrderService} {orders : List OrderResult} {d : Decision} {order : OrderRequest}
    {res : OrderResult} (h : WithinCap args svc.config.dailyBuyCapKrw orders)
    (hsub : Submitted (orderEnv args g ks) args.dailyBuyUsedKrw orders svc d order res svc') :
    WithinCap args svc.config.dailyBuyCapKrw (orders ++ [res]) := by
  by_cases hacc : res.acceptedBuy
  · cases hsub with
    | duplicate hctx hgate halloc hseen =>
      simp [OrderResult.acceptedBuy, OrderStatus.accepted] at hacc
    | settled hctx hgate halloc hseen hs =>
      obtain ⟨-, hreq, htime, -⟩ := hs.answers
      obtain ⟨hside, hstatus⟩ := OrderResult.acceptedBuy_iff.mp hacc
      have hpass := (runGuardrails_eq_nil.mp (hs.passed_of_accepted hstatus)).2.2.2.2.1
      have hcap : args.dailyBuyUsedKrw + acceptedBuyNotional orders + order.notional ≤
          svc.config.dailyBuyCapKrw :=
        (guardDailyBuyCap_eq_none (hreq ▸ hside)).mp hpass
      have hpost : buyPostings [res] = [⟨tradeDateKst res.createdAt, res.request.notional⟩] := by
        simp [buyPostings, hacc]
      refine ⟨?_, ?_, ?_⟩
      · intro _
        rw [total_buyPostings, acceptedBuyNotional_append, ← total_buyPostings [res], hpost,
          hreq, ← add_assoc]
        simpa [Posting.total] using hcap
      · intro p hp
        rw [buyPostings_append, hpost, List.mem_append, List.mem_singleton] at hp
        rcases hp with hp | rfl
        · exact h.nonneg p hp
        · show 0 ≤ res.request.notional
          rw [hreq]
          exact allocate_notional_nonneg halloc
      · intro p hp
        rw [buyPostings_append, hpost, List.mem_append, List.mem_singleton] at hp
        rcases hp with hp | rfl
        · exact h.dated p hp
        · exact ⟨orders.length, by rw [htime]; rfl⟩
  -- what is not accepted is not counted
  · have hnone : buyPostings [res] = [] := by simp [buyPostings, hacc]
    have hsame : buyPostings (orders ++ [res]) = buyPostings orders := by
      rw [buyPostings_append, hnone, List.append_nil]
    exact ⟨hsame ▸ h.granted, hsame ▸ h.nonneg, hsame ▸ h.dated⟩

/-- **One tick and the cap**, whether it ends or raises. -/
theorem runTick_withinCap (args : TickArgs) (svc : OrderService) :
    ∃ orders, (∀ r, (runTick args svc).1 = .ok r → r.orders = orders) ∧
      settledIn args svc = newAnswers orders ∧
      WithinCap args svc.config.dailyBuyCapKrw orders := by
  obtain ⟨orders, hret, hset, hcap, -⟩ := runTick_rule (I := fun orders s =>
    WithinCap args svc.config.dailyBuyCapKrw orders ∧ s.config = svc.config)
    ⟨withinCap_nil _ _, rfl⟩ (fun g _ => ⟨withinCap_nil _ _, rfl⟩) (by
      rintro g decisions - - d - orders s order res s' - ⟨hcap, hconf⟩ hsub
      refine ⟨?_, hsub.sameSetup.config.trans hconf⟩
      rw [← hconf] at hcap ⊢
      exact hcap.submitted hsub)
  exact ⟨orders, hret, hset, hcap⟩

/-! ### A run of ticks -/

/-- The orders table and the clock. -/
structure Book where
  db : Db := {}
  clock : Instant

/-- A tick of the run.  The service it runs on is any: it may have been
restarted, switched or set to the other mode since the last tick. -/
structure SerialTick where
  svc : OrderService
  args : TickArgs
  /-- whether `record_tick` was reached and committed -/
  recorded : Bool
  /-- the clock when the tick is over -/
  finished : Instant

namespace SerialTick

/-- The arguments of a tick that starts on `db`. -/
def startArgs (e : SerialTick) (db : Db) : TickArgs :=
  { e.args with dailyBuyUsedKrw := db.buyNotionalToday (tradeDateKst e.args.now) }

/-- Aggregate the day's buys, run the tick, record it; a tick that raises
anywhere records nothing. -/
def step (s : Book) (e : SerialTick) : Book :=
  { db := match (runTick (e.startArgs s.db) e.svc).1, e.recorded with
      | .ok r, true => s.db.recordTick r e.args.now
      | _, _ => s.db
    clock := e.finished }

/-- The tick has the cap `cap` and reads a clock that does not go back. -/
structure Serial (cap : ℚ) (s : Book) (e : SerialTick) : Prop where
  cap : e.svc.config.dailyBuyCapKrw = cap
  start : s.clock ≤ e.args.now.instant
  finish : e.args.now.instant ≤ e.finished
  during : ∀ i, e.args.now.instant ≤ (e.args.stamps i).createdAt.instant ∧
    (e.args.stamps i).createdAt.instant ≤ e.finished

/-- Recording a tick posts some of its buys. -/
theorem rowPostings_recordTick (db : Db) (r : TickResult) (startedAt : Datetime) :
    ∃ gs, gs.Sublist (buyPostings r.orders) ∧
      rowPostings (db.recordTick r startedAt).orders = rowPostings db.orders ++ gs := by
  obtain ⟨new, hsub, heq⟩ := Db.foldl_addOrder (db.ticks.length + 1) db.orders r.orders
  refine ⟨buyPostings new, buyPostings_sublist hsub, ?_⟩
  show rowPostings (r.orders.foldl (Db.addOrder (db.ticks.length + 1)) db.orders) = _
  rw [heq, ← rowPostings_orderRow new (db.ticks.length + 1)]
  simp [rowPostings]

/-- The cap is kept on every day, up to the day of the clock. -/
def Kept (cap : ℚ) (s : Book) : Prop :=
  Posting.Kept cap (tradeDateKst (.utc s.clock)) (rowPostings s.db.orders)

theorem Kept.step {cap : ℚ} {s : Book} {e : SerialTick} (h : Kept cap s)
    (he : Serial cap s e) : Kept cap (SerialTick.step s e) := by
  have hstart : tradeDateKst (.utc s.clock) ≤ tradeDateKst e.args.now :=
    tradeDateKst_mono he.start
  have hfinish : tradeDateKst e.args.now ≤ tradeDateKst (.utc e.finished) :=
    tradeDateKst_mono he.finish
  have hidle : Posting.Kept cap (tradeDateKst (.utc e.finished)) (rowPostings s.db.orders) :=
    Posting.Kept.later h (hstart.trans hfinish)
  obtain ⟨orders, hret, -, hcap⟩ := runTick_withinCap (e.startArgs s.db) e.svc
  -- only a tick that returns and is recorded posts anything
  unfold Kept SerialTick.step
  rcases hrun : (runTick (e.startArgs s.db) e.svc) with ⟨out, final⟩
  rcases out with err | r
  · exact hidle
  · rcases e.recorded with - | -
    · exact hidle
    · have horders : r.orders = orders := hret r (by rw [hrun])
      subst horders
      obtain ⟨gs, hsub, heq⟩ := rowPostings_recordTick s.db r e.args.now
      show Posting.Kept cap _ (rowPostings (s.db.recordTick r e.args.now).orders)
      rw [heq]
      -- the snapshot of the session is the aggregate that the tick started from
      refine Posting.Kept.session (q := s.db.buyNotionalToday (tradeDateKst e.args.now)) h hstart
        ?_ ?_ ?_ ?_ hfinish ?_
      · rw [buyNotionalToday_eq]
      · rw [buyNotionalToday_eq]
        exact Posting.spent_nonneg h.nonneg
      · intro p hp
        exact hcap.nonneg p (hsub.subset hp)
      · intro p hp
        obtain ⟨i, hi⟩ := hcap.dated p (hsub.subset hp)
        obtain ⟨hlow, hhigh⟩ := he.during i
        rw [hi]
        exact ⟨tradeDateKst_mono hlow, tradeDateKst_mono hhigh⟩
      · intro hne
        have hsome : buyPostings r.orders ≠ [] := by
          intro hnil
          rw [hnil] at hsub
          exact hne (List.sublist_nil.mp hsub)
        have htotal : Posting.total gs ≤ Posting.total (buyPostings r.orders) :=
          Posting.total_le_of_sublist hsub hcap.nonneg
        calc s.db.buyNotionalToday (tradeDateKst e.args.now) + Posting.total gs
            ≤ s.db.buyNotionalToday (tradeDateKst e.args.now) +
                Posting.total (buyPostings r.orders) := by gcongr
          _ ≤ e.svc.config.dailyBuyCapKrw := hcap.granted hsome
          _ = cap := he.cap

/-- **The daily buy cap holds across ticks.**  In every run of serial ticks
from an empty table, whatever the ticks are given and wherever they fail, the
recorded buys of a day that were intended or sent never cost more than the cap
together. -/
theorem daily_buy_cap (cap : ℚ) (hcap : 0 ≤ cap) (clock : Instant) (ticks : List SerialTick)
    (h : Run.Admits step (Serial cap) { clock } ticks) (day : Date) :
    (((ticks.foldl step { clock }).db.orders.filter fun row =>
        row.tradeDate = day ∧ row.side = .buy ∧
          (row.status = .dryRun ∨ row.status = .submitted)).map OrderRow.cost).sum ≤ cap := by
  have hstart : Kept cap { clock } := Posting.kept_nil hcap _
  have hrun : Kept cap (ticks.foldl step { clock }) :=
    h.invariant (fun s e hs he => hs.step he) hstart
  have hday : (ticks.foldl step { clock }).db.buyNotionalToday day ≤ cap := by
    rw [buyNotionalToday_eq]
    exact hrun.within day
  have hused : (fun row : OrderRow => decide (row.tradeDate = day ∧ row.side = .buy ∧
      (row.status = .dryRun ∨ row.status = .submitted))) =
      fun row => decide (row.tradeDate = day ∧ row.used) := by
    funext row
    simp [OrderRow.used, OrderStatus.accepted]
  rw [hused]
  exact hday

/-- Two symbols bought for 200000 won, below the cap of 500000. -/
def sampleTick : SerialTick where
  svc := { config := { enforceMarketHours := false } }
  args := Sample.args 1000000 Sample.noHoldings ["000660", "005930"]
  recorded := true
  finished := Sample.tenOClock.instant

/-- A tick on two symbols with a cap of 300000, whose ids start with `id`. -/
def smallTick (id : ClientOrderId) (watchlist : List Symbol) (judge : Judge) : SerialTick :=
  { sampleTick with
    svc := { config := { enforceMarketHours := false, dailyBuyCapKrw := 300000 } }
    args := { sampleTick.args with
      watchlist, judge
      stamps := fun i => ⟨id ++ toString i, Sample.tenOClock⟩ } }

/-- Two symbols are bought, a tick fails, and of its symbols the next one buys the one
that is within the cap. -/
def sampleDay : List SerialTick :=
  [smallTick "a" ["000660", "005930"] Sample.buyAll,
    smallTick "b" ["000270", "035420"] fun _ => .error "TimeoutError",
    smallTick "c" ["000270", "035420"] Sample.buyAll]

theorem daily_buy_cap_sample :
    ((sampleDay.foldl step { clock := 0 }).db.orders.filter OrderRow.used).map
        (fun row => (row.clientOrderId, row.cost)) =
        [("a0", 100000), ("a1", 100000), ("c0", 100000)] ∧
      ∀ day, (((sampleDay.foldl step { clock := 0 }).db.orders.filter fun row =>
        row.tradeDate = day ∧ row.side = .buy ∧
          (row.status = .dryRun ∨ row.status = .submitted)).map OrderRow.cost).sum ≤ 300000 := by
  refine ⟨by decide +kernel, daily_buy_cap 300000 (by norm_num) 0 sampleDay ?_⟩
  have hfirst : Serial 300000 { clock := 0 } (smallTick "a" ["000660", "005930"] Sample.buyAll) :=
    ⟨rfl, by decide, le_refl _, fun _ => ⟨le_refl _, le_refl _⟩⟩
  refine ⟨hfirst, ⟨rfl, le_refl _, le_refl _, ?_⟩, ⟨rfl, le_refl _, le_refl _, ?_⟩, trivial⟩
  · exact fun _ => ⟨le_refl _, le_refl _⟩
  · exact fun _ => ⟨le_refl _, le_refl _⟩

end SerialTick

end AutoTrade
