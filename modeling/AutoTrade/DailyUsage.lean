/-
AutoTrade/DailyUsage.lean

The day's buys in memory and in the orders table.

The order loop of a tick adds up what its accepted buys were estimated to cost; the
next tick starts from the sum over the rows of the day.  The table has one row for
each id, that of the first result which was no echo (`recordTicks_orders`), and a row
costs what its request was estimated to, so the two sums are of the same amounts
(`recordTicks_spec`).
-/
import AutoTrade.DailyCap
import Mathlib.Data.List.Induction

namespace AutoTrade

open KeepFirst

namespace Db

/-- The database after some calls of `record_tick` on an empty one. -/
def recordTicks (ticks : List (TickResult × Datetime)) : Db :=
  ticks.foldl (fun db t => db.recordTick t.1 t.2) {}

/-- The results that are no echoes, each with the number of its tick. -/
def answers (ticks : List (TickResult × Datetime)) : List (OrderResult × ℕ) :=
  (ticks.zipIdx 1).flatMap fun t => (newAnswers t.1.1.orders).map fun r => (r, t.2)

theorem recordTicks_concat (ticks : List (TickResult × Datetime)) (t : TickResult × Datetime) :
    recordTicks (ticks ++ [t]) = (recordTicks ticks).recordTick t.1 t.2 := by
  rw [recordTicks, List.foldl_append]
  rfl

theorem answers_concat (ticks : List (TickResult × Datetime)) (t : TickResult × Datetime) :
    answers (ticks ++ [t]) =
      answers ticks ++ (newAnswers t.1.orders).map fun r => (r, ticks.length + 1) := by
  simp [answers, List.zipIdx_append, Nat.add_comm]

theorem recordTicks_ticks_length (ticks : List (TickResult × Datetime)) :
    (recordTicks ticks).ticks.length = ticks.length := by
  induction ticks using List.reverseRecOn with
  | nil => rfl
  | append_singleton ticks t ih =>
    rw [recordTicks_concat, List.length_append, ← ih]
    simp [recordTick]

/-- **The orders table** has the rows of the first results. -/
theorem recordTicks_orders (ticks : List (TickResult × Datetime)) :
    (recordTicks ticks).orders =
      (firsts (fun p => p.1.clientOrderId) (answers ticks)).map fun p => orderRow p.1 p.2 := by
  have hrows : (recordTicks ticks).orders =
      firsts OrderRow.clientOrderId ((answers ticks).map fun p => orderRow p.1 p.2) := by
    induction ticks using List.reverseRecOn with
    | nil => rfl
    | append_singleton ticks t ih =>
      rw [recordTicks_concat, answers_concat, List.map_append, ← offerAll_firsts, ← ih,
        List.map_map]
      show t.1.orders.foldl (addOrder ((recordTicks ticks).ticks.length + 1))
        (recordTicks ticks).orders = _
      rw [foldl_addOrder_eq, recordTicks_ticks_length]
      rfl
  rw [hrows, firsts_map]
  rfl

/-- The first result under each id that was no echo. -/
def firstResults (ticks : List (TickResult × Datetime)) : List OrderResult :=
  firsts OrderResult.clientOrderId (ticks.flatMap fun t => newAnswers t.1.orders)

theorem map_fst_answers (ticks : List (TickResult × Datetime)) :
    (answers ticks).map Prod.fst = ticks.flatMap fun t => newAnswers t.1.orders := by
  induction ticks using List.reverseRecOn with
  | nil => rfl
  | append_singleton ticks t ih =>
    rw [answers_concat, List.map_append, ih, List.map_map, List.flatMap_append]
    simp [Function.comp_def]

/-- A row counts towards a day's buys as its result does. -/
theorem recordTicks_buyNotionalToday (ticks : List (TickResult × Datetime)) (d : Date) :
    (recordTicks ticks).buyNotionalToday d =
      (((firstResults ticks).filter fun r =>
        tradeDateKst r.createdAt = d ∧ r.acceptedBuy).map fun r => r.request.notional).sum := by
  rw [buyNotionalToday, recordTicks_orders, firstResults, ← map_fst_answers, firsts_map,
    List.filter_map, List.filter_map, List.map_map, List.map_map]
  congr 1
  apply List.map_congr_left
  intro p _
  exact orderRow_cost p.1 p.2

end Db

/-! ### After one more tick -/

/-- The tick comes to its order loop, and the loop ends with these orders and this sum. -/
def LoopEnds (args : TickArgs) (svc : OrderService) (done : Orders) : Prop :=
  ∃ g decisions final, gather args = .ok (some g) ∧ tickCandidates args g ≠ [] ∧
    deliberate args (tickCandidates args g) = .ok decisions ∧
    orderLoop args g svc.killSwitch decisions (assessed args g svc) = (.ok done, final)

theorem LoopEnds.result {args : TickArgs} {svc : OrderService} {done : Orders}
    (h : LoopEnds args svc done) :
    (∃ r, (runTick args svc).1 = .ok r ∧ r.orders = done.orders) ∧
      done.dailyUsed = args.dailyBuyUsedKrw + acceptedBuyNotional done.orders := by
  obtain ⟨g, decisions, final, hg, hc, hd, hl⟩ := h
  constructor
  · refine ⟨tradedResult args g svc final decisions done, ?_, rfl⟩
    have hne : (tickCandidates args g).isEmpty = false := List.isEmpty_eq_false_iff.mpr hc
    simp only [runTick, Effect.bind_apply, Effect.look_apply, Effect.lift_apply,
      Effect.change_apply, id, hg, hne, Bool.false_eq_true, if_false, hd, hl]
    rfl
  · have hloop := @orderLoop_rule (assessed args g svc) (fun _ _ => True) args g svc.killSwitch
      decisions trivial fun _ _ _ _ _ _ _ _ _ _ => trivial
    exact (hloop.of_ok hl).1

/-- A tick with orders came to its order loop. -/
theorem exists_loopEnds {args : TickArgs} {svc : OrderService} {r : TickResult}
    (hr : (runTick args svc).1 = .ok r) (hne : r.orders ≠ []) :
    ∃ done, LoopEnds args svc done ∧ done.orders = r.orders := by
  rcases hrun : runTick args svc with ⟨out, final⟩
  obtain rfl : out = .ok r := by rw [← hr, hrun]
  cases ticks_of_run hrun with
  | nothing hg => exact absurd rfl hne
  | unmatched hg hc => exact absurd rfl hne
  | traded hg hc hd hl => exact ⟨_, ⟨_, _, _, hg, hc, hd, hl⟩, rfl⟩

/-- **A tick whose orders are of its day and have fresh ids** leaves in the table what
its loop added up. -/
theorem Db.buyNotionalToday_recordTick {db : Db} {args : TickArgs} {svc : OrderService}
    {done : Orders} {r : TickResult} {startedAt : Datetime} {d : Date}
    (hused : args.dailyBuyUsedKrw = db.buyNotionalToday d) (h : LoopEnds args svc done)
    (hr : r.orders = done.orders)
    (hids : ((newAnswers done.orders).map OrderResult.clientOrderId).Nodup)
    (hnew : ∀ o ∈ newAnswers done.orders, o.clientOrderId ∉ db.orders.map OrderRow.clientOrderId)
    (hday : ∀ o ∈ newAnswers done.orders, tradeDateKst o.createdAt = d) :
    (db.recordTick r startedAt).buyNotionalToday d = done.dailyUsed := by
  have hrows : (db.recordTick r startedAt).orders = db.orders ++
      (newAnswers done.orders).map fun o => Db.orderRow o (db.ticks.length + 1) := by
    show r.orders.foldl (Db.addOrder (db.ticks.length + 1)) db.orders = _
    rw [hr, Db.foldl_addOrder_of_nodup hids hnew]
  have hposted : rowPostings (db.recordTick r startedAt).orders =
      rowPostings db.orders ++ buyPostings (newAnswers done.orders) := by
    rw [hrows, ← rowPostings_orderRow _ (db.ticks.length + 1)]
    simp [rowPostings]
  have hspent : Posting.spent (buyPostings (newAnswers done.orders)) d =
      acceptedBuyNotional done.orders := by
    rw [Posting.spent, List.filter_eq_self.mpr, total_buyPostings, acceptedBuyNotional,
      filter_acceptedBuy_newAnswers]
    · rfl
    · intro p hp
      obtain ⟨o, ho, rfl⟩ := List.mem_map.mp hp
      exact decide_eq_true (hday o (List.mem_filter.mp ho).1)
  calc (db.recordTick r startedAt).buyNotionalToday d
      = Posting.spent (rowPostings db.orders) d +
          Posting.spent (buyPostings (newAnswers done.orders)) d := by
        rw [buyNotionalToday_eq, hposted, Posting.spent_append]
    _ = args.dailyBuyUsedKrw + acceptedBuyNotional done.orders := by
        rw [hspent, hused, buyNotionalToday_eq]
    _ = done.dailyUsed := h.result.2.symm

/-- **The stored usage of a day and that of the ticks agree.**  However often ids are
repeated, the table has one row for each id that was answered, that of the first answer;
the buys of a day are the sum over the first answers that are accepted buys of the day;
and after a tick whose orders are of its day and have fresh ids, that sum is what its loop
ended with. -/
theorem recordTicks_spec (ticks : List (TickResult × Datetime)) :
    ((Db.recordTicks ticks).orders.map OrderRow.clientOrderId).Nodup ∧
      (∀ id, (Db.recordTicks ticks).orders.filter (fun row => row.clientOrderId = id) =
        (((Db.answers ticks).find? fun p => p.1.clientOrderId = id).map fun p =>
          Db.orderRow p.1 p.2).toList) ∧
      (∀ d, (Db.recordTicks ticks).buyNotionalToday d =
        (((Db.firstResults ticks).filter fun r => tradeDateKst r.createdAt = d ∧
          r.request.side = .buy ∧ (r.status = .dryRun ∨ r.status = .submitted)).map fun r =>
            r.request.estimatedNotional.getD 0).sum) ∧
      ∀ args svc done,
        args.dailyBuyUsedKrw =
          (Db.recordTicks ticks).buyNotionalToday (tradeDateKst args.now) →
        LoopEnds args svc done →
        ((newAnswers done.orders).map OrderResult.clientOrderId).Nodup →
        (∀ o ∈ newAnswers done.orders,
          o.clientOrderId ∉ (Db.recordTicks ticks).orders.map OrderRow.clientOrderId) →
        (∀ o ∈ newAnswers done.orders, tradeDateKst o.createdAt = tradeDateKst args.now) →
        ∃ r, (runTick args svc).1 = .ok r ∧
          (Db.recordTicks (ticks ++ [(r, args.now)])).buyNotionalToday (tradeDateKst args.now) =
            done.dailyUsed := by
  refine ⟨?_, fun id => ?_, fun d => ?_, ?_⟩
  · rw [Db.recordTicks_orders, List.map_map]
    exact nodup_firsts (fun p : OrderResult × ℕ => p.1.clientOrderId) _
  · rw [Db.recordTicks_orders, List.filter_map, Option.toList_map]
    exact congrArg (List.map _)
      (filter_key_firsts (fun p : OrderResult × ℕ => p.1.clientOrderId) _ id)
  · rw [Db.recordTicks_buyNotionalToday]
    congr 2
    apply List.filter_congr
    intro r _
    simp [OrderResult.acceptedBuy, OrderStatus.accepted]
  · intro args svc done hused h hids hnew hday
    obtain ⟨⟨r, hrun, hr⟩, -⟩ := h.result
    refine ⟨r, hrun, ?_⟩
    rw [Db.recordTicks_concat]
    exact Db.buyNotionalToday_recordTick hused h hr hids hnew hday

/-- Two symbols bought for 200000 won. -/
def Sample.bought : List OrderResult :=
  match (runTick SerialTick.sampleTick.args SerialTick.sampleTick.svc).1 with
  | .ok r => r.orders
  | .error _ => []

theorem recordTicks_spec_sample :
    ∃ (done : Orders) (r : TickResult),
      (runTick SerialTick.sampleTick.args SerialTick.sampleTick.svc).1 = .ok r ∧
      (Db.recordTicks [(r, SerialTick.sampleTick.args.now)]).buyNotionalToday
        (tradeDateKst SerialTick.sampleTick.args.now) = done.dailyUsed ∧
      done.dailyUsed = 200000 := by
  have hsome : Sample.bought ≠ [] := by decide +kernel
  unfold Sample.bought at hsome
  rcases hrun : (runTick SerialTick.sampleTick.args SerialTick.sampleTick.svc).1 with e | r
  · rw [hrun] at hsome
    exact absurd rfl hsome
  · rw [hrun] at hsome
    have hbought : Sample.bought = r.orders := by rw [Sample.bought, hrun]
    obtain ⟨done, hends, hdone⟩ := exists_loopEnds hrun hsome
    obtain ⟨r', hr', hused⟩ := (recordTicks_spec []).2.2.2 SerialTick.sampleTick.args
      SerialTick.sampleTick.svc done (by decide +kernel) hends
      (by rw [hdone, ← hbought]; decide +kernel) (by rw [hdone, ← hbought]; decide +kernel)
      (by rw [hdone, ← hbought]; decide +kernel)
    refine ⟨done, r', hrun.symm.trans hr', hused, ?_⟩
    rw [hends.result.2, hdone, ← hbought]
    decide +kernel

end AutoTrade
