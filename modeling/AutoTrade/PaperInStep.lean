/-
AutoTrade/PaperInStep.lean

The paper book and the orders table in step.

`record_tick` and `save_paper` are two transactions of a tick.  `Db.InStep` says
that the stored book is the book of the recorded orders: every order with the
status `DRY_RUN`, filled in the order of the rows, at the time of its tick, from
the seed.  A tick that is cut between the two writes loses its fills
(`LosesFills`), and `paper_in_step` says that nothing else parts the book from
the table, over any run of the server.
-/
import AutoTrade.DbFrame
import AutoTrade.PaperBook
import AutoTrade.PaperLimit
import AutoTrade.SentLimit

namespace AutoTrade

open PaperPortfolio

/-! ### The recorded orders as fills -/

/-- The request that a row records. -/
def OrderRow.request (row : OrderRow) : OrderRequest where
  clientOrderId := row.clientOrderId
  symbol := row.symbol
  side := row.side
  orderType := row.orderType
  quantity := row.quantity.map Decimal
  price := row.price.map Decimal
  orderAmount := row.orderAmount.map Decimal
  timeInForce := row.timeInForce

namespace Db

/-- The fill of a row: its request, at the time that its tick started. -/
def fillCall (ticks : List TickRow) (row : OrderRow) : FillCall :=
  (row.request, ticks[row.tickId - 1]?.map TickRow.startedAt)

/-- The fills of the recorded orders of `DRY_RUN`, in the order of the rows. -/
def dryRunCalls (db : Db) : List FillCall :=
  (db.orders.filter fun row => row.status = .dryRun).map (fillCall db.ticks)

/-- The stored book is the book of the recorded orders. -/
def InStep (cfg : Settings) (db : Db) : Prop :=
  (db.loadPaper.getD { cash := cfg.paperSeedKrw }).stored =
    (afterFills cfg.entryGate.cost { cash := cfg.paperSeedKrw } db.dryRunCalls).stored

instance (cfg : Settings) (db : Db) : Decidable (InStep cfg db) :=
  inferInstanceAs (Decidable (_ = _))

/-- Every row has the number of a recorded tick. -/
def Numbered (db : Db) : Prop := ∀ row ∈ db.orders, row.tickId - 1 < db.ticks.length

end Db

/-- The orders of a tick that are filled. -/
def intended (orders : List OrderResult) : List OrderResult :=
  orders.filter fun o => o.status = .dryRun

/-- The fills of a tick that started at `now`. -/
def tickCalls (now : Datetime) (orders : List OrderResult) : List FillCall :=
  (intended orders).map fun o => (o.request, some now)

/-- An echo is not filled. -/
theorem intended_newAnswers (orders : List OrderResult) :
    intended (newAnswers orders) = intended orders := by
  rw [intended, newAnswers, List.filter_filter, intended]
  apply List.filter_congr
  intro o _
  rcases hs : o.status with - | - | - | - | -
  all_goals simp

section Fills

variable (cost : CostConfig)

/-- A fill does not read the id of the order. -/
theorem afterFills_id (book : PaperPortfolio) (now : Datetime) (orders : List OrderResult) :
    book.afterFills cost (orders.map fun o =>
        ({ o.request with clientOrderId := o.clientOrderId }, some now)) =
      book.afterFills cost (orders.map fun o => (o.request, some now)) := by
  induction orders generalizing book with
  | nil => rfl
  | cons o orders ih => exact ih _

/-- A tick fills its intended orders in the book. -/
theorem fillOrders_book (now : Datetime) (orders : List OrderResult) (run : PaperRun)
    (fills : List PaperFill) :
    (orders.foldl (fillStep cost now) (run, fills)).1.book =
      run.book.afterFills cost (tickCalls now orders) := by
  induction orders generalizing run fills with
  | nil => rfl
  | cons o orders ih =>
    rw [List.foldl_cons]
    by_cases hs : o.status = .dryRun
    · have hcalls : tickCalls now (o :: orders) =
          (o.request, some now) :: tickCalls now orders := by
        simp [tickCalls, intended, hs]
      have hbook : (fillStep cost now (run, fills) o).1.book =
          (run.book.applyFill o.request cost (some now)).2 := by
        have hout := applyFill_outcome cost run.book o.request (some now)
        unfold fillStep
        simp only [hs, ne_eq, not_true_eq_false, if_false]
        generalize run.book.applyFill o.request cost (some now) = r at hout
        cases hout with
        | unfilled => rfl
        | skipped => rfl
        | opened => rfl
        | added => rfl
        | closed => rfl
        | reduced => rfl
      rcases hstep : fillStep cost now (run, fills) o with ⟨run', fills'⟩
      rw [hstep] at hbook
      have hbook : run'.book = (run.book.applyFill o.request cost (some now)).2 := hbook
      rw [ih run' fills', hbook, hcalls]
      rfl
    · have hcalls : tickCalls now (o :: orders) = tickCalls now orders := by
        simp [tickCalls, intended, hs]
      have hstep : fillStep cost now (run, fills) o = (run, fills) := by
        simp [fillStep, hs]
      rw [hstep, ih run fills, hcalls]

end Fills

namespace Db

/-- The fills of some rows do not change when ticks are added. -/
theorem fillCall_append {ticks : List TickRow} {row : OrderRow}
    (h : row.tickId - 1 < ticks.length) (new : List TickRow) :
    fillCall (ticks ++ new) row = fillCall ticks row := by
  rw [fillCall, fillCall, List.getElem?_append_left h]

/-- A recorded tick adds its fills, when its ids have no rows. -/
theorem recordTick_dryRunCalls {db : Db} (h : Numbered db) {r : TickResult} (now : Datetime)
    (hids : ((newAnswers r.orders).map OrderResult.clientOrderId).Nodup)
    (hnew : ∀ o ∈ newAnswers r.orders, o.clientOrderId ∉ db.orders.map OrderRow.clientOrderId) :
    (db.recordTick r now).dryRunCalls =
        db.dryRunCalls ++ (intended r.orders).map (fun o =>
          ({ o.request with clientOrderId := o.clientOrderId }, some now)) ∧
      Numbered (db.recordTick r now) := by
  have horders : (db.recordTick r now).orders =
      db.orders ++ (newAnswers r.orders).map fun o => orderRow o (db.ticks.length + 1) :=
    foldl_addOrder_of_nodup hids hnew
  obtain ⟨row, hrow, hnow⟩ : ∃ row, (db.recordTick r now).ticks = db.ticks ++ [row] ∧
      row.startedAt = now := ⟨_, rfl, rfl⟩
  constructor
  · unfold dryRunCalls
    rw [horders, hrow, List.filter_append, List.map_append]
    congr 1
    · apply List.map_congr_left
      intro old hold
      exact fillCall_append (h old (List.mem_filter.mp hold).1) [row]
    · rw [List.filter_map, List.map_map, ← intended_newAnswers]
      apply List.map_congr_left
      intro o _
      simp [fillCall, OrderRow.request, orderRow, hnow, Function.comp_def]
  · intro new hmem
    rw [hrow, List.length_append, List.length_singleton]
    rw [horders, List.mem_append, List.mem_map] at hmem
    rcases hmem with hmem | ⟨o, -, rfl⟩
    · exact Nat.lt_succ_of_lt (h new hmem)
    · exact Nat.lt_succ_self _

end Db

/-! ### What a tick writes of both -/

namespace Server

/-- What the law of the book and the table reads. -/
def bookView (cfg : Settings) (db : Db) : List TickRow × List OrderRow × PaperPortfolio :=
  (db.ticks, db.orders, (db.loadPaper.getD { cash := cfg.paperSeedKrw }).stored)

theorem bookView_quiet (cfg : Settings) : Quiet (bookView cfg) :=
  ⟨fun _ _ _ _ => rfl, fun _ _ _ => rfl⟩

theorem Keeps.inStep {cfg : Settings} {s s' : Server} (h : Keeps (bookView cfg) s s')
    (hs : s.db.InStep cfg) : s'.db.InStep cfg := by
  have hticks : s'.db.ticks = s.db.ticks := congrArg Prod.fst h
  have horders : s'.db.orders = s.db.orders := congrArg (fun v => v.2.1) h
  have hbook : (s'.db.loadPaper.getD { cash := cfg.paperSeedKrw }).stored =
      (s.db.loadPaper.getD { cash := cfg.paperSeedKrw }).stored := congrArg (fun v => v.2.2) h
  unfold Db.InStep Db.dryRunCalls at hs ⊢
  rw [hbook, hticks, horders]
  exact hs

theorem Keeps.numbered {cfg : Settings} {s s' : Server} (h : Keeps (bookView cfg) s s')
    (hs : s.db.Numbered) : s'.db.Numbered := by
  have hticks : s'.db.ticks = s.db.ticks := congrArg Prod.fst h
  have horders : s'.db.orders = s.db.orders := congrArg (fun v => v.2.1) h
  unfold Db.Numbered at hs ⊢
  rw [hticks, horders]
  exact hs

/-- The tick comes to its record, and the record lands. -/
def RecordLands (t : TickInput) : Prop :=
  t.fates .sendBreaker = .returns ∧ t.fates .recordTick ≠ .raises false

/-- The tick comes from its record to the save of the book, and the save lands. -/
def BookLands (t : TickInput) : Prop :=
  t.fates .recordTick = .returns ∧ t.fates .saveEngineState = .returns ∧
    t.fates .upsertSymbolStats = .returns ∧ t.fates .savePaper ≠ .raises false

/-- What a tick has written of its record and of its book when it is over, from the
state `s` in which it calls `run_tick`. -/
inductive BookEnds (cfg : Settings) (t : TickInput) (o : Opened) (s : Server) : Db → Prop
  | unrecorded {db : Db} (h : bookView cfg db = bookView cfg s.db) : BookEnds cfg t o s db
  | recorded {db : Db} {r : TickResult} (hr : (runTick o.args s.svc).1 = .ok r)
    (hland : RecordLands t) (hlost : o.paper ≠ none → ¬ BookLands t)
    (hticks : db.ticks = (s.db.recordTick r t.now).ticks)
    (horders : db.orders = (s.db.recordTick r t.now).orders)
    (hpaper : db.paper = s.db.paper) : BookEnds cfg t o s db
  | filled {db : Db} {r : TickResult} {run : PaperRun} (hr : (runTick o.args s.svc).1 = .ok r)
    (hrun : o.paper = some run)
    (hticks : db.ticks = (s.db.recordTick r t.now).ticks)
    (horders : db.orders = (s.db.recordTick r t.now).orders)
    (hpaper : db.paper =
      some (r.orders.foldl (fillStep cfg.entryGate.cost t.now) (run, [])).1.book.stored) :
    BookEnds cfg t o s db

section Closing

variable {cfg : Settings} {t : TickInput} {o : Opened}

/-- The save of the book is the last write that the law reads. -/
theorem settlePaper_ends (s : Server) {s' : Server} {r : TickResult} {run : PaperRun}
    (hr : (runTick o.args s.svc).1 = .ok r) (hland : RecordLands t) (hrun : o.paper = some run)
    (hsame : s'.db.ticks = (s.db.recordTick r t.now).ticks ∧
      s'.db.orders = (s.db.recordTick r t.now).orders ∧ s'.db.paper = s.db.paper) :
    Effect.wp (settlePaper cfg t run r.orders) (fun _ s'' => BookEnds cfg t o s s''.db)
      (fun _ s'' => BookEnds cfg t o s s''.db) s' := by
  unfold settlePaper
  obtain ⟨hticks, horders, hpaper⟩ := hsame
  have hfilled : ∀ db : Db, db.ticks = s'.db.ticks → db.orders = s'.db.orders →
      db.paper = some
        (r.orders.foldl (fillStep cfg.entryGate.cost t.now) (run, [])).1.book.stored →
      BookEnds cfg t o s db := fun db ht ho hp =>
    .filled hr hrun (ht.trans hticks) (ho.trans horders) hp
  rcases hfill : r.orders.foldl (fillStep cfg.entryGate.cost t.now) (run, []) with ⟨run', fills⟩
  rw [hfill] at hfilled
  simp only [Effect.wp_bind]
  refine Effect.wp_commit (fun _ => ?_) (fun _ => hfilled _ rfl rfl rfl) fun hfate => ?_
  · exact Effect.wp_commit (fun _ => hfilled _ rfl rfl rfl) (fun _ => hfilled _ rfl rfl rfl)
      fun _ => hfilled _ rfl rfl rfl
  · exact .recorded hr hland (fun _ hall => hall.2.2.2 hfate) hticks horders hpaper

theorem recordAll_ends {s : Server} {r : TickResult} (hr : (runTick o.args s.svc).1 = .ok r)
    (hsend : t.fates .sendBreaker = .returns) :
    Effect.wp (recordAll cfg t o.paper r) (fun _ s' => BookEnds cfg t o s s'.db)
      (fun _ s' => BookEnds cfg t o s s'.db) { s with svc := (runTick o.args s.svc).2 } := by
  unfold recordAll
  split
  · -- after each write but the last the tick is recorded and its fills are lost
    have hrecorded : ∀ db : Db, t.fates .recordTick ≠ .raises false →
        (o.paper ≠ none → ¬ BookLands t) →
        db.ticks = (s.db.recordTick r t.now).ticks →
        db.orders = (s.db.recordTick r t.now).orders → db.paper = s.db.paper →
        BookEnds cfg t o s db := fun db hland hlost ht ho hp =>
      .recorded hr ⟨hsend, hland⟩ hlost ht ho hp
    rw [Effect.wp_bind]
    refine Effect.wp_commit (fun hrec => ?_) (fun hrec => ?_) fun _ => .unrecorded rfl
    · have hland : t.fates .recordTick ≠ .raises false := by
        rw [hrec]
        intro hno
        cases hno
      rw [Effect.wp_bind, Effect.wp_look, Effect.wp_bind]
      refine Effect.wp_commit (fun _ => ?_) (fun hfate => ?_) fun hfate => ?_
      · rw [Effect.wp_bind]
        refine Effect.wp_commit (fun _ => ?_) (fun hfate => ?_) fun hfate => ?_
        · rcases hpaper : o.paper with - | run
          · exact hrecorded _ hland (fun hno => absurd hpaper hno) rfl rfl rfl
          · simp only [Effect.wp_bind, Effect.wp_pure]
            exact settlePaper_ends s hr ⟨hsend, hland⟩ hpaper ⟨rfl, rfl, rfl⟩
        all_goals
          refine hrecorded _ hland (fun _ hall => ?_) rfl rfl rfl
          rw [hall.2.2.1] at hfate
          cases hfate
      all_goals
        refine hrecorded _ hland (fun _ hall => ?_) rfl rfl rfl
        rw [hall.2.1] at hfate
        cases hfate
    · refine hrecorded _ ?_ (fun _ hall => ?_) rfl rfl rfl
      · rw [hrec]
        intro hno
        cases hno
      · rw [hall.1] at hrec
        cases hrec
  · exact .unrecorded rfl

theorem closeTick_ends (s : Server) :
    Effect.wp (closeTick cfg t o) (fun _ s' => BookEnds cfg t o s s'.db)
      (fun _ s' => BookEnds cfg t o s s'.db) s := by
  unfold closeTick
  rw [Effect.wp_bind, Effect.wp_zoom]
  refine Effect.wp_of_forall ?_ fun _ _ _ => .unrecorded rfl
  intro r final hrun
  have hr : (runTick o.args s.svc).1 = .ok r := by rw [hrun]
  have hfinal : final = (runTick o.args s.svc).2 := by rw [hrun]
  subst hfinal
  rw [Effect.wp_bind]
  refine Effect.wp_commit (fun hsend => ?_) (fun _ => .unrecorded rfl) fun _ => .unrecorded rfl
  rw [Effect.wp_bind]
  refine (recordAll_ends hr hsend).mono ?_ fun _ _ => id
  intro a s' hends
  exact hends

end Closing

/-! ### The law over a tick -/

/-- A tick that loses its fills: it is recorded, the save of the book does not land,
and its orders change the book. -/
def LosesFills (cfg : Settings) (s : Server) (e : Event) : Prop :=
  ∃ t toss o s' run r, e = .tick t ∧ t.toss = some toss ∧
    openTick cfg t toss s = (.ok o, s') ∧ o.paper = some run ∧
    (runTick o.args s'.svc).1 = .ok r ∧ RecordLands t ∧ ¬ BookLands t ∧
    (run.book.afterFills cfg.entryGate.cost (tickCalls t.now r.orders)).stored ≠ run.book.stored

/-- The ids that a tick draws have no rows. -/
def DrawsNewIds (s : Server) (e : Event) : Prop :=
  ∀ t, e = .tick t → ∀ i, (t.stamps i).clientOrderId ∉ s.db.orders.map OrderRow.clientOrderId

section Tick

variable {cfg : Settings} {t : TickInput} {toss : Toss}

theorem openTick_view (s : Server) : Keeps (bookView cfg) s (openTick cfg t toss s).2 := by
  refine openTick_keeps (bookView_quiet cfg) (openDay_keeps fun holdings => ?_) ?_ s
  · exact reconcileAndEnforce_keeps (bookView_quiet cfg) (fun _ _ _ => rfl) _ _ _ _
  -- the seed that is written is the book that is loaded without it
  · intro db hnone
    simp [bookView, Db.savePaper, Db.loadPaper, hnone]

/-- A tick of the paper mode has a book. -/
theorem openTick_paper (hpersisted : cfg.persisted) (hseed : 0 < cfg.paperSeedKrw) {s : Server}
    (hmode : s.svc.mode = .dryRun) :
    Effect.wp (openTick cfg t toss) (fun o _ => o.paper ≠ none) (fun _ _ => True) s := by
  have hpaper : ∀ s₁ : Server, s₁.svc.mode = .dryRun →
      Effect.wp (openPaper cfg t) (fun paper _ => paper ≠ none) (fun _ _ => True) s₁ := by
    intro s₁ hmode₁
    unfold openPaper
    rw [Effect.wp_bind, Effect.wp_look, if_pos ⟨hpersisted, hmode₁, hseed⟩, Effect.wp_bind]
    exact Effect.wp_of_forall (fun _ _ _ => Option.some_ne_none _) fun _ _ _ => trivial
  refine openTick_rule (fun _ => trivial)
    ((openDay_spec toss s).mono (fun _ _ => id) fun _ _ _ => trivial) ?_
  rintro day s₁ ⟨hsame, -⟩
  have hmode₁ : s₁.svc.mode = .dryRun := by
    rw [hsame.svc]
    exact hmode
  refine (hpaper s₁ hmode₁).mono ?_ fun _ _ => id
  intro paper s₂ hsome
  refine ⟨fun _ => trivial, ?_⟩
  intro o ho
  rw [ho.paper]
  exact hsome

/-- **A tick keeps the book and the table in step**, unless it loses its fills. -/
theorem BookEnds.inStep {o : Opened} {s : Server} {db : Db} (h : BookEnds cfg t o s db)
    (hlaw : s.db.InStep cfg) (hnum : s.db.Numbered)
    (hbook : ∀ run, o.paper = some run → s.db.paper = some run.book) (hsome : o.paper ≠ none)
    (hagrees : OnceLog.Agrees OrderResult.clientOrderId (runTick o.args s.svc).2.seen
      (runTick o.args s.svc).2.ledger)
    (hids : ∀ i, (o.args.stamps i).clientOrderId ∉ s.db.orders.map OrderRow.clientOrderId)
    (hkeep : ∀ run r, o.paper = some run → (runTick o.args s.svc).1 = .ok r → RecordLands t →
      ¬ BookLands t → (run.book.afterFills cfg.entryGate.cost
        (tickCalls t.now r.orders)).stored = run.book.stored) :
    db.InStep cfg ∧ db.Numbered := by
  -- the book of the rows of a recorded tick is the book of the tick
  have hrecord : ∀ run r, o.paper = some run → (runTick o.args s.svc).1 = .ok r →
      db.ticks = (s.db.recordTick r t.now).ticks →
      db.orders = (s.db.recordTick r t.now).orders →
      (afterFills cfg.entryGate.cost { cash := cfg.paperSeedKrw } db.dryRunCalls).stored =
          (run.book.afterFills cfg.entryGate.cost (tickCalls t.now r.orders)).stored ∧
        db.Numbered := by
    intro run r hrun hr hticks horders
    obtain ⟨hnodup, hnew⟩ := newAnswers_ids hr hagrees hids
    obtain ⟨hcalls, hnum'⟩ := Db.recordTick_dryRunCalls hnum t.now hnodup hnew
    have hsame : db.dryRunCalls = (s.db.recordTick r t.now).dryRunCalls := by
      rw [Db.dryRunCalls, Db.dryRunCalls, hticks, horders]
    have hload : s.db.loadPaper.getD { cash := cfg.paperSeedKrw } = run.book := by
      rw [Db.loadPaper, hbook run hrun, Option.getD_some]
    unfold Db.InStep at hlaw
    rw [hload] at hlaw
    constructor
    · rw [hsame, hcalls, afterFills_append, ← afterFills_stored_eq _ hlaw, afterFills_id]
      rfl
    · unfold Db.Numbered at hnum' ⊢
      rw [hticks, horders]
      exact hnum'
  cases h with
  | unrecorded h =>
    have hkeeps : Keeps (bookView cfg) s { s with db := db } := h
    exact ⟨hkeeps.inStep hlaw, hkeeps.numbered hnum⟩
  | recorded hr hland hlost hticks horders hpaper =>
    obtain ⟨run, hrun⟩ := Option.ne_none_iff_exists'.mp hsome
    obtain ⟨hrows, hnum'⟩ := hrecord run _ hrun hr hticks horders
    refine ⟨?_, hnum'⟩
    rw [Db.InStep, hrows, hkeep run _ hrun hr hland (hlost hsome), Db.loadPaper, hpaper,
      hbook run hrun, Option.getD_some]
  | filled hr hrun hticks horders hpaper =>
    obtain ⟨hrows, hnum'⟩ := hrecord _ _ hrun hr hticks horders
    refine ⟨?_, hnum'⟩
    rw [Db.InStep, hrows, Db.loadPaper, hpaper, Option.getD_some, stored_stored, fillOrders_book]

end Tick

/-! ### The law over a run -/

/-- What a run of the paper mode keeps. -/
structure Stepped (cfg : Settings) (s : Server) : Prop where
  configured : Configured cfg s
  inStep : s.db.InStep cfg
  numbered : s.db.Numbered

theorem Stepped.keeps {cfg : Settings} {s s' : Server} (h : Stepped cfg s)
    (hconf : Configured cfg s') (hkeeps : Keeps (bookView cfg) s s') : Stepped cfg s' :=
  ⟨hconf, hkeeps.inStep h.inStep, hkeeps.numbered h.numbered⟩

/-- The book that a tick works on is the one of the rows. -/
theorem Stepped.book {cfg : Settings} {s s' : Server} {t : TickInput} {toss : Toss} {o : Opened}
    {run : PaperRun} (h : Stepped cfg s) (hopen : openTick cfg t toss s = (.ok o, s'))
    (hrun : o.paper = some run) :
    run.book.stored =
      (afterFills cfg.entryGate.cost { cash := cfg.paperSeedKrw } s.db.dryRunCalls).stored := by
  have hview : Keeps (bookView cfg) s s' := by
    have hview : Keeps (bookView cfg) s (openTick cfg t toss s).2 := openTick_view s
    rwa [hopen] at hview
  have hopens : Opens cfg t s o s' := (openTick_spec toss s).of_ok hopen
  have hbook : (s'.db.loadPaper.getD { cash := cfg.paperSeedKrw }).stored =
      (s.db.loadPaper.getD { cash := cfg.paperSeedKrw }).stored := congrArg (fun v => v.2.2) hview
  have hload : s'.db.loadPaper.getD { cash := cfg.paperSeedKrw } = run.book := by
    rw [Db.loadPaper, (hopens.book run hrun).1, Option.getD_some]
  rw [hload] at hbook
  exact hbook.trans h.inStep

theorem Stepped.tick {cfg : Settings} (hdry : cfg.tradingMode = .dryRun)
    (hpersisted : cfg.persisted) (hseed : 0 < cfg.paperSeedKrw) {s : Server}
    (h : Stepped cfg s) {t : TickInput} (hfresh : DrawsNewIds s (.tick t))
    (hkeep : ¬ LosesFills cfg s (.tick t)) : Stepped cfg (s.step cfg (.tick t)) := by
  have hconf : Configured cfg (s.step cfg (.tick t)) := h.configured.step (.tick t)
  rcases htoss : t.toss with - | toss
  · have hstep : s.step cfg (.tick t) = s := by
      show (executeTick cfg t s).2 = s
      unfold executeTick
      rw [htoss]
      rfl
    rw [hstep]
    exact h
  · have hexec : executeTick cfg t s = (openTick cfg t toss >>= closeTick cfg t) s := by
      unfold executeTick
      rw [htoss]
    have hview : Keeps (bookView cfg) s (openTick cfg t toss s).2 := openTick_view s
    rcases hopen : openTick cfg t toss s with ⟨e | o, s'⟩
    -- an opening that raises leaves the book, but for the seed
    · rw [hopen] at hview
      have hstep : s.step cfg (.tick t) = s' := by
        show (executeTick cfg t s).2 = s'
        rw [hexec, Effect.bind_error hopen]
      rw [hstep] at hconf ⊢
      exact h.keeps hconf hview
    · rw [hopen] at hview
      have hstep : s.step cfg (.tick t) = (closeTick cfg t o s').2 := by
        show (executeTick cfg t s).2 = _
        rw [hexec, Effect.bind_ok hopen]
      have hopens : Opens cfg t s o s' := (openTick_spec toss s).of_ok hopen
      have hmode : s.svc.mode = .dryRun := h.configured.mode.trans hdry
      have hclose : Closes cfg t o s' (closeTick cfg t o s').2 := (closeTick_spec s').state
      rw [hstep] at hconf ⊢
      have hagrees := hconf.agrees
      rw [hclose.svc] at hagrees
      -- the closing fills what it records, unless the fills are lost
      obtain ⟨hinStep, hnumbered⟩ := BookEnds.inStep (closeTick_ends s').state
        (hview.inStep h.inStep) (hview.numbered h.numbered)
        (fun run hrun => (hopens.book run hrun).1)
        ((openTick_paper hpersisted hseed hmode).of_ok hopen) hagrees
        (by rw [hopens.stamps, hopens.untraded.orders]; exact hfresh t rfl)
        (by
          intro run r hrun hr hland hlost
          by_contra hchanged
          exact hkeep ⟨t, toss, o, s', run, r, rfl, htoss, hopen, hrun, hr, hland, hlost, hchanged⟩)
      exact ⟨hconf, hinStep, hnumbered⟩

theorem Stepped.step {cfg : Settings} (hdry : cfg.tradingMode = .dryRun)
    (hpersisted : cfg.persisted) (hseed : 0 < cfg.paperSeedKrw) {s : Server}
    (h : Stepped cfg s) {e : Event} (hfresh : DrawsNewIds s e) (hkeep : ¬ LosesFills cfg s e) :
    Stepped cfg (s.step cfg e) := by
  have hconf : Configured cfg (s.step cfg e) := h.configured.step e
  have hquiet := bookView_quiet cfg
  cases e with
  | tick t => exact h.tick hdry hpersisted hseed hfresh hkeep
  | restart => exact h.keeps hconf rfl
  | killSwitch engaged fates =>
    exact h.keeps hconf (killSwitchRoute_keeps hquiet cfg engaged fates s)
  | resetBreaker fates => exact h.keeps hconf (circuitBreakerReset_keeps hquiet cfg fates s)
  | reconcileCheck holdings now fates =>
    refine h.keeps hconf (Effect.respects_when ?_ s)
    refine (Effect.respects_lift _).bind fun holdings => ?_
    exact (reconcileAndEnforce_keeps hquiet (fun _ _ _ => rfl) _ _ _ _).bind fun _ =>
      Effect.respects_pure _

/-- **The paper book and the orders table stay in step.**  In every run of the paper
mode whose ticks do not lose their fills, the stored book is the book of the recorded
orders at every point, and so is the book that a tick works on. -/
theorem paper_in_step (cfg : Settings) (hdry : cfg.tradingMode = .dryRun)
    (hpersisted : cfg.persisted) (hseed : 0 < cfg.paperSeedKrw) (es : List Event)
    (hfresh : Run.Admits (step cfg) DrawsNewIds (start cfg {}) es)
    (hkeep : Run.Admits (step cfg) (fun s e => ¬ LosesFills cfg s e) (start cfg {}) es) :
    (∀ pre post, es = pre ++ post → ((start cfg {}).run cfg pre).db.InStep cfg) ∧
      ∀ pre t post toss o s run, es = pre ++ .tick t :: post →
        openTick cfg t toss ((start cfg {}).run cfg pre) = (.ok o, s) → o.paper = some run →
        run.book.stored = (afterFills cfg.entryGate.cost { cash := cfg.paperSeedKrw }
          ((start cfg {}).run cfg pre).db.dryRunCalls).stored := by
  have hpre : ∀ pre post, es = pre ++ post → Stepped cfg ((start cfg {}).run cfg pre) := by
    rintro pre post rfl
    have hpre := (Run.admits_append.mp (hfresh.and hkeep)).1
    refine hpre.invariant (fun s e h he => h.step hdry hpersisted hseed he.1 he.2) ?_
    refine ⟨configured_start cfg {}, rfl, ?_⟩
    intro row hrow
    cases hrow
  refine ⟨fun pre post hes => (hpre pre post hes).inStep, ?_⟩
  intro pre t post toss o s run hes hopen hrun
  exact (hpre pre _ hes).book hopen hrun

end Server

namespace Sample

/-- A paper tick that watches one symbol of it. -/
def paperTick (fates : Fates) : Server.Event :=
  .tick (watching "a" "005930" fates)

/-- And one that watches another. -/
def nextPaperTick : TickInput := watching "b" "000660" returning

/-- The server after the first of them. -/
def oneFilled : Server :=
  (Server.start paperSettings {}).run paperSettings [paperTick returning]

end Sample

namespace Server

/-- The first tick buys one stock, and the second, which starts from the filled book, two:
the book that it opens with is that of the first one's order, and the book that it leaves
that of all three. -/
theorem paper_in_step_sample :
    Sample.oneFilled.db.dryRunCalls.length = 1 ∧
      (∀ o s run, openTick Sample.paperSettings Sample.nextPaperTick Sample.upMarket
          Sample.oneFilled = (.ok o, s) → o.paper = some run →
        run.book.stored = (PaperPortfolio.afterFills Sample.paperSettings.entryGate.cost
          { cash := Sample.paperSettings.paperSeedKrw }
          Sample.oneFilled.db.dryRunCalls).stored) ∧
      ((start Sample.paperSettings {}).run Sample.paperSettings
        [Sample.paperTick Sample.returning, .tick Sample.nextPaperTick]).db.dryRunCalls.length = 3 ∧
      ((start Sample.paperSettings {}).run Sample.paperSettings
        [Sample.paperTick Sample.returning, .tick Sample.nextPaperTick]).db.InStep
          Sample.paperSettings := by
  have hids : Sample.oneFilled.db.orders.map OrderRow.clientOrderId = ["a0"] := by
    decide +kernel
  have hfresh : Run.Admits (step Sample.paperSettings) DrawsNewIds
      (start Sample.paperSettings {})
      [Sample.paperTick Sample.returning, .tick Sample.nextPaperTick] := by
    refine ⟨?_, ?_, trivial⟩
    · rintro t ⟨⟩ i
      exact List.not_mem_nil
    · rintro t ⟨⟩ i hid
      replace hid : "b" ++ toString i ∈
          Sample.oneFilled.db.orders.map OrderRow.clientOrderId := hid
      rw [hids, List.mem_singleton] at hid
      have hfirst := congrArg (fun id : String => id.toList.head?) hid
      simp at hfirst
  have hkeep : Run.Admits (step Sample.paperSettings)
      (fun s e => ¬ LosesFills Sample.paperSettings s e) (start Sample.paperSettings {})
      [Sample.paperTick Sample.returning, .tick Sample.nextPaperTick] := by
    refine ⟨?_, ?_, trivial⟩
    · rintro ⟨t, toss, o, s', run, r, ⟨⟩, -, -, -, -, -, hlost, -⟩
      exact hlost ⟨rfl, rfl, rfl, by decide⟩
    · rintro ⟨t, toss, o, s', run, r, ⟨⟩, -, -, -, -, -, hlost, -⟩
      exact hlost ⟨rfl, rfl, rfl, by decide⟩
  obtain ⟨hsteps, hbook⟩ := paper_in_step Sample.paperSettings rfl rfl (by decide +kernel)
    [Sample.paperTick Sample.returning, .tick Sample.nextPaperTick] hfresh hkeep
  refine ⟨by decide +kernel, ?_, by decide +kernel, hsteps _ [] rfl⟩
  intro o s run hopen hrun
  exact hbook [Sample.paperTick Sample.returning] Sample.nextPaperTick [] Sample.upMarket o s run
    rfl hopen hrun

/-- The engine state is not saved after the record: the buy is in the table, and not
in the book. -/
theorem paper_out_of_step :
    ¬ ∀ (cfg : Settings), cfg.tradingMode = .dryRun → cfg.persisted → 0 < cfg.paperSeedKrw →
      ∀ es : List Event, Run.Admits (step cfg) DrawsNewIds (start cfg {}) es →
        ((start cfg {}).run cfg es).db.InStep cfg := by
  intro h
  have hsample := h Sample.paperSettings rfl rfl (by decide +kernel)
    [Sample.paperTick (Sample.failing .saveEngineState)] ⟨?_, trivial⟩
  · exact absurd hsample (by decide +kernel)
  · rintro t ⟨⟩ i
    exact List.not_mem_nil

end Server

end AutoTrade
