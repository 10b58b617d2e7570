/-
AutoTrade/ReportRows.lean

The rows that the reports are about: ticks, decisions and orders, with their trade
dates, which rows a report is given, and what a step of the server adds to them.

A tick is recorded before its point is added to the asset curve, so a date that the
curve gets is the date of a tick that is new (`Db.Posts`).
-/
import AutoTrade.DbFrame
import AutoTrade.Reports

namespace AutoTrade

/-! ### The rows -/

/-- A row of one of the tables that a report is about. -/
inductive RowId
  | tick (i : ℕ)
  | decision (i : ℕ)
  | order (i : ℕ)
  deriving DecidableEq

namespace Db

/-- The trade date of a row that is there; a decision has its tick's. -/
def dateOf (db : Db) : RowId → Option Date
  | .tick i => (db.ticks[i]?).map TickRow.tradeDate
  | .decision i => (db.decisions[i]?).bind db.tickDate
  | .order i => (db.orders[i]?).map OrderRow.tradeDate

end Db

/-- The activity has the row. -/
def PeriodActivity.Contains (a : PeriodActivity) : RowId → Prop
  | .tick i => ∃ t, (t, i) ∈ a.ticks
  | .decision i => ∃ d, (d, i) ∈ a.decisions
  | .order i => ∃ o, (o, i) ∈ a.orders

namespace Db

variable {db db' : Db}

/-- The rows after a date, or all. -/
theorem after_iff {since : Option Date} {d : Date} :
    after since d = true ↔ ∀ e, since = some e → e < d := by
  rcases since with - | e <;> simp [after]

/-- **What is loaded** is what is dated after the last report. -/
theorem contains_loadPeriodActivity {auditTs : ℕ → Datetime} {since : Option Date} {x : RowId} :
    (db.loadPeriodActivity auditTs since).Contains x ↔
      ∃ d, db.dateOf x = some d ∧ ∀ e, since = some e → e < d := by
  cases x with
  | tick i =>
    simp only [PeriodActivity.Contains, loadPeriodActivity, dateOf, List.mem_filter,
      List.mem_zipIdx_iff_getElem?, after_iff, Option.map_eq_some_iff]
    constructor
    · rintro ⟨t, ht, hafter⟩
      exact ⟨t.tradeDate, ⟨t, ht, rfl⟩, hafter⟩
    · rintro ⟨-, ⟨t, ht, rfl⟩, hafter⟩
      exact ⟨t, ht, hafter⟩
  | decision i =>
    simp only [PeriodActivity.Contains, loadPeriodActivity, dateOf, List.mem_filter,
      List.mem_zipIdx_iff_getElem?, Option.bind_eq_some_iff, Option.any_eq_true, after_iff]
    constructor
    · rintro ⟨row, hrow, d, hd, hafter⟩
      exact ⟨d, ⟨row, hrow, hd⟩, hafter⟩
    · rintro ⟨d, ⟨row, hrow, hd⟩, hafter⟩
      exact ⟨row, hrow, d, hd, hafter⟩
  | order i =>
    simp only [PeriodActivity.Contains, loadPeriodActivity, dateOf, List.mem_filter,
      List.mem_zipIdx_iff_getElem?, after_iff, Option.map_eq_some_iff]
    constructor
    · rintro ⟨o, ho, hafter⟩
      exact ⟨o.tradeDate, ⟨o, ho, rfl⟩, hafter⟩
    · rintro ⟨-, ⟨o, ho, rfl⟩, hafter⟩
      exact ⟨o, ho, hafter⟩

/-- The dates of the asset curve. -/
def equityDates (db : Db) : List Date := db.paperEquity.map PaperEquityRow.tradeDate

/-- What a step of the server does to the tables: rows are added that are dated on
some days, and a date that the asset curve gets is the date of a tick that is added. -/
structure Posts (days : Set Date) (db db' : Db) : Prop where
  ticks : db.ticks <+: db'.ticks
  decisions : db.decisions <+: db'.decisions
  orders : db.orders <+: db'.orders
  dated : ∀ x d, db.dateOf x = none → db'.dateOf x = some d → d ∈ days
  kept : ∀ e ∈ db.equityDates, e ∈ db'.equityDates
  added : ∀ e ∈ db'.equityDates, e ∈ db.equityDates ∨
    ∃ i, db.dateOf (.tick i) = none ∧ db'.dateOf (.tick i) = some e

section Posts

variable {days : Set Date}

theorem getElem?_prefix {α : Type} {xs ys : List α} (h : xs <+: ys) {i : ℕ} {x : α}
    (hx : xs[i]? = some x) : ys[i]? = some x := by
  obtain ⟨hi, rfl⟩ := List.getElem?_eq_some_iff.mp hx
  exact List.prefix_iff_getElem?.mp h i hi

theorem getElem?_append_cases {α : Type} {xs ys : List α} {i : ℕ} {x : α}
    (hx : (xs ++ ys)[i]? = some x) : xs[i]? = some x ∨ x ∈ ys := by
  by_cases hi : i < xs.length
  · rw [List.getElem?_append_left hi] at hx
    exact Or.inl hx
  · rw [List.getElem?_append_right (not_lt.mp hi)] at hx
    exact Or.inr (List.mem_of_getElem? hx)

/-- Rows keep their dates. -/
theorem Posts.dateOf (h : db.Posts days db') {x : RowId} {d : Date} (hx : db.dateOf x = some d) :
    db'.dateOf x = some d := by
  cases x with
  | tick i =>
    obtain ⟨t, ht, hd⟩ := Option.map_eq_some_iff.mp hx
    exact Option.map_eq_some_iff.mpr ⟨t, getElem?_prefix h.ticks ht, hd⟩
  | decision i =>
    obtain ⟨row, hrow, hdate⟩ := Option.bind_eq_some_iff.mp hx
    obtain ⟨t, ht, hd⟩ := Option.map_eq_some_iff.mp hdate
    refine Option.bind_eq_some_iff.mpr ⟨row, getElem?_prefix h.decisions hrow, ?_⟩
    exact Option.map_eq_some_iff.mpr ⟨t, getElem?_prefix h.ticks ht, hd⟩
  | order i =>
    obtain ⟨o, ho, hd⟩ := Option.map_eq_some_iff.mp hx
    exact Option.map_eq_some_iff.mpr ⟨o, getElem?_prefix h.orders ho, hd⟩

/-- A row that is not there was not there before. -/
theorem Posts.dateOf_none (h : db.Posts days db') {x : RowId} (hx : db'.dateOf x = none) :
    db.dateOf x = none := by
  rcases hd : db.dateOf x with - | d
  · rfl
  · rw [h.dateOf hd] at hx
    cases hx

instance : IsPreorder Db (Posts days) where
  refl db := by
    refine ⟨List.prefix_rfl, List.prefix_rfl, List.prefix_rfl, ?_, fun _ => id, fun _ => Or.inl⟩
    intro x d hnone hd
    rw [hnone] at hd
    cases hd
  trans a b c h h' := by
    refine ⟨h.ticks.trans h'.ticks, h.decisions.trans h'.decisions, h.orders.trans h'.orders,
      ?_, fun e he => h'.kept e (h.kept e he), ?_⟩
    · intro x d hnone hd
      rcases hx : b.dateOf x with - | d'
      · exact h'.dated x d hx hd
      · have hsame : d' = d := Option.some.inj ((h'.dateOf hx).symm.trans hd)
        exact h.dated x d hnone (hsame ▸ hx)
    · intro e he
      rcases h'.added e he with he | ⟨i, hnone, hi⟩
      · rcases h.added e he with he | ⟨i, hnone, hi⟩
        · exact Or.inl he
        · exact Or.inr ⟨i, hnone, h'.dateOf hi⟩
      · exact Or.inr ⟨i, h.dateOf_none hnone, hi⟩

/-- The tables that the reports read their rows and their periods from. -/
def reportView (db : Db) :
    List TickRow × List DecisionRow × List OrderRow × List PaperEquityRow :=
  (db.ticks, db.decisions, db.orders, db.paperEquity)

theorem dateOf_of_view (h : db'.reportView = db.reportView) (x : RowId) :
    db'.dateOf x = db.dateOf x := by
  obtain ⟨hticks, hrest⟩ := Prod.mk.inj h
  obtain ⟨hdecisions, hrest⟩ := Prod.mk.inj hrest
  obtain ⟨horders, -⟩ := Prod.mk.inj hrest
  cases x with
  | tick i => rw [Db.dateOf, Db.dateOf, hticks]
  | decision i =>
    have hdate : db'.tickDate = db.tickDate := by
      funext d
      rw [tickDate, tickDate, hticks]
    rw [Db.dateOf, Db.dateOf, hdecisions, hdate]
  | order i => rw [Db.dateOf, Db.dateOf, horders]

/-- What leaves the tables of the report alone posts nothing. -/
theorem posts_of_view (h : db'.reportView = db.reportView) : db.Posts days db' := by
  have hdate := dateOf_of_view h
  obtain ⟨hticks, hrest⟩ := Prod.mk.inj h
  obtain ⟨hdecisions, hrest⟩ := Prod.mk.inj hrest
  obtain ⟨horders, hequity⟩ := Prod.mk.inj hrest
  have hdates : db'.equityDates = db.equityDates :=
    congrArg (List.map PaperEquityRow.tradeDate) hequity
  refine ⟨hticks ▸ List.prefix_rfl, hdecisions ▸ List.prefix_rfl, horders ▸ List.prefix_rfl,
    ?_, fun e he => hdates.symm ▸ he, fun e he => Or.inl (hdates ▸ he)⟩
  intro x d hnone hd
  rw [hdate, hnone] at hd
  cases hd

/-- The rows of a tick of the day are there. -/
structure PostsTick (days : Set Date) (db db' : Db) (day : Date) : Prop where
  posts : db.Posts days db'
  tick : ∃ i, db.dateOf (.tick i) = none ∧ db'.dateOf (.tick i) = some day

/-- What posts after a tick leaves the tick. -/
theorem PostsTick.then {day : Date} {db'' : Db} (h : db.PostsTick days db' day)
    (h' : db'.Posts days db'') : db.PostsTick days db'' day := by
  obtain ⟨i, hnone, hi⟩ := h.tick
  exact ⟨trans_of (Posts days) h.posts h', i, hnone, h'.dateOf hi⟩

/-- The tick and its decisions are dated by its start, its orders by their answers. -/
theorem postsTick_recordTick (db : Db) {result : TickResult} {now : Datetime}
    (hnow : tradeDateKst now ∈ days)
    (horders : ∀ o ∈ newAnswers result.orders, tradeDateKst o.createdAt ∈ days) :
    db.PostsTick days (db.recordTick result now) (tradeDateKst now) := by
  obtain ⟨new, hnew, hrows⟩ :=
    foldl_addOrder (db.ticks.length + 1) db.orders (newAnswers result.orders)
  rw [← foldl_addOrder_newAnswers] at hrows
  refine ⟨⟨List.prefix_append _ _, List.prefix_append _ _, ?_, ?_, fun _ => id,
    fun _ => Or.inl⟩, db.ticks.length, ?_, ?_⟩
  · show db.orders <+: result.orders.foldl (addOrder (db.ticks.length + 1)) db.orders
    rw [hrows]
    exact List.prefix_append _ _
  · intro x d hnone hd
    cases x with
    | tick i =>
      obtain ⟨row, hrow, rfl⟩ := Option.map_eq_some_iff.mp hd
      rcases getElem?_append_cases hrow with hold | hrow
      · rw [Db.dateOf, hold] at hnone
        cases hnone
      · rw [List.mem_singleton.mp hrow]
        exact hnow
    | decision i =>
      obtain ⟨row, hrow, hdate⟩ := Option.bind_eq_some_iff.mp hd
      obtain ⟨tick, htick, rfl⟩ := Option.map_eq_some_iff.mp hdate
      rcases getElem?_append_cases htick with htick | htick
      · -- a tick that was there: its decisions were there as well
        rcases getElem?_append_cases hrow with hrow | hrow
        · rw [Db.dateOf, hrow, Option.bind_some, tickDate, htick] at hnone
          cases hnone
        · obtain ⟨decision, -, rfl⟩ := List.mem_map.mp hrow
          simp at htick
      · rw [List.mem_singleton.mp htick]
        exact hnow
    -- an order is dated by its own time, and not by the tick's
    | order i =>
      obtain ⟨row, hrow, rfl⟩ := Option.map_eq_some_iff.mp hd
      have hrow : (result.orders.foldl (addOrder (db.ticks.length + 1)) db.orders)[i]? =
          some row := hrow
      rw [hrows] at hrow
      rcases getElem?_append_cases hrow with hold | hrow
      · rw [Db.dateOf, hold] at hnone
        cases hnone
      · obtain ⟨o, ho, rfl⟩ := List.mem_map.mp hrow
        exact horders o (hnew.subset ho)
  · simp [dateOf]
  · simp [dateOf, recordTick]

/-- The point that a recorded tick adds to the curve has the date of the tick. -/
theorem PostsTick.appendPaperEquity {now : Datetime}
    (h : db.PostsTick days db' (tradeDateKst now))
    (equity cash positionsValue realizedCum : ℚ) (benchmarkPrice : Option ℚ) :
    db.Posts days (db'.appendPaperEquity now equity cash positionsValue realizedCum
      benchmarkPrice) := by
  have hdates : (db'.appendPaperEquity now equity cash positionsValue realizedCum
      benchmarkPrice).equityDates = db'.equityDates ++ [tradeDateKst now] := List.map_append
  refine ⟨h.posts.ticks, h.posts.decisions, h.posts.orders, h.posts.dated, ?_, ?_⟩
  · intro e he
    rw [hdates]
    exact List.mem_append_left _ (h.posts.kept e he)
  · intro e he
    rw [hdates] at he
    rcases List.mem_append.mp he with he | he
    · exact h.posts.added e he
    · rw [List.mem_singleton.mp he]
      exact Or.inr h.tick

end Posts

end Db

/-! ### What the server posts -/

namespace Server

theorem reportView_quiet : Quiet Db.reportView := ⟨fun _ _ _ _ => rfl, fun _ _ _ => rfl⟩

section Tick

variable {cfg : Settings} {t : TickInput}

theorem openTick_reportView (toss : Toss) :
    Effect.Respects (Keeps Db.reportView) (openTick cfg t toss) :=
  openTick_keeps reportView_quiet (openDay_keeps fun _ =>
    reconcileAndEnforce_keeps reportView_quiet (fun _ _ _ => rfl) _ _ _ _) fun _ _ => rfl

theorem settlePaper_posts {days : Set Date} {db : Db} {s : Server}
    (h : db.PostsTick days s.db (tradeDateKst t.now)) (run : PaperRun)
    (orders : List OrderResult) :
    Effect.wp (settlePaper cfg t run orders) (fun _ s' => db.Posts days s'.db)
      (fun _ s' => db.Posts days s'.db) s := by
  have hsaved : ∀ book, db.PostsTick days (s.db.savePaper book) (tradeDateKst t.now) :=
    fun book => h.then (Db.posts_of_view rfl)
  simp only [settlePaper, Effect.wp_bind]
  refine Effect.wp_commit (fun _ => ?_) (fun _ => (hsaved _).posts) fun _ => h.posts
  refine Effect.wp_commit (fun _ => ?_) (fun _ => ?_) fun _ => (hsaved _).posts
  · exact (hsaved _).appendPaperEquity _ _ _ _ _
  · exact (hsaved _).appendPaperEquity _ _ _ _ _

/-- The days of a tick: that of its start, and those that its orders are stamped with. -/
def tickDays (t : TickInput) : Set Date :=
  {d | d = tradeDateKst t.now ∨ ∃ i, d = tradeDateKst (t.stamps i).createdAt}

/-- A tick is recorded before its point is added to the curve. -/
theorem recordAll_posts (paper : Option PaperRun) {result : TickResult}
    (horders : ∀ o ∈ newAnswers result.orders, ∃ i, o.createdAt = (t.stamps i).createdAt)
    (s : Server) :
    Effect.wp (recordAll cfg t paper result) (fun _ s' => s.db.Posts (tickDays t) s'.db)
      (fun _ s' => s.db.Posts (tickDays t) s'.db) s := by
  have hsame : s.db.Posts (tickDays t) s.db := refl_of (Db.Posts _) s.db
  unfold recordAll
  split
  · have hrec : s.db.PostsTick (tickDays t) (s.db.recordTick result t.now)
        (tradeDateKst t.now) := by
      refine s.db.postsTick_recordTick (Or.inl rfl) fun o ho => ?_
      obtain ⟨i, hi⟩ := horders o ho
      exact Or.inr ⟨i, congrArg tradeDateKst hi⟩
    -- what follows the record leaves these tables, up to the point on the curve
    have hlater : ∀ db : Db, db.reportView = (s.db.recordTick result t.now).reportView →
        s.db.PostsTick (tickDays t) db (tradeDateKst t.now) :=
      fun _ h => hrec.then (Db.posts_of_view h)
    have hposts : ∀ db : Db, db.reportView = (s.db.recordTick result t.now).reportView →
        s.db.Posts (tickDays t) db := fun db h => (hlater db h).posts
    rw [Effect.wp_bind]
    refine Effect.wp_commit (fun _ => ?_) (fun _ => hrec.posts) fun _ => hsame
    rw [Effect.wp_bind, Effect.wp_look, Effect.wp_bind]
    refine Effect.wp_commit (fun _ => ?_) (fun _ => hposts _ rfl) fun _ => hrec.posts
    rw [Effect.wp_bind]
    refine Effect.wp_commit (fun _ => ?_) (fun _ => hposts _ rfl) fun _ => hposts _ rfl
    rcases paper with - | run
    · exact hposts _ rfl
    · rw [Effect.wp_bind]
      exact (settlePaper_posts (hlater _ rfl) run result.orders).mono (fun _ _ h => h)
        fun _ _ h => h
  · exact hsame

/-- What `run_tick` does to the service is nothing to the database. -/
theorem closeTick_posts {o : Opened} (hstamps : o.args.stamps = t.stamps) (s : Server) :
    Effect.wp (closeTick cfg t o) (fun _ s' => s.db.Posts (tickDays t) s'.db)
      (fun _ s' => s.db.Posts (tickDays t) s'.db) s := by
  have hsame : s.db.Posts (tickDays t) s.db := refl_of (Db.Posts _) s.db
  unfold closeTick
  rw [Effect.wp_bind, Effect.wp_zoom]
  refine Effect.wp_of_forall ?_ fun _ _ _ => hsame
  intro result svc hrun
  have horders : ∀ o ∈ newAnswers result.orders, ∃ i, o.createdAt = (t.stamps i).createdAt := by
    have hok : (runTick o.args s.svc).1 = .ok result := congrArg Prod.fst hrun
    rw [← settledIn_eq hok, ← hstamps]
    exact settledIn_createdAt o.args s.svc
  rw [Effect.wp_bind]
  refine Effect.wp_commit (fun _ => ?_) (fun _ => hsame) fun _ => hsame
  rw [Effect.wp_bind]
  exact (recordAll_posts o.paper horders { s with svc }).mono (fun _ _ h => h) fun _ _ h => h

/-- A tick posts rows of its own day. -/
theorem executeTick_posts (s : Server) : s.db.Posts (tickDays t) (executeTick cfg t s).2.db := by
  refine Effect.wp.state (P := fun s' : Server => s.db.Posts (tickDays t) s'.db) ?_
  unfold executeTick
  rcases t.toss with - | toss
  · exact refl_of (Db.Posts _) s.db
  · simp only [Effect.wp_bind]
    have hview := (@openTick_reportView cfg t toss).wp s
    refine Effect.wp_of_forall ?_ fun e s₁ h => Db.posts_of_view (hview.of_error h)
    intro o s₁ hopen
    have hopens : Opens cfg t s o s₁ := (openTick_spec toss s).of_ok hopen
    have hposts : s.db.Posts (tickDays t) s₁.db := Db.posts_of_view (hview.of_ok hopen)
    exact (closeTick_posts hopens.stamps s₁).mono (fun _ _ h => trans_of (Db.Posts _) hposts h)
      fun _ _ h => trans_of (Db.Posts _) hposts h

end Tick

/-- The days on which a step can date a row: those of a tick. -/
def Event.days : Event → Set Date
  | .tick t => tickDays t
  | _ => ∅

/-- **What a step of the server posts**: a tick its rows, anything else none. -/
theorem step_posts (cfg : Settings) (s : Server) (e : Event) :
    s.db.Posts e.days (s.step cfg e).db := by
  cases e with
  | tick t => exact executeTick_posts s
  | restart => exact refl_of (Db.Posts _) s.db
  | killSwitch engaged fates =>
    exact Db.posts_of_view (killSwitchRoute_keeps reportView_quiet cfg engaged fates s)
  | resetBreaker fates =>
    exact Db.posts_of_view (circuitBreakerReset_keeps reportView_quiet cfg fates s)
  | reconcileCheck holdings now fates =>
    have hkeeps : Effect.Respects (Keeps Db.reportView)
        (Server.reconcileCheck cfg holdings now fates) := by
      refine Effect.respects_when ((Effect.respects_lift _).bind fun h => ?_)
      exact (reconcileAndEnforce_keeps reportView_quiet (fun _ _ _ => rfl) _ _ _ _).bind
        fun _ => Effect.respects_pure _
    exact Db.posts_of_view (hkeeps s)

end Server

end AutoTrade
