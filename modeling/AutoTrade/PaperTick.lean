/-
AutoTrade/PaperTick.lean

A completed tick of the paper mode.

A tick that returns went through every call of `executeTick`, so what it worked on
and what it left are known exactly (`PaperTicked`): it opened the stored book or a
new one, judged the exits of that book on the days that the asset curve counts,
called `runTick` on the service as it found it, filled the intended orders in the
book, stored it, and added its date to the curve.
-/
import AutoTrade.DbFrame

namespace AutoTrade

open Server

/-! ### What the tick works on -/

/-- `daysHeld`, as a function of the database. -/
def heldDays (db : Db) (book : PaperPortfolio) : Dict Symbol ℕ :=
  Dict.ofList (book.positions.entries.filterMap fun p => p.2.openedAt.map fun openedAt =>
    (p.1, db.countTradingDaysSince (tradeDateKst openedAt)))

namespace Server

/-- The book that a tick works on: the stored one, or a new one with the seed. -/
def paperBook (cfg : Settings) (s : Server) : PaperPortfolio :=
  s.db.loadPaper.getD { cash := cfg.paperSeedKrw }

/-- The book of a tick with its prices. -/
def paperRun (cfg : Settings) (t : TickInput) (s : Server) : PaperRun :=
  let book := s.paperBook cfg
  let marks := marksOf cfg t book
  { book, marks, benchPrice := cfg.regime.bind fun r => marks.get? r.symbol }

/-- The deterministic exits of a tick, as a function of the state it starts in. -/
def paperExits (cfg : Settings) (t : TickInput) (s : Server) : List ForcedExit :=
  let run := s.paperRun cfg t
  if cfg.exitRulesEnabled then
    evaluateExits run.book.positions run.marks (heldDays s.db run.book) cfg.exits
  else []

end Server

/-- A completed tick of the paper mode, which called `runTick` with `args`. -/
structure PaperTicked (cfg : Settings) (t : TickInput) (s : Server) (args : TickArgs)
    (result : TickResult) (s' : Server) : Prop where
  toss : t.toss = some args.toss
  now : args.now = t.now
  stamps : args.stamps = t.stamps
  judge : args.judge = deterministicJudge ∨ args.judge = t.llm
  holdings : args.holdings =
    some ((s.paperRun cfg t).book.toSyntheticHoldings (s.paperRun cfg t).marks)
  forced : args.forcedExits = s.paperExits cfg t
  ran : runTick args s.svc = (.ok result, s'.svc)
  paper : s'.db.paper = some
    (result.orders.foldl (fillStep cfg.entryGate.cost t.now) (s.paperRun cfg t, [])).1.book.stored
  dates : s'.db.paperEquity.map PaperEquityRow.tradeDate =
    s.db.paperEquity.map PaperEquityRow.tradeDate ++ [tradeDateKst t.now]

/-- The tick returns its result. -/
def Completes (cfg : Settings) (t : TickInput) (s : Server) : Bool :=
  match (executeTick cfg t s).1 with
  | .ok (.done ..) => true
  | _ => false

/-- A tick completes when it answers with a result. -/
theorem completes_iff {cfg : Settings} {t : TickInput} {s : Server} :
    Completes cfg t s ↔ ∃ tickId engine result report summary s',
      executeTick cfg t s = (.ok (.done tickId engine result report summary), s') := by
  unfold Completes
  rcases executeTick cfg t s with ⟨e | error | ⟨tickId, engine, result, report, summary⟩, s'⟩
  all_goals simp

/-! ### The days held -/

section Days

variable {t : TickInput} {db : Db} {book : PaperPortfolio}

/-- A position with the time of its entry is counted from the date of that time. -/
theorem heldDays_get? (symbol : Symbol) :
    (heldDays db book).get? symbol = (book.positions.get? symbol).bind fun pos =>
      pos.openedAt.map fun openedAt => db.countTradingDaysSince (tradeDateKst openedAt) := by
  apply Option.ext
  intro n
  rw [heldDays, Dict.get?_ofList_filterMap book.positions.keys_nodup ?_, Option.bind_eq_some_iff]
  · constructor
    · rintro ⟨⟨k, pos⟩, hmem, hsome⟩
      obtain ⟨openedAt, hopened, heq⟩ := Option.map_eq_some_iff.mp hsome
      obtain ⟨rfl, rfl⟩ := Prod.mk.inj heq
      exact ⟨pos, Dict.get?_eq_some.mpr hmem, by rw [hopened]; rfl⟩
    · rintro ⟨pos, hpos, hn⟩
      obtain ⟨openedAt, hopened, rfl⟩ := Option.map_eq_some_iff.mp hn
      exact ⟨(symbol, pos), Dict.get?_eq_some.mp hpos, by rw [hopened]; rfl⟩
  · intro p q hq
    obtain ⟨openedAt, -, rfl⟩ := Option.map_eq_some_iff.mp hq
    rfl

/-- Reading the days changes nothing. -/
theorem daysHeld_ok {s s' : Server} {days : Dict Symbol ℕ}
    (h : daysHeld t book s = (.ok days, s')) : s' = s ∧ days = heldDays s.db book := by
  unfold daysHeld at h
  unfold heldDays Dict.ofList
  generalize (∅ : Dict Symbol ℕ) = acc at h ⊢
  generalize book.positions.entries = entries at h ⊢
  induction entries generalizing acc with
  | nil =>
    obtain ⟨h₁, h₂⟩ := Prod.mk.inj h
    exact ⟨h₂.symm, (Except.ok.inj h₁).symm⟩
  | cons p entries ih =>
    obtain ⟨acc', s₁, hp, hrest⟩ := Effect.bind_eq_ok.mp h
    rcases hopened : p.2.openedAt with - | openedAt
    · simp only [hopened] at hp
      obtain ⟨h₁, rfl⟩ := Prod.mk.inj hp
      cases h₁
      rw [List.filterMap_cons_none (by simp [hopened])]
      exact ih acc hrest
    · simp only [hopened] at hp
      obtain ⟨n, s₂, hn, hset⟩ := Effect.bind_eq_ok.mp hp
      obtain ⟨-, rfl, rfl⟩ := Effect.query_eq_ok.mp hn
      obtain ⟨h₁, rfl⟩ := Prod.mk.inj hset
      cases h₁
      rw [List.filterMap_cons_some (by simp [hopened]; rfl), List.foldl_cons]
      exact ih _ hrest

end Days

/-! ### The opening -/

section Opening

variable {cfg : Settings} {t : TickInput} {toss : Toss} {s s' : Server}

/-- A mismatch engages the switch in `LIVE` only. -/
theorem enforceMismatch_dry (hdry : s.svc.mode = .dryRun) (fates : Fates)
    (report : ReconcileReport) :
    Effect.wp (enforceMismatch fates report) (fun _ s' => s'.svc = s.svc) (fun _ _ => True) s := by
  unfold enforceMismatch
  rw [Effect.wp_bind]
  refine Effect.wp_commit (fun _ => ?_) (fun _ => trivial) fun _ => trivial
  rw [Effect.wp_bind, Effect.wp_look, Effect.wp_bind]
  refine Effect.wp_when ?_ fun _ => ?_
  · rintro ⟨hlive, -⟩
    have hlive : s.svc.mode = .live := hlive
    rw [hdry] at hlive
    cases hlive
  · exact Effect.wp_commit (fun _ => rfl) (fun _ => trivial) fun _ => trivial

/-- Without real money a mismatch engages nothing. -/
theorem reconcileAndEnforce_dry (hdry : s.svc.mode = .dryRun) (fates : Fates)
    (holdings : Holdings) (now : Datetime) (advanceBaseline : Bool) :
    Effect.wp (reconcileAndEnforce fates holdings now advanceBaseline)
      (fun _ s' => s'.svc = s.svc) (fun _ _ => True) s := by
  unfold reconcileAndEnforce
  rw [Effect.wp_bind]
  refine Effect.wp_query (fun _ => ?_) trivial
  rcases s.db.loadLatestPositions with - | ⟨prevTs, prevMap⟩
  · simp only [Effect.wp_bind]
    exact Effect.wp_commit (fun _ => rfl) (fun _ => trivial) fun _ => trivial
  · simp only [Effect.wp_bind]
    refine Effect.wp_query (fun _ => ?_) trivial
    have hsave : ∀ s₁ : Server, s₁.svc = s.svc → Effect.wp (Effect.when advanceBaseline
        (write fates .saveSnapshot (·.savePositionsSnapshot now (snapshotFromHoldings holdings))))
          (fun _ s' => s'.svc = s.svc) (fun _ _ => True) s₁ := by
      intro s₁ hsame
      refine Effect.wp_when (fun _ => ?_) fun _ => hsame
      exact Effect.wp_commit (fun _ => hsame) (fun _ => trivial) fun _ => trivial
    refine Effect.wp_when (fun _ => ?_) fun _ => hsave s rfl
    exact (enforceMismatch_dry hdry fates _).mono (fun _ => hsave) fun _ _ => id

theorem openDay_dry (hdry : s.svc.mode = .dryRun) :
    Effect.wp (openDay cfg t toss) (fun _ s' => s'.svc = s.svc) (fun _ _ => True) s := by
  unfold openDay
  split
  · rw [Effect.wp_bind]
    refine Effect.wp_query (fun _ => ?_) trivial
    rw [Effect.wp_bind, Effect.wp_lift]
    refine ⟨fun holdings _ => ?_, fun _ _ => trivial⟩
    rw [Effect.wp_bind]
    exact (reconcileAndEnforce_dry hdry _ _ _ _).mono (fun _ _ h => h) fun _ _ => id
  · exact rfl

/-- The book and the curve. -/
def curveView (db : Db) : Option PaperPortfolio × List PaperEquityRow := (db.paper, db.paperEquity)

theorem curveView_quiet : Quiet curveView := ⟨fun _ _ _ _ => rfl, fun _ _ _ => rfl⟩

/-- The book that is loaded is the stored one, or the seed. -/
theorem loadBook_ok {book : PaperPortfolio} (h : loadBook cfg t s = (.ok book, s')) :
    book = s.paperBook cfg ∧ s'.svc = s.svc ∧ s'.db.paperEquity = s.db.paperEquity := by
  obtain ⟨stored, s₁, hload, h⟩ := Effect.bind_eq_ok.mp h
  obtain ⟨-, rfl, rfl⟩ := Effect.query_eq_ok.mp hload
  unfold paperBook
  rcases hstored : s₁.db.loadPaper with - | book'
  all_goals rw [hstored] at h
  · obtain ⟨⟨⟩, s₂, hsave, h⟩ := Effect.bind_eq_ok.mp h
    obtain ⟨⟨⟩, s₃, haudit, h⟩ := Effect.bind_eq_ok.mp h
    obtain ⟨-, rfl⟩ := Effect.commit_eq_ok.mp hsave
    obtain ⟨-, rfl⟩ := Effect.commit_eq_ok.mp haudit
    cases h
    exact ⟨rfl, rfl, rfl⟩
  · cases h
    exact ⟨rfl, rfl, rfl⟩

/-- In the paper mode a tick works on the stored book. -/
theorem openPaper_ok (hpersisted : cfg.persisted) (hseed : 0 < cfg.paperSeedKrw)
    (hdry : s.svc.mode = .dryRun) {paper : Option PaperRun}
    (h : openPaper cfg t s = (.ok paper, s')) :
    paper = some (s.paperRun cfg t) ∧ s'.svc = s.svc ∧ s'.db.paperEquity = s.db.paperEquity := by
  obtain ⟨svc, s₁, hlook, h⟩ := Effect.bind_eq_ok.mp h
  obtain ⟨hsvc, rfl⟩ := Prod.mk.inj hlook
  cases hsvc
  rw [if_pos ⟨hpersisted, hdry, hseed⟩] at h
  obtain ⟨book, s₂, hload, h⟩ := Effect.bind_eq_ok.mp h
  obtain ⟨rfl, hsvc, hequity⟩ := loadBook_ok hload
  cases h
  exact ⟨rfl, hsvc, hequity⟩

/-- The exits are those of the book, where the rules are on. -/
theorem forcedExits_ok {run : PaperRun} {forced : List ForcedExit}
    (h : forcedExits cfg t (some run) s = (.ok forced, s')) :
    s' = s ∧ forced = if cfg.exitRulesEnabled then
      evaluateExits run.book.positions run.marks (heldDays s.db run.book) cfg.exits else [] := by
  unfold forcedExits at h
  simp only at h
  split at h
  · next hjudged =>
    obtain ⟨days, s₁, hdays, h⟩ := Effect.bind_eq_ok.mp h
    obtain ⟨rfl, rfl⟩ := daysHeld_ok hdays
    cases h
    exact ⟨rfl, (if_pos hjudged.1).symm⟩
  · next hidle =>
    cases h
    refine ⟨rfl, ?_⟩
    -- without positions there is no exit to judge
    split
    · next henabled =>
      have hnone : run.book.positions.entries = [] := by
        by_contra hsome
        exact hidle ⟨henabled, hsome⟩
      simp [evaluateExits, sortedItems, hnone]
    · rfl

/-- What the opening of a paper tick leaves to the call of `runTick`. -/
structure PaperOpened (cfg : Settings) (t : TickInput) (toss : Toss) (s : Server) (o : Opened)
    (s' : Server) : Prop where
  svc : s'.svc = s.svc
  equity : s'.db.paperEquity = s.db.paperEquity
  paper : o.paper = some (s.paperRun cfg t)
  toss : o.args.toss = toss
  now : o.args.now = t.now
  stamps : o.args.stamps = t.stamps
  judge : o.args.judge = deterministicJudge ∨ o.args.judge = t.llm
  holdings : o.args.holdings =
    some ((s.paperRun cfg t).book.toSyntheticHoldings (s.paperRun cfg t).marks)
  forced : o.args.forcedExits = s.paperExits cfg t

/-- Choosing the judge reads only, and there are two to choose from. -/
theorem selectJudge_ok {judge : Judge} {research : Option Research} {engine : Text}
    (h : selectJudge cfg t s = (.ok (judge, research, engine), s')) :
    s' = s ∧ (judge = deterministicJudge ∨ judge = t.llm) := by
  have hsame : s = s' := by
    have hreads : s = (selectJudge cfg t s).2 := selectJudge_reads (r := (· = ·)) s
    rwa [h] at hreads
  subst hsame
  refine ⟨rfl, ?_⟩
  unfold selectJudge at h
  split at h
  · obtain ⟨capped, s₁, -, h⟩ := Effect.bind_eq_ok.mp h
    rcases capped with - | -
    · cases h
      exact Or.inr rfl
    · cases h
      exact Or.inl rfl
  · cases h
    exact Or.inl rfl

/-- What a paper tick has when it is open. -/
theorem openTick_paperOpened (hpersisted : cfg.persisted) (hseed : 0 < cfg.paperSeedKrw)
    (hdry : s.svc.mode = .dryRun) {o : Opened} (h : openTick cfg t toss s = (.ok o, s')) :
    PaperOpened cfg t toss s o s' := by
  obtain ⟨watchlist, s₁, hwatch, hchoose⟩ := Effect.bind_eq_ok.mp h
  obtain ⟨-, rfl⟩ := Prod.mk.inj hwatch
  obtain ⟨⟨judge, research, engine⟩, s₂, hselect, hopen⟩ := Effect.bind_eq_ok.mp hchoose
  obtain ⟨rfl, hjudge⟩ := selectJudge_ok hselect
  obtain ⟨⟨used, holdings, report⟩, s₃, hday, hload⟩ := Effect.bind_eq_ok.mp hopen
  obtain ⟨paper, s₄, hpaper, hexits⟩ := Effect.bind_eq_ok.mp hload
  obtain ⟨forced, s₅, hforced, hargs⟩ := Effect.bind_eq_ok.mp hexits
  -- the day changes neither the service nor the book nor the curve
  have hsvc : s₃.svc = s₂.svc := (openDay_dry hdry).of_ok hday
  have hview : Keeps curveView s₂ s₃ := by
    have hkeeps : Keeps curveView s₂ (openDay cfg t toss s₂).2 :=
      openDay_keeps (fun holdings => reconcileAndEnforce_keeps curveView_quiet
        (fun _ _ _ => rfl) _ _ _ _) s₂
    rwa [hday] at hkeeps
  have hbook : s₃.db.paper = s₂.db.paper := congrArg Prod.fst hview
  have hcurve : s₃.db.paperEquity = s₂.db.paperEquity := congrArg Prod.snd hview
  have hrun : s₃.paperRun cfg t = s₂.paperRun cfg t := by
    unfold paperRun paperBook Db.loadPaper
    rw [hbook]
  obtain ⟨rfl, hsvc', hcurve'⟩ := openPaper_ok hpersisted hseed (hsvc ▸ hdry) hpaper
  obtain ⟨rfl, rfl⟩ := forcedExits_ok hforced
  rw [hrun] at hargs
  cases hargs
  refine ⟨hsvc'.trans hsvc, hcurve'.trans hcurve, rfl, rfl, rfl, rfl, hjudge, rfl, ?_⟩
  have hdays : ∀ book, heldDays s'.db book = heldDays s₂.db book := by
    intro book
    unfold heldDays Db.countTradingDaysSince
    rw [hcurve', hcurve]
  unfold paperExits
  simp only [hdays]

end Opening

/-! ### The end -/

section Closing

variable {cfg : Settings} {t : TickInput} {s s' : Server}

/-- What the end of a paper tick leaves. -/
structure PaperClosed (cfg : Settings) (t : TickInput) (run : PaperRun) (result : TickResult)
    (s s' : Server) : Prop where
  svc : s'.svc = s.svc
  paper : s'.db.paper =
    some (result.orders.foldl (fillStep cfg.entryGate.cost t.now) (run, [])).1.book.stored
  dates : s'.db.paperEquity.map PaperEquityRow.tradeDate =
    s.db.paperEquity.map PaperEquityRow.tradeDate ++ [tradeDateKst t.now]

/-- What it has filled and stored at its end. -/
theorem settlePaper_closed {run : PaperRun} {result : TickResult} {summary : PaperSummary}
    (h : settlePaper cfg t run result.orders s = (.ok summary, s')) :
    PaperClosed cfg t run result s s' := by
  unfold settlePaper at h
  obtain ⟨⟨⟩, s₁, hsave, h⟩ := Effect.bind_eq_ok.mp h
  obtain ⟨⟨⟩, s₂, happend, h⟩ := Effect.bind_eq_ok.mp h
  obtain ⟨-, rfl⟩ := Effect.commit_eq_ok.mp hsave
  obtain ⟨-, rfl⟩ := Effect.commit_eq_ok.mp happend
  cases h
  exact ⟨rfl, rfl, List.map_append⟩

theorem recordAll_closed (hpersisted : cfg.persisted) {run : PaperRun} {result : TickResult}
    {ends : Option ℕ × Option PaperSummary}
    (h : recordAll cfg t (some run) result s = (.ok ends, s')) :
    PaperClosed cfg t run result s s' := by
  unfold recordAll at h
  rw [if_pos hpersisted] at h
  obtain ⟨⟨⟩, s₁, hrecord, h⟩ := Effect.bind_eq_ok.mp h
  obtain ⟨tickId, s₂, hlook, h⟩ := Effect.bind_eq_ok.mp h
  obtain ⟨⟨⟩, s₃, hengine, h⟩ := Effect.bind_eq_ok.mp h
  obtain ⟨⟨⟩, s₄, hstats, h⟩ := Effect.bind_eq_ok.mp h
  obtain ⟨summary, s₅, hsettle, hends⟩ := Effect.bind_eq_ok.mp h
  obtain ⟨-, rfl⟩ := Effect.commit_eq_ok.mp hrecord
  obtain ⟨-, rfl⟩ := Prod.mk.inj hlook
  obtain ⟨-, rfl⟩ := Effect.commit_eq_ok.mp hengine
  obtain ⟨-, rfl⟩ := Effect.commit_eq_ok.mp hstats
  have hclosed := settlePaper_closed hsettle
  cases hends
  exact ⟨hclosed.svc, hclosed.paper, hclosed.dates⟩

/-- **A completed tick of the paper mode.** -/
theorem executeTick_paperTicked (hpersisted : cfg.persisted) (hseed : 0 < cfg.paperSeedKrw)
    (hdry : s.svc.mode = .dryRun) {tickId : Option ℕ} {engine : Text} {result : TickResult}
    {report : Option ReconcileReport} {summary : Option PaperSummary}
    (h : executeTick cfg t s = (.ok (.done tickId engine result report summary), s')) :
    ∃ args, PaperTicked cfg t s args result s' := by
  unfold executeTick at h
  rcases htoss : t.toss with - | toss
  all_goals rw [htoss] at h
  · cases h
  · obtain ⟨o, s₁, hopen, h⟩ := Effect.bind_eq_ok.mp h
    have hopened := openTick_paperOpened hpersisted hseed hdry hopen
    obtain ⟨r, s₂, hrun, h⟩ := Effect.bind_eq_ok.mp h
    obtain ⟨⟨⟩, s₃, hsend, h⟩ := Effect.bind_eq_ok.mp h
    obtain ⟨⟨tickId', summary'⟩, s₄, hrecord, hreply⟩ := Effect.bind_eq_ok.mp h
    obtain ⟨-, rfl⟩ := Effect.commit_eq_ok.mp hsend
    obtain ⟨hr, rfl⟩ := Prod.mk.inj hrun
    rw [hopened.paper] at hrecord
    have hclosed := recordAll_closed hpersisted hrecord
    cases hreply
    refine ⟨o.args, ?_, hopened.now, hopened.stamps, hopened.judge, hopened.holdings,
      hopened.forced, ?_, hclosed.paper, ?_⟩
    · rw [htoss, hopened.toss]
    · rw [← hopened.svc, hclosed.svc]
      exact Prod.ext hr rfl
    · rw [hclosed.dates]
      exact congrArg (fun l : List PaperEquityRow => l.map PaperEquityRow.tradeDate ++ _)
        hopened.equity

end Closing

end AutoTrade
