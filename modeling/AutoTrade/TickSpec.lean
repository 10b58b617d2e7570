/-
AutoTrade/TickSpec.lean

What a tick of the server does, in three parts: what comes before the orders
(`Opens`, and `Untraded` for all of it), the orders, which are `runTick`, and
what comes after them (`Closes`).

`executeTick_ends` is the rule: wherever a tick is cut, it ends before the
orders with nothing traded, or after them with the service as `runTick` left it
and the writes of the tick committed up to some point.  Every result about the
server is read off it.
-/
import AutoTrade.Tick

namespace AutoTrade

open Server

/-! ### Before the orders -/

/-- The paper book is the same, or the first one. -/
def Db.KeepsBook (db db' : Db) : Prop :=
  db'.paper = db.paper ∨ db.paper = none ∧ ∃ cash, db'.paper = some { cash }

theorem Db.KeepsBook.trans {a b c : Db} (h : a.KeepsBook b) (h' : b.KeepsBook c) :
    a.KeepsBook c := by
  rcases h' with hp' | ⟨hnone, hseed⟩
  · rcases h with hp | ⟨hnone, cash, hp⟩
    · exact Or.inl (hp'.trans hp)
    · exact Or.inr ⟨hnone, cash, hp'.trans hp⟩
  · rcases h with hp | ⟨-, cash, hp⟩
    · exact Or.inr ⟨hp ▸ hnone, hseed⟩
    · rw [hp] at hnone
      cases hnone

namespace Server

/-- The kill switch is on, and a restart would restore it. -/
def Halted (s : Server) : Prop :=
  s.svc.killSwitch = true ∧ ∃ row, s.db.engineState = some row ∧ row.killSwitch = true

/-- What a tick does before `run_tick`: the service is the same but for the kill
switch, which is not released, no order is recorded, and the paper book is kept. -/
structure Untraded (s s' : Server) : Prop where
  svc : s'.svc = { s.svc with killSwitch := s'.svc.killSwitch }
  killSwitch : s.svc.killSwitch = true → s'.svc.killSwitch = true
  halted : s.Halted → s'.Halted
  orders : s'.db.orders = s.db.orders
  book : s.db.KeepsBook s'.db

instance : IsPreorder Server Untraded where
  refl s := ⟨rfl, id, id, rfl, Or.inl rfl⟩
  trans a b c h h' := by
    refine ⟨?_, h'.killSwitch ∘ h.killSwitch, h'.halted ∘ h.halted, h'.orders.trans h.orders,
      h.book.trans h'.book⟩
    rw [h'.svc, h.svc]

section Primitives

variable {fates : Fates} {a : Await}

theorem fetch_untraded {α : Type} (q : Db → α) : Effect.Respects Untraded (fetch fates a q) :=
  Effect.respects_query _ _ _

theorem send_untraded : Effect.Respects Untraded (send fates a) :=
  Effect.respects_commit fun s => refl_of Untraded s

theorem audit_untraded (actor action : String) (payload : AuditPayload) :
    Effect.Respects Untraded (write fates a (·.audit actor action payload)) :=
  Effect.respects_commit fun _ => ⟨rfl, id, id, rfl, Or.inl rfl⟩

theorem savePositionsSnapshot_untraded (ts : Datetime) (items : List PositionSnapshot) :
    Effect.Respects Untraded (write fates a (·.savePositionsSnapshot ts items)) :=
  Effect.respects_commit fun _ => ⟨rfl, id, id, rfl, Or.inl rfl⟩

theorem saveEngineState_untraded : Effect.Respects Untraded (saveEngineState fates a) :=
  Effect.respects_commit fun _ =>
    ⟨rfl, id, fun h => ⟨h.1, _, rfl, h.1⟩, rfl, Or.inl rfl⟩

theorem engage_untraded :
    Effect.Respects Untraded (Effect.change fun s : Server =>
      { s with svc := s.svc.engageKillSwitch } : Effect Exn Server PUnit) :=
  Effect.respects_change fun _ => ⟨rfl, fun _ => rfl, fun h => ⟨rfl, h.2⟩, rfl, Or.inl rfl⟩

end Primitives

end Server

section Opening

variable {cfg : Settings} {t : TickInput}

/-- A mismatch sends no order. -/
theorem enforceMismatch_untraded (fates : Fates) (report : ReconcileReport) :
    Effect.Respects Untraded (enforceMismatch fates report) := by
  refine (audit_untraded _ _ _).bind fun _ => (Effect.respects_look _).bind fun svc => ?_
  refine Effect.Respects.bind (Effect.respects_when ?_) fun _ => send_untraded
  exact engage_untraded.bind fun _ => saveEngineState_untraded.bind fun _ => audit_untraded _ _ _

/-- Nor does a reconciliation. -/
theorem reconcileAndEnforce_untraded (fates : Fates) (holdings : Holdings) (now : Datetime)
    (advanceBaseline : Bool) :
    Effect.Respects Untraded (reconcileAndEnforce fates holdings now advanceBaseline) := by
  refine (fetch_untraded _).bind fun prev => ?_
  rcases prev with - | ⟨prevTs, prevMap⟩
  · exact (savePositionsSnapshot_untraded _ _).bind fun _ => Effect.respects_pure _
  · refine (fetch_untraded _).bind fun delta => ?_
    refine (Effect.respects_when (enforceMismatch_untraded fates _)).bind fun _ => ?_
    refine (Effect.respects_when (savePositionsSnapshot_untraded _ _)).bind fun _ => ?_
    exact Effect.respects_pure _

/-- Choosing the judge only reads. -/
theorem selectJudge_reads {r : Server → Server → Prop} [IsPreorder Server r] :
    Effect.Respects r (selectJudge cfg t) := by
  have hcapped : Effect.Respects r (llmCapped cfg t) := by
    unfold llmCapped
    split
    · exact (Effect.respects_query _ _ _).bind fun used => Effect.respects_pure _
    · exact Effect.respects_pure _
  unfold selectJudge
  split
  · refine hcapped.bind fun capped => ?_
    split
    · exact Effect.respects_pure _
    · exact Effect.respects_pure _
  · exact Effect.respects_pure _

/-- The day has reached the cap of decisions, where there is one. -/
def Server.overCap (cfg : Settings) (t : TickInput) (s : Server) : Prop :=
  cfg.persisted ∧ 0 < cfg.dailyLlmDecisionCap ∧
    cfg.dailyLlmDecisionCap ≤ s.db.countDecisionsToday (tradeDateKst t.now)

instance (s : Server) : Decidable (s.overCap cfg t) := inferInstanceAs (Decidable (_ ∧ _ ∧ _))

/-- The tick, when it comes to judge, asks the model. -/
def Server.AsksModel (cfg : Settings) (t : TickInput) (s : Server) : Prop :=
  cfg.anthropicApiKey ∧ ¬ s.overCap cfg t

instance (s : Server) : Decidable (s.AsksModel cfg t) := inferInstanceAs (Decidable (_ ∧ ¬ _))

/-- The judge of a tick. -/
def Server.tickJudge (cfg : Settings) (t : TickInput) (s : Server) : Judge :=
  if s.AsksModel cfg t then t.llm else deterministicJudge

/-- The cap is looked at, and nothing changes. -/
theorem llmCapped_spec (s : Server) :
    Effect.wp (llmCapped cfg t) (fun capped s' => s' = s ∧ (capped = true ↔ s.overCap cfg t))
      (fun _ s' => s' = s) s := by
  unfold llmCapped Server.overCap
  split
  · next h =>
    rw [Effect.wp_bind]
    refine Effect.wp_query (fun _ => ?_) rfl
    refine ⟨rfl, ?_⟩
    rw [decide_eq_true_iff]
    exact ⟨fun hcap => ⟨h.1, h.2, hcap⟩, fun hcap => hcap.2.2⟩
  · next h => exact ⟨rfl, iff_of_false Bool.false_ne_true fun hcap => h ⟨hcap.1, hcap.2.1⟩⟩

/-- **The choice of the judge**: the model, with the web search, exactly where a key is
set and the day has not reached the cap. -/
theorem selectJudge_spec (s : Server) :
    Effect.wp (selectJudge cfg t)
      (fun chosen s' => s' = s ∧ chosen.1 = s.tickJudge cfg t ∧
        chosen.2.1 = if s.AsksModel cfg t then some t.webSearch else none)
      (fun _ s' => s' = s) s := by
  unfold selectJudge Server.tickJudge
  split
  · next hkey =>
    rw [Effect.wp_bind]
    refine (llmCapped_spec s).mono ?_ fun _ _ => id
    rintro capped s' ⟨rfl, hcap⟩
    split
    · next hcapped =>
      have hno : ¬ s'.AsksModel cfg t := fun h => h.2 (hcap.mp hcapped)
      exact ⟨rfl, by rw [if_neg hno], by rw [if_neg hno]⟩
    · next hcapped =>
      have hasks : s'.AsksModel cfg t := ⟨hkey, mt hcap.mpr hcapped⟩
      exact ⟨rfl, by rw [if_pos hasks], by rw [if_pos hasks]⟩
  · next hkey =>
    have hno : ¬ s.AsksModel cfg t := fun h => hkey h.1
    exact ⟨rfl, by rw [if_neg hno], by rw [if_neg hno]⟩

/-- Only the first tick of a book writes it. -/
theorem loadBook_spec (s : Server) :
    Effect.wp (loadBook cfg t)
      (fun book s' => Untraded s s' ∧ s'.db.paper = some book) (fun _ s' => Untraded s s') s := by
  unfold loadBook
  rw [Effect.wp_bind]
  refine Effect.wp_query ?_ (refl_of Untraded s)
  intro _
  have hload : s.db.loadPaper = s.db.paper := rfl
  rcases hpaper : s.db.paper with - | book
  · rw [hload, hpaper]
    -- the first tick seeds the book, and may be cut before the audit of it
    have hseed : Untraded s { s with db := s.db.savePaper { cash := cfg.paperSeedKrw } } :=
      ⟨rfl, id, id, rfl, Or.inr ⟨hpaper, _, rfl⟩⟩
    have haudit : Untraded s { s with
        db := (s.db.savePaper { cash := cfg.paperSeedKrw }).audit "system" "paper_init"
          (.seed cfg.paperSeedKrw) } :=
      ⟨rfl, id, id, rfl, Or.inr ⟨hpaper, _, rfl⟩⟩
    simp only [Effect.wp_bind]
    refine Effect.wp_commit (fun _ => ?_) (fun _ => hseed) fun _ => refl_of Untraded s
    exact Effect.wp_commit (fun _ => ⟨haudit, rfl⟩) (fun _ => haudit) fun _ => hseed
  · rw [hload, hpaper]
    exact ⟨refl_of Untraded s, hpaper⟩

/-- Opening the paper book stores it at most. -/
theorem openPaper_spec (s : Server) :
    Effect.wp (openPaper cfg t)
      (fun paper s' => Untraded s s' ∧ ∀ run, paper = some run → s'.db.paper = some run.book)
      (fun _ s' => Untraded s s') s := by
  unfold openPaper
  rw [Effect.wp_bind, Effect.wp_look]
  split
  · rw [Effect.wp_bind]
    refine (loadBook_spec s).mono ?_ fun _ _ => id
    rintro book s' ⟨hsame, hbook⟩
    refine ⟨hsame, ?_⟩
    rintro run hrun
    cases hrun
    exact hbook
  · exact ⟨refl_of Untraded s, by simp⟩

/-- Judging the exits only reads. -/
theorem forcedExits_reads {r : Server → Server → Prop} [IsPreorder Server r]
    (paper : Option PaperRun) : Effect.Respects r (forcedExits cfg t paper) := by
  unfold forcedExits
  rcases paper with - | run
  · exact Effect.respects_pure _
  · simp only
    split
    · refine Effect.Respects.bind ?_ fun days => Effect.respects_pure _
      refine Effect.respects_foldM (fun days p => ?_) _ _
      rcases p.2.openedAt with - | openedAt
      · exact Effect.respects_pure _
      · exact (Effect.respects_query _ _ _).bind fun n => Effect.respects_pure _
    · exact Effect.respects_pure _

/-- What a tick calls `run_tick` with, and the state it does so in. -/
structure Opens (cfg : Settings) (t : TickInput) (s : Server) (o : Opened) (s' : Server) :
    Prop where
  untraded : Untraded s s'
  now : o.args.now = t.now
  stamps : o.args.stamps = t.stamps
  used : cfg.persisted → o.args.dailyBuyUsedKrw = s.db.buyNotionalToday (tradeDateKst t.now)
  book : ∀ run, o.paper = some run → s'.db.paper = some run.book ∧
    o.args.holdings = some (run.book.toSyntheticHoldings run.marks)

/-- The day's buys are those of the database the tick starts on. -/
theorem openDay_spec (toss : Toss) (s : Server) :
    Effect.wp (openDay cfg t toss)
      (fun day s' => Untraded s s' ∧
        (cfg.persisted → day.1 = s.db.buyNotionalToday (tradeDateKst t.now)))
      (fun _ s' => Untraded s s') s := by
  unfold openDay
  split
  · rw [Effect.wp_bind]
    refine Effect.wp_query ?_ (refl_of Untraded s)
    intro _
    rw [Effect.wp_bind, Effect.wp_lift]
    refine ⟨fun holdings _ => ?_, fun e _ => refl_of Untraded s⟩
    rw [Effect.wp_bind]
    refine ((reconcileAndEnforce_untraded _ _ _ _).wp s).mono ?_ fun _ _ => id
    intro report s' hsame
    exact ⟨hsame, fun _ => rfl⟩
  · next hno => exact ⟨refl_of Untraded s, fun h => absurd h hno⟩

/-- A tick that has opened took the day's buys, the account and the report from
its day and its book. -/
structure OpenedWith (t : TickInput) (day : ℚ × Option Holdings × Option ReconcileReport)
    (paper : Option PaperRun) (o : Opened) : Prop where
  now : o.args.now = t.now
  stamps : o.args.stamps = t.stamps
  used : o.args.dailyBuyUsedKrw = day.1
  holdings : ∀ run, paper = some run →
    o.args.holdings = some (run.book.toSyntheticHoldings run.marks)
  report : o.report = day.2.2
  paper : o.paper = paper

/-- **The rule of the opening.**  What its day and its book establish holds when
the tick has opened: the rest of the opening only reads. -/
theorem openTick_rule {toss : Toss} {s : Server}
    {D : ℚ × Option Holdings × Option ReconcileReport → Server → Prop}
    {Q : Opened → Server → Prop} {R : Exn → Server → Prop} (hstart : ∀ e, R e s)
    (hday : Effect.wp (openDay cfg t toss) D R s)
    (hpaper : ∀ day s₁, D day s₁ → Effect.wp (openPaper cfg t)
      (fun paper s₂ => (∀ e, R e s₂) ∧ ∀ o, OpenedWith t day paper o → Q o s₂) R s₁) :
    Effect.wp (openTick cfg t toss) Q R s := by
  unfold openTick
  rw [Effect.wp_bind, Effect.wp_lift]
  refine ⟨fun watchlist _ => ?_, fun e _ => hstart e⟩
  rw [Effect.wp_bind]
  refine ((selectJudge_reads (r := (· = ·))).wp s).mono ?_ ?_
  · rintro ⟨judge, research, engine⟩ s' rfl
    rw [Effect.wp_bind]
    refine hday.mono ?_ fun _ _ => id
    intro day s₁ hD
    rw [Effect.wp_bind]
    refine (hpaper day s₁ hD).mono ?_ fun _ _ => id
    rintro paper s₂ ⟨hraise, hQ⟩
    rw [Effect.wp_bind]
    refine ((forcedExits_reads (r := (· = ·)) paper).wp s₂).mono ?_ ?_
    · rintro forced s₃ rfl
      refine hQ _ ⟨rfl, rfl, rfl, ?_, rfl, rfl⟩
      rintro run rfl
      rfl
    · rintro e s₃ rfl
      exact hraise e
  · rintro e s' rfl
    exact hstart e

/-- A tick judges the watchlist it was given with the judge it has chosen. -/
theorem openTick_asked {toss : Toss} {s s' : Server} {o : Opened}
    (h : openTick cfg t toss s = (.ok o, s')) :
    o.args.toss = toss ∧ o.args.screenConfig = {} ∧ t.watch = .ok o.args.watchlist ∧
      o.args.judge = s.tickJudge cfg t ∧
      o.args.research = if s.AsksModel cfg t then some t.webSearch else none := by
  unfold openTick at h
  obtain ⟨watchlist, s₁, hlift, h⟩ := Effect.bind_eq_ok.mp h
  obtain ⟨hwatch, rfl⟩ := Prod.mk.inj hlift
  obtain ⟨chosen, s₂, hchosen, h⟩ := Effect.bind_eq_ok.mp h
  obtain ⟨-, hjudge, hresearch⟩ := (selectJudge_spec s).of_ok hchosen
  -- what follows only adds the account and the exits
  obtain ⟨day, s₃, -, h⟩ := Effect.bind_eq_ok.mp h
  obtain ⟨paper, s₄, -, h⟩ := Effect.bind_eq_ok.mp h
  obtain ⟨forced, s₅, -, h⟩ := Effect.bind_eq_ok.mp h
  cases h
  exact ⟨rfl, rfl, hwatch, hjudge, hresearch⟩

/-- Opening a tick sends nothing, and says what the tick is asked. -/
theorem openTick_spec (toss : Toss) (s : Server) :
    Effect.wp (openTick cfg t toss) (fun o s' => Opens cfg t s o s')
      (fun _ s' => Untraded s s') s := by
  refine openTick_rule (fun _ => refl_of Untraded s) (openDay_spec toss s) ?_
  rintro day s₁ ⟨hsame₁, hused⟩
  refine (openPaper_spec s₁).mono ?_ fun _ _ h => trans_of Untraded hsame₁ h
  rintro paper s₂ ⟨hsame₂, hbook⟩
  have hsame : Untraded s s₂ := trans_of Untraded hsame₁ hsame₂
  refine ⟨fun _ => hsame, ?_⟩
  intro o ho
  refine ⟨hsame, ho.now, ho.stamps, fun h => ho.used.trans (hused h), ?_⟩
  intro run hrun
  rw [ho.paper] at hrun
  exact ⟨hbook run hrun, ho.holdings run hrun⟩

end Opening

/-! ### After the orders -/

/-- What a tick has done of its end when it is over, from the state `s` in which
it calls `run_tick`. -/
structure Closes (cfg : Settings) (t : TickInput) (o : Opened) (s s' : Server) : Prop where
  svc : s'.svc = (runTick o.args s.svc).2
  orders : s'.db.orders = s.db.orders ∨ ∃ r, (runTick o.args s.svc).1 = .ok r ∧
    s'.db.orders = (s.db.recordTick r t.now).orders
  /-- a tick that returns from `run_tick` and from the next two calls is recorded -/
  recorded : ∀ r, cfg.persisted → (runTick o.args s.svc).1 = .ok r →
    t.fates .sendBreaker = .returns → t.fates .recordTick ≠ .raises false →
    s'.db.orders = (s.db.recordTick r t.now).orders
  engineState : s'.db.engineState = s.db.engineState ∨
    ∃ row, s'.db.engineState = some row ∧ row.killSwitch = s'.svc.killSwitch
  paper : s'.db.paper = s.db.paper ∨ ∃ run r, o.paper = some run ∧
    (runTick o.args s.svc).1 = .ok r ∧
    s'.db.paper = some (r.orders.foldl (fillStep cfg.entryGate.cost t.now) (run, [])).1.book.stored

section Closing

variable {cfg : Settings} {t : TickInput} {o : Opened}

/-- What the writes after the first leave of a recorded tick. -/
structure Recorded (cfg : Settings) (t : TickInput) (paper : Option PaperRun) (r : TickResult)
    (s s' : Server) : Prop where
  svc : s'.svc = s.svc
  orders : s'.db.orders = (s.db.recordTick r t.now).orders
  engineState : s'.db.engineState = s.db.engineState ∨
    ∃ row, s'.db.engineState = some row ∧ row.killSwitch = s'.svc.killSwitch
  paper : s'.db.paper = s.db.paper ∨ ∃ run, paper = some run ∧
    s'.db.paper = some (r.orders.foldl (fillStep cfg.entryGate.cost t.now) (run, [])).1.book.stored

theorem settlePaper_recorded {paper : Option PaperRun} {run : PaperRun} {r : TickResult}
    (hpaper : paper = some run) {s₀ s : Server} (h : Recorded cfg t paper r s₀ s) :
    Effect.wp (settlePaper cfg t run r.orders) (fun _ s' => Recorded cfg t paper r s₀ s')
      (fun _ s' => Recorded cfg t paper r s₀ s') s := by
  unfold settlePaper
  have hsaved : ∀ db : Db, db.orders = s.db.orders → db.engineState = s.db.engineState →
      db.paper = some (r.orders.foldl (fillStep cfg.entryGate.cost t.now) (run, [])).1.book.stored →
      Recorded cfg t paper r s₀ { s with db := db } := by
    intro db horders hengine hbook
    refine ⟨h.svc, horders.trans h.orders, ?_, Or.inr ⟨run, hpaper, hbook⟩⟩
    show db.engineState = _ ∨ ∃ row, db.engineState = some row ∧ _
    rw [hengine]
    exact h.engineState
  rcases hfill : r.orders.foldl (fillStep cfg.entryGate.cost t.now) (run, []) with ⟨run', fills⟩
  rw [hfill] at hsaved
  simp only [Effect.wp_bind]
  refine Effect.wp_commit (fun _ => ?_) (fun _ => hsaved _ rfl rfl rfl) fun _ => h
  exact Effect.wp_commit (fun _ => hsaved _ rfl rfl rfl) (fun _ => hsaved _ rfl rfl rfl)
    fun _ => hsaved _ rfl rfl rfl

/-- Either the tick is not recorded at all, or its record is there whatever the
later writes do. -/
theorem recordAll_spec (paper : Option PaperRun) (r : TickResult) (s : Server) :
    Effect.wp (recordAll cfg t paper r)
      (fun _ s' => Recorded cfg t paper r s s' ∨ ¬ cfg.persisted ∧ s' = s)
      (fun _ s' => Recorded cfg t paper r s s' ∨ t.fates .recordTick = .raises false ∧ s' = s)
      s := by
  unfold recordAll
  split
  · have hrec : Recorded cfg t paper r s { s with db := s.db.recordTick r t.now } :=
      ⟨rfl, rfl, Or.inl rfl, Or.inl rfl⟩
    rw [Effect.wp_bind]
    refine Effect.wp_commit (fun _ => ?_) (fun _ => Or.inl hrec) fun hfate => Or.inr ⟨hfate, rfl⟩
    rw [Effect.wp_bind, Effect.wp_look, Effect.wp_bind]
    -- each later write leaves the record of the tick
    have hsaved : Recorded cfg t paper r s { s with
        db := (s.db.recordTick r t.now).saveEngineState s.svc.killSwitch
          s.svc.circuitBreaker.dumpState } := ⟨rfl, rfl, Or.inr ⟨_, rfl, rfl⟩, Or.inl rfl⟩
    refine Effect.wp_commit (fun _ => ?_) (fun _ => Or.inl hsaved) fun _ => Or.inl hrec
    rw [Effect.wp_bind]
    refine Effect.wp_commit (fun _ => ?_) (fun _ => ?_) fun _ => Or.inl hsaved
    · have hstats : Recorded cfg t paper r s { s with
          db := ((s.db.recordTick r t.now).saveEngineState s.svc.killSwitch
            s.svc.circuitBreaker.dumpState).upsertSymbolStats r.adv20 (tradeDateKst t.now) } :=
        ⟨rfl, rfl, Or.inr ⟨_, rfl, rfl⟩, Or.inl rfl⟩
      rcases paper with - | run
      · exact Or.inl hstats
      · simp only [Effect.wp_bind]
        refine (settlePaper_recorded rfl hstats).mono ?_ fun _ _ h => Or.inl h
        intro summary s' h
        exact Or.inl h
    · exact Or.inl ⟨rfl, rfl, Or.inr ⟨_, rfl, rfl⟩, Or.inl rfl⟩
  · next hno => exact Or.inr ⟨hno, rfl⟩

/-- A recorded tick is closed. -/
theorem Recorded.closes {r : TickResult} {s s' : Server}
    (hr : (runTick o.args s.svc).1 = .ok r)
    (h : Recorded cfg t o.paper r { s with svc := (runTick o.args s.svc).2 } s') :
    Closes cfg t o s s' := by
  refine ⟨h.svc, Or.inr ⟨r, hr, h.orders⟩, ?_, h.engineState, ?_⟩
  · intro r' _ hr' _ _
    rw [hr] at hr'
    cases hr'
    exact h.orders
  · rcases h.paper with hp | ⟨run, hrun, hp⟩
    · exact Or.inl hp
    · exact Or.inr ⟨run, r, hrun, hr, hp⟩

/-- Closing a tick records it as far as the calls return. -/
theorem closeTick_spec (s : Server) :
    Effect.wp (closeTick cfg t o) (fun _ s' => Closes cfg t o s s')
      (fun _ s' => Closes cfg t o s s') s := by
  -- where nothing is written after `run_tick`, the reason is one of three
  have hidle : (∀ r, cfg.persisted → (runTick o.args s.svc).1 = .ok r →
      t.fates .sendBreaker = .returns → t.fates .recordTick ≠ .raises false → False) →
      Closes cfg t o s { s with svc := (runTick o.args s.svc).2 } := by
    intro hno
    exact ⟨rfl, Or.inl rfl, fun r hp hr hsend hrec => (hno r hp hr hsend hrec).elim, Or.inl rfl,
      Or.inl rfl⟩
  unfold closeTick
  rw [Effect.wp_bind, Effect.wp_zoom]
  refine Effect.wp_of_forall ?_ ?_
  · intro r final hrun
    have hok : (runTick o.args s.svc).1 = .ok r := by rw [hrun]
    have hfinal : final = (runTick o.args s.svc).2 := by rw [hrun]
    subst hfinal
    rw [Effect.wp_bind]
    refine Effect.wp_commit (fun _ => ?_) (fun hsend => hidle ?_) fun hsend => hidle ?_
    · rw [Effect.wp_bind]
      refine (recordAll_spec o.paper r _).mono ?_ ?_
      · rintro a s' (h | ⟨hno, rfl⟩)
        · exact h.closes hok
        · exact hidle fun r' hp _ _ _ => hno hp
      · rintro e s' (h | ⟨hfate, rfl⟩)
        · exact h.closes hok
        · exact hidle fun r' _ _ _ hrec => hrec hfate
    · intro r' _ _ hsend' _
      rw [hsend] at hsend'
      cases hsend'
    · intro r' _ _ hsend' _
      rw [hsend] at hsend'
      cases hsend'
  -- `run_tick` raised: nothing is written
  · intro e final hrun
    have hfinal : final = (runTick o.args s.svc).2 := by rw [hrun]
    subst hfinal
    refine hidle ?_
    intro r' _ hr' _ _
    rw [hrun] at hr'
    cases hr'

end Closing

/-! ### The tick -/

/-- The ways a tick of the server can end. -/
inductive TickEnds (cfg : Settings) (t : TickInput) (s : Server) : Server → Prop
  /-- before the orders -/
  | unopened {s' : Server} (h : Untraded s s') : TickEnds cfg t s s'
  /-- after them -/
  | closed {toss : Toss} {o : Opened} {s' s'' : Server} (htoss : t.toss = some toss)
      (hopen : openTick cfg t toss s = (.ok o, s')) (h : Opens cfg t s o s')
      (hclose : Closes cfg t o s' s'') : TickEnds cfg t s s''

/-- **How a tick ends**, wherever it is cut. -/
theorem executeTick_ends (cfg : Settings) (t : TickInput) (s : Server) :
    TickEnds cfg t s (executeTick cfg t s).2 := by
  refine Effect.wp.state (P := TickEnds cfg t s) ?_
  unfold executeTick
  rcases htoss : t.toss with - | toss
  · exact .unopened (refl_of Untraded s)
  · simp only [Effect.wp_bind]
    have hspec : Effect.wp (openTick cfg t toss) (Opens cfg t s) (fun _ s' => Untraded s s') s :=
      openTick_spec toss s
    refine Effect.wp_of_forall ?_ ?_
    · intro o s' hopen
      refine (closeTick_spec s').mono ?_ ?_
      · intro _ s'' hclose
        exact .closed htoss hopen (hspec.of_ok hopen) hclose
      · intro _ s'' hclose
        exact .closed htoss hopen (hspec.of_ok hopen) hclose
    · intro e s' hopen
      exact .unopened (hspec.of_error hopen)

end AutoTrade
