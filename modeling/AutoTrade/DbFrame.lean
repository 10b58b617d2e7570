/-
AutoTrade/DbFrame.lean

What a tick and the routes leave alone in the database.

`Keeps q` relates two states whose databases look the same through `q`, any
function of the database.  A part of the program keeps `q` as soon as each of
the writes that it makes does, so a result about some tables asks of its `q`
what those writes do to them and gets the rest of the server from here.
-/
import AutoTrade.Server

namespace AutoTrade

namespace Server

variable {γ : Type}

/-- The databases look the same through `q`. -/
def Keeps (q : Db → γ) (s s' : Server) : Prop := q s'.db = q s.db

instance (q : Db → γ) : IsPreorder Server (Keeps q) where
  refl _ := rfl
  trans _ _ _ h h' := Eq.trans h' h

variable {q : Db → γ}

/-- A read changes no table. -/
theorem fetch_keeps {α : Type} {fates : Fates} {a : Await} (f : Db → α) :
    Effect.Respects (Keeps q) (fetch fates a f) := Effect.respects_query _ _ _

theorem send_keeps {fates : Fates} {a : Await} : Effect.Respects (Keeps q) (send fates a) :=
  Effect.respects_commit fun _ => rfl

/-- A write keeps what it leaves alone. -/
theorem write_keeps {fates : Fates} {a : Await} {f : Db → Db} (h : ∀ db, q (f db) = q db) :
    Effect.Respects (Keeps q) (write fates a f) := Effect.respects_commit fun s => h s.db

/-- A view that shows neither the audit log nor the engine state. -/
structure Quiet (q : Db → γ) : Prop where
  audit : ∀ db actor action payload, q (db.audit actor action payload) = q db
  engineState : ∀ db killSwitch breaker, q (db.saveEngineState killSwitch breaker) = q db

theorem Quiet.save {fates : Fates} {a : Await} (hq : Quiet q) :
    Effect.Respects (Keeps q) (saveEngineState fates a) :=
  Effect.respects_commit fun _ => hq.engineState _ _ _

theorem Quiet.log {fates : Fates} {a : Await} (hq : Quiet q) (actor action : String)
    (payload : AuditPayload) :
    Effect.Respects (Keeps q) (write fates a (·.audit actor action payload)) :=
  write_keeps fun db => hq.audit db actor action payload

/-! ### Reconciliation and the routes -/

/-- A mismatch writes the engine state and the log. -/
theorem enforceMismatch_keeps (hq : Quiet q) (fates : Fates) (report : ReconcileReport) :
    Effect.Respects (Keeps q) (enforceMismatch fates report) := by
  refine (hq.log _ _ _).bind fun _ => (Effect.respects_look _).bind fun svc => ?_
  refine Effect.Respects.bind (Effect.respects_when ?_) fun _ => send_keeps
  refine (Effect.respects_change fun s => ?_).bind fun _ => ?_
  · exact rfl
  · exact hq.save.bind fun _ => hq.log _ _ _

/-- A reconciliation writes these and the snapshot. -/
theorem reconcileAndEnforce_keeps (hq : Quiet q)
    (hsnap : ∀ db ts items, q (db.savePositionsSnapshot ts items) = q db) (fates : Fates)
    (holdings : Holdings) (now : Datetime) (advanceBaseline : Bool) :
    Effect.Respects (Keeps q) (reconcileAndEnforce fates holdings now advanceBaseline) := by
  have hsave : ∀ a, Effect.Respects (Keeps q)
      (write fates a (·.savePositionsSnapshot now (snapshotFromHoldings holdings))) :=
    fun a => write_keeps fun db => hsnap db _ _
  refine (fetch_keeps _).bind fun prev => ?_
  rcases prev with - | ⟨prevTs, prevMap⟩
  · exact (hsave _).bind fun _ => Effect.respects_pure _
  · refine (fetch_keeps _).bind fun delta => ?_
    refine (Effect.respects_when (enforceMismatch_keeps hq fates _)).bind fun _ => ?_
    exact (Effect.respects_when (hsave _)).bind fun _ => Effect.respects_pure _

theorem killSwitchRoute_keeps (hq : Quiet q) (cfg : Settings) (engaged : Bool) (fates : Fates) :
    Effect.Respects (Keeps q) (killSwitchRoute cfg engaged fates) := by
  refine (Effect.respects_change fun s => ?_).bind fun _ => ?_
  · exact rfl
  · refine (Effect.respects_when ?_).bind fun _ => send_keeps
    refine hq.save.bind fun _ => ?_
    exact (Effect.respects_look _).bind fun _ => hq.log _ _ _

theorem circuitBreakerReset_keeps (hq : Quiet q) (cfg : Settings) (fates : Fates) :
    Effect.Respects (Keeps q) (circuitBreakerReset cfg fates) := by
  refine (Effect.respects_look _).bind fun before => ?_
  refine (Effect.respects_change fun s => ?_).bind fun _ => ?_
  · exact rfl
  · refine (Effect.respects_when ?_).bind fun _ => send_keeps
    exact hq.save.bind fun _ => hq.log _ _ _

/-! ### The opening of a tick -/

section Opening

variable {cfg : Settings} {t : TickInput}

/-- Loading the book seeds it at most. -/
theorem loadBook_keeps (hq : Quiet q)
    (hseed : ∀ db : Db, db.paper = none → q (db.savePaper { cash := cfg.paperSeedKrw }) = q db)
    (s : Server) :
    Effect.wp (loadBook cfg t) (fun _ s' => Keeps q s s') (fun _ s' => Keeps q s s') s := by
  unfold loadBook
  rw [Effect.wp_bind]
  refine Effect.wp_query (fun _ => ?_) rfl
  have hload : s.db.loadPaper = s.db.paper := rfl
  rw [hload]
  rcases hpaper : s.db.paper with - | book
  · have hwrite : Keeps q s { s with db := s.db.savePaper { cash := cfg.paperSeedKrw } } :=
      hseed s.db hpaper
    simp only [Effect.wp_bind]
    refine Effect.wp_commit (fun _ => ?_) (fun _ => hwrite) fun _ => rfl
    have haudit := (hq.audit (s.db.savePaper { cash := cfg.paperSeedKrw }) "system" "paper_init"
      (.seed cfg.paperSeedKrw)).trans hwrite
    exact Effect.wp_commit (fun _ => haudit) (fun _ => haudit) fun _ => hwrite
  · exact rfl

theorem openPaper_keeps (hq : Quiet q)
    (hseed : ∀ db : Db, db.paper = none → q (db.savePaper { cash := cfg.paperSeedKrw }) = q db) :
    Effect.Respects (Keeps q) (openPaper cfg t) := by
  refine (Effect.respects_look _).bind fun svc => ?_
  split
  · have hload : Effect.Respects (Keeps q) (loadBook cfg t) :=
      fun s => (loadBook_keeps hq hseed s).state
    exact hload.bind fun book => Effect.respects_pure _
  · exact Effect.respects_pure _

/-- So does opening a tick, and the seed of the paper book. -/
theorem openTick_keeps (hq : Quiet q) {toss : Toss}
    (hday : Effect.Respects (Keeps q) (openDay cfg t toss))
    (hseed : ∀ db : Db, db.paper = none → q (db.savePaper { cash := cfg.paperSeedKrw }) = q db) :
    Effect.Respects (Keeps q) (openTick cfg t toss) := by
  refine (Effect.respects_lift _).bind fun watchlist => ?_
  refine selectJudge_reads.bind fun chosen => hday.bind fun day => ?_
  refine (openPaper_keeps hq hseed).bind fun paper => ?_
  exact (forcedExits_reads paper).bind fun forced => Effect.respects_pure _

/-- The day is opened with one reconciliation. -/
theorem openDay_keeps {toss : Toss}
    (hreconcile : ∀ holdings,
      Effect.Respects (Keeps q) (reconcileAndEnforce t.fates holdings t.now true)) :
    Effect.Respects (Keeps q) (openDay cfg t toss) := by
  unfold openDay
  split
  · refine (fetch_keeps _).bind fun used => (Effect.respects_lift _).bind fun holdings => ?_
    exact (hreconcile holdings).bind fun report => Effect.respects_pure _
  · exact Effect.respects_pure _

end Opening

end Server

end AutoTrade
