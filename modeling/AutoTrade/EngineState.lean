/-
AutoTrade/EngineState.lean

The saved engine state and its writers.

The tick, the two routes that change the engine and the reconciliation each
change the service, read what they will save, and commit it to the one row of
`engine_state` after an `await`; nothing keeps their commits in the order of
their reads.  As writers of a shared row they are an instance of `WriteBack`:
the row follows the service, whichever writers they are, in exactly the schedules
in which no change is made after the read that is committed last
(`engine_state_follows_iff`).
-/
import AutoTrade.Server
import AutoTrade.Lib.WriteBack

namespace AutoTrade

open WriteBack (Step)

/-! ### The writers -/

/-- The writers of the row, by what they change. -/
inductive Writer
  /-- a tick, whose change is the assessment of the breaker -/
  | tick (equityKrw dailyPlRate : Option ℚ) (now : Datetime)
  | killSwitch (engaged : Bool)
  | resetBreaker
  /-- a reconciliation that finds a mismatch with the switch off -/
  | reconcile

namespace Writer

/-- What the writer changes in memory. -/
def change : Writer → OrderService → OrderService
  | tick equityKrw dailyPlRate now, svc => svc.assessCircuitBreaker equityKrw dailyPlRate now
  | killSwitch engaged, svc => if engaged then svc.engageKillSwitch else svc.releaseKillSwitch
  | resetBreaker, svc => { svc with circuitBreaker := svc.circuitBreaker.reset }
  | reconcile, svc => svc.engageKillSwitch

end Writer

/-- The arguments of `save_engine_state`, as the row keeps them. -/
def engineRow (svc : OrderService) : EngineStateRow :=
  ⟨svc.killSwitch, svc.circuitBreaker.dumpState⟩

/-- The service and the row after the steps of some writers. -/
def saving (writers : ℕ → Writer) (svc : OrderService) (row : Option EngineStateRow)
    (es : List (Step ℕ)) : WriteBack.State ℕ OrderService EngineStateRow :=
  WriteBack.run (fun i => (writers i).change) engineRow ⟨svc, row, fun _ => none⟩ es

/-! ### One writer alone is the code -/

namespace Server

/-- The service and the row are those of the writer `w` alone. -/
structure Alone (w : Writer) (s s' : Server) : Prop where
  svc : s'.svc = (saving (fun _ => w) s.svc s.db.engineState
    [.change 0, .evaluate 0, .commit 0]).memory
  engineState : s'.db.engineState = (saving (fun _ => w) s.svc s.db.engineState
    [.change 0, .evaluate 0, .commit 0]).row

/-- The service and its row stay. -/
structure SameEngine (s s' : Server) : Prop where
  svc : s'.svc = s.svc
  engineState : s'.db.engineState = s.db.engineState

instance : IsPreorder Server SameEngine where
  refl _ := ⟨rfl, rfl⟩
  trans _ _ _ h h' := ⟨h'.svc.trans h.svc, h'.engineState.trans h.engineState⟩

section Alone

variable {cfg : Settings} {fates : Fates} {w : Writer} {s s₁ : Server}

theorem audit_sameEngine {a : Await} (actor action : String) (payload : AuditPayload) :
    Effect.Respects SameEngine (write fates a (·.audit actor action payload)) :=
  Effect.respects_commit fun _ => ⟨rfl, rfl⟩

theorem send_sameEngine {a : Await} : Effect.Respects SameEngine (send fates a) :=
  Effect.respects_commit fun _ => ⟨rfl, rfl⟩

/-- What leaves the engine leaves what a writer did. -/
theorem wp_alone {α : Type} {m : Effect Exn Server α} (hm : Effect.Respects SameEngine m)
    (h : Alone w s s₁) : Effect.wp m (fun _ => Alone w s) (fun _ => Alone w s) s₁ := by
  have hkeep : ∀ s₂, SameEngine s₁ s₂ → Alone w s s₂ := fun s₂ hsame =>
    ⟨hsame.svc.trans h.svc, hsame.engineState.trans h.engineState⟩
  exact (hm.wp s₁).mono (fun _ s₂ => hkeep s₂) fun _ s₂ => hkeep s₂

/-- A save that lands, once the change is made. -/
theorem saveEngineState_alone {a : Await} (hlands : fates a ≠ .raises false)
    (hsvc : s₁.svc = w.change s.svc) :
    Effect.wp (saveEngineState fates a) (fun _ => Alone w s) (fun _ => Alone w s) s₁ := by
  have hsaved : Alone w s { s₁ with
      db := s₁.db.saveEngineState s₁.svc.killSwitch s₁.svc.circuitBreaker.dumpState } := by
    refine ⟨hsvc, ?_⟩
    show some (engineRow s₁.svc) = some (engineRow (w.change s.svc))
    rw [hsvc]
  exact Effect.wp_commit (fun _ => hsaved) (fun _ => hsaved) fun hfate => absurd hfate hlands

/-- **A save, and then what leaves the engine**: the writer was alone all the way. -/
theorem save_bind_alone {a b : Await} {m : Effect Exn Server Unit}
    (hm : Effect.Respects SameEngine m) (hlands : fates a ≠ .raises false)
    (hsvc : s₁.svc = w.change s.svc) :
    Effect.wp (saveEngineState fates a >>= fun _ => m)
      (fun _ => Effect.wp (send fates b : Effect Exn Server Unit) (fun _ => Alone w s)
        fun _ => Alone w s)
      (fun _ => Alone w s) s₁ := by
  rw [Effect.wp_bind]
  refine (saveEngineState_alone hlands hsvc).mono ?_ fun _ _ => id
  intro _ s₂ h₂
  refine (wp_alone hm h₂).mono ?_ fun _ _ => id
  intro _ s₃ h₃
  exact wp_alone send_sameEngine h₃

theorem killSwitchRoute_alone (hpersisted : cfg.persisted)
    (hlands : fates .saveEngineState ≠ .raises false) (engaged : Bool) (s : Server) :
    Effect.wp (killSwitchRoute cfg engaged fates) (fun _ => Alone (.killSwitch engaged) s)
      (fun _ => Alone (.killSwitch engaged) s) s := by
  unfold killSwitchRoute
  rw [Effect.wp_bind, Effect.wp_change, Effect.wp_bind]
  refine Effect.wp_when (fun _ => ?_) fun hno => absurd hpersisted hno
  refine save_bind_alone ?_ hlands rfl
  exact (Effect.respects_look _).bind fun _ => audit_sameEngine _ _ _

theorem circuitBreakerReset_alone (hpersisted : cfg.persisted)
    (hlands : fates .saveEngineState ≠ .raises false) (s : Server) :
    Effect.wp (circuitBreakerReset cfg fates) (fun _ => Alone .resetBreaker s)
      (fun _ => Alone .resetBreaker s) s := by
  unfold circuitBreakerReset
  rw [Effect.wp_bind, Effect.wp_look, Effect.wp_bind, Effect.wp_change, Effect.wp_bind]
  refine Effect.wp_when (fun _ => ?_) fun hno => absurd hpersisted hno
  exact save_bind_alone (audit_sameEngine _ _ _) hlands rfl

theorem enforceMismatch_alone (hlive : s.svc.mode = .live) (hoff : s.svc.killSwitch = false)
    (haudit : fates .auditMismatch = .returns) (hlands : fates .saveHalt ≠ .raises false)
    (report : ReconcileReport) :
    Effect.wp (enforceMismatch fates report) (fun _ => Alone .reconcile s)
      (fun _ => Alone .reconcile s) s := by
  unfold enforceMismatch
  simp only [Effect.wp_bind, Effect.wp_look, write, haudit]
  refine Effect.wp_when (fun _ => ?_) fun hno => absurd ⟨hlive, hoff⟩ hno
  rw [Effect.wp_bind, Effect.wp_change]
  exact save_bind_alone (audit_sameEngine _ _ _) hlands rfl

end Alone

end Server

/-- What a tick changes of the row is what its writer changes. -/
theorem runTick_engineRow (args : TickArgs) (svc : OrderService) :
    engineRow (runTick args svc).2 = engineRow svc ∨ ∃ equityKrw dailyPlRate,
      engineRow (runTick args svc).2 =
        engineRow ((Writer.tick equityKrw dailyPlRate args.now).change svc) := by
  rcases runTick_setup args svc with ⟨-, hsame⟩ | ⟨g, -, hsame⟩
  · exact Or.inl (congrArg engineRow hsame)
  · refine Or.inr ⟨g.equity, g.holdings.dailyProfitLossRate, ?_⟩
    show EngineStateRow.mk _ _ = EngineStateRow.mk _ _
    rw [hsame.killSwitch, hsame.circuitBreaker]
    rfl

/-! ### Any interleaving -/

/-- A writer that alone engages the switch, among writers that release it. -/
def engager (j : ℕ) (i : ℕ) : Writer := .killSwitch (i = j)

/-- Until it changes, the switch is off. -/
theorem engager_off {j : ℕ} {es : List (Step ℕ)} (h : .change j ∉ es) :
    (WriteBack.changed (fun i => (engager j i).change) ({} : OrderService) es).killSwitch =
      false := by
  refine WriteBack.changed_induction (P := fun svc : OrderService => svc.killSwitch = false) rfl ?_
  intro i hi svc _
  have hne : i ≠ j := fun heq => h (heq ▸ hi)
  simp [engager, Writer.change, hne, OrderService.releaseKillSwitch]

/-- After it has changed, and no other since, the switch is on. -/
theorem engager_on (j : ℕ) (svc : OrderService) (xs : List (Step ℕ)) {ys : List (Step ℕ)}
    (h : ∀ e ∈ ys, e.isChange = false) :
    (WriteBack.changed (fun i => (engager j i).change) svc (xs ++ .change j :: ys)).killSwitch =
      true := by
  rw [WriteBack.changed_append]
  show (WriteBack.changed (fun i => (engager j i).change) ((engager j j).change _) ys).killSwitch =
    true
  refine WriteBack.changed_induction (P := fun svc : OrderService => svc.killSwitch = true) ?_ ?_
  · simp [engager, Writer.change, OrderService.engageKillSwitch]
  · intro i hi
    cases h _ hi

/-- A schedule with a late change has writers that it fails. -/
theorem exists_lost {es : List (Step ℕ)} (h : WriteBack.Complete es) (hne : es ≠ [])
    (hlate : ¬ WriteBack.ReadsLast es) : ∃ writers : ℕ → Writer,
      (saving writers {} none es).row ≠ some (engineRow (saving writers {} none es).memory) := by
  obtain ⟨before, between, after, i, hlast⟩ := h.lastCommit hne
  have hchange : ∃ e ∈ between ++ after, e.isChange = true := by
    by_contra hno
    push Not at hno
    exact hlate ⟨before, between, after, i, hlast, fun e he => by simpa using hno e he⟩
  obtain ⟨xs, j, ys, hsplit, hys⟩ := WriteBack.exists_last_change hchange
  refine ⟨engager j, fun hrow => ?_⟩
  -- the change of `j` is a late one, so it is not made before
  have hbefore : .change j ∉ before := by
    intro hmem
    have hearly : 0 < before.count (.change j) := List.count_pos_iff.mpr hmem
    have hlate : 0 < (between ++ after).count (.change j) :=
      List.count_pos_iff.mpr (hsplit ▸ List.mem_append_right xs List.mem_cons_self)
    have honce := h.count_change j
    rw [hlast.split, List.count_append, List.count_cons_of_ne (by simp), List.count_append,
      List.count_cons_of_ne (by simp)] at honce
    rw [List.count_append] at hlate
    omega
  unfold saving at hrow
  rw [WriteBack.row_run hlast, WriteBack.memory_run_of_lastCommit hlast, hsplit,
    WriteBack.memory_run] at hrow
  have hsame := congrArg EngineStateRow.killSwitch (Option.some.inj hrow)
  have hoff := engager_off hbefore
  have hon := engager_on j (WriteBack.changed (fun i => (engager j i).change) ({} : OrderService)
    before) xs hys
  exact Bool.false_ne_true (hoff.symm.trans (hsame.trans hon))

/-- **The saved engine state and the one in memory.**  A schedule in which each writer
changes, reads and commits keeps the row equal to the service, whichever writers they are
and from whichever service and row, exactly when no change is made in it after the read
that is committed last.  A restart on such a row comes up with the switch and the breaker
of the process before, but for the reason. -/
theorem engine_state_follows_iff (es : List (Step ℕ)) (h : WriteBack.Complete es)
    (hne : es ≠ []) :
    (WriteBack.ReadsLast es ↔ ∀ (writers : ℕ → Writer) (svc : OrderService)
      (row : Option EngineStateRow), (saving writers svc row es).row =
        some (engineRow (saving writers svc row es).memory)) ∧
    (WriteBack.ReadsLast es → ∀ (writers : ℕ → Writer) (svc : OrderService)
      (row : Option EngineStateRow) (cfg : Settings) (db : Db), cfg.persisted →
        (saving writers svc row es).memory.circuitBreaker.config = cfg.breaker →
        db.engineState = (saving writers svc row es).row →
        (Server.lifespan cfg db).killSwitch = (saving writers svc row es).memory.killSwitch ∧
        (Server.lifespan cfg db).circuitBreaker =
          { (saving writers svc row es).memory.circuitBreaker with reason := [] }) := by
  refine ⟨⟨fun hreads writers svc row => hreads.row_eq_dump, fun hall => ?_⟩, ?_⟩
  · by_contra hlate
    obtain ⟨writers, hlost⟩ := exists_lost h hne hlate
    exact hlost (hall writers {} none)
  -- a restart reads the row, and the row is the service
  intro hreads writers svc row cfg db hpersisted hconfig hdb
  have hrow : (saving writers svc row es).row =
      some (engineRow (saving writers svc row es).memory) := hreads.row_eq_dump
  generalize (saving writers svc row es).memory = now at hrow hconfig
  have hload : Server.loadedState cfg db =
      some (now.killSwitch, now.circuitBreaker.dumpState) := by
    rw [Server.loadedState, if_pos hpersisted, Db.loadEngineState, hdb, hrow]
    rfl
  unfold Server.lifespan
  rw [hload]
  refine ⟨?_, ?_⟩
  · rcases now.killSwitch with - | -
    · rfl
    · rfl
  · rw [← CircuitBreaker.restoreState_dumpState, hconfig]
    rfl

/-- The reset of the breaker and the kill switch. -/
def Sample.writers : ℕ → Writer
  | 0 => .resetBreaker
  | _ => .killSwitch true

/-- Commits in the order of the reads. -/
def Sample.inOrder : List (Step ℕ) :=
  [.change 0, .evaluate 0, .change 1, .evaluate 1, .commit 0, .commit 1]

/-- The reset reads before the switch is engaged and commits after it. -/
def Sample.crossed : List (Step ℕ) :=
  [.change 0, .evaluate 0, .change 1, .evaluate 1, .commit 1, .commit 0]

theorem Sample.complete {es : List (Step ℕ)} (h : es = inOrder ∨ es = crossed) :
    WriteBack.Complete es := by
  rintro (- | - | i)
  · rcases h with rfl | rfl <;> exact Or.inr rfl
  · rcases h with rfl | rfl <;> exact Or.inr rfl
  · rcases h with rfl | rfl <;> exact Or.inl rfl

/-- Nothing changes after the second writer has read. -/
theorem Sample.inOrder_readsLast : WriteBack.ReadsLast inOrder :=
  ⟨[.change 0, .evaluate 0, .change 1], [.commit 0], [], 1, ⟨rfl, by decide, by simp⟩, by decide⟩

/-- When the switch, which is read last, is committed last, a restart comes up with
it. -/
theorem engine_state_follows_iff_sample :
    (Server.lifespan {} { engineState := (saving Sample.writers {} none Sample.inOrder).row }
      ).killSwitch = true := by
  have h := engine_state_follows_iff Sample.inOrder (Sample.complete (Or.inl rfl)) (by decide)
  exact (h.2 Sample.inOrder_readsLast Sample.writers {} none {} _ rfl rfl rfl).1

/-- The persisted kill switch is off while the one in memory is on. -/
theorem engine_state_lost :
    ¬ ∀ (writers : ℕ → Writer) (svc : OrderService) (row : Option EngineStateRow)
      (es : List (Step ℕ)), WriteBack.Complete es → es ≠ [] →
      (saving writers svc row es).row = some (engineRow (saving writers svc row es).memory) := by
  intro h
  have hsample := h Sample.writers {} none Sample.crossed (Sample.complete (Or.inr rfl)) (by decide)
  exact absurd hsample (by decide)

end AutoTrade
