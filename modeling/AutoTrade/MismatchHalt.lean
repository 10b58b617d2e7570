/-
AutoTrade/MismatchHalt.lean

The halt on a reconciliation mismatch, over failures and restarts.

Halted is a state of two switches, the one in memory and the one that a restart
restores.  From it no step but the operator's release leads out, and none sends
an order (`Stopped`, with `step_stopped`).  What is left is how a tick that
finds a discrepancy comes to it (`openTick_halts`): when the switch is off, by
the record of the mismatch and the save of the engine state, and when it is on
already, only if it had been saved, since the save is then skipped.
-/
import AutoTrade.Server

namespace AutoTrade

namespace Server

/-! ### Nothing leads out of the halt -/

/-- From a halted state the step ends halted and sends nothing. -/
def Stopped (s s' : Server) : Prop := s.Halted → s'.Halted ∧ s'.svc.placed = s.svc.placed

instance : IsPreorder Server Stopped where
  refl _ := fun h => ⟨h, rfl⟩
  trans a b c h h' := by
    intro ha
    obtain ⟨hb, hab⟩ := h ha
    obtain ⟨hc, hbc⟩ := h' hb
    exact ⟨hc, hbc.trans hab⟩

theorem Untraded.stopped {s s' : Server} (h : Untraded s s') : Stopped s s' := by
  intro hs
  refine ⟨h.halted hs, ?_⟩
  rw [h.svc]

/-- With the kill switch on, a tick sends nothing and leaves the switch on. -/
theorem runTick_killSwitch (args : TickArgs) {svc : OrderService} (h : svc.killSwitch = true) :
    (runTick args svc).2.killSwitch = true ∧ (runTick args svc).2.placed = svc.placed := by
  obtain ⟨orders, -, -, hkill, hplaced⟩ := @runTick_rule
    (fun _ s => s.killSwitch = true ∧ s.placed = svc.placed) args svc ⟨h, rfl⟩
    (fun g _ => ⟨h, rfl⟩) (by
      rintro g decisions - - d - orders s order res s' - ⟨hkill, hplaced⟩ hsub
      refine ⟨hsub.sameSetup.killSwitch.trans hkill, ?_⟩
      cases hsub with
      | duplicate hctx hgate halloc hseen => exact hplaced
      | settled hctx hgate halloc hseen hs =>
        rcases hs.calls_cases with rfl | ⟨-, hpass, -⟩
        · show s.placed ++ [] = _
          rw [List.append_nil, hplaced]
        · -- the guardrail of the switch stops the order
          have hoff := guardKillSwitch_eq_none.mp (runGuardrails_eq_nil.mp hpass).1
          rw [OrderService.effectiveContext_killSwitch, hkill, Bool.or_true] at hoff
          cases hoff)
  exact ⟨hkill, hplaced⟩

theorem Closes.stopped {cfg : Settings} {t : TickInput} {o : Opened} {s s' : Server}
    (h : Closes cfg t o s s') : Stopped s s' := by
  rintro ⟨hkill, row, hrow, hon⟩
  obtain ⟨hkill', hplaced⟩ := runTick_killSwitch o.args hkill
  rw [← h.svc] at hkill' hplaced
  refine ⟨⟨hkill', ?_⟩, hplaced⟩
  rcases h.engineState with hsame | ⟨row', hrow', hon'⟩
  · exact ⟨row, hsame.trans hrow, hon⟩
  · exact ⟨row', hrow', hon'.trans hkill'⟩

theorem TickEnds.stopped {cfg : Settings} {t : TickInput} {s s' : Server}
    (h : TickEnds cfg t s s') : Stopped s s' := by
  cases h with
  | unopened hsame => exact hsame.stopped
  | closed htoss hopen hopens hclose =>
    exact trans_of Stopped hopens.untraded.stopped (Closes.stopped hclose)

/-- A restart comes up halted. -/
theorem restart_stopped {cfg : Settings} (hpersisted : cfg.persisted) (s : Server) :
    Stopped s (s.restart cfg) := by
  rintro ⟨-, row, hrow, hon⟩
  refine ⟨⟨?_, row, hrow, hon⟩, rfl⟩
  show (lifespan cfg s.db).killSwitch = true
  have hload : loadedState cfg s.db = some (true, row.breaker) := by
    rw [loadedState, if_pos hpersisted, Db.loadEngineState, hrow, Option.map_some, hon]
  unfold lifespan
  rw [hload]
  rfl

theorem killSwitchRoute_stopped (cfg : Settings) (fates : Fates) :
    Effect.Respects Stopped (killSwitchRoute cfg true fates) :=
  killSwitchRoute_respects (fun _ _ => Untraded.stopped) cfg true fates fun s =>
    (engage_untraded.{0} s).stopped

theorem circuitBreakerReset_stopped (cfg : Settings) (fates : Fates) :
    Effect.Respects Stopped (circuitBreakerReset cfg fates) :=
  circuitBreakerReset_respects (fun _ _ => Untraded.stopped) cfg fates fun _ h =>
    ⟨⟨h.1, h.2⟩, rfl⟩

/-- The operator releases the kill switch. -/
def Event.releases : Event → Bool
  | .killSwitch false _ => true
  | _ => false

/-- **No step but a release leads out of the halt.** -/
theorem step_stopped {cfg : Settings} (hpersisted : cfg.persisted) (s : Server) {e : Event}
    (he : e.releases = false) : Stopped s (s.step cfg e) := by
  cases e with
  | tick t => exact TickEnds.stopped (executeTick_ends cfg t s)
  | restart => exact restart_stopped hpersisted s
  | killSwitch engaged fates =>
    rcases engaged with - | -
    · cases he
    · exact killSwitchRoute_stopped cfg fates s
  | resetBreaker fates => exact circuitBreakerReset_stopped cfg fates s
  | reconcileCheck holdings now fates =>
    exact (reconcileCheck_untraded cfg holdings now fates s).stopped

theorem run_stopped {cfg : Settings} (hpersisted : cfg.persisted) (s : Server) {es : List Event}
    (hes : ∀ e ∈ es, e.releases = false) : Stopped s (s.run cfg es) := by
  induction es generalizing s with
  | nil => exact refl_of Stopped s
  | cons e es ih =>
    have hfirst := step_stopped hpersisted s (hes e List.mem_cons_self)
    exact trans_of Stopped hfirst (ih _ fun e' he' => hes e' (List.mem_cons_of_mem _ he'))

/-! ### How a mismatch halts -/

/-- The tick comes to a reconciliation that finds a discrepancy: some symbol is
not held in the quantity of the baseline with the orders sent since. -/
def FindsMismatch (cfg : Settings) (t : TickInput) (s : Server) : Prop :=
  ∃ toss watchlist chosen holdings prevTs prevMap symbol,
    t.toss = some toss ∧ t.watch = .ok watchlist ∧ (selectJudge cfg t s).1 = .ok chosen ∧
    cfg.persisted ∧ t.fates .buyNotionalToday = .returns ∧ toss.getHoldings = .ok holdings ∧
    t.fates .loadLatestPositions = .returns ∧
    s.db.loadLatestPositions = some (prevTs, prevMap) ∧
    t.fates .submittedQtySince = .returns ∧
    quantityOf (quantities (snapshotFromHoldings holdings)) symbol ≠
      expectedQuantity prevMap (s.db.submittedQtySince prevTs) symbol

/-- The halt on a mismatch lands: with the switch off, the mismatch is recorded
and the engine state saved; with the switch on, it had been saved before. -/
def HaltLands (t : TickInput) (s : Server) : Prop :=
  (s.svc.killSwitch = false →
    t.fates .auditMismatch = .returns ∧ t.fates .saveHalt ≠ .raises false) ∧
  (s.svc.killSwitch = true → s.Halted)

section Halt

variable {cfg : Settings} {t : TickInput} {s : Server}

/-- What keeps the halt, keeps it at both ends. -/
theorem wp_halted {α : Type} {m : Effect Exn Server α} (h : Effect.Respects Untraded m)
    (hs : s.Halted) : Effect.wp m (fun _ => Halted) (fun _ => Halted) s :=
  (h.wp s).mono (fun _ _ hsame => hsame.halted hs) fun _ _ hsame => hsame.halted hs

theorem enforceMismatch_halts (hlive : s.svc.mode = .live) (h : HaltLands t s)
    (report : ReconcileReport) :
    Effect.wp (enforceMismatch t.fates report) (fun _ => Halted) (fun _ => Halted) s := by
  rcases hkill : s.svc.killSwitch with - | -
  · obtain ⟨haudit, hsave⟩ := h.1 hkill
    unfold enforceMismatch
    simp only [Effect.wp_bind, Effect.wp_look]
    refine Effect.wp_commit (fun _ => ?_) (fun hfate => ?_) fun hfate => ?_
    · refine Effect.wp_when (fun _ => ?_) fun hno => absurd ⟨hlive, hkill⟩ hno
      simp only [Effect.wp_bind, Effect.wp_change]
      -- once the engine state is saved, the rest keeps the halt
      refine Effect.wp_commit (fun _ => ?_) (fun _ => ⟨rfl, _, rfl, rfl⟩)
        fun hfate => absurd hfate hsave
      refine (wp_halted (audit_untraded _ _ _) ⟨rfl, _, rfl, rfl⟩).mono ?_ fun _ _ => id
      intro _ s' hs'
      exact wp_halted send_untraded hs'
    · rw [haudit] at hfate
      cases hfate
    · rw [haudit] at hfate
      cases hfate
  -- the switch is on already: the save is skipped, and had been made before
  · exact wp_halted (enforceMismatch_untraded _ _) (h.2 hkill)

theorem reconcileAndEnforce_halts (hlive : s.svc.mode = .live) (h : HaltLands t s)
    {holdings : Holdings} {prevTs : Datetime} {prevMap : Dict Symbol ℚ} {symbol : Symbol}
    (hlatest : t.fates .loadLatestPositions = .returns)
    (hprev : s.db.loadLatestPositions = some (prevTs, prevMap))
    (hdelta : t.fates .submittedQtySince = .returns)
    (hdiffers : quantityOf (quantities (snapshotFromHoldings holdings)) symbol ≠
      expectedQuantity prevMap (s.db.submittedQtySince prevTs) symbol) (now : Datetime) :
    Effect.wp (reconcileAndEnforce t.fates holdings now true) (fun _ => Halted)
      (fun _ => Halted) s := by
  -- a symbol that differs is a discrepancy
  have hreport : ¬ (reconcile (some prevMap) (quantities (snapshotFromHoldings holdings))
      (some (s.db.submittedQtySince prevTs))).ok = true := fun hok =>
    hdiffers (reconcile_ok.mp hok symbol)
  unfold reconcileAndEnforce
  simp only [Effect.wp_bind, fetch, hlatest, hdelta, Effect.wp_query_returns]
  rw [hprev]
  simp only [Effect.wp_bind, Effect.wp_query_returns]
  show Effect.wp (Effect.when (¬ (reconcile _ _ _).ok = true) _) _ _ s
  refine Effect.wp_when (fun _ => ?_) fun hno => absurd hreport hno
  refine (enforceMismatch_halts hlive h _).mono ?_ fun _ _ => id
  intro _ s' hs'
  rw [← Effect.wp_bind]
  refine wp_halted ?_ hs'
  exact (Effect.respects_when (savePositionsSnapshot_untraded _ _)).bind fun _ =>
    Effect.respects_pure _

/-- **A tick that finds a mismatch halts before its orders**, when the halt
lands. -/
theorem openTick_halts (hlive : s.svc.mode = .live) (hfind : FindsMismatch cfg t s)
    (h : HaltLands t s) {toss : Toss} (htoss : t.toss = some toss) :
    Effect.wp (openTick cfg t toss) (fun _ => Halted) (fun _ => Halted) s := by
  obtain ⟨toss', watchlist, chosen, holdings, prevTs, prevMap, symbol, htoss', hwatch, hchosen,
    hpersisted, hused, hholdings, hlatest, hprev, hdelta, hdiffers⟩ := hfind
  rw [htoss] at htoss'
  cases htoss'
  have hchoose : selectJudge cfg t s = (.ok chosen, s) := by
    have hsame : s = (selectJudge cfg t s).2 := selectJudge_reads s
    exact Prod.ext hchosen hsame.symm
  have hday : Effect.wp (openDay cfg t toss) (fun _ => Halted) (fun _ => Halted) s := by
    unfold openDay
    rw [if_pos hpersisted]
    simp only [Effect.wp_bind, fetch, hused, hholdings]
    exact reconcileAndEnforce_halts hlive h hlatest hprev hdelta hdiffers t.now
  unfold openTick
  rw [hwatch, Effect.wp_bind, Effect.wp_lift]
  refine ⟨fun _ _ => ?_, fun _ => by rintro ⟨⟩⟩
  rw [Effect.wp_bind]
  unfold Effect.wp
  rw [hchoose]
  show Effect.wp (openDay cfg t toss >>= fun _ => _) _ _ s
  rw [Effect.wp_bind]
  refine hday.mono ?_ fun _ _ => id
  rintro ⟨used, account, report⟩ s' hs'
  -- what is left of the opening keeps the halt
  rw [Effect.wp_bind]
  refine (openPaper_spec s').mono ?_ fun _ _ hsame => hsame.halted hs'
  rintro paper s'' ⟨hsame, -⟩
  exact wp_halted ((forcedExits_reads paper).bind fun forced => Effect.respects_pure _)
    (hsame.halted hs')

/-- The tick itself ends halted, and sends nothing. -/
theorem tick_halts (hlive : s.svc.mode = .live) (hfind : FindsMismatch cfg t s)
    (h : HaltLands t s) :
    (s.step cfg (.tick t)).Halted ∧ (s.step cfg (.tick t)).svc.placed = s.svc.placed := by
  obtain ⟨toss, -, -, -, -, -, -, htoss, -⟩ := id hfind
  have hopening := openTick_halts hlive hfind h htoss
  have hexec : executeTick cfg t s = (openTick cfg t toss >>= closeTick cfg t) s := by
    unfold executeTick
    rw [htoss]
  -- cut before the orders, or halted when they come
  rcases hopen : openTick cfg t toss s with ⟨e | o, s'⟩
  · have hstep : s.step cfg (.tick t) = s' := by
      show (executeTick cfg t s).2 = s'
      rw [hexec, Effect.bind_error hopen]
    have hsame : Untraded s s' := (openTick_spec toss s).of_error hopen
    rw [hstep]
    refine ⟨hopening.of_error hopen, ?_⟩
    rw [hsame.svc]
  · have hclose : Closes cfg t o s' (s.step cfg (.tick t)) := by
      show Closes cfg t o s' (executeTick cfg t s).2
      rw [hexec, Effect.bind_ok hopen]
      exact (closeTick_spec s').state
    have hsame : Untraded s s' := ((openTick_spec toss s).of_ok hopen).untraded
    obtain ⟨hhalted, hplaced⟩ := Closes.stopped hclose (hopening.of_ok hopen)
    refine ⟨hhalted, hplaced.trans ?_⟩
    rw [hsame.svc]

end Halt

/-- **A mismatch halts trading.**  In every live run, once a tick has found a
discrepancy and its halt has landed, no order is sent in that tick or later, over
failures and restarts, and the halt stays in memory and in the engine state, as
long as the operator does not release the kill switch. -/
theorem mismatch_halts (cfg : Settings) (db : Db) (hlive : cfg.tradingMode = .live)
    (before : List Event) (t : TickInput) (later : List Event)
    (hfind : FindsMismatch cfg t ((start cfg db).run cfg before))
    (hhalt : HaltLands t ((start cfg db).run cfg before))
    (hlater : ∀ e ∈ later, e.releases = false) :
    ((start cfg db).run cfg (before ++ .tick t :: later)).svc.placed =
        ((start cfg db).run cfg before).svc.placed ∧
      ((start cfg db).run cfg (before ++ .tick t :: later)).Halted := by
  have hmode : ((start cfg db).run cfg before).svc.mode = .live := by
    rw [((configured_start cfg db).run before).mode, hlive]
  obtain ⟨hhalted, hplaced⟩ := tick_halts hmode hfind hhalt
  have hrest := run_stopped (Settings.persisted_of_live hlive) _ hlater hhalted
  have hrun : (start cfg db).run cfg (before ++ .tick t :: later) =
      (((start cfg db).run cfg before).step cfg (.tick t)).run cfg later := by
    simp [Server.run]
  rw [hrun]
  exact ⟨hrest.2.trans hplaced, hrest.1⟩

end Server

namespace Sample

open Server

/-- The first tick of a server, which buys 100 shares. -/
def baseline : Event := .tick (tickInput "a" (account 100) returning)

/-- The account then shows 300 shares instead of 200. -/
theorem findsMismatch (id : ClientOrderId) {fates : Fates}
    (hused : fates .buyNotionalToday = .returns) (hlatest : fates .loadLatestPositions = .returns)
    (hdelta : fates .submittedQtySince = .returns) :
    FindsMismatch settings (tickInput id (account 300) fates)
      ((start settings {}).run settings [baseline]) :=
  ⟨flatToss 1000000 (account 300), [], _, account 300, tenOClock.astimezone 0,
    quantities (snapshotFromHoldings (account 100)), "005930", rfl, rfl, rfl, rfl, hused, rfl,
    hlatest, by decide +kernel, hdelta, by decide +kernel⟩

end Sample

namespace Server

/-- The halt is still there after a restart, and a later tick sends nothing. -/
theorem mismatch_halts_sample :
    let later := [Event.restart, .tick (Sample.tickInput "c" (Sample.account 300) Sample.returning)]
    ((start Sample.settings {}).run Sample.settings ([Sample.baseline] ++
        .tick (Sample.tickInput "b" (Sample.account 300) Sample.returning) ::
          later)).svc.placed =
        ((start Sample.settings {}).run Sample.settings [Sample.baseline]).svc.placed ∧
      ((start Sample.settings {}).run Sample.settings ([Sample.baseline] ++
        .tick (Sample.tickInput "b" (Sample.account 300) Sample.returning) :: later)).Halted :=
  mismatch_halts Sample.settings {} rfl [Sample.baseline] _ _
    (Sample.findsMismatch "b" rfl rfl rfl)
    ⟨fun _ => ⟨rfl, by decide⟩, fun hon => absurd hon (by decide +kernel)⟩ (by decide)

/-- The save of the halt fails, the next tick skips it, moves the baseline and is
not recorded, and the restart comes up without the halt: the tick after it
sends. -/
theorem mismatch_forgotten :
    ¬ ∀ (cfg : Settings) (db : Db), cfg.tradingMode = .live →
      ∀ (before : List Event) (t : TickInput) (later : List Event),
        FindsMismatch cfg t ((start cfg db).run cfg before) →
        (∀ e ∈ later, e.releases = false) →
        ((start cfg db).run cfg (before ++ .tick t :: later)).svc.placed =
          ((start cfg db).run cfg before).svc.placed := by
  intro h
  have hsample := h Sample.settings {} rfl [Sample.baseline]
    (Sample.tickInput "b" (Sample.account 300) (Sample.failing .saveHalt))
    [.tick (Sample.tickInput "c" (Sample.account 300) (Sample.failing .recordTick)), .restart,
      .tick (Sample.tickInput "d" (Sample.account 300) Sample.returning)]
    (Sample.findsMismatch "b" rfl rfl rfl) (by decide)
  exact absurd (congrArg List.length hsample) (by decide +kernel)

end Server

end AutoTrade
