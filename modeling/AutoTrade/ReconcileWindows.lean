/-
AutoTrade/ReconcileWindows.lean

The windows of the reconciliation over a run.

A tick compares the account with the last snapshot and the orders sent since it,
and then takes a snapshot of its own.  The orders that it counts are its window.
`Accounted` is the invariant of the run: the windows so far and what is still
pending make up the orders sent, each once (`windows_account`).  Per symbol, what
the snapshots moved is what the windows sent and what the reports named
(`windows_telescope`).

A report names the symbols that differ, each once, with what was expected and
what is held (`reconcile_exact`).
-/
import AutoTrade.DbFrame
import AutoTrade.SentLimit
import Mathlib.Algebra.BigOperators.Group.List.Basic
import Mathlib.Data.List.Dedup
import Mathlib.Tactic.Ring

namespace AutoTrade

/-! ### What a report names -/

/-- What a report says of the quantities: exactly the symbols that differ, each once,
with what is expected and what is held. -/
structure NamesDifferences (previous current delta : Dict Symbol ℚ)
    (report : ReconcileReport) : Prop where
  once : (report.discrepancies.map Discrepancy.symbol).Nodup
  differ : ∀ symbol, symbol ∈ report.discrepancies.map Discrepancy.symbol ↔
    quantityOf current symbol ≠ expectedQuantity previous delta symbol
  amounts : ∀ d ∈ report.discrepancies, d.actual = quantityOf current d.symbol ∧
    d.expected = expectedQuantity previous delta d.symbol

section Report

variable {previous current delta : Dict Symbol ℚ}

/-- What is found of a symbol is about that symbol. -/
theorem compareSymbol_symbol {symbol : Symbol} {d : Discrepancy}
    (h : compareSymbol previous current delta symbol = some d) : d.symbol = symbol := by
  unfold compareSymbol at h
  split at h
  · cases h
  · cases h
    rfl

/-- The symbols of a report, without repetition, are some of the compared ones. -/
theorem discrepancies_sublist (symbols : List Symbol) :
    ((symbols.filterMap (compareSymbol previous current delta)).map
      Discrepancy.symbol).Sublist symbols := by
  induction symbols with
  | nil => exact .slnil
  | cons symbol symbols ih =>
    rw [List.filterMap_cons]
    rcases h : compareSymbol previous current delta symbol with - | d
    · exact ih.cons symbol
    · rw [List.map_cons, compareSymbol_symbol h]
      exact ih.cons_cons symbol

/-- **A report names exactly the symbols that differ**, each once. -/
theorem reconcile_exact :
    NamesDifferences previous current delta (reconcile (some previous) current (some delta)) := by
  refine ⟨?_, ?_, fun d hd => ?_⟩
  · refine List.Nodup.sublist (discrepancies_sublist _) ?_
    exact ((List.perm_insertionSort _ _).nodup_iff).mpr List.nodup_unique
  · intro symbol
    constructor
    · intro hmem
      obtain ⟨d, hd, rfl⟩ := List.mem_map.mp hmem
      obtain ⟨hactual, hexpected, hne⟩ := mem_reconcile_discrepancies hd
      rwa [hactual, hexpected] at hne
    · intro hne
      -- a symbol that differs is held or expected, so it is compared
      have hmem : symbol ∈ previous.keys ++ current.keys ++ delta.keys := by
        by_contra hno
        rw [List.mem_append, List.mem_append, not_or, not_or] at hno
        obtain ⟨⟨hprev, hcur⟩, hdelta⟩ := hno
        refine hne ?_
        rw [expectedQuantity, quantityOf_eq_zero hprev, quantityOf_eq_zero hcur,
          quantityOf_eq_zero hdelta, add_zero]
      have hsome : compareSymbol previous current delta symbol ≠ none :=
        fun hnone => hne (compareSymbol_eq_none.mp hnone)
      obtain ⟨d, hd⟩ := Option.ne_none_iff_exists'.mp hsome
      refine List.mem_map.mpr ⟨d, List.mem_filterMap.mpr ⟨symbol, ?_, hd⟩, compareSymbol_symbol hd⟩
      rw [List.mem_insertionSort]
      exact List.mem_unique.mpr hmem
  · exact ⟨(mem_reconcile_discrepancies hd).1, (mem_reconcile_discrepancies hd).2.1⟩

/-- What a report says of a symbol: what is held less what was expected. -/
def ReconcileReport.drift (report : ReconcileReport) (symbol : Symbol) : ℚ :=
  ((report.discrepancies.filter fun d => d.symbol = symbol).map
    fun d => d.actual - d.expected).sum

/-- What a report says of a symbol is the difference of its quantities. -/
theorem NamesDifferences.drift {report : ReconcileReport}
    (h : NamesDifferences previous current delta report) (symbol : Symbol) :
    report.drift symbol =
      quantityOf current symbol - expectedQuantity previous delta symbol := by
  by_cases hmem : symbol ∈ report.discrepancies.map Discrepancy.symbol
  · obtain ⟨d, hd, hsym⟩ := List.mem_map.mp hmem
    have hone : report.discrepancies.filter (fun d => d.symbol = symbol) = [d] := by
      have hinj : ∀ d' ∈ report.discrepancies, d'.symbol = symbol → d' = d := by
        intro d' hd' hsym'
        exact List.inj_on_of_nodup_map h.once hd' hd (hsym'.trans hsym.symm)
      have hfilter : report.discrepancies.filter (fun d => d.symbol = symbol) =
          report.discrepancies.filter (fun d' => d' = d) := by
        apply List.filter_congr
        intro d' hd'
        rw [decide_eq_decide]
        exact ⟨hinj d' hd', fun heq => heq ▸ hsym⟩
      rw [hfilter, List.filter_eq, List.count_eq_one_of_mem (List.Nodup.of_map _ h.once) hd]
      rfl
    rw [ReconcileReport.drift, hone, List.map_singleton, List.sum_singleton, (h.amounts d hd).1,
      (h.amounts d hd).2, hsym]
  · have hnone : report.discrepancies.filter (fun d => d.symbol = symbol) = [] := by
      rw [List.filter_eq_nil_iff]
      intro d hd heq
      exact hmem (List.mem_map.mpr ⟨d, hd, of_decide_eq_true heq⟩)
    have hsame : quantityOf current symbol = expectedQuantity previous delta symbol := by
      by_contra hne
      exact hmem ((h.differ symbol).mpr hne)
    rw [ReconcileReport.drift, hnone, hsame, sub_self]
    rfl

end Report

/-! ### The windows -/

/-- What a row sent of a symbol: bought shares count up, sold ones down. -/
def OrderRow.sentOf (row : OrderRow) (symbol : Symbol) : ℚ :=
  match row.quantity with
  | none => 0
  | some qty =>
    if row.symbol = symbol then (if row.side = .buy then 1 else -1) * Decimal qty else 0

/-- A row that a window counts: it was sent, with a quantity. -/
def OrderRow.counted (row : OrderRow) : Bool :=
  row.status = .submitted ∧ row.quantity.isSome

namespace Db

/-- The rows that `submittedQtySince ts` counts. -/
def countedSince (db : Db) (ts : Datetime) : List OrderRow :=
  db.orders.filter fun row => row.counted ∧ ts.instant < row.createdAt.instant

/-- The rows sent. -/
def sent (db : Db) : List OrderRow := db.orders.filter OrderRow.counted

/-- The rows that the next reconciliation counts. -/
def pending (db : Db) : List OrderRow :=
  match db.snapshots.getLast? with
  | none => []
  | some snapshot => db.countedSince snapshot.ts

end Db

/-- A row adds what it sent of a symbol. -/
theorem quantityOf_addDelta (delta : Dict Symbol ℚ) (row : OrderRow) (symbol : Symbol) :
    quantityOf (Db.addDelta delta row) symbol = quantityOf delta symbol + row.sentOf symbol := by
  unfold Db.addDelta OrderRow.sentOf
  rcases row.quantity with - | qty
  · exact (add_zero _).symm
  · unfold quantityOf
    simp only [Dict.get?_set]
    split
    · next h =>
      subst h
      rfl
    · exact (add_zero _).symm

theorem quantityOf_foldl_addDelta (rows : List OrderRow) (delta : Dict Symbol ℚ)
    (symbol : Symbol) :
    quantityOf (rows.foldl Db.addDelta delta) symbol =
      quantityOf delta symbol + (rows.map fun row => row.sentOf symbol).sum := by
  induction rows generalizing delta with
  | nil => exact (add_zero _).symm
  | cons row rows ih =>
    rw [List.foldl_cons, ih, quantityOf_addDelta, List.map_cons, List.sum_cons, add_assoc]

/-- **The net change is that of the rows counted.** -/
theorem submittedQtySince_eq (db : Db) (ts : Datetime) :
    db.submittedQtySince ts = (db.countedSince ts).foldl Db.addDelta ∅ := by
  have hskip : ∀ (rows : List OrderRow) (delta : Dict Symbol ℚ),
      (rows.filter fun row => row.status = .submitted ∧
          ts.instant < row.createdAt.instant).foldl Db.addDelta delta =
        (rows.filter fun row => row.counted ∧
          ts.instant < row.createdAt.instant).foldl Db.addDelta delta := by
    intro rows
    induction rows with
    | nil => exact fun _ => rfl
    | cons row rows ih =>
      intro delta
      rcases hq : row.quantity with - | qty
      -- a row without a quantity changes nothing
      · have hno : row.counted = false := by simp [OrderRow.counted, hq]
        have hsame : Db.addDelta delta row = delta := by simp [Db.addDelta, hq]
        by_cases hrow : row.status = .submitted ∧ ts.instant < row.createdAt.instant
        · rw [List.filter_cons_of_pos (by simpa using hrow), List.foldl_cons, hsame, ih,
            List.filter_cons_of_neg (by simp [hno])]
        · rw [List.filter_cons_of_neg (by simpa using hrow), ih,
            List.filter_cons_of_neg (by simp [hno])]
      · have hyes : row.counted = decide (row.status = .submitted) := by
          simp [OrderRow.counted, hq]
        by_cases hrow : row.status = .submitted ∧ ts.instant < row.createdAt.instant
        · rw [List.filter_cons_of_pos (by simpa using hrow), List.foldl_cons, ih,
            List.filter_cons_of_pos (by simpa [hyes] using hrow), List.foldl_cons]
        · rw [List.filter_cons_of_neg (by simpa using hrow), ih,
            List.filter_cons_of_neg (by simpa [hyes] using hrow)]
  exact hskip db.orders ∅

/-! ### What a tick and a check do to them -/

/-- The report of a reconciliation on a database. -/
def Db.reconciled (db : Db) (holdings : Holdings) : ReconcileReport :=
  match db.loadLatestPositions with
  | none => reconcile none (quantities (snapshotFromHoldings holdings))
  | some (prevTs, prevMap) =>
    reconcile (some prevMap) (quantities (snapshotFromHoldings holdings))
      (some (db.submittedQtySince prevTs))

namespace Server

/-- The snapshot that a tick takes. -/
def tickSnapshot (now : Datetime) (holdings : Holdings) : SnapshotRow :=
  ⟨now.astimezone 0, snapshotFromHoldings holdings⟩

/-- What the windows read. -/
def windowView (db : Db) : List OrderRow × List SnapshotRow := (db.orders, db.snapshots)

theorem windowView_quiet : Quiet windowView := ⟨fun _ _ _ _ => rfl, fun _ _ _ => rfl⟩

/-- A step of a tick that moves the snapshots on. -/
structure Advances (holdings : Holdings) (now : Datetime) (s s' : Server) : Prop where
  orders : s'.db.orders = s.db.orders
  snapshots : s'.db.snapshots = s.db.snapshots ++ [tickSnapshot now holdings]

theorem Advances.keeps {holdings : Holdings} {now : Datetime} {s s' s'' : Server}
    (h : Advances holdings now s s') (hkeeps : Keeps windowView s' s'') :
    Advances holdings now s s'' where
  orders := (congrArg Prod.fst hkeeps).trans h.orders
  snapshots := (congrArg Prod.snd hkeeps).trans h.snapshots

/-- A reconciliation that returns reports on the database that it found, and one of
a tick takes a snapshot. -/
theorem reconcileAndEnforce_advances (fates : Fates) (holdings : Holdings) (now : Datetime)
    (advanceBaseline : Bool) (s : Server) :
    Effect.wp (reconcileAndEnforce fates holdings now advanceBaseline)
      (fun report s' => report = s.db.reconciled holdings ∧
        (advanceBaseline = true → Advances holdings now s s')) (fun _ _ => True) s := by
  unfold reconcileAndEnforce Db.reconciled
  rw [Effect.wp_bind]
  refine Effect.wp_query (fun _ => ?_) trivial
  rcases s.db.loadLatestPositions with - | ⟨prevTs, prevMap⟩
  · rw [Effect.wp_bind]
    exact Effect.wp_commit (fun _ => ⟨rfl, fun _ => ⟨rfl, rfl⟩⟩) (fun _ => trivial)
      fun _ => trivial
  · rw [Effect.wp_bind]
    refine Effect.wp_query (fun _ => ?_) trivial
    rw [Effect.wp_bind]
    refine Effect.wp.mono (Effect.Respects.wp
      (Effect.respects_when (enforceMismatch_keeps windowView_quiet _ _)) s) ?_ fun _ _ _ => trivial
    intro _ s' hkeeps
    rw [Effect.wp_bind]
    refine Effect.wp_when (fun _ => ?_) fun hno => ⟨rfl, fun h => absurd h hno⟩
    refine Effect.wp_commit (fun _ => ⟨rfl, fun _ => ⟨?_, ?_⟩⟩) (fun _ => trivial)
      fun _ => trivial
    · exact (congrArg Prod.fst hkeeps :)
    · show s'.db.snapshots ++ _ = _
      rw [show s'.db.snapshots = s.db.snapshots from congrArg Prod.snd hkeeps]
      rfl

/-- What a manual check does, however it ends: it takes a snapshot only if there is
none. -/
structure Checks (s s' : Server) : Prop where
  orders : s'.db.orders = s.db.orders
  snapshots : s'.db.snapshots = s.db.snapshots ∨
    s.db.snapshots = [] ∧ ∃ snapshot, s'.db.snapshots = [snapshot]

theorem Keeps.checks {s s' : Server} (h : Keeps windowView s s') : Checks s s' :=
  ⟨congrArg Prod.fst h, Or.inl (congrArg Prod.snd h)⟩

theorem reconcileCheck_checks (cfg : Settings) (holdings : Except Exn Holdings) (now : Datetime)
    (fates : Fates) (s : Server) :
    Checks s (Server.reconcileCheck cfg holdings now fates s).2 := by
  refine Effect.wp.state (P := Checks s) ?_
  unfold Server.reconcileCheck
  have hsame : Checks s s := ⟨rfl, Or.inl rfl⟩
  refine Effect.wp_when (fun _ => ?_) fun _ => hsame
  rw [Effect.wp_bind, Effect.wp_lift]
  refine ⟨fun account _ => ?_, fun _ _ => hsame⟩
  rw [Effect.wp_bind]
  unfold reconcileAndEnforce
  rw [Effect.wp_bind]
  refine Effect.wp_query (fun _ => ?_) hsame
  rcases hlatest : s.db.loadLatestPositions with - | ⟨prevTs, prevMap⟩
  -- the first snapshot, which may be taken by a check that then raises
  · have hnone : s.db.snapshots = [] := by
      rw [Db.loadLatestPositions, Option.map_eq_none_iff, List.getLast?_eq_none_iff] at hlatest
      exact hlatest
    have hfirst : Checks s { s with
        db := s.db.savePositionsSnapshot now (snapshotFromHoldings account) } := by
      refine ⟨rfl, Or.inr ⟨hnone, tickSnapshot now account, ?_⟩⟩
      show s.db.snapshots ++ _ = _
      rw [hnone]
      rfl
    rw [Effect.wp_bind]
    exact Effect.wp_commit (fun _ => hfirst) (fun _ => hfirst) fun _ => hsame
  · rw [Effect.wp_bind]
    refine Effect.wp_query (fun _ => ?_) hsame
    rw [Effect.wp_bind]
    refine Effect.wp.mono (Effect.Respects.wp
      (Effect.respects_when (enforceMismatch_keeps windowView_quiet _ _)) s) ?_
      fun _ _ hkeeps => Keeps.checks hkeeps
    intro _ s' hkeeps
    exact Keeps.checks hkeeps

section Tick

variable {cfg : Settings} {t : TickInput}

theorem openDay_advances (hpersisted : cfg.persisted) (toss : Toss) (s : Server) :
    Effect.wp (openDay cfg t toss)
      (fun day s' => ∃ holdings, toss.getHoldings = .ok holdings ∧
        day.2.2 = some (s.db.reconciled holdings) ∧ Advances holdings t.now s s')
      (fun _ _ => True) s := by
  unfold openDay
  rw [if_pos hpersisted, Effect.wp_bind]
  refine Effect.wp_query (fun _ => ?_) trivial
  rw [Effect.wp_bind, Effect.wp_lift]
  refine ⟨fun holdings hholdings => ?_, fun _ _ => trivial⟩
  rw [Effect.wp_bind]
  refine (reconcileAndEnforce_advances t.fates holdings t.now true s).mono ?_ fun _ _ _ => trivial
  rintro report s' ⟨hreport, hadvance⟩
  exact ⟨holdings, hholdings, congrArg some hreport, hadvance rfl⟩

theorem openTick_advances (hpersisted : cfg.persisted) (toss : Toss) (s : Server) :
    Effect.wp (openTick cfg t toss)
      (fun o s' => ∃ holdings, toss.getHoldings = .ok holdings ∧
        o.report = some (s.db.reconciled holdings) ∧ Advances holdings t.now s s')
      (fun _ _ => True) s := by
  refine openTick_rule (fun _ => trivial) (openDay_advances hpersisted toss s) ?_
  rintro day s₁ ⟨holdings, hholdings, hreport, hadvance⟩
  -- what follows the reconciliation leaves both tables
  refine (Effect.Respects.wp (openPaper_keeps windowView_quiet fun _ _ => rfl) s₁).mono ?_
    fun _ _ _ => trivial
  intro paper s₂ hkeeps
  refine ⟨fun _ => trivial, ?_⟩
  intro o ho
  rw [ho.report]
  exact ⟨holdings, hholdings, hreport, hadvance.keeps hkeeps⟩

/-- A write that returns is done. -/
theorem wp_write_returns {fates : Fates} {a : Await} {f : Db → Db} {Q : PUnit → Server → Prop}
    {s : Server} (h : Q ⟨⟩ { s with db := f s.db }) :
    Effect.wp (write fates a f) Q (fun _ _ => True) s :=
  Effect.wp_commit (fun _ => h) (fun _ => trivial) fun _ => trivial

/-- A tick that returns has recorded its orders, and takes no other snapshot. -/
theorem closeTick_records (hpersisted : cfg.persisted) (o : Opened) (s : Server) :
    Effect.wp (closeTick cfg t o)
      (fun reply s' => ∃ tickId r summary, reply = .done tickId o.engine r o.report summary ∧
        (runTick o.args s.svc).1 = .ok r ∧
        s'.db.orders = (s.db.recordTick r t.now).orders ∧ s'.db.snapshots = s.db.snapshots)
      (fun _ _ => True) s := by
  unfold closeTick
  rw [Effect.wp_bind, Effect.wp_zoom]
  refine Effect.wp_of_forall ?_ fun _ _ _ => trivial
  intro r final hrun
  have hr : (runTick o.args s.svc).1 = .ok r := by rw [hrun]
  rw [Effect.wp_bind]
  refine Effect.wp_commit (fun _ => ?_) (fun _ => trivial) fun _ => trivial
  unfold recordAll
  rw [if_pos hpersisted]
  simp only [Effect.wp_bind, Effect.wp_look]
  refine wp_write_returns (Effect.wp_commit (fun _ => ?_) (fun _ => trivial) fun _ => trivial)
  refine wp_write_returns ?_
  rcases o.paper with - | run
  · exact ⟨_, r, _, rfl, hr, rfl, rfl⟩
  · unfold settlePaper
    rcases r.orders.foldl (fillStep cfg.entryGate.cost t.now) (run, []) with ⟨run', fills⟩
    simp only [Effect.wp_bind]
    exact wp_write_returns (wp_write_returns ⟨_, r, _, rfl, hr, rfl, rfl⟩)

/-- The account that the tick's broker answers. -/
def AccountOf (t : TickInput) (holdings : Holdings) : Prop :=
  ∃ toss, t.toss = some toss ∧ toss.getHoldings = .ok holdings

/-- What a completed tick does: it reports on its account and the database that it found,
takes a snapshot, and records rows that were created by its clock. -/
structure Completes (t : TickInput) (s : Server) (reply : TickReply) (s' : Server) : Prop where
  report : ∃ tickId engine r holdings summary, AccountOf t holdings ∧
    reply = .done tickId engine r (some (s.db.reconciled holdings)) summary ∧
      s'.db.snapshots = s.db.snapshots ++ [tickSnapshot t.now holdings]
  rows : ∃ rows, s'.db.orders = s.db.orders ++ rows ∧
    ∀ row ∈ rows, ∃ i, row.createdAt = (t.stamps i).createdAt

theorem executeTick_completes (hpersisted : cfg.persisted) (s : Server) :
    Effect.wp (executeTick cfg t)
      (fun reply s' => (∃ error, reply = .unconfigured error) ∨ Completes t s reply s')
      (fun _ _ => True) s := by
  unfold executeTick
  rcases htoss : t.toss with - | toss
  · exact Or.inl ⟨_, rfl⟩
  · simp only [Effect.wp_bind]
    refine Effect.wp_of_forall ?_ fun _ _ _ => trivial
    intro o s₁ hopen
    obtain ⟨holdings, hholdings, hreport, hadvance⟩ :=
      (openTick_advances hpersisted toss s).of_ok hopen
    have hopens : Opens cfg t s o s₁ := (openTick_spec toss s).of_ok hopen
    refine (closeTick_records hpersisted o s₁).mono ?_ fun _ _ _ => trivial
    rintro reply s' ⟨tickId, r, summary, hreply, hr, horders, hsnapshots⟩
    right
    rw [hreport] at hreply
    refine ⟨⟨tickId, o.engine, r, holdings, summary, ⟨toss, htoss, hholdings⟩, hreply,
      hsnapshots.trans hadvance.snapshots⟩, ?_⟩
    -- what is recorded are new answers of the tick
    obtain ⟨new, hsub, hnew⟩ :=
      Db.foldl_addOrder (s₁.db.ticks.length + 1) s₁.db.orders (newAnswers r.orders)
    refine ⟨new.map fun o => Db.orderRow o (s₁.db.ticks.length + 1), ?_, ?_⟩
    · rw [horders, ← hadvance.orders, ← hnew]
      exact Db.foldl_addOrder_newAnswers _ _ _
    · intro row hrow
      obtain ⟨res, hres, rfl⟩ := List.mem_map.mp hrow
      have hset : settledIn o.args s₁.svc = newAnswers r.orders := settledIn_eq hr
      obtain ⟨i, hi⟩ := settledIn_createdAt o.args s₁.svc res (hset ▸ hsub.subset hres)
      rw [hopens.stamps] at hi
      exact ⟨i, hi⟩

end Tick

/-! ### The run -/

/-- The conditions of a run of completed ticks: a tick returns, it starts when the
orders of the earlier ones have been created, and its own are created after that. -/
structure Timely (cfg : Settings) (s : Server) (e : Event) : Prop where
  completed : ∀ t, e = .tick t → ∃ tickId engine r report summary,
    (executeTick cfg t s).1 = .ok (.done tickId engine r report summary)
  after : ∀ t, e = .tick t → ∀ row ∈ s.db.orders, row.createdAt.instant ≤ t.now.instant
  during : ∀ t, e = .tick t → ∀ i, t.now.instant < (t.stamps i).createdAt.instant

/-- The report that a tick returns. -/
def reportOf : Except Exn TickReply → Option ReconcileReport
  | .ok (.done _ _ _ report _) => report
  | .ok (.unconfigured _) => none
  | .error _ => none

/-- The advancing ticks of a run: the rows that each counts, and its report. -/
def windows (cfg : Settings) (s : Server) :
    List Event → List (List OrderRow × Option ReconcileReport)
  | [] => []
  | .tick t :: es =>
    (s.db.pending, reportOf (executeTick cfg t s).1) :: windows cfg (s.step cfg (.tick t)) es
  | e :: es => windows cfg (s.step cfg e) es

/-- What a step does to the orders and the snapshots. -/
theorem step_windows {cfg : Settings} (hpersisted : cfg.persisted) {s : Server} {e : Event}
    (h : Timely cfg s e) :
    (∃ t reply, e = .tick t ∧ (executeTick cfg t s).1 = .ok reply ∧
        Completes t s reply (s.step cfg e)) ∨
      (∀ t, e ≠ .tick t) ∧ Checks s (s.step cfg e) := by
  cases e with
  | tick t =>
    left
    obtain ⟨tickId, engine, r, report, summary, hrun⟩ := h.completed t rfl
    refine ⟨t, _, rfl, hrun, ?_⟩
    have hexec : executeTick cfg t s =
        (.ok (.done tickId engine r report summary), s.step cfg (.tick t)) := Prod.ext hrun rfl
    rcases (executeTick_completes hpersisted s).of_ok hexec with ⟨error, hno⟩ | hdone
    · cases hno
    · exact hdone
  | restart => exact Or.inr ⟨by simp, rfl, Or.inl rfl⟩
  | killSwitch engaged fates =>
    have hkeeps := killSwitchRoute_keeps windowView_quiet cfg engaged fates s
    exact Or.inr ⟨by simp, Keeps.checks hkeeps⟩
  | resetBreaker fates =>
    exact Or.inr ⟨by simp, Keeps.checks (circuitBreakerReset_keeps windowView_quiet cfg fates s)⟩
  | reconcileCheck holdings now fates =>
    exact Or.inr ⟨by simp, reconcileCheck_checks cfg holdings now fates s⟩

theorem windows_cons {cfg : Settings} {s : Server} {e : Event} (he : ∀ t, e ≠ .tick t)
    (es : List Event) : windows cfg s (e :: es) = windows cfg (s.step cfg e) es := by
  cases e with
  | tick t => exact absurd rfl (he t)
  | restart => rfl
  | killSwitch engaged fates => rfl
  | resetBreaker fates => rfl
  | reconcileCheck holdings now fates => rfl

/-- The rows that the windows have counted and those still pending are the rows
sent, and before the first snapshot there are none. -/
structure Accounted (counted : List OrderRow) (s : Server) : Prop where
  sent : s.db.sent = counted ++ s.db.pending
  first : s.db.snapshots = [] → s.db.orders = []

/-- A tick counts what is pending, and what it sends is pending after it. -/
theorem Accounted.tick {cfg : Settings} {counted : List OrderRow} {s s' : Server} {t : TickInput}
    {reply : TickReply} (h : Accounted counted s) (htimely : Timely cfg s (.tick t))
    (hdone : Completes t s reply s') : Accounted (counted ++ s.db.pending) s' := by
  obtain ⟨⟨tickId, engine, r, holdings, summary, -, -, hsnapshots⟩, rows, horders, hrows⟩ := hdone
  have hpending : s'.db.pending = rows.filter OrderRow.counted := by
    have hlast : s'.db.snapshots.getLast? = some (tickSnapshot t.now holdings) := by
      rw [hsnapshots, List.getLast?_concat]
    have hold : (s.db.orders.filter fun row =>
        row.counted ∧ t.now.instant < row.createdAt.instant) = [] := by
      rw [List.filter_eq_nil_iff]
      intro row hrow hin
      have hlate : t.now.instant < row.createdAt.instant := (of_decide_eq_true hin).2
      exact absurd hlate (not_lt.mpr (htimely.after t rfl row hrow))
    have hnew : (rows.filter fun row => row.counted ∧ t.now.instant < row.createdAt.instant) =
        rows.filter OrderRow.counted := by
      apply List.filter_congr
      intro row hrow
      obtain ⟨i, hi⟩ := hrows row hrow
      have hlate : t.now.instant < row.createdAt.instant := hi ▸ htimely.during t rfl i
      simp [hlate]
    unfold Db.pending
    rw [hlast]
    show (s'.db.orders.filter fun row =>
      row.counted ∧ t.now.instant < row.createdAt.instant) = _
    rw [horders, List.filter_append, hold, hnew, List.nil_append]
  constructor
  · rw [hpending, ← h.sent, Db.sent, horders, List.filter_append]
    rfl
  · intro hnil
    rw [hsnapshots] at hnil
    exact absurd hnil (by simp)

/-- A check counts nothing. -/
theorem Accounted.checks {counted : List OrderRow} {s s' : Server} (h : Accounted counted s)
    (hchecks : Checks s s') : Accounted counted s' := by
  obtain ⟨horders, hsnapshots⟩ := hchecks
  have hsent : s'.db.sent = s.db.sent := by
    rw [Db.sent, Db.sent, horders]
  rcases hsnapshots with hsame | ⟨hnone, snapshot, hfirst⟩
  · have hpending : s'.db.pending = s.db.pending := by
      unfold Db.pending Db.countedSince
      rw [hsame, horders]
    exact ⟨by rw [hsent, hpending, h.sent], fun hnil => horders.trans (h.first (hsame ▸ hnil))⟩
  -- the first snapshot is taken before any order
  · have hempty : s'.db.orders = [] := horders.trans (h.first hnone)
    have hpending : s'.db.pending = [] := by
      unfold Db.pending Db.countedSince
      rw [hfirst, hempty]
      rfl
    have hpending₀ : s.db.pending = [] := by
      unfold Db.pending
      rw [hnone]
      rfl
    exact ⟨by rw [hsent, hpending, h.sent, hpending₀], fun _ => hempty⟩

/-- **Each order sent is in one window, or pending.** -/
theorem windows_account {cfg : Settings} (hpersisted : cfg.persisted) {counted : List OrderRow}
    {s : Server} (h : Accounted counted s) {es : List Event}
    (hes : Run.Admits (step cfg) (Timely cfg) s es) :
    Accounted (counted ++ ((windows cfg s es).map Prod.fst).flatten) (s.run cfg es) := by
  induction es generalizing s counted with
  | nil => simpa [windows, Server.run] using h
  | cons e es ih =>
    rcases step_windows hpersisted hes.1 with ⟨t, reply, rfl, -, hdone⟩ | ⟨he, hchecks⟩
    · have hrest := ih (h.tick hes.1 hdone) hes.2
      rw [windows, List.map_cons, List.flatten_cons, ← List.append_assoc]
      exact hrest
    · rw [windows_cons he]
      exact ih (h.checks hchecks) hes.2

/-! ### The telescope -/

/-- What the snapshots have moved of a symbol: the last against the first. -/
def moved (db : Db) (symbol : Symbol) : ℚ :=
  match db.snapshots.head?, db.snapshots.getLast? with
  | some first, some last =>
    quantityOf (quantities last.items) symbol - quantityOf (quantities first.items) symbol
  | _, _ => 0

/-- What a window and its report say of a symbol. -/
def windowMove (symbol : Symbol) (w : List OrderRow × Option ReconcileReport) : ℚ :=
  (w.1.map fun row => row.sentOf symbol).sum + (w.2.map fun r => r.drift symbol).getD 0

/-- A tick moves the snapshots by what its window sent and what its report names. -/
theorem moved_tick {s s' : Server} {t : TickInput} {reply : TickReply}
    (hdone : Completes t s reply s') (symbol : Symbol) :
    moved s'.db symbol =
      moved s.db symbol + windowMove symbol (s.db.pending, reportOf (.ok reply)) := by
  obtain ⟨⟨tickId, engine, r, holdings, summary, -, rfl, hsnapshots⟩, -⟩ := hdone
  have hlast' : s'.db.snapshots.getLast? = some (tickSnapshot t.now holdings) := by
    rw [hsnapshots, List.getLast?_concat]
  unfold windowMove reportOf moved
  simp only [Option.map_some, Option.getD_some]
  rw [hlast']
  rcases hlast : s.db.snapshots.getLast? with - | last
  -- the first snapshot moves nothing
  · have hnone : s.db.snapshots = [] := List.getLast?_eq_none_iff.mp hlast
    have hpending : s.db.pending = [] := by
      unfold Db.pending
      rw [hlast]
    have hdrift : (s.db.reconciled holdings).drift symbol = 0 := by
      unfold Db.reconciled Db.loadLatestPositions
      rw [hlast]
      rfl
    rw [hsnapshots, hnone, hpending, hdrift]
    simp
  · obtain ⟨first, hfirst⟩ : ∃ first, s.db.snapshots.head? = some first := by
      rcases hs : s.db.snapshots with - | ⟨first, rest⟩
      · rw [hs] at hlast
        cases hlast
      · exact ⟨first, rfl⟩
    have hfirst' : s'.db.snapshots.head? = some first := by
      rw [hsnapshots, List.head?_append, hfirst]
      rfl
    have hpending : s.db.pending = s.db.countedSince last.ts := by
      unfold Db.pending
      rw [hlast]
    have hreport : s.db.reconciled holdings = reconcile (some (quantities last.items))
        (quantities (snapshotFromHoldings holdings)) (some (s.db.submittedQtySince last.ts)) := by
      unfold Db.reconciled Db.loadLatestPositions
      rw [hlast]
      rfl
    -- the baseline and the window are what the report expects
    have hexpected : expectedQuantity (quantities last.items) (s.db.submittedQtySince last.ts)
        symbol = quantityOf (quantities last.items) symbol +
          (s.db.pending.map fun row => row.sentOf symbol).sum := by
      rw [expectedQuantity, submittedQtySince_eq, quantityOf_foldl_addDelta, hpending]
      simp [quantityOf]
    rw [hfirst, hfirst', hreport, reconcile_exact.drift, hexpected]
    simp only [tickSnapshot]
    ring

/-- A check moves nothing. -/
theorem moved_checks {s s' : Server} (h : Checks s s') (symbol : Symbol) :
    moved s'.db symbol = moved s.db symbol := by
  unfold moved
  rcases h.snapshots with hsame | ⟨hnone, snapshot, hfirst⟩
  · rw [hsame]
  · rw [hnone, hfirst]
    exact sub_self _

/-- **The snapshots move by what the windows sent and what the reports name.** -/
theorem windows_telescope {cfg : Settings} (hpersisted : cfg.persisted) (symbol : Symbol)
    {s : Server} {es : List Event} (hes : Run.Admits (step cfg) (Timely cfg) s es) :
    moved (s.run cfg es).db symbol =
      moved s.db symbol + ((windows cfg s es).map (windowMove symbol)).sum := by
  induction es generalizing s with
  | nil => exact (add_zero _).symm
  | cons e es ih =>
    rcases step_windows hpersisted hes.1 with ⟨t, reply, rfl, hrun, hdone⟩ | ⟨he, hchecks⟩
    · rw [windows, List.map_cons, List.sum_cons, hrun, ← add_assoc, ← moved_tick hdone]
      exact ih hes.2
    · rw [windows_cons he, ← moved_checks hchecks]
      exact ih hes.2

/-! ### The windows of a run -/

/-- What a reconciliation of `holdings` reports on a database: the first one makes
the baseline, every other names the differences from the last snapshot. -/
def ReportsOn (db : Db) (holdings : Holdings) (report : ReconcileReport) : Prop :=
  match db.loadLatestPositions with
  | none => report = { baseline := true }
  | some (prevTs, prevMap) => NamesDifferences prevMap
      (quantities (snapshotFromHoldings holdings)) (db.submittedQtySince prevTs) report

theorem reportsOn_reconciled (db : Db) (holdings : Holdings) :
    ReportsOn db holdings (db.reconciled holdings) := by
  unfold ReportsOn Db.reconciled
  rcases db.loadLatestPositions with - | ⟨prevTs, prevMap⟩
  · rfl
  · exact reconcile_exact

/-- **The windows of the reconciliation account for every order once.**  In every run
of completed ticks, with checks, restarts and routes in between: the windows of the
ticks and what is pending are the orders sent, each once; every report names exactly
the differences from the account that the broker answered, which is also the snapshot
that the tick takes; and per symbol the snapshots have moved by what the windows sent
and what the reports of the ticks name. -/
theorem reconcile_windows (cfg : Settings) (hpersisted : cfg.persisted) (es : List Event)
    (hes : Run.Admits (step cfg) (Timely cfg) (start cfg {}) es) :
    ((start cfg {}).run cfg es).db.sent =
        ((windows cfg (start cfg {}) es).map Prod.fst).flatten ++
          ((start cfg {}).run cfg es).db.pending ∧
      (∀ pre t post, es = pre ++ .tick t :: post → ∃ holdings report,
        AccountOf t holdings ∧
          reportOf (executeTick cfg t ((start cfg {}).run cfg pre)).1 = some report ∧
          ReportsOn ((start cfg {}).run cfg pre).db holdings report ∧
          ((start cfg {}).run cfg (pre ++ [.tick t])).db.snapshots =
            ((start cfg {}).run cfg pre).db.snapshots ++ [tickSnapshot t.now holdings]) ∧
      (∀ fates holdings now advanceBaseline s s' report,
        reconcileAndEnforce fates holdings now advanceBaseline s = (.ok report, s') →
          ReportsOn s.db holdings report) ∧
      ∀ symbol first last, ((start cfg {}).run cfg es).db.snapshots.head? = some first →
        ((start cfg {}).run cfg es).db.snapshots.getLast? = some last →
        quantityOf (quantities last.items) symbol - quantityOf (quantities first.items) symbol =
          ((windows cfg (start cfg {}) es).map (windowMove symbol)).sum := by
  refine ⟨?_, ?_, ?_, ?_⟩
  · have hstart : Accounted [] (start cfg {}) := ⟨rfl, fun _ => rfl⟩
    exact (windows_account hpersisted hstart hes).sent
  · rintro pre t post rfl
    obtain ⟨hpre, htimely, -⟩ := hes.split
    rcases step_windows hpersisted htimely with ⟨t', reply, htick, hrun, hdone⟩ | ⟨he, -⟩
    · cases htick
      obtain ⟨tickId, engine, r, holdings, summary, hholds, rfl, hsnapshots⟩ := hdone.report
      refine ⟨holdings, _, hholds, ?_, reportsOn_reconciled _ holdings, ?_⟩
      · show reportOf (executeTick cfg t (pre.foldl (step cfg) (start cfg {}))).1 = _
        rw [hrun]
        rfl
      · rw [Server.run, List.foldl_append]
        exact hsnapshots
    · exact absurd rfl (he t)
  · intro fates holdings now advanceBaseline s s' report hrun
    have hspec := reconcileAndEnforce_advances fates holdings now advanceBaseline s
    rw [(hspec.of_ok hrun).1]
    exact reportsOn_reconciled _ _
  · intro symbol first last hfirst hlast
    have htelescope := windows_telescope hpersisted symbol hes
    have hstart : moved (start cfg {}).db symbol = 0 := rfl
    rw [hstart, zero_add, moved, hfirst, hlast] at htelescope
    exact htelescope

end Server

namespace Sample

open Server

/-- A tick `start` microseconds after ten o'clock, on the account of `n` shares; its
orders are created a microsecond later. -/
def timedTick (id : ClientOrderId) (n : ℚ) (start : ℤ) : TickInput :=
  { tickInput id (account n) returning with
    now := ⟨tenOClock.instant + start, KST⟩
    stamps := fun i => ⟨id ++ toString i, ⟨tenOClock.instant + start + 1, KST⟩⟩ }

/-- A tick buys 100 shares, a check finds them, and the next tick finds 50 more. -/
def windowRun : List Event :=
  [.tick (timedTick "a" 100 0), .reconcileCheck (.ok (account 200)) tenOClock returning,
    .tick (timedTick "b" 250 10)]

/-- The tick returns. -/
def returns (cfg : Settings) (t : TickInput) (s : Server) : Bool :=
  match (executeTick cfg t s).1 with
  | .ok (.done _ _ _ _ _) => true
  | .ok (.unconfigured _) => false
  | .error _ => false

theorem timely_timedTick {cfg : Settings} {id : ClientOrderId} {n : ℚ} {start : ℤ} {s : Server}
    (hreturns : returns cfg (timedTick id n start) s)
    (hafter : ∀ row ∈ s.db.orders, row.createdAt.instant ≤ tenOClock.instant + start) :
    Timely cfg s (.tick (timedTick id n start)) := by
  refine ⟨?_, ?_, ?_⟩
  · rintro t ⟨⟩
    unfold returns at hreturns
    rcases hrun : (executeTick cfg (timedTick id n start) s).1 with e | ⟨error⟩ | ⟨i, e, r, rep, p⟩
    · rw [hrun] at hreturns
      cases hreturns
    · rw [hrun] at hreturns
      cases hreturns
    · exact ⟨i, e, r, rep, p, rfl⟩
  · rintro t ⟨⟩
    exact hafter
  · rintro t ⟨⟩ i
    exact Int.lt_succ _

end Sample

namespace Server

/-- The order of the first tick is in the window of the second, and the snapshots moved
by 150 shares: 100 that were sent and 50 that were not. -/
theorem reconcile_windows_sample :
    ((start Sample.settings {}).run Sample.settings Sample.windowRun).db.sent =
        ((windows Sample.settings (start Sample.settings {}) Sample.windowRun).map
          Prod.fst).flatten ++
          ((start Sample.settings {}).run Sample.settings Sample.windowRun).db.pending ∧
      (windows Sample.settings (start Sample.settings {}) Sample.windowRun).map
        (windowMove "005930") = [0, 150] := by
  have hes : Run.Admits (step Sample.settings) (Timely Sample.settings)
      (start Sample.settings {}) Sample.windowRun := by
    refine ⟨Sample.timely_timedTick (by decide +kernel) (by decide +kernel), ⟨?_, ?_, ?_⟩,
      Sample.timely_timedTick (by decide +kernel) (by decide +kernel), trivial⟩
    all_goals
      intro t ht
      cases ht
  exact ⟨(reconcile_windows Sample.settings rfl Sample.windowRun hes).1, by decide +kernel⟩

end Server

end AutoTrade
