/-
AutoTrade/ReportCoverage.lean

Whether every tick, decision and order gets into a report.

The reports are periods that follow one another (`Periods.Ledger`): the ledger of an
archive has the rows of the three tables for its items, and for each recorded report
the rows that its text was rendered from.  Two things lose rows.  A row that comes in
with a date that has been reported is after no later start of a period; and a report
that is forced for the period that was reported last is rendered from what came after
that period, and stands in the place of the one that had its rows.
`losesNothing_iff` says that there is nothing else.
-/
import AutoTrade.HoldDays
import AutoTrade.Lib.Periods
import AutoTrade.ReportRows

namespace AutoTrade

/-! ### The periods -/

namespace Db

variable {db : Db} {d e : Date}

/-- The daily curve has the days of the rows. -/
theorem mem_loadDailyEquity : d ∈ db.loadDailyEquity.map Prod.fst ↔ d ∈ db.equityDates := by
  have hperm := (List.perm_insertionSort (fun p q : Date × ℚ × Option ℚ => p.1 ≤ q.1)
    (Dict.ofList (db.paperEquity.map fun r =>
      (r.tradeDate, r.equity, r.benchmarkPrice))).entries).map Prod.fst
  have hkeys : d ∈ db.loadDailyEquity.map Prod.fst ↔ d ∈ (Dict.ofList (db.paperEquity.map
      fun r => (r.tradeDate, r.equity, r.benchmarkPrice))).keys := hperm.mem_iff
  rw [hkeys, Dict.mem_keys_ofList, List.map_map]
  rfl

/-- The end of the period of a report that is generated now. -/
def periodEnd (db : Db) : Option Date := db.loadDailyEquity.getLast?.map Prod.fst

theorem periodEnd_mem (h : db.periodEnd = some e) : e ∈ db.equityDates := by
  rw [← mem_loadDailyEquity]
  obtain ⟨r, hr, rfl⟩ := Option.map_eq_some_iff.mp h
  exact List.mem_map_of_mem (List.mem_of_getLast? hr)

/-- It is the last date of the curve. -/
theorem le_periodEnd (h : db.periodEnd = some e) (hd : d ∈ db.equityDates) : d ≤ e := by
  rw [← mem_loadDailyEquity] at hd
  have hsorted := List.pairwise_map.mpr db.loadDailyEquity_sorted
  rw [periodEnd, ← List.getLast?_map] at h
  generalize db.loadDailyEquity.map Prod.fst = dates at h hd hsorted
  rcases List.eq_nil_or_concat dates with rfl | ⟨dates, e', rfl⟩
  · cases hd
  · rw [List.concat_eq_append] at h hd hsorted
    rw [List.getLast?_concat] at h
    obtain rfl := Option.some.inj h
    rcases List.mem_append.mp hd with hd | hd
    · exact ((List.pairwise_append.mp hsorted).2.2 d hd e' List.mem_cons_self).le
    · exact (List.mem_singleton.mp hd).le

end Db

/-! ### The ledger of an archive -/

namespace Archive

open Periods

variable {app : App} {s : Archive}

/-- The rows and, for each recorded report, the rows that its body was rendered from. -/
def ledger (s : Archive) : Ledger RowId Date where
  date := s.server.db.dateOf
  log := s.reports.map fun r => (r.periodEnd, {x | r.body.args.activity.Contains x})

/-- Every tick, decision and order that is dated up to the last recorded end is in the
activity that the body loaded for some period was rendered from. -/
def LosesNothing (s : Archive) : Prop :=
  ∀ x d last, s.server.db.dateOf x = some d → s.lastReportPeriodEnd = some last → d ≤ last →
    ∃ periodEnd body, s.loadReportBody periodEnd = some body ∧ body.args.activity.Contains x

theorem ledger_last : s.ledger.last = s.lastReportPeriodEnd := by
  simp [Ledger.last, ledger, lastReportPeriodEnd, List.getLast?_map, Function.comp_def]

theorem ledger_standing (e : Date) : s.ledger.standing e =
    (s.loadReportBody e).map fun body => {x | body.args.activity.Contains x} := by
  simp [Ledger.standing, ledger, loadReportBody, List.filter_map, List.getLast?_map,
    Function.comp_def]

/-- Nothing is lost as long as the ledger is covered. -/
theorem losesNothing_iff_covered : s.LosesNothing ↔ s.ledger.Covered := by
  have hreported : ∀ x, s.ledger.Reported x ↔ ∃ periodEnd body,
      s.loadReportBody periodEnd = some body ∧ body.args.activity.Contains x := by
    intro x
    constructor
    · rintro ⟨e, rows, hrows, hx⟩
      rw [ledger_standing, Option.map_eq_some_iff] at hrows
      obtain ⟨body, hbody, rfl⟩ := hrows
      exact ⟨e, body, hbody, hx⟩
    · rintro ⟨e, body, hbody, hx⟩
      exact ⟨e, _, by rw [ledger_standing, hbody]; rfl, hx⟩
  unfold LosesNothing Ledger.Covered
  rw [ledger_last]
  constructor
  · intro h x d e hd he hle
    exact (hreported x).mpr (h x d e hd he hle)
  · intro h x d e hd he hle
    exact (hreported x).mp (h x d e hd he hle)

/-! ### What a report records -/

/-- The report is forced for the period that was reported last, and comes to its record. -/
def Regenerates (app : App) (s : Archive) (force : Bool) : Prop :=
  app.settings.persisted ∧ force ∧ (∃ r, app.evalReport s.server.db = .ok r) ∧
    ∃ e, s.server.db.periodEnd = some e ∧ s.lastReportPeriodEnd = some e

/-- A report of what is dated after the last one, under the last date of the curve. -/
structure Records (app : App) (s : Archive) (e : Date) (s' : Archive) : Prop where
  periodEnd : s.server.db.periodEnd = some e
  recorded : ∃ path body, s' = s.recordReport e path body ∧ body.args.activity =
    s.server.db.loadPeriodActivity app.auditTs s.lastReportPeriodEnd

/-- A body has the arguments that it was rendered from. -/
theorem renderReport_args {args : ReportArgs} {body : ReportBody}
    (h : ReportBody.render args = .ok body) : body.args = args := by
  unfold ReportBody.render at h
  split at h
  · cases h
    rfl
  · cases h

/-- In a period without a point there is no return to compute. -/
theorem render_ok {args : ReportArgs}
    (hempty : args.equityRows.filter (fun r => Db.after args.periodStart r.1) = []) :
    ∃ body, ReportBody.render args = .ok body := by
  have hrender : ∃ report, renderReport args = .ok report := by
    unfold renderReport
    rw [hempty]
    exact ⟨_, rfl⟩
  obtain ⟨report, hreport⟩ := hrender
  unfold ReportBody.render
  split
  · exact ⟨_, rfl⟩
  · next e he =>
    rw [he] at hreport
    cases hreport

/-- What is dated after the end of the curve is not on it. -/
theorem equity_after_periodEnd {db : Db} {e : Date} (h : db.periodEnd = some e) :
    db.loadDailyEquity.filter (fun r => Db.after (some e) r.1) = [] := by
  rw [List.filter_eq_nil_iff]
  intro r hr hafter
  have hle : r.1 ≤ e :=
    Db.le_periodEnd h (Db.mem_loadDailyEquity.mp (List.mem_map_of_mem hr))
  exact absurd (Db.after_iff.mp hafter e rfl) (not_lt.mpr hle)

/-- A regeneration has nothing that could fail. -/
theorem Regenerates.renders {force : Bool} (h : Regenerates app s force) (e : Date)
    (r : EvalReport) (activity : PeriodActivity) :
    ∃ body, ReportBody.render {
      periodStart := s.lastReportPeriodEnd, periodEnd := e,
      equityRows := s.server.db.loadDailyEquity, evalReport := r, activity } = .ok body := by
  obtain ⟨-, -, -, last, hend, hlast⟩ := h
  refine render_ok ?_
  rw [hlast]
  exact equity_after_periodEnd hend

/-- **What a report does**: nothing, or it is recorded, and then its period is the one
reported last exactly in a regeneration. -/
theorem generateReport_cases (app : App) (force : Bool) (file : Option String) (s : Archive) :
    ((generateReport app force file s).2 = s ∧ ¬ Regenerates app s force) ∨
      ∃ e, Records app s e (generateReport app force file s).2 ∧
        (s.lastReportPeriodEnd = some e ↔ Regenerates app s force) := by
  refine Effect.wp.state (P := fun s' => (s' = s ∧ ¬ Regenerates app s force) ∨
    ∃ e, Records app s e s' ∧ (s.lastReportPeriodEnd = some e ↔ Regenerates app s force)) ?_
  unfold generateReport
  split
  · next hpersisted =>
    rw [Effect.wp_bind, Effect.wp_look]
    simp only
    -- no curve, no report
    rcases hrow : s.server.db.loadDailyEquity.getLast? with - | ⟨e, row⟩
    · refine Or.inl ⟨rfl, ?_⟩
      rintro ⟨-, -, -, e, he, -⟩
      rw [Db.periodEnd, hrow] at he
      cases he
    · simp only [Effect.wp_bind, Effect.wp_look]
      have hend : s.server.db.periodEnd = some e := by
        rw [Db.periodEnd, hrow]
        rfl
      split
      · next hdue =>
        refine Or.inl ⟨rfl, ?_⟩
        rintro ⟨-, hforce, -⟩
        rw [hdue.1] at hforce
        cases hforce
      · next hdue =>
        rw [Effect.wp_bind, Effect.wp_lift]
        -- an evaluation that raises records nothing
        refine ⟨fun r hr => ?_, fun error herror => Or.inl ⟨rfl, ?_⟩⟩
        · rw [Effect.wp_bind, Effect.wp_lift]
          refine ⟨fun body hbody => ?_, fun error herror => Or.inl ⟨rfl, ?_⟩⟩
          · refine Or.inr ⟨e, ⟨hend, _, body, rfl, ?_⟩, ?_⟩
            · rw [renderReport_args hbody]
            · constructor
              · intro hlast
                refine ⟨hpersisted, ?_, ⟨r, hr⟩, e, hend, hlast⟩
                rcases force with - | -
                · rw [hlast] at hdue
                  simp at hdue
                · rfl
              · rintro ⟨-, -, -, e', he', hlast⟩
                rw [hend] at he'
                exact he' ▸ hlast
          · intro hre
            obtain ⟨body, hbody⟩ := hre.renders e r _
            rw [hbody] at herror
            cases herror
        · rintro ⟨-, -, ⟨r, hr⟩, -⟩
          rw [hr] at herror
          cases herror
  · next hno =>
    exact Or.inl ⟨rfl, fun h => hno h.1⟩

/-! ### The invariant -/

/-- What holds of every archive: its ledger is well formed, its reports end on dates of
the curve, and each date of the curve has a tick that is in no report of an earlier
period. -/
structure Filed (s : Archive) : Prop where
  wf : s.ledger.Wf
  ends : ∀ r ∈ s.reports, r.periodEnd ∈ s.server.db.equityDates
  fresh : ∀ e ∈ s.server.db.equityDates, ∃ i, s.server.db.dateOf (.tick i) = some e ∧
    ∀ r ∈ s.reports, r.periodEnd < e → ¬ r.body.args.activity.Contains (.tick i)

/-- An empty archive is in order. -/
theorem filed_start (app : App) : Filed (start app) :=
  ⟨⟨List.Pairwise.nil, by rintro r ⟨⟩⟩, by rintro r ⟨⟩, by rintro e ⟨⟩⟩

/-- The report of a row that is there is a report of the ledger. -/
theorem mem_ledger {r : ReportRow} (hr : r ∈ s.reports) :
    (r.periodEnd, {x | r.body.args.activity.Contains x}) ∈ s.ledger.log :=
  List.mem_map_of_mem hr

/-- **Rows come in**: a tick that is new is in no report. -/
theorem Filed.posts (h : Filed s) {days : Set Date} {server : Server}
    (hposts : s.server.db.Posts days server.db) : Filed { s with server } := by
  refine ⟨h.wf.extend fun x d hd => hposts.dateOf hd, fun r hr => hposts.kept _ (h.ends r hr), ?_⟩
  intro e he
  rcases hposts.added e he with he | ⟨i, hnone, hi⟩
  · obtain ⟨i, hi, hfresh⟩ := h.fresh e he
    exact ⟨i, hposts.dateOf hi, hfresh⟩
  · refine ⟨i, hi, ?_⟩
    intro r hr _ hcontains
    exact h.wf.known (r.periodEnd, _) (mem_ledger hr) (.tick i) hcontains hnone

/-- A recorded report is recorded in the ledger. -/
theorem Records.ledger {e : Date} {s' : Archive} (h : Records app s e s') :
    s'.ledger = s.ledger.record e := by
  obtain ⟨path, body, rfl, hactivity⟩ := h.recorded
  have hrows : {x | body.args.activity.Contains x} =
      {x | ∃ d, s.ledger.date x = some d ∧ s.ledger.After d} := by
    ext x
    show body.args.activity.Contains x ↔ _
    rw [hactivity, Db.contains_loadPeriodActivity, ← ledger_last]
    rfl
  unfold Archive.ledger Ledger.record recordReport
  rw [List.map_append, List.map_singleton, hrows]
  rfl

/-- No report goes past the curve. -/
theorem Filed.ends_le (h : Filed s) {e : Date} (he : s.server.db.periodEnd = some e) :
    ∀ r ∈ s.ledger.log, r.1 ≤ e := by
  intro p hp
  obtain ⟨r, hr, rfl⟩ := List.mem_map.mp hp
  exact Db.le_periodEnd he (h.ends r hr)

theorem Filed.records (h : Filed s) {e : Date} {s' : Archive} (hs : Records app s e s') :
    Filed s' := by
  have hledger := hs.ledger
  have hwf := h.wf.record (h.ends_le hs.periodEnd)
  rw [← hledger] at hwf
  obtain ⟨path, body, rfl, -⟩ := hs.recorded
  refine ⟨hwf, ?_, ?_⟩
  · intro r hr
    rcases List.mem_append.mp hr with hr | hr
    · exact h.ends r hr
    · rw [List.mem_singleton.mp hr]
      exact Db.periodEnd_mem hs.periodEnd
  · intro e' he'
    obtain ⟨i, hi, hfresh⟩ := h.fresh e' he'
    refine ⟨i, hi, ?_⟩
    intro r hr hlt
    rcases List.mem_append.mp hr with hr | hr
    · exact hfresh r hr hlt
    · rw [List.mem_singleton.mp hr] at hlt
      exact absurd hlt (not_lt.mpr (Db.le_periodEnd hs.periodEnd he'))

/-- A report keeps the archive in order. -/
theorem Filed.generate (h : Filed s) (force : Bool) (file : Option String) :
    Filed (generateReport app force file s).2 := by
  rcases generateReport_cases app force file s with ⟨hsame, -⟩ | ⟨e, hrecords, -⟩
  · rw [hsame]
    exact h
  · exact h.records hrecords

/-- A scheduled report is none, or one that is not forced. -/
theorem scheduledReport_cases (app : App) (now : Datetime) (file : Option String) (s : Archive) :
    (scheduledReport app now file s).2 = s ∨
      (scheduledReport app now file s).2 = (generateReport app false file s).2 := by
  unfold scheduledReport
  split
  · split
    · exact Or.inl rfl
    · exact Or.inr rfl
  · exact Or.inl rfl

/-- So does every event. -/
theorem filed_step (h : Filed s) (e : Event) : Filed (step app s e) := by
  cases e with
  | server e => exact h.posts (s.server.step_posts app.settings e)
  | generate force file => exact h.generate force file
  | scheduled now file =>
    show Filed (scheduledReport app now file s).2
    rcases scheduledReport_cases app now file s with hsame | hsame
    · rw [hsame]
      exact h
    · rw [hsame]
      exact h.generate false file

/-! ### When nothing is lost -/

/-- The rows that the step adds are dated after the last report, and it does not
generate again the report of the period that was reported last. -/
def Meets (app : App) (s : Archive) : Event → Prop
  | .server e => ∀ x d last, s.server.db.dateOf x = none →
      (s.server.step app.settings e).db.dateOf x = some d →
      s.lastReportPeriodEnd = some last → last < d
  | .generate force _ => ¬ Regenerates app s force
  | .scheduled .. => True

/-- **A report loses nothing** exactly when it is no regeneration. -/
theorem generate_losesNothing_iff (h : Filed s) (hcovered : s.LosesNothing) (force : Bool)
    (file : Option String) :
    (generateReport app force file s).2.LosesNothing ↔ ¬ Regenerates app s force := by
  rcases generateReport_cases app force file s with ⟨hsame, hnot⟩ | ⟨e, hrecords, hiff⟩
  · rw [hsame]
    exact iff_of_true hcovered hnot
  · rw [losesNothing_iff_covered] at hcovered ⊢
    rw [hrecords.ledger, Ledger.covered_record h.wf hcovered (h.ends_le hrecords.periodEnd),
      ledger_last, hiff]
    refine forall_congr' fun hre => iff_of_false ?_ (fun h => h.elim)
    intro hother
    -- the tick of the date is in the reports of its period only
    obtain ⟨i, hi, hfresh⟩ := h.fresh e (Db.periodEnd_mem hrecords.periodEnd)
    obtain ⟨e', hne, rows, hrows, hmem⟩ := hother (.tick i) e hi (le_refl e)
    obtain ⟨r, hr, heq⟩ := List.mem_map.mp (Ledger.mem_of_standing hrows)
    obtain ⟨rfl, rfl⟩ := Prod.mk.inj heq
    have hle := h.ends_le hrecords.periodEnd _ (mem_ledger hr)
    exact hfresh r hr (lt_of_le_of_ne hle hne) hmem

/-- A step loses nothing exactly when it meets the condition. -/
theorem step_losesNothing_iff (h : Filed s) (hcovered : s.LosesNothing) (e : Event) :
    (step app s e).LosesNothing ↔ Meets app s e := by
  cases e with
  | server e =>
    have hposts := s.server.step_posts app.settings e
    rw [losesNothing_iff_covered] at hcovered ⊢
    have hextend := Ledger.covered_extend h.wf hcovered fun x d hd => hposts.dateOf hd
    refine hextend.trans ?_
    unfold Ledger.After
    rw [ledger_last]
    constructor
    · intro hnew x d last hnone hd hlast
      exact hnew x d hnone hd last hlast
    · intro hnew x d hnone hd last hlast
      exact hnew x d last hnone hd hlast
  | generate force file => exact generate_losesNothing_iff h hcovered force file
  | scheduled now file =>
    refine iff_of_true ?_ trivial
    show (scheduledReport app now file s).2.LosesNothing
    rcases scheduledReport_cases app now file s with hsame | hsame
    · rw [hsame]
      exact hcovered
    · rw [hsame, generate_losesNothing_iff h hcovered]
      rintro ⟨-, hforce, -⟩
      cases hforce

/-- **What reports lose.**  Over every run, in whatever order the ticks and the reports
come, nothing is lost in any state reached exactly when no row comes in with a date
that has been reported and no report is forced for the period reported last. -/
theorem losesNothing_iff (app : App) (es : List Event) :
    (∀ pre, pre <+: es → ((start app).run app pre).LosesNothing) ↔
      Run.Admits (step app) (Meets app) (start app) es := by
  refine Run.forall_prefix_iff_admits (I := Filed) (P := LosesNothing)
    (fun s e h => filed_step h e) (fun s e h hcovered => step_losesNothing_iff h hcovered e)
    (filed_start app) ?_ es
  intro x d last hd
  cases x <;> cases hd

/-- A paper tick that returns its result, or a report. -/
def PaperOnly (app : App) (s : Archive) : Event → Bool
  | .server (.tick t) => Completes app.settings t s.server
  | .server _ => false
  | .generate .. => true
  | .scheduled .. => true

/-- What is loaded for a period, through any view of a body. -/
theorem loadReportBody_map {γ : Type} (f : ReportBody → γ) (e : Date) :
    (s.loadReportBody e).map f = ((((s.reports.map fun r => (r.periodEnd, f r.body)).filter
      fun p => p.1 = e).getLast?).map Prod.snd) := by
  simp [loadReportBody, List.filter_map, List.getLast?_map, Function.comp_def]

end Archive

namespace Sample

/-- The paper server, with an evaluation of nothing but the number of trades. -/
def app : App where
  settings := paperSettings
  evaluate := fun _ _ n => .ok (Evaluation.tooShort 0 n)
  auditTs := fun _ => tenOClock

/-- A tick, and two reports of its day. -/
def reportedTwice : List Archive.Event :=
  [.server (.tick (tickAfter "a" 0)), .generate true none, .generate true none]

end Sample

namespace Archive

/-- After the second report no body has the tick. -/
theorem reportedTwice_loses :
    ¬ ∀ (app : App) (es : List Event), app.settings.tradingMode = .dryRun →
      app.settings.persisted → 0 < app.settings.paperSeedKrw →
      Run.Admits (step app) (fun s e => PaperOnly app s e = true) (start app) es →
      ((start app).run app es).LosesNothing := by
  intro h
  have hnothing := h Sample.app Sample.reportedTwice rfl rfl (by decide +kernel)
    (by decide +kernel)
  generalize hs : (start Sample.app).run Sample.app Sample.reportedTwice = s at hnothing
  have hdate : s.server.db.dateOf (.tick 0) = some (tradeDateKst Sample.tenOClock) := by
    rw [← hs]
    decide +kernel
  have hlast : s.lastReportPeriodEnd = some (tradeDateKst Sample.tenOClock) := by
    rw [← hs]
    decide +kernel
  have hreports : (s.reports.map fun r =>
      (r.periodEnd, r.body.args.activity.ticks.map Prod.snd)) =
        [(tradeDateKst Sample.tenOClock, [0]), (tradeDateKst Sample.tenOClock, [])] := by
    rw [← hs]
    decide +kernel
  obtain ⟨e, body, hbody, tick, htick⟩ := hnothing (.tick 0) _ _ hdate hlast (le_refl _)
  have hplaces := loadReportBody_map (s := s) (fun b => b.args.activity.ticks.map Prod.snd) e
  rw [hreports, hbody, Option.map_some] at hplaces
  have hmem : 0 ∈ body.args.activity.ticks.map Prod.snd := List.mem_map_of_mem htick
  by_cases he : tradeDateKst Sample.tenOClock = e
  · have hnone : body.args.activity.ticks.map Prod.snd = [] := by simpa [he] using hplaces
    rw [hnone] at hmem
    cases hmem
  · simp [he] at hplaces

end Archive

end AutoTrade
