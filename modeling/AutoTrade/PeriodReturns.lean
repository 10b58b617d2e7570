/-
AutoTrade/PeriodReturns.lean

Whether the returns of the reports compound to the return of the whole.

The reports of any run are of periods that follow one another (`Archive.tiled_run`).  A
report prints the return of its period, from the first point of the curve inside the
period to the last.  The move from the end of one period to the first point of the next
is in neither, so that the returns compound to the whole exactly when these moves cancel
(`periodReturns_compound_iff`); a period of one day has no move of its own.
-/
import AutoTrade.Lib.Sorted
import AutoTrade.ReportCoverage
import Mathlib.Algebra.Order.BigOperators.GroupWithZero.List

namespace AutoTrade

open Periods

namespace Curve

/-! ### Periods of a curve -/

/-- The curve up to a day. -/
def upTo (curve : Curve) (e : Date) : Curve := curve.filter fun r => r.1 ≤ e

/-- The curve after a day. -/
def since (curve : Curve) (s : Option Date) : Curve := curve.filter fun r => Db.after s r.1

/-- The points of a period. -/
def period (curve : Curve) (p : Option Date × Date) : Curve := (curve.upTo p.2).since p.1

/-- A curve of positive values, and the ends of a chain of periods up to its last day. -/
structure Chained (curve : Curve) (ends : List Date) : Prop where
  sorted : curve.Pairwise fun q r => q.1 < r.1
  positive : ∀ r ∈ curve, 0 < r.2.1
  prices_positive : ∀ r ∈ curve, ∀ b ∈ r.2.2, 0 < b
  ne_nil : ends ≠ []
  increasing : ends.Pairwise (· < ·)
  dates : ∀ e ∈ ends, e ∈ curve.map Prod.fst
  last : ends.getLast? = curve.getLast?.map Prod.fst

variable {curve : Curve} {ends : List Date} {p : Option Date × Date}

@[simp] theorem since_none (curve : Curve) : curve.since none = curve :=
  List.filter_eq_self.mpr fun _ _ => rfl

theorem mem_period {r : Date × ℚ × Option ℚ} :
    r ∈ curve.period p ↔ r ∈ curve ∧ r.1 ≤ p.2 ∧ ∀ d ∈ p.1, d < r.1 := by
  simp only [period, since, upTo, List.mem_filter, Db.after, Option.all_eq_true,
    decide_eq_true_eq, and_assoc]
  exact Iff.rfl

/-- After its start the curve goes through the period and on. -/
theorem since_eq_append (hsorted : curve.Pairwise fun q r => q.1 < r.1)
    (hp : ∀ d ∈ p.1, d < p.2) :
    curve.since p.1 = curve.period p ++ curve.since (some p.2) := by
  have hsplit := Sorted.le_append_lt_of_key (hsorted.filter fun r => Db.after p.1 r.1) p.2
  rw [since, ← hsplit]
  congr 1
  · rw [period, since, upTo, List.filter_comm]
  · rw [since, List.filter_filter]
    apply List.filter_congr
    intro r _
    rw [Bool.eq_iff_iff]
    simp only [Db.after, Option.all_eq_true, Bool.and_eq_true, decide_eq_true_eq,
      Option.all_some]
    exact ⟨fun h => h.1, fun h => ⟨h, fun d hd => (hp d hd).trans h⟩⟩

/-- Up to its end the curve comes to the start of the period and goes through it. -/
theorem exists_upTo_eq_append (hsorted : curve.Pairwise fun q r => q.1 < r.1) :
    ∃ before, curve.upTo p.2 = before ++ curve.period p := by
  obtain ⟨s, e⟩ := p
  rcases s with - | d
  · exact ⟨[], by rw [period, since_none, List.nil_append]⟩
  · refine ⟨(curve.upTo e).filter fun r => r.1 ≤ d, ?_⟩
    exact (Sorted.le_append_lt_of_key (hsorted.filter fun r => r.1 ≤ e) d).symm

/-- The last of the ends closes the curve. -/
theorem upTo_last (hsorted : curve.Pairwise fun q r => q.1 < r.1) {e : Date}
    (he : curve.getLast?.map Prod.fst = some e) : curve.upTo e = curve := by
  apply List.filter_eq_self.mpr
  intro r hr
  obtain ⟨l, hl, rfl⟩ := Option.map_eq_some_iff.mp he
  obtain ⟨before, rfl⟩ := List.getLast?_eq_some_iff.mp hl
  rw [decide_eq_true_eq]
  rcases List.mem_append.mp hr with hr | hr
  · exact ((List.pairwise_append.mp hsorted).2.2 r hr l List.mem_cons_self).le
  · rw [List.mem_singleton.mp hr]

/-! ### The values at the ends of the periods -/

/-- What a point has: the assets, and the price of the benchmark. -/
def assets (r : Date × ℚ × Option ℚ) : ℚ := r.2.1

/-- The price of the benchmark on a day that has one. -/
def price (r : Date × ℚ × Option ℚ) : ℚ := r.2.2.getD 1

/-- The value on the first day after a day, and on the last day up to a day. -/
def firstValue (curve : Curve) (v : Date × ℚ × Option ℚ → ℚ) (s : Option Date) : ℚ :=
  ((curve.since s).head?.map v).getD 1

/-- The value on the last day up to `e`. -/
def lastValue (curve : Curve) (v : Date × ℚ × Option ℚ → ℚ) (e : Date) : ℚ :=
  ((curve.upTo e).getLast?.map v).getD 1

/-- The move of a value within a period. -/
def move (curve : Curve) (v : Date × ℚ × Option ℚ → ℚ) (p : Option Date × Date) : ℚ :=
  curve.lastValue v p.2 / curve.firstValue v p.1

/-- The move of a value over the whole curve. -/
def total (curve : Curve) (v : Date × ℚ × Option ℚ → ℚ) : ℚ :=
  (curve.getLast?.map v).getD 1 / (curve.head?.map v).getD 1

/-- The moves from the end of each period but the last to the day after it. -/
def overnight (curve : Curve) (v : Date × ℚ × Option ℚ → ℚ) (ends : List Date) : ℚ :=
  (ends.dropLast.map fun e => curve.firstValue v (some e) / curve.lastValue v e).prod

section Values

variable {v : Date × ℚ × Option ℚ → ℚ} (hv : ∀ r ∈ curve, 0 < v r)
include hv

theorem firstValue_pos (s : Option Date) : 0 < curve.firstValue v s := by
  unfold firstValue
  rcases h : (curve.since s).head? with - | r
  · exact one_pos
  · exact hv r (List.mem_filter.mp (List.mem_of_mem_head? h)).1

theorem lastValue_pos (e : Date) : 0 < curve.lastValue v e := by
  unfold lastValue
  rcases h : (curve.upTo e).getLast? with - | r
  · exact one_pos
  · exact hv r (List.mem_filter.mp (List.mem_of_mem_getLast? h)).1

/-- **The moves of the periods** and those between them make up the move of the curve. -/
theorem total_eq (h : curve.Chained ends) :
    curve.total v = ((chain none ends).map (curve.move v)).prod * curve.overnight v ends := by
  obtain ⟨e, es, rfl⟩ := List.exists_cons_of_ne_nil h.ne_nil
  have hlast := h.last
  rw [List.getLast?_eq_some_getLast (List.cons_ne_nil e es)] at hlast
  have htotal : curve.total v = curve.lastValue v ((e :: es).getLast (List.cons_ne_nil e es)) /
      curve.firstValue v none := by
    rw [total, lastValue, firstValue, upTo_last h.sorted hlast.symm, since_none]
  rw [htotal]
  exact prod_chain (fun s => (curve.firstValue_pos hv s).ne')
    (fun e => (curve.lastValue_pos hv e).ne') none e es

theorem prod_move_eq_total_iff (h : curve.Chained ends) :
    ((chain none ends).map (curve.move v)).prod = curve.total v ↔
      curve.overnight v ends = 1 := by
  have hprod : 0 < ((chain none ends).map (curve.move v)).prod := by
    apply List.prod_pos
    intro m hm
    obtain ⟨p, -, rfl⟩ := List.mem_map.mp hm
    exact div_pos (curve.lastValue_pos hv p.2) (curve.firstValue_pos hv p.1)
  rw [curve.total_eq hv h, eq_comm, mul_eq_left₀ hprod.ne']

end Values

namespace Chained

variable (h : curve.Chained ends)
include h

/-- No period is without a day, that of its end. -/
theorem period_ne_nil (hp : p ∈ chain none ends) : curve.period p ≠ [] := by
  obtain ⟨hmem, hlt⟩ := lt_of_mem_chain h.increasing (by simp) hp
  obtain ⟨r, hr, hend⟩ := List.mem_map.mp (h.dates p.2 hmem)
  refine List.ne_nil_of_mem (mem_period.mpr ⟨hr, hend.le, ?_⟩)
  intro d hd
  exact hend ▸ hlt d hd

/-- A period begins with the first day after its start, and ends with its last. -/
theorem head?_period (hp : p ∈ chain none ends) :
    (curve.period p).head? = (curve.since p.1).head? := by
  obtain ⟨-, hlt⟩ := lt_of_mem_chain h.increasing (by simp) hp
  rw [since_eq_append h.sorted hlt, List.head?_append_of_ne_nil _ (h.period_ne_nil hp)]

theorem getLast?_period (hp : p ∈ chain none ends) :
    (curve.period p).getLast? = (curve.upTo p.2).getLast? := by
  obtain ⟨before, hbefore⟩ := exists_upTo_eq_append (p := p) h.sorted
  rw [hbefore, List.getLast?_append_of_ne_nil _ (h.period_ne_nil hp)]

end Chained

/-! ### The reports -/

/-- The reports of the periods, each rendered with the curve up to its end. -/
def reports (curve : Curve) (ends : List Date) (ev : Option Date × Date → EvalReport)
    (act : Option Date × Date → PeriodActivity) : List (Except Exn Report) :=
  (chain none ends).map fun p => renderReport {
    periodStart := p.1
    periodEnd := p.2
    equityRows := curve.upTo p.2
    evalReport := ev p
    activity := act p }

/-- A return that a report prints. -/
def printed (pick : EquitySection → Option ℚ) : Except Exn Report → Option ℚ
  | .ok report => report.equity.bind pick
  | .error _ => none

/-- Every report prints a return, and these compound to the total. -/
def Compounds (reports : List (Except Exn Report)) (pick : EquitySection → Option ℚ)
    (total : ℚ) : Prop :=
  ∃ rets : List ℚ, reports.map (printed pick) = rets.map some ∧ (rets.map (1 + ·)).prod = total

theorem Compounds.isSome {reports : List (Except Exn Report)} {pick : EquitySection → Option ℚ}
    {t : ℚ} (h : Compounds reports pick t) {r : Except Exn Report} (hr : r ∈ reports) :
    (printed pick r).isSome := by
  obtain ⟨rets, hrets, -⟩ := h
  obtain ⟨ret, -, hret⟩ := List.mem_map.mp (hrets ▸ List.mem_map_of_mem hr)
  exact Option.isSome_iff_exists.mpr ⟨ret, hret.symm⟩

theorem compounds_map_iff {β : Type*} {ps : List β} {f : β → Except Exn Report}
    {pick : EquitySection → Option ℚ} {g : β → ℚ} {t : ℚ}
    (hf : ∀ q ∈ ps, printed pick (f q) = some (g q - 1)) :
    Compounds (ps.map f) pick t ↔ (ps.map g).prod = t := by
  have hprinted : (ps.map f).map (printed pick) = (ps.map fun q => g q - 1).map some := by
    rw [List.map_map, List.map_map]
    exact List.map_congr_left hf
  have hgrowth : (ps.map fun q => g q - 1).map (1 + ·) = ps.map g := by
    rw [List.map_map]
    exact List.map_congr_left fun q _ => add_sub_cancel 1 (g q)
  constructor
  · rintro ⟨rets, hrets, hprod⟩
    have hsame : rets = ps.map fun q => g q - 1 :=
      List.map_injective_iff.mpr (Option.some_injective ℚ) (hrets.symm.trans hprinted)
    rwa [hsame, hgrowth] at hprod
  · intro hprod
    exact ⟨_, hprinted, hgrowth ▸ hprod⟩

/-- The benchmark of positive prices has a return, given two of them. -/
theorem benchReturn_eq {pts : List ℚ} (hpos : ∀ b ∈ pts, 0 < b) :
    benchReturn pts = .ok (if pts.length < 2 then none
      else some ((pts.getLast?.getD 1) / (pts.head?.getD 1) - 1)) := by
  rcases pts with - | ⟨b, pts⟩
  · rfl
  · have hb : b ≠ 0 := (hpos b List.mem_cons_self).ne'
    simp only [benchReturn, List.head?_cons, List.getLast?_eq_some_getLast (List.cons_ne_nil b pts),
      if_neg hb, Option.getD_some]
    split_ifs
    · rfl
    · rfl

/-- The asset section of a period. -/
def periodSection (curve : Curve) (p : Option Date × Date) : EquitySection where
  startEq := curve.firstValue assets p.1
  endEq := curve.lastValue assets p.2
  ret := some (curve.move assets p - 1)
  bench :=
    let pts := (curve.period p).filterMap fun r => r.2.2
    if pts.length < 2 then none else some (pts.getLast?.getD 1 / pts.head?.getD 1 - 1)

theorem Chained.equitySection_period (h : curve.Chained ends) (hp : p ∈ chain none ends) :
    equitySection (curve.period p) = .ok (some (curve.periodSection p)) := by
  have hpts : ∀ b ∈ (curve.period p).filterMap fun r => r.2.2, 0 < b := by
    intro b hb
    obtain ⟨r, hr, hb⟩ := List.mem_filterMap.mp hb
    exact h.prices_positive r (mem_period.mp hr).1 b hb
  obtain ⟨first, hfirst⟩ := Option.ne_none_iff_exists'.mp
    (mt List.head?_eq_none_iff.mp (h.period_ne_nil hp))
  obtain ⟨last, hlast⟩ := Option.ne_none_iff_exists'.mp
    (mt List.getLast?_eq_none_iff.mp (h.period_ne_nil hp))
  have hstart : curve.firstValue assets p.1 = first.2.1 := by
    rw [firstValue, ← h.head?_period hp, hfirst]
    rfl
  have hend : curve.lastValue assets p.2 = last.2.1 := by
    rw [lastValue, ← h.getLast?_period hp, hlast]
    rfl
  have hpos : 0 < first.2.1 := hstart ▸ firstValue_pos h.positive p.1
  unfold equitySection
  simp only [hfirst, hlast, benchReturn_eq hpts, if_pos hpos]
  rw [periodSection, move, hstart, hend]
  rfl

/-- What the report of a period prints. -/
theorem Chained.printed_render (h : curve.Chained ends) (hp : p ∈ chain none ends)
    (ev : Option Date × Date → EvalReport) (act : Option Date × Date → PeriodActivity)
    (pick : EquitySection → Option ℚ) :
    printed pick (renderReport {
      periodStart := p.1, periodEnd := p.2, equityRows := curve.upTo p.2
      evalReport := ev p, activity := act p }) = pick (curve.periodSection p) := by
  unfold renderReport
  rw [show (curve.upTo p.2).filter (fun r => Db.after p.1 r.1) = curve.period p from rfl,
    h.equitySection_period hp]
  rfl

variable {ev : Option Date × Date → EvalReport} {act : Option Date × Date → PeriodActivity}

/-- **The returns of the assets compound** exactly when the moves between the periods
cancel. -/
theorem Chained.compounds_ret_iff (h : curve.Chained ends) :
    Compounds (curve.reports ends ev act) EquitySection.ret (curve.total assets) ↔
      curve.overnight assets ends = 1 := by
  have hprinted := fun p hp => h.printed_render (p := p) hp ev act EquitySection.ret
  rw [reports, compounds_map_iff (g := curve.move assets) hprinted]
  exact prod_move_eq_total_iff h.positive h

section Priced

variable (hpriced : ∀ r ∈ curve, r.2.2.isSome)
include hpriced

/-- With a price on every day, the benchmark moves as its prices at the ends do. -/
theorem Chained.periodSection_bench (h : curve.Chained ends) (hp : p ∈ chain none ends) :
    (curve.periodSection p).bench =
      if (curve.period p).length < 2 then none else some (curve.move price p - 1) := by
  have hpts : (curve.period p).filterMap (fun r => r.2.2) = (curve.period p).map price := by
    rw [← List.filterMap_eq_map]
    apply List.filterMap_congr
    intro r hr
    obtain ⟨b, hb⟩ := Option.isSome_iff_exists.mp (hpriced r (mem_period.mp hr).1)
    simp [price, hb]
  simp only [periodSection, hpts, List.length_map, List.getLast?_map, List.head?_map,
    h.getLast?_period hp, h.head?_period hp]
  rfl

theorem Chained.compounds_bench_iff (h : curve.Chained ends) :
    Compounds (curve.reports ends ev act) EquitySection.bench (curve.total price) ↔
      (∀ p ∈ chain none ends, 2 ≤ (curve.period p).length) ∧
        curve.overnight price ends = 1 := by
  have hprice : ∀ r ∈ curve, 0 < price r := by
    intro r hr
    obtain ⟨b, hb⟩ := Option.isSome_iff_exists.mp (hpriced r hr)
    rw [price, hb]
    exact h.prices_positive r hr b hb
  have hprinted := fun p hp => h.printed_render (p := p) hp ev act EquitySection.bench
  have hbench : ∀ p ∈ chain none ends, 2 ≤ (curve.period p).length →
      printed EquitySection.bench _ = some (curve.move price p - 1) := fun p hp hlong => by
    rw [hprinted p hp, h.periodSection_bench hpriced hp, if_neg (not_lt.mpr hlong)]
  constructor
  · intro hcompounds
    have hlong : ∀ p ∈ chain none ends, 2 ≤ (curve.period p).length := by
      intro p hp
      by_contra hshort
      -- a report of one day prints none
      have hsome := hcompounds.isSome (List.mem_map_of_mem hp)
      rw [hprinted p hp, h.periodSection_bench hpriced hp, if_pos (not_le.mp hshort)] at hsome
      cases hsome
    rw [reports, compounds_map_iff fun p hp => hbench p hp (hlong p hp),
      prod_move_eq_total_iff hprice h] at hcompounds
    exact ⟨hlong, hcompounds⟩
  · rintro ⟨hlong, hovernight⟩
    rw [reports, compounds_map_iff fun p hp => hbench p hp (hlong p hp)]
    exact (prod_move_eq_total_iff hprice h).mpr hovernight

end Priced

/-! ### The result -/

/-- **The returns of the periods compound** to that of the whole exactly when the moves
from the end of each period to the day after it cancel; those of the benchmark, with a
price on every day, when no period is of one day besides. -/
theorem periodReturns_compound_iff (h : curve.Chained ends)
    (ev : Option Date × Date → EvalReport) (act : Option Date × Date → PeriodActivity) :
    (Compounds (curve.reports ends ev act) EquitySection.ret (curve.total assets) ↔
        curve.overnight assets ends = 1) ∧
      ((∀ r ∈ curve, r.2.2.isSome) →
        (Compounds (curve.reports ends ev act) EquitySection.bench (curve.total price) ↔
          (∀ p ∈ chain none ends, 2 ≤ (curve.period p).length) ∧
            curve.overnight price ends = 1)) :=
  ⟨h.compounds_ret_iff, fun hpriced => h.compounds_bench_iff hpriced⟩

end Curve

/-! ### The reports of an archive -/

namespace Archive

/-- The recorded periods follow one another, and each is of a curve that ends with it. -/
structure Tiled (s : Archive) : Prop where
  chained : (s.reports.map fun r => (r.body.args.periodStart, r.body.args.periodEnd)) =
    chain none (s.reports.map ReportRow.periodEnd)
  upTo_end : ∀ r ∈ s.reports, Curve.upTo r.body.args.equityRows r.periodEnd =
    r.body.args.equityRows

variable {app : App} {s : Archive}

/-- What a report is rendered from: the curve as it is, from the end recorded last. -/
theorem generateReport_args (app : App) (force : Bool) (file : Option String) (s : Archive) :
    (generateReport app force file s).2 = s ∨ ∃ path body,
      (generateReport app force file s).2 = s.recordReport body.args.periodEnd path body ∧
        body.args.periodStart = s.lastReportPeriodEnd ∧
        body.args.equityRows = s.server.db.loadDailyEquity ∧
        s.server.db.periodEnd = some body.args.periodEnd := by
  refine Effect.wp.state (P := fun s' => s' = s ∨ ∃ path body,
    s' = s.recordReport body.args.periodEnd path body ∧
      body.args.periodStart = s.lastReportPeriodEnd ∧
      body.args.equityRows = s.server.db.loadDailyEquity ∧
      s.server.db.periodEnd = some body.args.periodEnd) ?_
  unfold generateReport
  split
  · rw [Effect.wp_bind, Effect.wp_look]
    simp only
    rcases hrow : s.server.db.loadDailyEquity.getLast? with - | ⟨e, row⟩
    · exact Or.inl rfl
    · simp only [Effect.wp_bind, Effect.wp_look]
      split
      · exact Or.inl rfl
      · rw [Effect.wp_bind, Effect.wp_lift]
        refine ⟨fun r _ => ?_, fun _ _ => Or.inl rfl⟩
        rw [Effect.wp_bind, Effect.wp_lift]
        refine ⟨fun body hbody => ?_, fun _ _ => Or.inl rfl⟩
        have hargs := renderReport_args hbody
        refine Or.inr ⟨file.getD "", body, ?_, ?_, ?_, ?_⟩
        · rw [hargs]
        · rw [hargs]
        · rw [hargs]
        · rw [hargs, Db.periodEnd, hrow]
          rfl
  · exact Or.inl rfl

theorem Tiled.generate (h : Tiled s) (force : Bool) (file : Option String) :
    Tiled (generateReport app force file s).2 := by
  rcases generateReport_args app force file s with hsame | ⟨path, body, hrec, hstart, hrows, hend⟩
  · rw [hsame]
    exact h
  · rw [hrec]
    constructor
    · show ((s.reports ++ [_]).map _) = chain none ((s.reports ++ [_]).map ReportRow.periodEnd)
      rw [List.map_append, List.map_append, h.chained, List.map_singleton, List.map_singleton,
        chain_concat, List.getLast?_map, Option.or_none, hstart]
      rfl
    · intro r hr
      rcases List.mem_append.mp hr with hr | hr
      · exact h.upTo_end r hr
      · rw [List.mem_singleton.mp hr]
        show Curve.upTo body.args.equityRows body.args.periodEnd = body.args.equityRows
        rw [hrows]
        exact Curve.upTo_last s.server.db.loadDailyEquity_sorted hend

/-- **In every run the reports are of periods that follow one another**, the first from the
start of the operation, and each is rendered with the curve up to its end. -/
theorem tiled_run (app : App) (es : List Event) : Tiled ((start app).run app es) := by
  refine Run.foldl_invariant (fun s e h => ?_) ⟨rfl, by rintro r ⟨⟩⟩ es
  cases e with
  | server e => exact ⟨h.chained, h.upTo_end⟩
  | generate force file => exact h.generate force file
  | scheduled now file =>
    show Tiled (scheduledReport app now file s).2
    rcases scheduledReport_cases app now file s with hsame | hsame
    · rw [hsame]
      exact h
    · rw [hsame]
      exact h.generate false file

end Archive

/-! ### Two curves -/

/-- A curve that stands still after its second day. -/
def Sample.resting : Curve := [(1, 100, some 10), (2, 110, some 11), (3, 110, some 11),
  (4, 121, some 12)]

theorem Sample.resting_chained : Sample.resting.Chained [2, 4] := by
  constructor <;> decide +kernel

/-- A curve that rises every day. -/
def Sample.rising : Curve := [(1, 100, some 10), (2, 110, some 11), (3, 121, some 12)]

theorem Sample.rising_chained : Sample.rising.Chained [2, 3] := by
  constructor <;> decide +kernel

/-- Reports of nothing but the curve. -/
def Sample.reports (curve : Curve) (ends : List Date) : List (Except Exn Report) :=
  curve.reports ends (fun _ => Evaluation.tooShort 0 0) fun _ => ⟨[], [], [], []⟩

namespace Curve

theorem periodReturns_compound_resting :
    Compounds (Sample.reports Sample.resting [2, 4]) EquitySection.ret
        (Sample.resting.total assets) ∧
      Compounds (Sample.reports Sample.resting [2, 4]) EquitySection.bench
        (Sample.resting.total price) := by
  obtain ⟨hret, hbench⟩ := periodReturns_compound_iff Sample.resting_chained
    (fun _ => Evaluation.tooShort 0 0) fun _ => ⟨[], [], [], []⟩
  exact ⟨hret.mpr (by decide +kernel), (hbench (by decide +kernel)).mpr (by decide +kernel)⟩

theorem periodReturns_not_compound :
    Sample.rising.Chained [2, 3] ∧
      ¬ Compounds (Sample.reports Sample.rising [2, 3]) EquitySection.ret
        (Sample.rising.total assets) := by
  refine ⟨Sample.rising_chained, fun h => ?_⟩
  have hcancel := Sample.rising_chained.compounds_ret_iff.mp h
  exact absurd hcancel (by decide +kernel)

end Curve

end AutoTrade
