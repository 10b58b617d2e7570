/-
AutoTrade/ExcessInterval.lean

Whether the excess return compares the same interval.

The curve has one point a day, with the price of the benchmark that the last row of
the day had, if any.  `evaluate` measures the return of the assets from the first point
to the last, and that of the benchmark from the first price to the last, wherever these
are.  The two intervals are the same exactly when both ends of the curve have a price,
or there is no excess return at all (`excess_sameInterval_iff`).
-/
import AutoTrade.Reports

namespace AutoTrade

open Evaluation

/-! ### What `evaluate` returns -/

theorem bench_eq_some_iff {dailyBenchmark : List (Date × Option ℚ)} {b : ℚ} :
    bench dailyBenchmark = some b ↔
      ∃ first last, (prices dailyBenchmark).head? = some first ∧
        (prices dailyBenchmark).getLast? = some last ∧
        2 ≤ (prices dailyBenchmark).length ∧ 0 < first ∧ b = last / first - 1 := by
  unfold bench
  constructor
  · intro h
    split at h
    · next first last hfirst hlast =>
      split_ifs at h with hpos
      exact ⟨first, last, hfirst, hlast, hpos.1, hpos.2, (Option.some.inj h).symm⟩
    · cases h
  · rintro ⟨first, last, hfirst, hlast, hlen, hpos, rfl⟩
    simp only [hfirst, hlast]
    rw [if_pos ⟨hlen, hpos⟩]

namespace Curve

/-- The equity of each day. -/
def equity (curve : Curve) : List (Date × ℚ) := curve.map fun r => (r.1, r.2.1)

/-- The price of the benchmark of each day, where there is one. -/
def benchmark (curve : Curve) : List (Date × Option ℚ) := curve.map fun r => (r.1, r.2.2)

/-- The price of the first day, and that of the last. -/
def firstPrice (curve : Curve) : Option ℚ := curve.head?.bind fun r => r.2.2

/-- The price of the last day. -/
def lastPrice (curve : Curve) : Option ℚ := curve.getLast?.bind fun r => r.2.2

/-- There is no return of the assets, or none of the benchmark, to compare. -/
def Incomparable (curve : Curve) : Prop :=
  (returns (curve.map fun r => r.2.1)).length < 2 ∨ (curve.head?.map fun r => r.2.1) = some 0 ∨
    (curve.filterMap fun r => r.2.2).length < 2 ∨
    ((curve.filterMap fun r => r.2.2).head?.any fun p => p ≤ 0)

instance (curve : Curve) : Decidable curve.Incomparable := inferInstanceAs (Decidable (_ ∨ _))

theorem prices_benchmark (curve : Curve) :
    prices curve.benchmark = curve.filterMap fun r => r.2.2 := by
  rw [prices, benchmark, List.filterMap_map]
  rfl

variable {sqrt : ℚ → ℚ} {curve : Curve} {nTrades : ℕ} {minTrades : ℤ} {report : EvalReport}

/-- A report with an excess return has the benchmark's, from the first price there is to
the last. -/
theorem evaluate_excess
    (h : evaluate sqrt curve.equity curve.benchmark nTrades minTrades = .ok report)
    (hexcess : report.excessReturn ≠ none) :
    ¬ curve.Incomparable ∧ report.benchmarkReturn = bench curve.benchmark := by
  unfold evaluate at h
  simp only [equity, List.map_map, Function.comp_def, List.head?_map, List.getLast?_map] at h
  split_ifs at h with hshort
  · obtain rfl := Except.ok.inj h
    exact absurd rfl hexcess
  · split at h
    · next e₀ e₁ hhead hlast =>
      split_ifs at h with hzero
      obtain rfl := Except.ok.inj h
      refine ⟨?_, rfl⟩
      rcases hb : bench curve.benchmark with - | b
      · exact absurd (by simp [hb]) hexcess
      · obtain ⟨first, last, hfirst, -, hlen, hpos, -⟩ := bench_eq_some_iff.mp hb
        rw [prices_benchmark] at hfirst hlen
        rintro (hlt | hhead' | hlt | hle)
        · exact hshort hlt
        · rw [hhead] at hhead'
          exact hzero (Option.some.inj hhead')
        · omega
        · rw [hfirst, Option.any_some, decide_eq_true_eq] at hle
          exact absurd hle (not_le.mpr hpos)
    · cases h

/-- There is such a report unless there is nothing to compare. -/
theorem exists_excess (h : ¬ curve.Incomparable) :
    ∃ report, evaluate sqrt curve.equity curve.benchmark nTrades minTrades = .ok report ∧
      report.excessReturn ≠ none := by
  unfold Incomparable at h
  push Not at h
  obtain ⟨hlong, hhead, hlen, hprice⟩ := h
  have hne : curve ≠ [] := by
    rintro rfl
    simp at hlen
  have hprices : curve.filterMap (fun r => r.2.2) ≠ [] := by
    intro hnil
    simp [hnil] at hlen
  have hbench : bench curve.benchmark = some
      ((curve.filterMap fun r => r.2.2).getLast hprices /
        (curve.filterMap fun r => r.2.2).head hprices - 1) := by
    refine bench_eq_some_iff.mpr ⟨_, _, ?_, ?_, ?_, ?_, rfl⟩
    · rw [prices_benchmark, List.head?_eq_some_head hprices]
    · rw [prices_benchmark, List.getLast?_eq_some_getLast hprices]
    · rwa [prices_benchmark]
    · rw [List.head?_eq_some_head hprices, Option.any_some] at hprice
      simpa using hprice
  rw [List.head?_eq_some_head hne] at hhead
  have hzero : (curve.head hne).2.1 ≠ 0 := fun hz => hhead (by rw [Option.map_some, hz])
  unfold evaluate
  simp only [equity, List.map_map, Function.comp_def, List.head?_map, List.getLast?_map,
    List.head?_eq_some_head hne, List.getLast?_eq_some_getLast hne, Option.map_some, hbench]
  rw [if_neg (not_lt.mpr hlong), if_neg hzero]
  exact ⟨_, rfl, Option.some_ne_none _⟩

/-! ### The prices at the ends -/

/-- Where both ends have a price, they are the first and the last there is. -/
theorem bench_of_ends {b₀ b₁ : ℚ} (h₀ : curve.firstPrice = some b₀)
    (h₁ : curve.lastPrice = some b₁) :
    (curve.filterMap fun r => r.2.2).head? = some b₀ ∧
      (curve.filterMap fun r => r.2.2).getLast? = some b₁ := by
  obtain ⟨r₀, hr₀, hb₀⟩ := Option.bind_eq_some_iff.mp h₀
  obtain ⟨r₁, hr₁, hb₁⟩ := Option.bind_eq_some_iff.mp h₁
  constructor
  · obtain ⟨rest, rfl⟩ := List.head?_eq_some_iff.mp hr₀
    rw [List.head?_filterMap, List.findSome?_cons, hb₀]
  · obtain ⟨rest, rfl⟩ := List.getLast?_eq_some_iff.mp hr₁
    rw [List.getLast?_filterMap, List.reverse_append, List.reverse_singleton,
      List.singleton_append, List.findSome?_cons, hb₁]

/-- The returns of a report are of one interval: if there is an excess return, the
benchmark's return is from the price of the first day to that of the last. -/
def SameInterval (curve : Curve) (report : EvalReport) : Prop :=
  report.excessReturn ≠ none →
    ∃ b₀ b₁, curve.firstPrice = some b₀ ∧ curve.lastPrice = some b₁ ∧
      report.benchmarkReturn = some (b₁ / b₀ - 1)

theorem sameInterval_iff :
    (∀ report, evaluate sqrt curve.equity curve.benchmark nTrades minTrades = .ok report →
        curve.SameInterval report) ↔
      curve.Incomparable ∨ (curve.firstPrice.isSome ∧ curve.lastPrice.isSome) := by
  constructor
  · intro h
    by_cases hcomp : curve.Incomparable
    · exact Or.inl hcomp
    · obtain ⟨report, hreport, hexcess⟩ := @exists_excess sqrt curve nTrades minTrades hcomp
      obtain ⟨b₀, b₁, h₀, h₁, -⟩ := h report hreport hexcess
      exact Or.inr ⟨by simp [h₀], by simp [h₁]⟩
  · rintro hcond report hreport hexcess
    obtain ⟨hcomp, hbench⟩ := evaluate_excess hreport hexcess
    obtain ⟨h₀, h₁⟩ := hcond.resolve_left hcomp
    obtain ⟨b₀, h₀⟩ := Option.isSome_iff_exists.mp h₀
    obtain ⟨b₁, h₁⟩ := Option.isSome_iff_exists.mp h₁
    obtain ⟨hfirst, hlast⟩ := bench_of_ends h₀ h₁
    unfold Incomparable at hcomp
    push Not at hcomp
    have hpos : 0 < b₀ := by
      have hprice := hcomp.2.2.2
      rw [hfirst, Option.any_some] at hprice
      simpa using hprice
    refine ⟨b₀, b₁, h₀, h₁, hbench.trans (bench_eq_some_iff.mpr ⟨b₀, b₁, ?_⟩)⟩
    rw [prices_benchmark]
    exact ⟨hfirst, hlast, hcomp.2.2.1, hpos, rfl⟩

end Curve

/-! ### The rows that the curve is of -/

/-- The price that the last row of a day has. -/
def Db.dayPrice (db : Db) (d : Date) : Option ℚ :=
  ((db.paperEquity.filter fun r => r.tradeDate = d).getLast?).bind PaperEquityRow.benchmarkPrice

/-- A day's point has what the last row of the day has. -/
theorem price_of_mem_loadDailyEquity {db : Db} {r : Date × ℚ × Option ℚ}
    (h : r ∈ db.loadDailyEquity) : r.2.2 = db.dayPrice r.1 := by
  rw [Db.loadDailyEquity, List.mem_insertionSort] at h
  have hget := Dict.get?_eq_some.mpr h
  rw [Dict.get?_ofList_eq_getLast?, List.filter_map, List.getLast?_map, Option.map_map] at hget
  obtain ⟨row, hrow, hr⟩ := Option.map_eq_some_iff.mp hget
  have hrow' : (db.paperEquity.filter fun q => q.tradeDate = r.1).getLast? = some row := hrow
  rw [Db.dayPrice, hrow', Option.bind_some]
  exact (congrArg Prod.snd hr).symm

theorem bind_dayPrice {db : Db} {o : Option (Date × ℚ × Option ℚ)}
    (h : ∀ r ∈ o, r ∈ db.loadDailyEquity) :
    (o.bind fun r => db.dayPrice r.1) = o.bind fun r => r.2.2 := by
  rcases o with - | r
  · rfl
  · exact (price_of_mem_loadDailyEquity (h r rfl)).symm

/-- **The excess return compares one interval** exactly when there is none, or the last
row of the first day and the last row of the last day have a price of the benchmark. -/
theorem excess_sameInterval_iff (sqrt : ℚ → ℚ) (rows : List PaperEquityRow) (nTrades : ℕ)
    (minTrades : ℤ) :
    let db : Db := { paperEquity := rows }
    let curve : Curve := db.loadDailyEquity
    (∀ report, evaluate sqrt curve.equity curve.benchmark nTrades minTrades = .ok report →
        curve.SameInterval report) ↔
      curve.Incomparable ∨ ((curve.head?.bind fun r => db.dayPrice r.1).isSome ∧
        (curve.getLast?.bind fun r => db.dayPrice r.1).isSome) := by
  intro db curve
  rw [Curve.sameInterval_iff, bind_dayPrice fun r hr => List.mem_of_mem_head? hr,
    bind_dayPrice fun r hr => List.mem_of_mem_getLast? hr]
  rfl

/-- A first day whose last row is without the price that an earlier row of the day had. -/
def Sample.lostPrice : List PaperEquityRow :=
  [⟨Sample.tenOClock, 1, 100, 100, 0, 0, some 90⟩, ⟨Sample.tenOClock, 1, 100, 100, 0, 0, none⟩,
    ⟨Sample.tenOClock, 2, 110, 110, 0, 0, some 100⟩,
    ⟨Sample.tenOClock, 3, 121, 121, 0, 0, some 110⟩]

theorem excess_not_sameInterval :
    ¬ ∀ report, evaluate id (Curve.equity (Db.loadDailyEquity { paperEquity := Sample.lostPrice }))
      (Curve.benchmark (Db.loadDailyEquity { paperEquity := Sample.lostPrice })) 0 = .ok report →
        Curve.SameInterval (Db.loadDailyEquity { paperEquity := Sample.lostPrice }) report := by
  intro h
  have hcond := Curve.sameInterval_iff.mp h
  exact absurd hcond (by decide +kernel)

end AutoTrade
