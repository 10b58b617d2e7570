/-
AutoTrade/BreakerHalt.lean

The circuit breaker over whole runs, ticks included.

`runTick_breaker` says what a tick does to the breaker: nothing, or one
assessment; so a run with ticks is a run of the breaker's own events, and what
`CircuitBreaker` proves about those holds of it.  `settledIn_not_buy` is the
other half: when the breaker is tripped, no buy of the tick is accepted.
-/
import AutoTrade.Pipeline

namespace AutoTrade

open CircuitBreaker

/-- A tick assesses the breaker at most once, at its own time. -/
theorem runTick_breaker (args : TickArgs) (svc : OrderService) :
    ∃ fs : List CircuitBreaker.Event,
      (fs = [] ∨ ∃ equity rate, fs = [.assess equity rate args.now]) ∧
        (runTick args svc).2.circuitBreaker = svc.circuitBreaker.run fs := by
  rcases runTick_setup args svc with ⟨-, hsvc⟩ | ⟨g, -, hsame⟩
  · exact ⟨[], Or.inl rfl, by rw [hsvc]; rfl⟩
  · exact ⟨[.assess g.equity g.holdings.dailyProfitLossRate args.now], Or.inr ⟨_, _, rfl⟩,
      hsame.circuitBreaker⟩

/-- **A tripped breaker stops every buy of the tick.** -/
theorem settledIn_not_buy {args : TickArgs} {svc : OrderService}
    (htrip : (runTick args svc).2.circuitBreaker.tripped) :
    ∀ o ∈ settledIn args svc, ¬ o.acceptedBuy := by
  refine settledIn_forall ?_
  intro g decisions hg hd d hmem orders s order res s' hsame hsub hdup hbuy
  have hboth := OrderResult.acceptedBuy_iff.mp hbuy
  have hfinal : (runTick args svc).2.circuitBreaker = s.circuitBreaker := by
    rcases runTick_setup args svc with ⟨hnone, -⟩ | ⟨g', hg', hsame'⟩
    · exact absurd hg (hnone g)
    · rw [hg] at hg'
      cases hg'
      rw [hsame'.circuitBreaker, hsame.circuitBreaker]
  cases hsub with
  | duplicate hctx hgate halloc hseen => exact hdup rfl
  | settled hctx hgate halloc hseen hs =>
    have hpass := (runGuardrails_eq_nil.mp (hs.passed_of_accepted hboth.2)).2.1
    rw [guardCircuitBreaker_eq_none (hs.answers.2.1 ▸ hboth.1)] at hpass
    have hopen : s.circuitBreaker.tripped = false := (Bool.or_eq_false_iff.mp hpass).2
    rw [hfinal, hopen] at htrip
    cases htrip

/-! ### The latches of a new breaker -/

section Latches

variable {cfg : CircuitBreakerConfig} {es pre mid post : List CircuitBreaker.Event}
  {equity rate : Option ℚ} {now : Datetime} {d : Date}

/-- Until a release the drawdown latch trips every assessment. -/
theorem assess_drawdown_latched (hband : cfg.rearmDrawdown < cfg.maxDrawdownLimit)
    (hon : (run { config := cfg } pre).drawdownHalt)
    (hstay : Run.Admits step (fun c e => ¬ Releases c e) (run { config := cfg } pre)
      (mid ++ [.assess equity rate now])) :
    ((run { config := cfg } (pre ++ mid)).assess equity rate now).1 = true := by
  have hhalt := drawdownHalt_stays hband ((wf_new cfg).run hband pre) hon hstay
  rw [← run_append, ← List.append_assoc, run_append] at hhalt
  rw [assess_fst, tripped_iff]
  exact Or.inl hhalt

/-- What lies between the day a daily latch names and a later assessment of that
day is on that day. -/
theorem dates_between (hdates : (es.filterMap Event.date?).Pairwise (· ≤ ·))
    (hes : es = pre ++ (mid ++ .assess equity rate now :: post))
    (hd : (run { config := cfg } pre).dailyHaltDate = some d) (hnow : now.date = d) :
    ∀ t ∈ mid.filterMap Event.date?, t = d := by
  -- the latch was set by an assessment of the day it names
  have hmem : d ∈ pre.filterMap Event.date? := by
    rcases dailyHaltDate_mem hd with h | h
    · cases h
    · exact h
  intro t ht
  rw [hes, List.filterMap_append, List.filterMap_append, List.pairwise_append] at hdates
  obtain ⟨-, hmid, hcross⟩ := hdates
  rw [List.pairwise_append] at hmid
  have hlow : d ≤ t := hcross d hmem t (List.mem_append_left _ ht)
  have hhigh : t ≤ now.date := hmid.2.2 t ht now.date (by simp [Event.date?])
  exact le_antisymm (hnow ▸ hhigh) hlow

/-- Until a reset the daily latch trips every assessment of its day. -/
theorem assess_daily_latched (hdates : (es.filterMap Event.date?).Pairwise (· ≤ ·))
    (hes : es = pre ++ (mid ++ .assess equity rate now :: post))
    (hd : (run { config := cfg } pre).dailyHaltDate = some d) (hreset : .reset ∉ mid)
    (hnow : now.date = d) :
    ((run { config := cfg } (pre ++ mid)).assess equity rate now).1 = true := by
  have hkeep := dailyHaltDate_run hd hreset (dates_between hdates hes hd hnow)
  rw [← run_append] at hkeep
  rw [assess_fst, tripped_iff]
  refine Or.inr ⟨d, ?_, ?_⟩
  · rw [assess_dailyHaltDate, hkeep, hnow, ite_self]
  · rw [assess_today, hnow]

/-- On another day the daily latch alone trips nothing. -/
theorem assess_other_day (hband : cfg.rearmDrawdown < cfg.maxDrawdownLimit)
    (hd : (run { config := cfg } pre).dailyHaltDate = some d) (hnow : now.date ≠ d)
    (htrip : ((run { config := cfg } pre).assess equity rate now).1 = true) :
    ((run { config := cfg } pre).assess equity rate now).2.drawdownHalt ∨
      dailyLoss cfg rate := by
  rw [assess_fst, tripped_iff] at htrip
  rcases htrip with htrip | ⟨t, ht, htoday⟩
  · exact Or.inl htrip
  · right
    rw [assess_today, Option.some.injEq] at htoday
    rw [assess_dailyHaltDate, ((wf_new cfg).run hband pre).config] at ht
    by_contra hloss
    rw [if_neg hloss, hd, Option.some.injEq] at ht
    exact hnow (htoday.trans ht.symm)

/-- Runs that differ by restarts agree. -/
theorem run_same_live (start : CircuitBreaker) {es' : List CircuitBreaker.Event}
    (hlive : liveEvents es' = liveEvents es) :
    start.results es' = start.results es ∧
      (start.run es').tripped = (start.run es).tripped := by
  refine ⟨?_, ?_⟩
  · rw [results_restarts, hlive, ← results_restarts]
  · have h' := (run_restarts start es').tripped
    have h := (run_restarts start es).tripped
    rw [h', hlive, ← h]

end Latches

/-- **The breaker latches.**  For every run of a new breaker with
`rearmDrawdown < maxDrawdownLimit`, restarts included, whose dates do not go
back:
* once the drawdown latch is set, every assessment is tripped until a known
  positive equity has recovered or the operator resets;
* once the daily latch is set, every assessment of its day is tripped until a
  reset, and an assessment of another day only for the drawdown latch or a new
  daily loss;
* adding or removing restarts changes no result and no later `tripped`;
* a tick after the run assesses at most once, and if the breaker is then
  tripped, it accepts no buy. -/
theorem breaker_latches (cfg : CircuitBreakerConfig)
    (hband : cfg.rearmDrawdown < cfg.maxDrawdownLimit) (es : List CircuitBreaker.Event)
    (hdates : (es.filterMap Event.date?).Pairwise (· ≤ ·)) :
    let start : CircuitBreaker := { config := cfg }
    (∀ pre mid equity rate now post, es = pre ++ (mid ++ .assess equity rate now :: post) →
      (start.run pre).drawdownHalt →
      Run.Admits step (fun c e => ¬ Releases c e) (start.run pre)
        (mid ++ [.assess equity rate now]) →
      ((start.run (pre ++ mid)).assess equity rate now).1 = true) ∧
    (∀ pre mid equity rate now post d, es = pre ++ (mid ++ .assess equity rate now :: post) →
      (start.run pre).dailyHaltDate = some d → .reset ∉ mid → now.date = d →
      ((start.run (pre ++ mid)).assess equity rate now).1 = true) ∧
    (∀ pre equity rate now post d, es = pre ++ .assess equity rate now :: post →
      (start.run pre).dailyHaltDate = some d → now.date ≠ d →
      ((start.run pre).assess equity rate now).1 = true →
      ((start.run pre).assess equity rate now).2.drawdownHalt ∨ dailyLoss cfg rate) ∧
    (∀ es', liveEvents es' = liveEvents es →
      start.results es' = start.results es ∧
        (start.run es').tripped = (start.run es).tripped) ∧
    (∀ (svc : OrderService) (args : TickArgs), svc.circuitBreaker = start.run es →
      (∃ fs, (fs = [] ∨ ∃ equity rate, fs = [.assess equity rate args.now]) ∧
        (runTick args svc).2.circuitBreaker = start.run (es ++ fs)) ∧
      ((runTick args svc).2.circuitBreaker.tripped →
        (∀ o ∈ settledIn args svc, ¬ o.acceptedBuy) ∧
        ∀ r, (runTick args svc).1 = .ok r → ∀ o ∈ r.orders, ¬ o.acceptedBuy)) := by
  intro start
  refine ⟨?_, ?_, ?_, ?_, ?_⟩
  · intro pre mid equity rate now post _ hon hstay
    exact assess_drawdown_latched hband hon hstay
  · intro pre mid equity rate now post d hes hd hreset hnow
    exact assess_daily_latched hdates hes hd hreset hnow
  · intro pre equity rate now post d _ hd hnow htrip
    exact assess_other_day hband hd hnow htrip
  · intro es' hlive
    exact run_same_live start hlive
  · intro svc args hsvc
    refine ⟨?_, ?_⟩
    · obtain ⟨fs, hfs, hrun⟩ := runTick_breaker args svc
      refine ⟨fs, hfs, ?_⟩
      rw [hrun, hsvc, run_append]
    · intro htrip
      have hset := settledIn_not_buy htrip
      refine ⟨hset, ?_⟩
      intro r hr o ho hbuy
      refine hset o ?_ hbuy
      rw [settledIn_eq hr]
      exact mem_newAnswers_of_acceptedBuy ho hbuy

/-- A day on which the equity falls by a fifth, seen again after a restart with
the equity unknown: the breaker is still tripped. -/
theorem breaker_latches_sample :
    let at10 := Sample.tenOClock
    let start : CircuitBreaker := {}
    ((start.run ([.assess (some 100) none at10, .assess (some 80) none at10] ++ [.restart])).assess
      none none at10).1 = true :=
  (breaker_latches {} (by norm_num)
    [.assess (some 100) none Sample.tenOClock, .assess (some 80) none Sample.tenOClock, .restart,
      .assess none none Sample.tenOClock] (by decide +kernel)).1
    [.assess (some 100) none Sample.tenOClock, .assess (some 80) none Sample.tenOClock]
    [.restart] none none Sample.tenOClock [] rfl (by decide +kernel)
    (by
      refine ⟨fun h => h, ?_, trivial⟩
      rintro ⟨_, h, _⟩
      cases h)

end AutoTrade
