/-
AutoTrade/TripSoundness.lean

When the breaker trips on a drop from its peak.

The peak is the greatest of the known positive equities since the last reset,
and `marks_run` says that the high-water mark is the peak.  A positive equity
is measured against it, so it trips the breaker at the limit.  An equity of
zero or below is known, but the source marks only positive ones: the latch then
reads the drawdown of an earlier call, and `Settled` is the invariant by which
that reading moves nothing.

`trip_soundness` puts the two together: a drop that reaches the limit trips the
breaker exactly when the equity is positive or the breaker is stopped already.
-/
import AutoTrade.CircuitBreaker
import Mathlib.Order.Bounds.Basic
import Mathlib.Data.List.Induction

namespace AutoTrade

namespace CircuitBreaker

/-! ### The peak -/

/-- The equity of a call, where it is known and positive. -/
def knownEquity : Event → Option ℚ
  | .assess (some e) _ _ => if 0 < e then some e else none
  | .assess none _ _ => none
  | .reset => none
  | .restart => none

/-- The events after the last reset. -/
def sinceReset (es : List Event) : List Event :=
  (es.reverse.takeWhile fun e => e ≠ .reset).reverse

/-- The known positive equities since the last reset. -/
def knownEquities (es : List Event) : List ℚ := (sinceReset es).filterMap knownEquity

/-- `H` is the greatest of the known positive equities since the last reset. -/
def Peak (es : List Event) (H : ℚ) : Prop := IsGreatest {x | x ∈ knownEquities es} H

section Peak

variable {es : List Event} {e : Event}

theorem knownEquities_reset : knownEquities (es ++ [.reset]) = [] := by
  simp [knownEquities, sinceReset]

theorem knownEquities_concat (he : e ≠ .reset) :
    knownEquities (es ++ [e]) = knownEquities es ++ (knownEquity e).toList := by
  have hsince : sinceReset (es ++ [e]) = sinceReset es ++ [e] := by
    simp [sinceReset, he]
  rw [knownEquities, hsince, List.filterMap_append]
  rcases h : knownEquity e with - | x <;> simp [h, knownEquities]

theorem knownEquities_pos {x : ℚ} (h : x ∈ knownEquities es) : 0 < x := by
  obtain ⟨e, -, he⟩ := List.mem_filterMap.mp h
  cases e with
  | assess equity rate now =>
    rcases equity with - | q
    · cases he
    · by_cases hq : 0 < q
      · simp only [knownEquity, hq, if_true, Option.some.injEq] at he
        exact he ▸ hq
      · simp [knownEquity, hq] at he
  | reset => cases he
  | restart => cases he

end Peak

/-- The high-water mark is the peak of the run so far, and there is none without
a known positive equity. -/
def Marks (es : List Event) (cb : CircuitBreaker) : Prop :=
  match cb.highWaterMark with
  | none => knownEquities es = []
  | some H => Peak es H

theorem assess_highWaterMark (cb : CircuitBreaker) (equity rate : Option ℚ) (now : Datetime) :
    (cb.assess equity rate now).2.highWaterMark = (cb.markEquity equity).highWaterMark := by
  rw [assess_eq]

/-- A known positive equity raises the mark to the new peak. -/
theorem Marks.raise {es : List Event} {cb : CircuitBreaker} (h : Marks es cb) {e : ℚ}
    (he : 0 < e) (rate : Option ℚ) (now : Datetime) :
    Peak (es ++ [.assess (some e) rate now]) (cb.raisedMark e) := by
  have hknown : knownEquities (es ++ [.assess (some e) rate now]) = knownEquities es ++ [e] := by
    rw [knownEquities_concat (by simp)]
    simp [knownEquity, he]
  unfold Peak
  rw [hknown]
  unfold Marks at h
  unfold raisedMark
  rcases hm : cb.highWaterMark with - | hwm
  · rw [hm] at h
    simp only at h
    rw [h]
    simp [IsGreatest, upperBounds]
  · rw [hm] at h
    obtain ⟨hmem, hub⟩ := h
    -- the old peak, or the new equity above it
    by_cases hlt : hwm < e
    · simp only [hlt, if_true]
      refine ⟨by simp, ?_⟩
      intro x hx
      rcases List.mem_append.mp hx with hx | hx
      · exact (hub hx).trans hlt.le
      · exact (List.mem_singleton.mp hx).le
    · simp only [hlt, if_false]
      refine ⟨List.mem_append_left _ hmem, ?_⟩
      intro x hx
      rcases List.mem_append.mp hx with hx | hx
      · exact hub hx
      · exact (List.mem_singleton.mp hx).le.trans (not_lt.mp hlt)

theorem Marks.step {es : List Event} {cb : CircuitBreaker} (h : Marks es cb) (e : Event) :
    Marks (es ++ [e]) (cb.step e) := by
  -- an event that makes no equity known leaves the mark and the peak
  have hsame : ∀ cb' : CircuitBreaker, e ≠ .reset → knownEquity e = none →
      cb'.highWaterMark = cb.highWaterMark → Marks (es ++ [e]) cb' := by
    intro cb' hne hnone heq
    unfold Marks Peak
    rw [heq, knownEquities_concat hne, hnone, Option.toList_none, List.append_nil]
    exact h
  cases e with
  | assess equity rate now =>
    by_cases hpos : ∃ e, equity = some e ∧ 0 < e
    · obtain ⟨e, rfl, he⟩ := hpos
      have hpeak := h.raise he rate now
      have hm : (cb.step (.assess (some e) rate now)).highWaterMark = some (cb.raisedMark e) := by
        show (cb.assess (some e) rate now).2.highWaterMark = _
        rw [assess_highWaterMark]
        simp [markEquity, he]
      unfold Marks
      rw [hm]
      exact hpeak
    · have hreading : cb.reading equity = none := by
        rcases equity with - | e
        · rfl
        · have he : ¬ 0 < e := fun he => hpos ⟨e, rfl, he⟩
          simp [reading, he]
      refine hsame _ (by simp) ?_ ?_
      · rcases equity with - | e
        · rfl
        · have he : ¬ 0 < e := fun he => hpos ⟨e, rfl, he⟩
          simp [knownEquity, he]
      · show (cb.assess equity rate now).2.highWaterMark = _
        rw [assess_highWaterMark, markEquity_of_reading hreading]
  | reset =>
    show Marks (es ++ [.reset]) cb.reset
    exact knownEquities_reset
  | restart =>
    refine hsame _ (by simp) rfl ?_
    rw [step_restart]

/-- **The high-water mark is the peak**, in every run. -/
theorem marks_run (cfg : CircuitBreakerConfig) (es : List Event) :
    Marks es (run { config := cfg } es) := by
  induction es using List.reverseRecOn with
  | nil => exact rfl
  | append_singleton es e ih =>
    rw [run_append]
    exact ih.step e

/-! ### What an equity that is not positive moves -/

/-- What a breaker with the limits `cfg` keeps between calls, whichever of the two
limits is the higher: a set latch has a drawdown that set it or does not release
it, and a mark is positive and comes with a drawdown that has set the latch if it
is at the limit. -/
structure Settled (cfg : CircuitBreakerConfig) (cb : CircuitBreaker) : Prop where
  config : cb.config = cfg
  armed : cb.drawdownHalt → cfg.maxDrawdownLimit ≤ cb.drawdown ∨ cfg.rearmDrawdown < cb.drawdown
  marked : ∀ hwm, cb.highWaterMark = some hwm →
    0 < hwm ∧ (cfg.maxDrawdownLimit ≤ cb.drawdown → cb.drawdownHalt)

section Settled

variable {cfg : CircuitBreakerConfig} {cb : CircuitBreaker}

theorem settled_new (cfg : CircuitBreakerConfig) : Settled cfg { config := cfg } where
  config := rfl
  armed := by simp
  marked := by simp

/-- The latch step reads the stored drawdown again when the equity is zero or
below, and leaves the latch as it is. -/
theorem Settled.latchDrawdown (h : cb.Settled cfg) (equity : Option ℚ) :
    (cb.latchDrawdown equity).drawdownHalt = cb.drawdownHalt := by
  rcases equity with - | e
  · simp [CircuitBreaker.latchDrawdown]
  · rcases hm : cb.highWaterMark with - | hwm
    · simp [CircuitBreaker.latchDrawdown, hm]
    · obtain ⟨hpos, hset⟩ := h.marked hwm hm
      rw [latchDrawdown_held e hm hpos, h.config, Bool.eq_iff_iff, Latch.held_iff]
      constructor
      · rintro (hhigh | ⟨hon, -⟩)
        · exact hset hhigh
        · exact hon
      · intro hon
        rcases h.armed hon with hhigh | hrearm
        · exact Or.inl hhigh
        · exact Or.inr ⟨hon, hrearm⟩

/-- After a known positive equity the latch is set at the limit. -/
theorem Settled.drawdownHalt_assess (h : cb.Settled cfg) {e : ℚ} (he : 0 < e)
    (hpos : 0 < cb.raisedMark e) (rate : Option ℚ) (now : Datetime) :
    (cb.assess (some e) rate now).2.drawdown = dropFrom (cb.raisedMark e) e ∧
      ((cb.assess (some e) rate now).2.drawdownHalt ↔
        cfg.maxDrawdownLimit ≤ dropFrom (cb.raisedMark e) e ∨
          cb.drawdownHalt ∧ cfg.rearmDrawdown < dropFrom (cb.raisedMark e) e) := by
  have hmark : (cb.markEquity (some e)).highWaterMark = some (cb.raisedMark e) ∧
      (cb.markEquity (some e)).drawdown = dropFrom (cb.raisedMark e) e := by
    simp [CircuitBreaker.markEquity, he, hpos]
  rw [assess_eq]
  refine ⟨hmark.2, ?_⟩
  show ((cb.markEquity (some e)).latchDrawdown (some e)).drawdownHalt ↔ _
  rw [latchDrawdown_held e hmark.1 hpos, hmark.2, markEquity_config, markEquity_drawdownHalt,
    h.config, Latch.held_iff]

theorem Settled.raisedMark_pos (h : cb.Settled cfg) {e : ℚ} (he : 0 < e) :
    0 < cb.raisedMark e := by
  unfold raisedMark
  rcases hm : cb.highWaterMark with - | hwm
  · exact he
  · have hpos := (h.marked hwm hm).1
    show 0 < if hwm < e then e else hwm
    split <;> assumption

/-- Without a known positive equity a call leaves the mark, the drawdown and its
latch. -/
theorem Settled.assess_unread (h : cb.Settled cfg) {equity : Option ℚ}
    (hequity : ∀ e, equity = some e → ¬ 0 < e) (rate : Option ℚ) (now : Datetime) :
    (cb.assess equity rate now).2.highWaterMark = cb.highWaterMark ∧
      (cb.assess equity rate now).2.drawdown = cb.drawdown ∧
      (cb.assess equity rate now).2.drawdownHalt = cb.drawdownHalt := by
  have hreading : cb.reading equity = none := by
    rcases equity with - | e
    · rfl
    · simp [reading, hequity e rfl]
  rw [assess_eq, markEquity_of_reading hreading]
  exact ⟨rfl, rfl, h.latchDrawdown equity⟩

theorem Settled.step (h : cb.Settled cfg) (e : Event) : (cb.step e).Settled cfg := by
  cases e with
  | assess equity rate now =>
    have hconfig : (cb.assess equity rate now).2.config = cfg := by rw [assess_config, h.config]
    by_cases hread : ∀ e, equity = some e → ¬ 0 < e
    -- an equity that is not positive leaves mark, drawdown and latch
    · obtain ⟨hm, hd, hh⟩ := h.assess_unread hread rate now
      refine ⟨hconfig, ?_, ?_⟩
      · show (cb.assess equity rate now).2.drawdownHalt → _
        rw [hh, show (cb.step (.assess equity rate now)).drawdown = cb.drawdown from hd]
        exact h.armed
      · intro hwm hw
        have hold := h.marked hwm (hm ▸ hw)
        show 0 < hwm ∧ (_ ≤ (cb.assess equity rate now).2.drawdown →
          (cb.assess equity rate now).2.drawdownHalt)
        rw [hd, hh]
        exact hold
    · push Not at hread
      obtain ⟨e, rfl, he⟩ := hread
      have hpos := h.raisedMark_pos he
      obtain ⟨hd, hh⟩ := h.drawdownHalt_assess he hpos rate now
      refine ⟨hconfig, ?_, ?_⟩
      · intro hon
        show _ ≤ (cb.assess (some e) rate now).2.drawdown ∨
          _ < (cb.assess (some e) rate now).2.drawdown
        rw [hd]
        exact (hh.mp hon).imp_right And.right
      · intro hwm hw
        have hm : (cb.assess (some e) rate now).2.highWaterMark = some (cb.raisedMark e) := by
          rw [assess_highWaterMark]
          simp [markEquity, he]
        rw [show (cb.step (.assess (some e) rate now)).highWaterMark = _ from hm] at hw
        refine ⟨Option.some.inj hw ▸ hpos, ?_⟩
        intro hlimit
        rw [show (cb.step (.assess (some e) rate now)).drawdown = _ from hd] at hlimit
        exact hh.mpr (Or.inl hlimit)
  | reset =>
    refine ⟨h.config, ?_, ?_⟩
    · simp [CircuitBreaker.step, reset]
    · simp [CircuitBreaker.step, reset]
  | restart =>
    rw [step_restart]
    exact ⟨h.config, h.armed, h.marked⟩

theorem settled_run (cfg : CircuitBreakerConfig) (es : List Event) :
    (run { config := cfg } es).Settled cfg :=
  Run.foldl_invariant (fun _ e hs => hs.step e) (settled_new cfg) es

end Settled

/-! ### When the breaker trips -/

/-- A call with a known equity trips the breaker if the equity has dropped from the
peak by the limit. -/
def TripsAtLimit (cfg : CircuitBreakerConfig) (es : List Event) (e : ℚ) (rate : Option ℚ)
    (now : Datetime) : Prop :=
  ∀ H, Peak (es ++ [.assess (some e) rate now]) H → cfg.maxDrawdownLimit ≤ (H - e) / H →
    ((run { config := cfg } es).assess (some e) rate now).1 = true

/-- **When a drop to the limit trips the breaker**: when the equity is positive, or
there is no peak, or the breaker is stopped already, by its drawdown latch or for
the day. -/
theorem trip_soundness (cfg : CircuitBreakerConfig) (hle : cfg.maxDrawdownLimit ≤ 1)
    (es : List Event) (e : ℚ) (rate : Option ℚ) (now : Datetime) :
    TripsAtLimit cfg es e rate now ↔
      0 < e ∨ knownEquities es = [] ∨ (run { config := cfg } es).drawdownHalt ∨
        dailyLoss cfg rate ∨ (run { config := cfg } es).dailyHaltDate = some now.date := by
  have hmarks := marks_run cfg es
  have hset := settled_run cfg es
  unfold TripsAtLimit
  generalize run { config := cfg } es = cb at hmarks hset ⊢
  have hresult : (cb.assess (some e) rate now).1 = true ↔
      (cb.assess (some e) rate now).2.drawdownHalt ∨
        dailyLoss cfg rate ∨ cb.dailyHaltDate = some now.date := by
    rw [assess_fst, tripped_iff, assess_today, assess_dailyHaltDate, hset.config]
    rcases dailyLoss cfg rate with - | - <;> simp
  by_cases he : 0 < e
  -- measured against the peak itself
  · refine iff_of_true ?_ (Or.inl he)
    intro H hpeak hlimit
    have hH : H = cb.raisedMark e := hpeak.unique (hmarks.raise he rate now)
    rw [hresult, (hset.drawdownHalt_assess he (hset.raisedMark_pos he) rate now).2, ← hH]
    exact Or.inl (Or.inl (hlimit.trans (le_max_right _ _)))
  -- not measured at all: the breaker trips as it would have without the equity
  · have hknown : knownEquities (es ++ [.assess (some e) rate now]) = knownEquities es := by
      rw [knownEquities_concat (by simp)]
      simp [knownEquity, he]
    have hunread : ∀ q, some e = some q → ¬ 0 < q := fun q hq => Option.some.inj hq ▸ he
    rw [hresult, (hset.assess_unread hunread rate now).2.2]
    simp only [he, false_or, Peak, hknown]
    constructor
    · intro htrips
      by_cases hnone : knownEquities es = []
      · exact Or.inl hnone
      · right
        -- there is a peak, and from it the drop is total
        have hsome : ∃ H, cb.highWaterMark = some H := by
          unfold Marks at hmarks
          rcases hm : cb.highWaterMark with - | H
          · rw [hm] at hmarks
            exact absurd hmarks hnone
          · exact ⟨H, rfl⟩
        obtain ⟨H, hm⟩ := hsome
        have hpeak : Peak es H := by
          unfold Marks at hmarks
          rwa [hm] at hmarks
        have hpos : 0 < H := knownEquities_pos hpeak.1
        refine htrips H hpeak (hle.trans ?_)
        rw [le_div_iff₀ hpos, one_mul]
        linarith
    · rintro (hnone | hstopped) H hpeak -
      · rw [hnone] at hpeak
        exact absurd hpeak.1 (by simp)
      · exact hstopped

/-- 2026-06-23 10:00 in Seoul. -/
def Sample.tenInSeoul : Datetime := ⟨63917773200000000, KST⟩

/-- An account that falls from 100000 won to 80000 won and then to nothing. -/
def Sample.fall : List Event :=
  [.assess (some 100000) none Sample.tenInSeoul, .assess (some 80000) none Sample.tenInSeoul]

theorem trip_soundness_sample :
    ({} : CircuitBreakerConfig).maxDrawdownLimit ≤ 1 ∧
      TripsAtLimit {} Sample.fall 0 none Sample.tenInSeoul := by
  refine ⟨by decide +kernel, (trip_soundness {} (by decide +kernel) _ _ _ _).mpr ?_⟩
  have hhalt : (run { config := {} } Sample.fall).drawdownHalt := by decide +kernel
  exact Or.inr (Or.inr (Or.inl hhalt))

/-- The loss of everything at once does not trip the breaker. -/
theorem total_loss_missed :
    ¬ TripsAtLimit {} [.assess (some 100000) none Sample.tenInSeoul] 0 none
      Sample.tenInSeoul := by
  intro h
  have hpeak : Peak [.assess (some 100000) none Sample.tenInSeoul,
      .assess (some 0) none Sample.tenInSeoul] 100000 := by
    have hknown : knownEquities [.assess (some 100000) none Sample.tenInSeoul,
        .assess (some 0) none Sample.tenInSeoul] = [100000] := by decide +kernel
    unfold Peak
    rw [hknown]
    simp [IsGreatest, upperBounds]
  have htrips := h 100000 hpeak (by decide +kernel)
  exact absurd htrips (by decide +kernel)

end CircuitBreaker

end AutoTrade
