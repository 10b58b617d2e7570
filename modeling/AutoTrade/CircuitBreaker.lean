/-
AutoTrade/CircuitBreaker.lean

The loss circuit breaker (`orders/circuit_breaker.py`): it stops new entries
and never an exit.

Two latches with different release rules share one state.  The drawdown latch
is a latch with hysteresis on the drop from the high-water mark: set at
`maxDrawdownLimit`, released at `rearmDrawdown`.  The daily latch is a date:
it holds on the day it names and on no other.  `assess` is the four steps of
the source, one definition each.

* `toLatch_assess` — on a well-formed breaker `assess` moves the drawdown latch
  as `Latch.observeOpt` does, an unknown, zero or negative equity being a missing
  reading; `drawdownHalt_run` is the same for a whole run;
* `dailyHaltDate_run` — the daily latch stays set along a run of its day;
* `run_restarts`, `results_restarts` — a restart restores all that a later
  result reads.
-/
import AutoTrade.Values
import AutoTrade.Lib.Hysteresis
import AutoTrade.Lib.Run
import Mathlib.Tactic.Linarith

namespace AutoTrade

/-- The limits of the breaker, as fractions. -/
structure CircuitBreakerConfig where
  dailyLossLimit : ℚ := 5 / 100
  maxDrawdownLimit : ℚ := 15 / 100
  rearmDrawdown : ℚ := 8 / 100
  deriving DecidableEq

/-- The breaker: its latches, and what it goes by. -/
structure CircuitBreaker where
  config : CircuitBreakerConfig := {}
  highWaterMark : Option ℚ := none
  /-- the size of the drop, not negative -/
  drawdown : ℚ := 0
  dailyHaltDate : Option Date := none
  drawdownHalt : Bool := false
  /-- the date of the last `assess` -/
  today : Option Date := none
  reason : Text := []
  deriving DecidableEq

namespace CircuitBreaker

/-- `_daily_halt_active`. -/
def dailyHaltActive (cb : CircuitBreaker) : Bool :=
  cb.dailyHaltDate.isSome ∧ cb.dailyHaltDate = cb.today

/-- New entries are stopped by either latch. -/
def tripped (cb : CircuitBreaker) : Bool := cb.drawdownHalt || cb.dailyHaltActive

/-! ### Assessment -/

/-- The high-water mark once the equity `e` is seen. -/
def raisedMark (cb : CircuitBreaker) (e : ℚ) : ℚ :=
  match cb.highWaterMark with
  | none => e
  | some hwm => if hwm < e then e else hwm

/-- The size of the drop from the mark `hwm` to `e`. -/
def dropFrom (hwm e : ℚ) : ℚ := max 0 ((hwm - e) / hwm)

/-- A known positive equity raises the mark and gives the drawdown. -/
def markEquity (cb : CircuitBreaker) : Option ℚ → CircuitBreaker
  | none => cb
  | some e =>
    if 0 < e then
      let hwm := cb.raisedMark e
      { cb with
        highWaterMark := some hwm
        drawdown := if 0 < hwm then dropFrom hwm e else cb.drawdown }
    else cb

/-- The drawdown latch moves only when the equity is known and there is a mark
(`if self.high_water_mark` is false for `None` and for zero). -/
def latchDrawdown (cb : CircuitBreaker) (equity : Option ℚ) : CircuitBreaker :=
  if equity.isSome ∧ cb.highWaterMark.getD 0 ≠ 0 then
    if cb.config.maxDrawdownLimit ≤ cb.drawdown then { cb with drawdownHalt := true }
    else if cb.drawdownHalt ∧ cb.drawdown ≤ cb.config.rearmDrawdown then
      { cb with drawdownHalt := false }
    else cb
  else cb

/-- `daily_pl_rate is not None and daily_pl_rate <= -daily_loss_limit`. -/
def dailyLoss (cfg : CircuitBreakerConfig) : Option ℚ → Bool
  | none => false
  | some rate => rate ≤ -cfg.dailyLossLimit

/-- A loss at the limit latches the day. -/
def latchDaily (cb : CircuitBreaker) (rate : Option ℚ) (day : Date) : CircuitBreaker :=
  if dailyLoss cb.config rate then { cb with dailyHaltDate := some day } else cb

/-- `_build_reason`. -/
def buildReason (cb : CircuitBreaker) (rate : Option ℚ) : Text :=
  let daily : List Text := match cb.dailyHaltActive, rate with
    | true, some r => [[.lit "일일 손실 ", .fixed 2 (r * 100), .lit "% (한도 -",
        .fixed 0 (cb.config.dailyLossLimit * 100), .lit "%)"]]
    | _, _ => []
  let drawdown : List Text :=
    if cb.drawdownHalt then
      [[.lit "고점대비 낙폭 -", .fixed 2 (cb.drawdown * 100), .lit "% (한도 -",
        .fixed 0 (cb.config.maxDrawdownLimit * 100), .lit "%)"]]
    else []
  let parts := daily ++ drawdown
  if parts = [] then []
  else [.lit "서킷브레이커 발동 — 신규 진입 중단 ("] ++ Text.join [.lit ", "] parts ++ [.lit ")"]

/-- Update the state from the equity and the daily profit rate, and say
whether the breaker is tripped. -/
def assess (cb : CircuitBreaker) (equity rate : Option ℚ) (now : Datetime) :
    Bool × CircuitBreaker :=
  let cb := { cb with today := some now.date }
  let cb := cb.markEquity equity
  let cb := cb.latchDrawdown equity
  let cb := cb.latchDaily rate now.date
  let cb := { cb with reason := cb.buildReason rate }
  (cb.tripped, cb)

/-- The operator's reset. -/
def reset (cb : CircuitBreaker) : CircuitBreaker :=
  { cb with
    highWaterMark := none
    drawdown := 0
    drawdownHalt := false
    dailyHaltDate := none
    reason := [] }

/-! ### The persisted state -/

/-- What `dump_state` writes. -/
structure State where
  highWaterMark : Option DecText
  drawdown : DecText
  dailyHaltDate : Option DateText
  drawdownHalt : Bool
  today : Option DateText
  deriving DecidableEq

/-- `dump_state`: the numbers as texts; the reason is not kept. -/
def dumpState (cb : CircuitBreaker) : State where
  highWaterMark := cb.highWaterMark.map strDec
  drawdown := strDec cb.drawdown
  dailyHaltDate := cb.dailyHaltDate.map isoformat
  drawdownHalt := cb.drawdownHalt
  today := cb.today.map isoformat

/-- `restore_state`: what is stored, over the breaker of a new process. -/
def restoreState (cb : CircuitBreaker) (state : State) : CircuitBreaker :=
  { cb with
    highWaterMark := state.highWaterMark.map Decimal
    drawdown := Decimal state.drawdown
    dailyHaltDate := state.dailyHaltDate.map fromisoformat
    drawdownHalt := state.drawdownHalt
    today := state.today.map fromisoformat }

/-- A new breaker that has restored a dump is the old one but for its reason. -/
theorem restoreState_dumpState (cb : CircuitBreaker) :
    restoreState { config := cb.config } cb.dumpState = { cb with reason := [] } := by
  simp only [restoreState, dumpState, Option.map_map, decimal_strDec]
  have hdec : Decimal ∘ strDec = id := funext decimal_strDec
  have hday : fromisoformat ∘ isoformat = id := funext fromisoformat_isoformat
  simp only [hdec, hday, Option.map_id, id]

/-! ### The fields of an assessment -/

section Fields

variable (cb : CircuitBreaker) (equity rate : Option ℚ) (now : Datetime) (day : Date)

@[simp] theorem markEquity_config : (cb.markEquity equity).config = cb.config := by
  rcases equity with - | e
  · rfl
  · simp only [markEquity]; split <;> rfl

@[simp] theorem markEquity_today : (cb.markEquity equity).today = cb.today := by
  rcases equity with - | e
  · rfl
  · simp only [markEquity]; split <;> rfl

@[simp] theorem markEquity_dailyHaltDate :
    (cb.markEquity equity).dailyHaltDate = cb.dailyHaltDate := by
  rcases equity with - | e
  · rfl
  · simp only [markEquity]; split <;> rfl

@[simp] theorem markEquity_drawdownHalt :
    (cb.markEquity equity).drawdownHalt = cb.drawdownHalt := by
  rcases equity with - | e
  · rfl
  · simp only [markEquity]; split <;> rfl

/-- The drawdown latch step changes the latch alone. -/
theorem latchDrawdown_eq :
    cb.latchDrawdown equity =
      { cb with drawdownHalt := (cb.latchDrawdown equity).drawdownHalt } := by
  unfold latchDrawdown
  split
  · split
    · rfl
    · split <;> rfl
  · rfl

/-- The daily latch step changes the date alone. -/
theorem latchDaily_eq :
    cb.latchDaily rate day =
      { cb with dailyHaltDate :=
          if dailyLoss cb.config rate then some day else cb.dailyHaltDate } := by
  unfold latchDaily
  split <;> rfl

/-- The marks and the drawdown latch read neither the date nor the reason. -/
def noted (t : Option Date) (r : Text) : CircuitBreaker := { cb with today := t, reason := r }

/-- The day and the reason of a breaker play no part in its drawdown. -/
theorem markEquity_noted (t : Option Date) (r : Text) :
    (cb.noted t r).markEquity equity = (cb.markEquity equity).noted t r := by
  rcases equity with - | e
  · rfl
  · simp only [markEquity]
    split <;> rfl

theorem latchDrawdown_noted (t : Option Date) (r : Text) :
    (cb.noted t r).latchDrawdown equity = (cb.latchDrawdown equity).noted t r := by
  unfold latchDrawdown
  split_ifs <;> first | rfl | contradiction

/-- `assess`, field by field. -/
theorem assess_eq :
    (cb.assess equity rate now).2 =
      { config := cb.config
        highWaterMark := (cb.markEquity equity).highWaterMark
        drawdown := (cb.markEquity equity).drawdown
        dailyHaltDate :=
          if dailyLoss cb.config rate then some now.date else cb.dailyHaltDate
        drawdownHalt := ((cb.markEquity equity).latchDrawdown equity).drawdownHalt
        today := some now.date
        reason := (cb.assess equity rate now).2.reason } := by
  have hcb : ({ cb with today := some now.date } : CircuitBreaker) =
      cb.noted (some now.date) cb.reason := rfl
  simp only [assess, hcb, markEquity_noted, latchDrawdown_noted, latchDaily_eq]
  rw [latchDrawdown_eq (cb.markEquity equity)]
  simp [noted]

/-- An assessment answers whether the breaker is tripped after it. -/
theorem assess_fst : (cb.assess equity rate now).1 = (cb.assess equity rate now).2.tripped := rfl

@[simp] theorem assess_config : (cb.assess equity rate now).2.config = cb.config := by
  rw [assess_eq]

@[simp] theorem assess_today : (cb.assess equity rate now).2.today = some now.date := by
  rw [assess_eq]

/-- The daily latch moves to the day of a loss, and stays where it is otherwise. -/
theorem assess_dailyHaltDate :
    (cb.assess equity rate now).2.dailyHaltDate =
      if dailyLoss cb.config rate then some now.date else cb.dailyHaltDate := by
  rw [assess_eq]

/-- The daily latch holds on its own day only. -/
theorem dailyHaltActive_iff :
    cb.dailyHaltActive ↔ ∃ d, cb.dailyHaltDate = some d ∧ cb.today = some d := by
  unfold dailyHaltActive
  rcases cb.dailyHaltDate with - | d
  · simp
  · simp [eq_comm]

/-- Either latch trips the breaker. -/
theorem tripped_iff :
    cb.tripped ↔ cb.drawdownHalt ∨ ∃ d, cb.dailyHaltDate = some d ∧ cb.today = some d := by
  rw [← dailyHaltActive_iff, tripped, Bool.or_eq_true]

end Fields

/-! ### The drawdown latch -/

/-- The reading that the drawdown latch takes from an equity: none unless the
equity is known and positive. -/
def reading (cb : CircuitBreaker) : Option ℚ → Option ℚ
  | none => none
  | some e => if 0 < e then some (dropFrom (cb.raisedMark e) e) else none

/-- What a breaker with the limits `cfg` keeps between calls: a set latch has a
drawdown above the release level, and a mark is positive and comes with a
drawdown that has set the latch if it is at the limit. -/
structure Wf (cfg : CircuitBreakerConfig) (cb : CircuitBreaker) : Prop where
  config : cb.config = cfg
  armed : cb.drawdownHalt → cfg.rearmDrawdown < cb.drawdown
  marked : ∀ hwm, cb.highWaterMark = some hwm →
    0 < hwm ∧ (cfg.maxDrawdownLimit ≤ cb.drawdown → cb.drawdownHalt)

/-- The thresholds of the drawdown latch. -/
def band (cfg : CircuitBreakerConfig) (h : cfg.rearmDrawdown < cfg.maxDrawdownLimit) :
    Band ℚ := ⟨cfg.rearmDrawdown, cfg.maxDrawdownLimit, h⟩

section Assess

variable {cfg : CircuitBreakerConfig} {cb : CircuitBreaker} {equity : Option ℚ}

/-- The drawdown latch of a well-formed breaker. -/
def toLatch (h : cfg.rearmDrawdown < cfg.maxDrawdownLimit) (hwf : cb.Wf cfg) :
    Latch (band cfg h) := ⟨cb.drawdown, cb.drawdownHalt, hwf.armed⟩

theorem wf_new (cfg : CircuitBreakerConfig) : Wf cfg { config := cfg } where
  config := rfl
  armed := by simp
  marked := by simp

theorem Wf.reset (hwf : cb.Wf cfg) : cb.reset.Wf cfg where
  config := hwf.config
  armed := by simp [CircuitBreaker.reset]
  marked := by simp [CircuitBreaker.reset]

/-- A mark that a positive equity has raised is positive. -/
theorem raisedMark_pos (hwf : cb.Wf cfg) {e : ℚ} (he : 0 < e) : 0 < cb.raisedMark e := by
  unfold raisedMark
  rcases h : cb.highWaterMark with - | hwm
  · exact he
  · have hpos := (hwf.marked hwm h).1
    show 0 < if hwm < e then e else hwm
    split <;> assumption

/-- A positive equity refreshes the mark and the drawdown; any other leaves both. -/
theorem markEquity_of_pos (hwf : cb.Wf cfg) {e : ℚ} (he : 0 < e) :
    (cb.markEquity (some e)).highWaterMark = some (cb.raisedMark e) ∧
      (cb.markEquity (some e)).drawdown = dropFrom (cb.raisedMark e) e := by
  simp [markEquity, he, raisedMark_pos hwf he]

/-- Without a known positive equity nothing is marked. -/
theorem markEquity_of_reading (h : cb.reading equity = none) : cb.markEquity equity = cb := by
  rcases equity with - | e
  · rfl
  · have he : ¬ 0 < e := by
      intro he
      simp [reading, he] at h
    simp [markEquity, he]

/-- A reading is the drop of a known positive equity. -/
theorem reading_eq_some {x : ℚ} (h : cb.reading equity = some x) :
    ∃ e, equity = some e ∧ 0 < e ∧ x = dropFrom (cb.raisedMark e) e := by
  rcases equity with - | e
  · simp [reading] at h
  · by_cases he : 0 < e
    · simp only [reading, he, if_true, Option.some.injEq] at h
      exact ⟨e, rfl, he, h.symm⟩
    · simp [reading, he] at h

/-- The latch step on a marked breaker is `Latch.held`. -/
theorem latchDrawdown_held (e : ℚ) {hwm : ℚ} (hhwm : cb.highWaterMark = some hwm)
    (hpos : 0 < hwm) :
    (cb.latchDrawdown (some e)).drawdownHalt =
      Latch.held cb.config.rearmDrawdown cb.config.maxDrawdownLimit cb.drawdownHalt
        cb.drawdown := by
  have hmark : (some e).isSome ∧ cb.highWaterMark.getD 0 ≠ 0 := by simp [hhwm, hpos.ne']
  unfold latchDrawdown Latch.held
  rw [if_pos hmark]
  split_ifs <;> rfl

/-- The step reads the stored drawdown again when the equity is zero or
negative: that moves no well-formed latch. -/
theorem latchDrawdown_stale (hwf : cb.Wf cfg) (equity : Option ℚ) :
    (cb.latchDrawdown equity).drawdownHalt = cb.drawdownHalt := by
  rcases equity with - | e
  · simp [latchDrawdown]
  · rcases hm : cb.highWaterMark with - | hwm
    · simp [latchDrawdown, hm]
    · obtain ⟨hpos, hset⟩ := hwf.marked hwm hm
      rw [latchDrawdown_held e hm hpos, hwf.config, Bool.eq_iff_iff, Latch.held_iff]
      -- both directions are the invariant: at the limit the latch is set, and a set latch is armed
      constructor
      · rintro (hhigh | ⟨hon, -⟩)
        · exact hset hhigh
        · exact hon
      · intro hon
        exact Or.inr ⟨hon, hwf.armed hon⟩

/-- **Refinement, one call.**  `assess` moves the drawdown latch of a
well-formed breaker as a latch with hysteresis takes a reading. -/
theorem drawdownHalt_assess (h : cfg.rearmDrawdown < cfg.maxDrawdownLimit)
    (hwf : cb.Wf cfg) (equity rate : Option ℚ) (now : Datetime) :
    (cb.assess equity rate now).2.drawdownHalt =
      ((toLatch h hwf).observeOpt (cb.reading equity)).on := by
  rw [assess_eq]
  show ((cb.markEquity equity).latchDrawdown equity).drawdownHalt = _
  rcases hr : cb.reading equity with - | x
  · rw [markEquity_of_reading hr, latchDrawdown_stale hwf]
    rfl
  · obtain ⟨e, rfl, he, rfl⟩ := reading_eq_some hr
    obtain ⟨hm, hd⟩ := markEquity_of_pos hwf he
    rw [latchDrawdown_held e hm (raisedMark_pos hwf he), hd, markEquity_config,
      markEquity_drawdownHalt, hwf.config]
    rfl

/-- The drawdown after a call is the last reading. -/
theorem drawdown_assess (h : cfg.rearmDrawdown < cfg.maxDrawdownLimit)
    (hwf : cb.Wf cfg) (equity rate : Option ℚ) (now : Datetime) :
    (cb.assess equity rate now).2.drawdown =
      ((toLatch h hwf).observeOpt (cb.reading equity)).reading := by
  rw [assess_eq]
  show (cb.markEquity equity).drawdown = _
  rcases hr : cb.reading equity with - | x
  · rw [markEquity_of_reading hr]
    rfl
  · obtain ⟨e, rfl, he, rfl⟩ := reading_eq_some hr
    exact (markEquity_of_pos hwf he).2

/-- An assessment keeps the breaker well formed, whatever it is told. -/
theorem Wf.assess (h : cfg.rearmDrawdown < cfg.maxDrawdownLimit) (hwf : cb.Wf cfg)
    (equity rate : Option ℚ) (now : Datetime) : (cb.assess equity rate now).2.Wf cfg := by
  have hhalt := drawdownHalt_assess h hwf equity rate now
  have hdrop := drawdown_assess h hwf equity rate now
  refine ⟨by rw [assess_config, hwf.config], ?_, ?_⟩
  · rw [hhalt, hdrop]
    exact ((toLatch h hwf).observeOpt (cb.reading equity)).armed
  · intro hwm hw
    rw [assess_eq] at hw
    -- without a reading the mark and the drawdown are the old ones
    rcases hr : cb.reading equity with - | x
    · rw [hhalt, hdrop, hr]
      rw [markEquity_of_reading hr] at hw
      exact hwf.marked hwm hw
    · rw [hhalt, hdrop, hr]
      obtain ⟨e, rfl, he, rfl⟩ := reading_eq_some hr
      have hm : some (cb.raisedMark e) = some hwm := (markEquity_of_pos hwf he).1.symm.trans hw
      refine ⟨Option.some.inj hm ▸ raisedMark_pos hwf he, ?_⟩
      intro hle
      exact (Latch.observe_on (toLatch h hwf) _).mpr (Or.inl hle)

/-- The latch of the breaker after a call is the latch before it with the
reading taken. -/
theorem toLatch_assess (h : cfg.rearmDrawdown < cfg.maxDrawdownLimit)
    (hwf : cb.Wf cfg) (equity rate : Option ℚ) (now : Datetime)
    (hwf' : (cb.assess equity rate now).2.Wf cfg) :
    toLatch h hwf' = (toLatch h hwf).observeOpt (cb.reading equity) :=
  Latch.ext (drawdown_assess h hwf equity rate now) (drawdownHalt_assess h hwf equity rate now)

end Assess

/-! ### Runs -/

/-- What can happen to a breaker. -/
inductive Event
  | assess (equity rate : Option ℚ) (now : Datetime)
  | reset
  /-- a new breaker restores what the old one dumped -/
  | restart
  deriving DecidableEq

/-- A call; a restart restores what was dumped. -/
def step (cb : CircuitBreaker) : Event → CircuitBreaker
  | .assess equity rate now => (cb.assess equity rate now).2
  | .reset => cb.reset
  | .restart => restoreState { config := cb.config } cb.dumpState

/-- Calls one after another. -/
def run (cb : CircuitBreaker) (es : List Event) : CircuitBreaker := es.foldl step cb

@[simp] theorem run_nil (cb : CircuitBreaker) : cb.run [] = cb := rfl

@[simp] theorem run_cons (cb : CircuitBreaker) (e : Event) (es : List Event) :
    cb.run (e :: es) = (cb.step e).run es := rfl

theorem run_append (cb : CircuitBreaker) (es fs : List Event) :
    cb.run (es ++ fs) = (cb.run es).run fs := List.foldl_append

/-- What the calls of `assess` in a run return. -/
def results (cb : CircuitBreaker) : List Event → List Bool
  | [] => []
  | .assess equity rate now :: es =>
    (cb.assess equity rate now).1 :: results (cb.assess equity rate now).2 es
  | .reset :: es => results cb.reset es
  | .restart :: es => results (cb.step .restart) es

/-- The dates of the calls of `assess`. -/
def Event.date? : Event → Option Date
  | .assess _ _ now => some now.date
  | .reset => none
  | .restart => none

/-- An event that may release the drawdown latch: a known positive equity that
has recovered, or the operator's reset. -/
def Releases (cb : CircuitBreaker) : Event → Prop
  | .assess equity _ _ =>
    ∃ e, equity = some e ∧ 0 < e ∧ dropFrom (cb.raisedMark e) e ≤ cb.config.rearmDrawdown
  | .reset => True
  | .restart => False

section Runs

variable {cfg : CircuitBreakerConfig} {cb : CircuitBreaker} {es : List Event}

/-- A restart loses the text of the reason and nothing else. -/
theorem step_restart (cb : CircuitBreaker) : cb.step .restart = { cb with reason := [] } :=
  restoreState_dumpState cb

theorem Wf.step (h : cfg.rearmDrawdown < cfg.maxDrawdownLimit) (hwf : cb.Wf cfg)
    (e : Event) : (cb.step e).Wf cfg := by
  cases e with
  | assess equity rate now => exact hwf.assess h equity rate now
  | reset => exact hwf.reset
  | restart =>
    rw [step_restart]
    exact ⟨hwf.config, hwf.armed, hwf.marked⟩

/-- A breaker stays well formed over any calls and restarts. -/
theorem Wf.run (h : cfg.rearmDrawdown < cfg.maxDrawdownLimit) (hwf : cb.Wf cfg)
    (es : List Event) : (cb.run es).Wf cfg :=
  Run.foldl_invariant (fun _ e hw => hw.step h e) hwf es

/-- The reading an event gives to the drawdown latch. -/
def eventReading (cb : CircuitBreaker) : Event → Option ℚ
  | .assess equity _ _ => cb.reading equity
  | .reset => none
  | .restart => none

/-- The readings of a run. -/
def readings (cb : CircuitBreaker) : List Event → List (Option ℚ)
  | [] => []
  | e :: es => cb.eventReading e :: readings (cb.step e) es

/-- **Refinement, a whole run.**  Between resets the drawdown latch of the
breaker is a latch with hysteresis that takes the readings of the run. -/
theorem drawdownHalt_run (h : cfg.rearmDrawdown < cfg.maxDrawdownLimit)
    (hwf : cb.Wf cfg) (hes : Event.reset ∉ es) :
    (cb.run es).drawdownHalt = ((toLatch h hwf).run (cb.readings es)).on := by
  induction es generalizing cb with
  | nil => rfl
  | cons e es ih =>
    have hnot : Event.reset ∉ es := fun hm => hes (List.mem_cons_of_mem _ hm)
    rw [run_cons, readings, Latch.run_cons, ih (hwf.step h e) hnot]
    cases e with
    | assess equity rate now =>
      rw [show (toLatch h hwf).observeOpt (cb.eventReading (.assess equity rate now)) =
        toLatch h (hwf.step h (.assess equity rate now)) from
          (toLatch_assess h hwf equity rate now _).symm]
    | reset => exact absurd List.mem_cons_self hes
    | restart =>
      have : toLatch h (hwf.step h .restart) = toLatch h hwf := by
        apply Latch.ext
        · show (cb.step .restart).drawdown = cb.drawdown
          rw [step_restart]
        · show (cb.step .restart).drawdownHalt = cb.drawdownHalt
          rw [step_restart]
      rw [this]
      rfl

/-- **When the drawdown latch is set** after a run without resets: it was set
or some reading reached the limit, and no reading since came down to the
release level. -/
theorem drawdownHalt_run_iff (h : cfg.rearmDrawdown < cfg.maxDrawdownLimit)
    (hwf : cb.Wf cfg) (hes : Event.reset ∉ es) :
    (cb.run es).drawdownHalt ↔
      (cb.drawdownHalt ∧ ∀ x, some x ∈ cb.readings es → cfg.rearmDrawdown < x) ∨
      ∃ pre x post, cb.readings es = pre ++ some x :: post ∧ cfg.maxDrawdownLimit ≤ x ∧
        ∀ y, some y ∈ post → cfg.rearmDrawdown < y := by
  rw [drawdownHalt_run h hwf hes]
  exact Latch.run_on

/-- Events that do not release give readings above the release level. -/
theorem readings_of_admits (hc : cb.config = cfg)
    (hes : Run.Admits step (fun c e => ¬ Releases c e) cb es) :
    Event.reset ∉ es ∧ ∀ x, some x ∈ cb.readings es → cfg.rearmDrawdown < x := by
  induction es generalizing cb with
  | nil => simp [readings]
  | cons e es ih =>
    obtain ⟨hne, hrest⟩ := hes
    have hc' : (cb.step e).config = cfg := by
      cases e with
      | assess equity rate now => exact (assess_config cb equity rate now).trans hc
      | reset => exact hc
      | restart => exact hc
    obtain ⟨hnot, hall⟩ := ih hc' hrest
    refine ⟨?_, ?_⟩
    · intro hm
      rcases List.mem_cons.mp hm with rfl | hm
      · exact hne trivial
      · exact hnot hm
    · intro x hx
      -- the reading of this event, or of a later one
      rcases List.mem_cons.mp hx with hx | hx
      · cases e with
        | assess equity rate now =>
          obtain ⟨q, rfl, hq, rfl⟩ := reading_eq_some hx.symm
          rw [← hc]
          exact not_le.mp fun hle => hne ⟨q, rfl, hq, hle⟩
        | reset => cases hx
        | restart => cases hx
      · exact hall x hx

/-- Nothing but a release releases the drawdown latch. -/
theorem drawdownHalt_stays (h : cfg.rearmDrawdown < cfg.maxDrawdownLimit)
    (hwf : cb.Wf cfg) (hon : cb.drawdownHalt)
    (hes : Run.Admits step (fun c e => ¬ Releases c e) cb es) : (cb.run es).drawdownHalt := by
  obtain ⟨hnot, hall⟩ := readings_of_admits hwf.config hes
  exact (drawdownHalt_run_iff h hwf hnot).mpr (Or.inl ⟨hon, hall⟩)

/-! ### The daily latch over a run -/

/-- The daily latch names a day on which `assess` was called. -/
theorem dailyHaltDate_mem {d : Date} (hd : (cb.run es).dailyHaltDate = some d) :
    cb.dailyHaltDate = some d ∨ d ∈ es.filterMap Event.date? := by
  induction es generalizing cb with
  | nil => exact Or.inl hd
  | cons e es ih =>
    -- set by this event, or by a later one
    rcases ih hd with hd' | hd'
    · cases e with
      | assess equity rate now =>
        have hdate := (assess_dailyHaltDate cb equity rate now).symm.trans hd'
        split at hdate
        · right
          rw [← Option.some.inj hdate]
          simp [Event.date?]
        · exact Or.inl hdate
      | reset => cases hd'
      | restart =>
        rw [step_restart] at hd'
        exact Or.inl hd'
    · right
      exact (List.sublist_cons_self e es).filterMap _ |>.subset hd'

/-- Along a run of its own day the daily latch stays set until a reset. -/
theorem dailyHaltDate_run {d : Date} (hd : cb.dailyHaltDate = some d)
    (hes : Event.reset ∉ es) (hday : ∀ t ∈ es.filterMap Event.date?, t = d) :
    (cb.run es).dailyHaltDate = some d := by
  induction es generalizing cb with
  | nil => exact hd
  | cons e es ih =>
    have hnot : Event.reset ∉ es := fun hm => hes (List.mem_cons_of_mem _ hm)
    have hrest : ∀ t ∈ es.filterMap Event.date?, t = d := fun t ht =>
      hday t ((List.sublist_cons_self e es).filterMap _ |>.subset ht)
    refine ih ?_ hnot hrest
    cases e with
    | assess equity rate now =>
      have hnow : now.date = d := hday now.date (by simp [Event.date?])
      show (cb.assess equity rate now).2.dailyHaltDate = some d
      rw [assess_dailyHaltDate, hnow, hd, ite_self]
    | reset => exact absurd List.mem_cons_self hes
    | restart =>
      rw [step_restart]
      exact hd

/-! ### Restarts -/

/-- A breaker without its reason, which a restart does not restore. -/
def forget (cb : CircuitBreaker) : CircuitBreaker := { cb with reason := [] }

/-- Equal but for the reason. -/
def SameBut (a b : CircuitBreaker) : Prop := a.forget = b.forget

/-- What is the same but for the reason trips the same. -/
theorem SameBut.tripped {a b : CircuitBreaker} (h : SameBut a b) : a.tripped = b.tripped := by
  have hforget : a.forget.tripped = b.forget.tripped := by rw [show a.forget = b.forget from h]
  exact hforget

/-- No step reads the reason. -/
theorem forget_step (cb : CircuitBreaker) (e : Event) :
    (cb.step e).forget = (cb.forget.step e).forget := by
  cases e with
  | assess equity rate now =>
    have hmark : cb.forget.markEquity equity = (cb.markEquity equity).noted
        (cb.markEquity equity).today [] := by
      rw [markEquity_today]
      exact markEquity_noted cb equity cb.today []
    show (cb.assess equity rate now).2.forget = (cb.forget.assess equity rate now).2.forget
    rw [assess_eq, assess_eq cb.forget, hmark, latchDrawdown_noted]
    rfl
  | reset => rfl
  | restart => rw [step_restart, step_restart]; rfl

theorem SameBut.step {a b : CircuitBreaker} (h : SameBut a b) (e : Event) :
    SameBut (a.step e) (b.step e) := by
  unfold SameBut at h ⊢
  rw [forget_step a, forget_step b, h]

/-- And it answers the same from then on. -/
theorem results_sameBut {a b : CircuitBreaker} (h : SameBut a b) :
    ∀ es : List Event, a.results es = b.results es
  | [] => rfl
  | .assess equity rate now :: es => by
    have hstep : SameBut (a.assess equity rate now).2 (b.assess equity rate now).2 :=
      h.step (.assess equity rate now)
    show (a.assess equity rate now).2.tripped :: _ = (b.assess equity rate now).2.tripped :: _
    rw [hstep.tripped, results_sameBut hstep es]
  | .reset :: es => results_sameBut (h.step .reset) es
  | .restart :: es => results_sameBut (h.step .restart) es

theorem sameBut_restart (cb : CircuitBreaker) : SameBut (cb.step .restart) cb := by
  rw [step_restart]
  rfl

/-- The events that are not restarts. -/
def liveEvents (es : List Event) : List Event := es.filter fun e => !decide (e = .restart)

/-- **Restarts are invisible** to the state, the reason aside. -/
theorem run_restarts (cb : CircuitBreaker) (es : List Event) :
    SameBut (cb.run es) (cb.run (liveEvents es)) := by
  refine Run.foldl_related (r := SameBut) (fun e => decide (e = .restart)) ?_ ?_ rfl es
  · intro s t e hst _
    exact hst.step e
  · intro s t e hst he
    rw [of_decide_eq_true he]
    exact (sameBut_restart s).trans hst

/-- **Restarts are invisible** to every result. -/
theorem results_restarts (cb : CircuitBreaker) :
    ∀ es : List Event, cb.results es = cb.results (liveEvents es)
  | [] => rfl
  | .assess equity rate now :: es => by
    show _ :: results (cb.assess equity rate now).2 es = _ :: results _ (liveEvents es)
    rw [results_restarts _ es]
  | .reset :: es => results_restarts cb.reset es
  | .restart :: es => by
    show results (cb.step .restart) es = cb.results (liveEvents es)
    rw [results_sameBut (sameBut_restart cb) es, results_restarts cb es]

end Runs

end CircuitBreaker

end AutoTrade
