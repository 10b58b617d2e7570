/-
AutoTrade/Alignment.lean

The measurement windows of the news study (`news/alignment.py`).

`returnWindow` turns the time of a publication into the interval whose return is
measured.  News of a trading session is measured from the close of the same day,
other news from the open of the next trading day; the interval ends at the same
hour of the trading day after.

Main result (`returnWindow_no_lookahead`): the interval starts after the
publication and with no trading day in between, and later publications have later
intervals.  The case that needs an argument is a publication after a close against
one during a later session, where the rule changes (`entryDate_mono`).
-/
import AutoTrade.Lib.Seek
import AutoTrade.Values
import Mathlib.Data.Finset.Card
import Mathlib.Data.Int.SuccPred

namespace AutoTrade

/-! ### The next trading day -/

/-- The days of a weekend that are left, the day itself included. -/
def weekendLeft (d : Date) : ℕ := if d.weekday < 5 then 0 else (7 - d.weekday).toNat

/-- The holidays that are left, the day itself included. -/
def holidaysLeft (holidays : List Date) (d : Date) : Finset Date :=
  holidays.toFinset.filter (d ≤ ·)

theorem weekendLeft_le (d : Date) : weekendLeft d ≤ 2 := by
  unfold weekendLeft
  split_ifs with h <;> omega

theorem weekendLeft_lt {d : Date} (h : ¬ d.weekday < 5) : weekendLeft (d + 1) < weekendLeft d := by
  unfold weekendLeft Date.weekday at *
  split_ifs <;> omega

theorem holidaysLeft_subset (holidays : List Date) (d : Date) :
    holidaysLeft holidays (d + 1) ⊆ holidaysLeft holidays d := by
  intro h hh
  obtain ⟨hmem, hle⟩ := Finset.mem_filter.mp hh
  exact Finset.mem_filter.mpr ⟨hmem, (Int.lt_succ d).le.trans hle⟩

/-- A holiday is left behind. -/
theorem holidaysLeft_card_lt {holidays : List Date} {d : Date} (h : d ∈ holidays) :
    (holidaysLeft holidays (d + 1)).card < (holidaysLeft holidays d).card := by
  apply Finset.card_lt_card
  refine ⟨holidaysLeft_subset holidays d, fun hsub => ?_⟩
  have hd : d ∈ holidaysLeft holidays d :=
    Finset.mem_filter.mpr ⟨List.mem_toFinset.mpr h, le_refl d⟩
  exact absurd (Finset.mem_filter.mp (hsub hd)).2 (not_le.mpr (Int.lt_succ d))

/-- The search for a trading day.  A day without trading is a day of a weekend or one
of finitely many holidays, so it ends. -/
def tradingDays (holidays : List Date) : Seeker Date where
  test d := isTradingDay d holidays
  left d := 3 * (holidaysLeft holidays d).card + weekendLeft d
  left_lt d h := by
    have hcard := Finset.card_le_card (holidaysLeft_subset holidays d)
    by_cases hday : d.weekday < 5
    · have hmem : d ∈ holidays := by simpa [isTradingDay, hday] using h
      have hlt := holidaysLeft_card_lt hmem
      have hle := weekendLeft_le (d + 1)
      omega
    · have hlt := weekendLeft_lt hday
      omega

/-- `next_trading_day`: the first one after `d`. -/
def nextTradingDay (d : Date) (holidays : List Date) : Date := (tradingDays holidays).seek (d + 1)

/-- **The next trading day is the least one after the day.** -/
theorem nextTradingDay_isLeast (d : Date) (holidays : List Date) :
    IsLeast {n | d < n ∧ isTradingDay n holidays} (nextTradingDay d holidays) :=
  (tradingDays holidays).seek_isLeast (d + 1)

theorem lt_nextTradingDay (d : Date) (holidays : List Date) : d < nextTradingDay d holidays :=
  (nextTradingDay_isLeast d holidays).1.1

theorem nextTradingDay_le {d n : Date} {holidays : List Date} (hdn : d < n)
    (hn : isTradingDay n holidays) : nextTradingDay d holidays ≤ n :=
  (nextTradingDay_isLeast d holidays).2 ⟨hdn, hn⟩

theorem nextTradingDay_mono {d d' : Date} (holidays : List Date) (h : d ≤ d') :
    nextTradingDay d holidays ≤ nextTradingDay d' holidays :=
  (tradingDays holidays).seek_mono (Int.add_le_add_right h 1)

/-! ### The window -/

/-- The price of a day that a return is measured at. -/
inductive PriceField
  | close
  | open_
  deriving DecidableEq

/-- 15:30, in microseconds of the day. -/
def MARKET_CLOSE : ℤ := (15 * 60 + 30) * 60 * 1000000

/-- From which price to which price a piece of news is measured, and the rule that says
so. -/
structure ReturnWindow where
  entryDate : Date
  entryField : PriceField
  exitDate : Date
  exitField : PriceField
  rule : String

/-- `return_window`: the close of the day for news that comes before it, the next open
for what comes later. -/
def returnWindow (published : Datetime) (holidays : List Date) : ReturnWindow :=
  let p := published.astimezone KST
  let d := p.date
  if isTradingDay d holidays ∧ p.time < MARKET_CLOSE then
    { entryDate := d, entryField := .close
      exitDate := nextTradingDay d holidays, exitField := .close
      rule := "장중 보도 → 당일 종가→t+1 종가" }
  else
    let t1 := nextTradingDay d holidays
    { entryDate := t1, entryField := .open_
      exitDate := nextTradingDay t1 holidays, exitField := .open_
      rule := "마감 후/휴장 보도 → t+1 시가→t+2 시가" }

/-- The publication falls in a trading session, or before the one of its day. -/
def Intraday (p : Datetime) (holidays : List Date) : Prop :=
  isTradingDay (tradeDateKst p) holidays ∧ (p.astimezone KST).time < MARKET_CLOSE

theorem returnWindow_of_intraday {p : Datetime} {holidays : List Date}
    (h : Intraday p holidays) :
    returnWindow p holidays =
      { entryDate := tradeDateKst p, entryField := .close
        exitDate := nextTradingDay (tradeDateKst p) holidays, exitField := .close
        rule := "장중 보도 → 당일 종가→t+1 종가" } :=
  if_pos h

theorem returnWindow_of_not_intraday {p : Datetime} {holidays : List Date}
    (h : ¬ Intraday p holidays) :
    returnWindow p holidays =
      { entryDate := nextTradingDay (tradeDateKst p) holidays, entryField := .open_
        exitDate := nextTradingDay (nextTradingDay (tradeDateKst p) holidays) holidays
        exitField := .open_
        rule := "마감 후/휴장 보도 → t+1 시가→t+2 시가" } :=
  if_neg h

/-- A window runs from one trading day to the next, at the same hour. -/
theorem returnWindow_exit (p : Datetime) (holidays : List Date) :
    (returnWindow p holidays).exitDate =
        nextTradingDay (returnWindow p holidays).entryDate holidays ∧
      (returnWindow p holidays).exitField = (returnWindow p holidays).entryField := by
  by_cases h : Intraday p holidays
  · rw [returnWindow_of_intraday h]
    exact ⟨rfl, rfl⟩
  · rw [returnWindow_of_not_intraday h]
    exact ⟨rfl, rfl⟩

theorem returnWindow_isTradingDay (p : Datetime) (holidays : List Date) :
    isTradingDay (returnWindow p holidays).entryDate holidays := by
  by_cases h : Intraday p holidays
  · rw [returnWindow_of_intraday h]
    exact h.1
  · rw [returnWindow_of_not_intraday h]
    exact (nextTradingDay_isLeast _ _).1.2

/-- No trading day is passed over between a publication and its window. -/
theorem entryDate_le {p : Datetime} {d : Date} {holidays : List Date}
    (hd : isTradingDay d holidays) (hp : tradeDateKst p < d) :
    (returnWindow p holidays).entryDate ≤ d := by
  by_cases h : Intraday p holidays
  · rw [returnWindow_of_intraday h]
    exact hp.le
  · rw [returnWindow_of_not_intraday h]
    exact nextTradingDay_le hp hd

/-! ### When a window starts and ends -/

/-- The hour of a price: a session opens at nine. -/
def PriceField.time : PriceField → ℤ
  | .close => MARKET_CLOSE
  | .open_ => 9 * 3600 * 1000000

/-- The instant of a price of a day in Seoul. -/
def priceInstant (d : Date) (field : PriceField) : Instant :=
  (d - 1) * usPerDay + field.time - KST

/-- When the window is entered. -/
def ReturnWindow.entry (w : ReturnWindow) : Instant := priceInstant w.entryDate w.entryField

/-- When it is left. -/
def ReturnWindow.exit (w : ReturnWindow) : Instant := priceInstant w.exitDate w.exitField

/-- An instant by its day and its time in Seoul. -/
theorem instant_eq_day_time (p : Datetime) :
    p.instant = (tradeDateKst p - 1) * usPerDay + (p.astimezone KST).time - KST := by
  have h := Int.emod_add_ediv_mul (p.instant + KST) usPerDay
  simp only [tradeDateKst, Datetime.date, Datetime.time, Datetime.astimezone]
  linarith

theorem time_lt (t : Datetime) : t.time < usPerDay := Int.emod_lt_of_pos _ (by decide)

theorem PriceField.time_nonneg (field : PriceField) : 0 ≤ field.time := by
  cases field <;> decide

theorem PriceField.time_lt (field : PriceField) : field.time < usPerDay := by
  cases field <;> decide

/-- What is on an earlier day is earlier. -/
theorem day_time_lt {d d' : Date} {t t' : ℤ} (h : d < d') (ht : t < usPerDay) (ht' : 0 ≤ t') :
    (d - 1) * usPerDay + t < (d' - 1) * usPerDay + t' := by
  have hday : d * usPerDay + usPerDay ≤ d' * usPerDay := by
    have := Int.mul_le_mul_of_nonneg_right (Int.add_one_le_of_lt h) (show 0 ≤ usPerDay by decide)
    linarith
  linarith

theorem priceInstant_lt {d d' : Date} (h : d < d') (field field' : PriceField) :
    priceInstant d field < priceInstant d' field' :=
  Int.sub_lt_sub_right (day_time_lt h field.time_lt field'.time_nonneg) KST

/-- Prices are ordered by their days, and on one day by their hours. -/
theorem priceInstant_le {d d' : Date} {field field' : PriceField} (h : d ≤ d')
    (hfield : field.time ≤ field'.time ∨ d < d') :
    priceInstant d field ≤ priceInstant d' field' := by
  rcases h.eq_or_lt with rfl | h
  · have htime : field.time ≤ field'.time := hfield.resolve_right (lt_irrefl d)
    exact Int.sub_le_sub_right (Int.add_le_add_left htime _) KST
  · exact (priceInstant_lt h field field').le

theorem instant_lt_priceInstant {p : Datetime} {d : Date} (h : tradeDateKst p < d)
    (field : PriceField) : p.instant < priceInstant d field := by
  rw [instant_eq_day_time p]
  exact Int.sub_lt_sub_right (day_time_lt h (time_lt _) field.time_nonneg) KST

/-- A window starts after the publication. -/
theorem instant_lt_entry (p : Datetime) (holidays : List Date) :
    p.instant < (returnWindow p holidays).entry := by
  by_cases h : Intraday p holidays
  · have htime := h.2
    rw [returnWindow_of_intraday h, instant_eq_day_time p]
    change _ < (tradeDateKst p - 1) * usPerDay + MARKET_CLOSE - KST
    linarith
  · rw [returnWindow_of_not_intraday h]
    exact instant_lt_priceInstant (lt_nextTradingDay _ _) .open_

/-! ### Earlier and later publications -/

/-- A publication after its session, or without one, is on a day before any later
publication that is in time for its session. -/
theorem tradeDateKst_lt_of_intraday {p q : Datetime} {holidays : List Date}
    (hpq : p.instant ≤ q.instant) (hp : ¬ Intraday p holidays) (hq : Intraday q holidays) :
    tradeDateKst p < tradeDateKst q := by
  refine lt_of_le_of_ne (tradeDateKst_mono hpq) fun hday => hp ⟨hday ▸ hq.1, ?_⟩
  have hq' := hq.2
  rw [instant_eq_day_time p, instant_eq_day_time q, hday] at hpq
  linarith

/-- Later publications have later entries: on a later day, or on the same one and not
from its close back to its open. -/
theorem entryDate_mono {p q : Datetime} (holidays : List Date) (hpq : p.instant ≤ q.instant) :
    (returnWindow p holidays).entryDate ≤ (returnWindow q holidays).entryDate ∧
      ((returnWindow p holidays).entryField.time ≤ (returnWindow q holidays).entryField.time ∨
        (returnWindow p holidays).entryDate < (returnWindow q holidays).entryDate) := by
  have hday := tradeDateKst_mono hpq
  by_cases hp : Intraday p holidays <;> by_cases hq : Intraday q holidays
  · rw [returnWindow_of_intraday hp, returnWindow_of_intraday hq]
    exact ⟨hday, Or.inl le_rfl⟩
  · rw [returnWindow_of_intraday hp, returnWindow_of_not_intraday hq]
    have hlt := hday.trans_lt (lt_nextTradingDay (tradeDateKst q) holidays)
    exact ⟨hlt.le, Or.inr hlt⟩
  · -- the rule changes from the open to the close: the days are different
    rw [returnWindow_of_not_intraday hp, returnWindow_of_intraday hq]
    exact ⟨nextTradingDay_le (tradeDateKst_lt_of_intraday hpq hp hq) hq.1,
      Or.inl (show PriceField.open_.time ≤ PriceField.close.time by decide)⟩
  · rw [returnWindow_of_not_intraday hp, returnWindow_of_not_intraday hq]
    exact ⟨nextTradingDay_mono holidays hday, Or.inl le_rfl⟩

theorem entry_mono {p q : Datetime} (holidays : List Date) (hpq : p.instant ≤ q.instant) :
    (returnWindow p holidays).entry ≤ (returnWindow q holidays).entry :=
  priceInstant_le (entryDate_mono holidays hpq).1 (entryDate_mono holidays hpq).2

theorem exit_mono {p q : Datetime} (holidays : List Date) (hpq : p.instant ≤ q.instant) :
    (returnWindow p holidays).exit ≤ (returnWindow q holidays).exit := by
  obtain ⟨hle, htime⟩ := entryDate_mono holidays hpq
  obtain ⟨hpdate, hpfield⟩ := returnWindow_exit p holidays
  obtain ⟨hqdate, hqfield⟩ := returnWindow_exit q holidays
  unfold ReturnWindow.exit
  rw [hpdate, hpfield, hqdate, hqfield]
  refine priceInstant_le (nextTradingDay_mono holidays hle) (htime.imp_right fun hlt => ?_)
  -- an entry that is later is on a trading day, so the earlier interval ends by then
  calc nextTradingDay (returnWindow p holidays).entryDate holidays
      ≤ (returnWindow q holidays).entryDate :=
        nextTradingDay_le hlt (returnWindow_isTradingDay q holidays)
    _ < nextTradingDay (returnWindow q holidays).entryDate holidays := lt_nextTradingDay _ _

/-- **The windows of the study do not look ahead and keep the order of the news.** -/
theorem returnWindow_no_lookahead (holidays : List Date) :
    (∀ d, IsLeast {n | d < n ∧ isTradingDay n holidays} (nextTradingDay d holidays)) ∧
      (∀ p : Datetime, isTradingDay (returnWindow p holidays).entryDate holidays ∧
        (returnWindow p holidays).exitDate =
          nextTradingDay (returnWindow p holidays).entryDate holidays ∧
        (returnWindow p holidays).exitField = (returnWindow p holidays).entryField ∧
        p.instant < (returnWindow p holidays).entry ∧
        ∀ d, isTradingDay d holidays → tradeDateKst p < d →
          ¬ d < (returnWindow p holidays).entryDate) ∧
      ∀ p q : Datetime, p.instant ≤ q.instant →
        (returnWindow p holidays).entry ≤ (returnWindow q holidays).entry ∧
          (returnWindow p holidays).exit ≤ (returnWindow q holidays).exit := by
  refine ⟨fun d => nextTradingDay_isLeast d holidays, fun p => ?_, fun p q hpq => ?_⟩
  · obtain ⟨hdate, hfield⟩ := returnWindow_exit p holidays
    exact ⟨returnWindow_isTradingDay p holidays, hdate, hfield, instant_lt_entry p holidays,
      fun d hd hp => not_lt.mpr (entryDate_le hd hp)⟩
  · exact ⟨entry_mono holidays hpq, exit_mono holidays hpq⟩

/-- News of a Friday evening and of the Monday after, with a holiday on the Tuesday. -/
theorem returnWindow_no_lookahead_weekend :
    (returnWindow ⟨739806 * usPerDay + 9 * 3600 * 1000000, 0⟩ [739811]).entry ≤
        (returnWindow ⟨739809 * usPerDay + 10 * 3600 * 1000000 - KST, KST⟩ [739811]).entry ∧
      (returnWindow ⟨739806 * usPerDay + 9 * 3600 * 1000000, 0⟩ [739811]).exit ≤
        (returnWindow ⟨739809 * usPerDay + 10 * 3600 * 1000000 - KST, KST⟩ [739811]).exit :=
  (returnWindow_no_lookahead [739811]).2.2 _ _ (by decide)

/-- A Friday evening is measured from the Monday on, past a holiday on the Tuesday. -/
example :
    (returnWindow ⟨739806 * usPerDay + 9 * 3600 * 1000000, 0⟩ [739811]).exitDate = 739812 := by
  simp +decide [returnWindow, nextTradingDay, Seeker.seek, tradingDays, isTradingDay,
    Datetime.date, Datetime.astimezone, Date.weekday]

end AutoTrade
