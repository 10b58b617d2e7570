/-
AutoTrade/Values.lean

The values the server computes with.

* `Decimal` quantities, and the `float` prices and indicators, are read as
  exact rationals.  A `float` that comes from outside may be no number
  (`FloatValue`).
* A decimal column is TEXT: `str(d)` writes it, `Decimal(s)` reads it back
  exactly, and the text is never empty, so a nullable column is falsy only
  when it is NULL.
* An f-string is kept as the list of its pieces, with the values it formats
  as values: two messages are equal when their words and their numbers are.
* An instant is a count of microseconds, a `Datetime` an instant seen from a
  fixed offset, a `Date` the proleptic ordinal of `date.toordinal`.  KST has
  no daylight saving, so it is an offset.
-/
import Mathlib.Data.Rat.Floor
import Mathlib.Algebra.Order.Field.Rat
import Mathlib.Data.List.Basic

namespace AutoTrade

/-! ### The clock -/

/-- Microseconds of UTC, from the start of the year 1. -/
abbrev Instant := ℤ

/-- A calendar day, by its ordinal. -/
abbrev Date := ℤ

/-- Microseconds of a day. -/
def usPerDay : ℤ := 86400000000

/-- A tz-aware datetime. -/
structure Datetime where
  instant : Instant
  utcoffset : ℤ
  deriving DecidableEq, Repr

namespace Datetime

/-- `dt.date()`. -/
def date (t : Datetime) : Date := (t.instant + t.utcoffset) / usPerDay + 1

/-- `dt.time()`, as microseconds of the day. -/
def time (t : Datetime) : ℤ := (t.instant + t.utcoffset) % usPerDay

/-- `dt.astimezone(tz)`. -/
def astimezone (t : Datetime) (tz : ℤ) : Datetime := { t with utcoffset := tz }

/-- A UTC reading of the clock, `datetime.now(timezone.utc)`. -/
def utc (t : Instant) : Datetime := ⟨t, 0⟩

@[simp] theorem utc_instant (t : Instant) : (utc t).instant = t := rfl

end Datetime

/-- `date.weekday()`: Monday is 0. -/
def Date.weekday (d : Date) : ℤ := (d + 6) % 7

/-- `core/calendar.py`. -/
def isTradingDay (d : Date) (holidays : List Date) : Bool := d.weekday < 5 ∧ d ∉ holidays

/-- `timezone(timedelta(hours=9))`. -/
def KST : ℤ := 9 * 3600 * 1000000

/-- `trade_date_kst`: the day of an instant in Seoul. -/
def tradeDateKst (t : Datetime) : Date := (t.astimezone KST).date

/-- Later instants have later days, whatever offset they are written in. -/
theorem tradeDateKst_mono {a b : Datetime} (h : a.instant ≤ b.instant) :
    tradeDateKst a ≤ tradeDateKst b := by
  unfold tradeDateKst Datetime.date Datetime.astimezone
  have hday : (0 : ℤ) < usPerDay := by decide
  have : (a.instant + KST) / usPerDay ≤ (b.instant + KST) / usPerDay :=
    Int.ediv_le_ediv hday (Int.add_le_add_right h KST)
  simpa using this

/-! ### Floats from outside -/

/-- A `float`: a number, read as an exact rational, an infinity or NaN. -/
inductive FloatValue
  | num (x : ℚ)
  | inf
  | negInf
  | nan
  deriving DecidableEq, Repr

namespace FloatValue

instance (n : ℕ) : OfNat FloatValue n := ⟨num n⟩

/-- `a < b`; no comparison with NaN holds. -/
def lt : FloatValue → FloatValue → Bool
  | num x, num y => x < y
  | num _, inf => true
  | negInf, num _ => true
  | negInf, inf => true
  | _, _ => false

/-- `a <= b`. -/
def le (a b : FloatValue) : Bool := a.lt b || (a = b && a ≠ nan)

/-- `min(a, b)`: the first, unless the second is less. -/
def min (a b : FloatValue) : FloatValue := if b.lt a then b else a

/-- `max(a, b)`: the first, unless it is less. -/
def max (a b : FloatValue) : FloatValue := if a.lt b then b else a

/-- `v + x` for a number `x`. -/
def plus (v : FloatValue) (x : ℚ) : FloatValue :=
  match v with
  | num y => num (y + x)
  | v => v

/-- The number, where it is one. -/
def number : FloatValue → ℚ
  | num x => x
  | _ => 0

/-- The float is a number, neither an infinity nor NaN. -/
def Finite (v : FloatValue) : Prop := ∃ x, v = num x

@[simp] theorem lt_num (x y : ℚ) : (num x).lt (num y) = decide (x < y) := rfl

@[simp] theorem le_num (x y : ℚ) : (num x).le (num y) = decide (x ≤ y) := by
  unfold le
  rw [Bool.eq_iff_iff]
  simp [le_iff_lt_or_eq]

theorem lt_of_le_of_lt {x y : ℚ} {v : FloatValue} (hxy : x ≤ y) (h : (num y).lt v) :
    (num x).lt v := by
  rcases v with z | - | - | -
  · exact decide_eq_true (hxy.trans_lt (of_decide_eq_true h))
  · rfl
  · cases h
  · cases h

@[simp] theorem min_num (x y : ℚ) : min (num x) (num y) = num (Min.min x y) := by
  unfold min lt
  rcases le_or_gt x y with h | h
  · simp [not_lt.mpr h, min_eq_left h]
  · simp [h, min_eq_right h.le]

@[simp] theorem max_num (x y : ℚ) : max (num x) (num y) = num (Max.max x y) := by
  unfold max lt
  rcases lt_or_ge x y with h | h
  · simp [h, max_eq_right h.le]
  · simp [not_lt.mpr h, max_eq_left h]

theorem le_trans_num {v : FloatValue} {x y : ℚ} (h : v.le (num x)) (hxy : x ≤ y) :
    v.le (num y) := by
  rcases v with z | - | - | -
  · rw [le_num, decide_eq_true_iff] at h ⊢
    exact h.trans hxy
  · simp [le, lt] at h
  · rfl
  · simp [le, lt] at h

/-- `min(v, x)` is at most `x`, unless it is NaN. -/
theorem min_le_or_nan (v : FloatValue) (x : ℚ) : (v.min (num x)).le (num x) ∨ v = nan := by
  rcases v with y | - | - | -
  · left
    rw [min_num, le_num]
    exact decide_eq_true (min_le_right y x)
  · left
    show (num x).le (num x) = true
    rw [le_num]
    exact decide_eq_true le_rfl
  · exact .inl rfl
  · exact .inr rfl

/-- `max(0.0, min(1.0, v))`, which is a number whatever `v` is. -/
def clamped (v : FloatValue) : ℚ := (max 0 (min 1 v)).number

@[simp] theorem clamped_num (x : ℚ) : (num x).clamped = Max.max 0 (Min.min 1 x) := by
  show (max (num ((0 : ℕ) : ℚ)) (min (num ((1 : ℕ) : ℚ)) (num x))).number = _
  rw [min_num, max_num, Nat.cast_zero, Nat.cast_one]
  rfl

/-- NaN is clamped to 1. -/
example : nan.clamped = 1 := by decide +kernel

end FloatValue

/-! ### Text -/

/-- A piece of an f-string. -/
inductive Piece
  | lit (s : String)
  | str (s : String)
  | dec (q : ℚ)
  /-- `{q:.nf}` -/
  | fixed (digits : ℕ) (q : ℚ)
  | int (n : ℤ)
  /-- `isoformat()` -/
  | day (d : Date)
  /-- `{dt:%a}` -/
  | dayName (weekday : ℤ)
  /-- `{dt:%H:%M}` -/
  | hourMinute (time : ℤ)
  deriving DecidableEq, Repr

/-- A formatted text; the empty string is `[]`. -/
abbrev Text := List Piece

/-- `a or b` on texts. -/
def Text.or (a b : Text) : Text := if a = [] then b else a

/-- `sep.join(ts)`. -/
def Text.join (sep : Text) : List Text → Text
  | [] => []
  | [t] => t
  | t :: u :: ts => t ++ sep ++ Text.join sep (u :: ts)

/-- A TEXT column that holds a decimal. -/
structure DecText where
  value : ℚ
  deriving DecidableEq, Repr

/-- `str(d)`. -/
def strDec (q : ℚ) : DecText := ⟨q⟩

/-- `Decimal(s)`. -/
def Decimal (s : DecText) : ℚ := s.value

/-- Writing a decimal and reading it back is exact. -/
@[simp] theorem decimal_strDec (q : ℚ) : Decimal (strDec q) = q := rfl

/-- A TEXT field that holds a date. -/
structure DateText where
  value : Date
  deriving DecidableEq, Repr

/-- `d.isoformat()`. -/
def isoformat (d : Date) : DateText := ⟨d⟩

/-- `date.fromisoformat(s)`. -/
def fromisoformat (s : DateText) : Date := s.value

@[simp] theorem fromisoformat_isoformat (d : Date) : fromisoformat (isoformat d) = d := rfl

/-- What a raised exception prints. -/
abbrev Exn := String

/-! ### Sequences -/

/-- `xs[:n]`, where a negative `n` counts from the end. -/
def slicePrefix {α : Type*} (n : ℤ) (xs : List α) : List α :=
  if 0 ≤ n then xs.take n.toNat else xs.take (xs.length - (-n).toNat)

/-- `xs[-n:]` for `n > 0`. -/
def sliceLast {α : Type*} (n : ℕ) (xs : List α) : List α := xs.drop (xs.length - n)

theorem slicePrefix_sublist {α : Type*} (n : ℤ) (xs : List α) :
    (slicePrefix n xs).Sublist xs := by
  unfold slicePrefix
  split <;> exact List.take_sublist _ _

end AutoTrade
