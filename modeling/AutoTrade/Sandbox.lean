/-
AutoTrade/Sandbox.lean

The synthetic prices of the sandbox (`toss/sandbox.py`).

A symbol has a random walk that is kept and made longer when a later day is asked for.
The generator of a growth is seeded with the symbol's seed and the length that the walk
has, so a price depends on where the growth started that made it.  A module of the
standard library is a parameter: `rng` are the draws of `random.Random(k)`, and
`digest` is the hash of a symbol.

`paths_agree_iff` says for which schedules two instances with one seed have the same
prices: those that start their growths at the same lengths, as far as both walks go.
-/
import AutoTrade.Lib.Dict
import AutoTrade.Lib.Regrow
import AutoTrade.OrderModels
import Mathlib.Algebra.Order.Floor.Ring
import Mathlib.Data.Int.Bitwise
import Mathlib.Data.List.Induction

namespace AutoTrade

/-! ### The source of prices -/

/-- The draws of a new generator, by its seed: those of `random()`, those of
`gauss(0, 1)`, and the one of `gauss(0, 1)` after one of `random()`. -/
structure Random where
  uniform : ℤ → ℕ → ℚ
  normal : ℤ → ℕ → ℚ
  normalAfter : ℤ → ℚ

/-- `rng.gauss(mu, sigma)`, from a draw of the standard distribution. -/
def gauss (z mu sigma : ℚ) : ℚ := mu + z * sigma

/-- `_stable_seed`. -/
def stableSeed (digest : Symbol → ℕ) (symbol : Symbol) (seed : ℤ) : ℤ :=
  Int.land (Int.xor (digest symbol) seed) 0x7FFFFFFF

/-- The sandbox (`SandboxToss`): a walk for each symbol, grown as it is asked for. -/
structure SandboxToss where
  seed : ℤ := 42
  daySeconds : ℤ := 60
  history : ℤ := 60
  warmupDays : ℤ := 60
  trend : ℚ := 15 / 10000
  vol : ℚ := 16 / 1000
  started : Instant := 0
  paths : Dict Symbol (List ℚ) := ∅
  drift : Dict Symbol ℚ := ∅

/-- One price of the walk, from the one before. -/
def nextPrice (drift vol z price : ℚ) : ℚ := max 100 (price * (1 + gauss z drift vol))

namespace SandboxToss

variable (rng : Random) (digest : Symbol → ℕ)

/-- `_day`: the warm-up and a day for each `day_seconds` since the start. -/
def day (t : SandboxToss) (now : Instant) : ℤ :=
  t.warmupDays + (now - t.started) / (1000000 * max 1 t.daySeconds)

/-- The walk of a symbol, of one price when it is new. -/
def opened (t : SandboxToss) (symbol : Symbol) : SandboxToss :=
  match t.paths.get? symbol with
  | some _ => t
  | none =>
    let s := stableSeed digest symbol t.seed
    { t with
      drift := t.drift.set symbol (gauss (rng.normalAfter s) t.trend (3 / 1000))
      paths := t.paths.set symbol [5000 + rng.uniform s 0 * 95000] }

/-- `_path`: the walk, made as long as it has to be. -/
def path (t : SandboxToss) (symbol : Symbol) (upto : ℤ) : List ℚ × SandboxToss :=
  let t := t.opened rng digest symbol
  let s := stableSeed digest symbol t.seed
  let drift := (t.drift.get? symbol).getD 0
  let path := Regrow.reach (fun start k => nextPrice drift t.vol (rng.normal (s + start) k))
    ((t.paths.get? symbol).getD []) upto
  (path, { t with paths := t.paths.set symbol path })

/-- `_bars`: the last days and their prices; `now` and `today` are readings of the
clock. -/
def bars (t : SandboxToss) (symbol : Symbol) (now today : Instant) :
    List (Date × ℚ) × SandboxToss :=
  let day := t.day now
  let (path, t) := t.path rng digest symbol day
  let lo := max 0 (day - t.history + 1)
  ((List.range (day + 1 - lo).toNat).filterMap fun i =>
    (path[lo.toNat + i]?).map fun p => (tradeDateKst (.utc today) - (day - (lo + i)), p), t)

/-- `round(x, 1)`: the middle goes to the even digit. -/
def round1 (x : ℚ) : ℚ :=
  let n := ⌊x * 10⌋
  let rest := x * 10 - n
  (if rest < 1 / 2 ∨ rest = 1 / 2 ∧ n % 2 = 0 then n else n + 1 : ℤ) / 10

/-- `last_price`, with the two readings of the clock: none when a day begins between
them, and the walk is not long enough. -/
def lastPrice (t : SandboxToss) (symbol : Symbol) (now later : Instant) :
    Option ℚ × SandboxToss :=
  let (path, t) := t.path rng digest symbol (t.day now)
  ((path[(t.day later).toNat]?).map round1, t)

/-! ### The walk after a schedule -/

/-- What is asked of an instance, one day after another. -/
def run (t : SandboxToss) (queries : List (Symbol × ℤ)) : SandboxToss :=
  queries.foldl (fun t q => (t.path rng digest q.1 q.2).2) t

/-- The walk of a symbol, empty when it was not asked for. -/
def walk (t : SandboxToss) (symbol : Symbol) : List ℚ := (t.paths.get? symbol).getD []

/-- The days that a schedule asks of a symbol. -/
def daysOf (symbol : Symbol) (queries : List (Symbol × ℤ)) : List ℤ :=
  (queries.filter fun q => q.1 = symbol).map Prod.snd

/-- The first price of a symbol. -/
def firstPrice (symbol : Symbol) (seed : ℤ) : ℚ :=
  5000 + rng.uniform (stableSeed digest symbol seed) 0 * 95000

/-- The generator of a symbol's prices. -/
def prices (symbol : Symbol) (seed : ℤ) (trend vol : ℚ) (start k : ℕ) (price : ℚ) : ℚ :=
  let s := stableSeed digest symbol seed
  nextPrice (gauss (rng.normalAfter s) trend (3 / 1000)) vol (rng.normal (s + start) k) price

variable {rng digest} {t : SandboxToss} {symbol : Symbol} {seed : ℤ} {trend vol : ℚ}
  {days : List ℤ}

/-- The walk of the symbol has grown as it was asked for. -/
structure Walked (rng : Random) (digest : Symbol → ℕ) (seed : ℤ) (trend vol : ℚ)
    (symbol : Symbol) (days : List ℤ) (t : SandboxToss) : Prop where
  seed_eq : t.seed = seed
  trend_eq : t.trend = trend
  vol_eq : t.vol = vol
  path_eq : t.paths.get? symbol = if days = [] then none else
    some (days.foldl (Regrow.reach (prices rng digest symbol seed trend vol))
      [firstPrice rng digest symbol seed])
  drift_eq : days ≠ [] → t.drift.get? symbol =
    some (gauss (rng.normalAfter (stableSeed digest symbol seed)) trend (3 / 1000))

/-- Once it is opened a walk is what its days made of its first price. -/
theorem Walked.opened (h : Walked rng digest seed trend vol symbol days t) :
    (t.opened rng digest symbol).paths.get? symbol =
        some (days.foldl (Regrow.reach (prices rng digest symbol seed trend vol))
          [firstPrice rng digest symbol seed]) ∧
      (t.opened rng digest symbol).drift.get? symbol =
        some (gauss (rng.normalAfter (stableSeed digest symbol seed)) trend (3 / 1000)) := by
  unfold SandboxToss.opened
  by_cases hdays : days = []
  · subst hdays
    have hnone : t.paths.get? symbol = none := h.path_eq
    simp only [hnone, Dict.get?_set_self, h.seed_eq, h.trend_eq, List.foldl_nil]
    exact ⟨rfl, trivial⟩
  · have hsome := h.path_eq
    rw [if_neg hdays] at hsome
    simp only [hsome]
    exact ⟨trivial, h.drift_eq hdays⟩

theorem opened_setup (t : SandboxToss) (symbol : Symbol) :
    (t.opened rng digest symbol).seed = t.seed ∧ (t.opened rng digest symbol).trend = t.trend ∧
      (t.opened rng digest symbol).vol = t.vol := by
  unfold SandboxToss.opened
  split <;> exact ⟨rfl, rfl, rfl⟩

/-- Another symbol's walk stays as it is. -/
theorem opened_other {other : Symbol} (hne : other ≠ symbol) (t : SandboxToss) :
    (t.opened rng digest other).paths.get? symbol = t.paths.get? symbol ∧
      (t.opened rng digest other).drift.get? symbol = t.drift.get? symbol := by
  unfold SandboxToss.opened
  split
  · exact ⟨rfl, rfl⟩
  · simp only [Dict.get?_set, if_neg hne]
    exact ⟨trivial, trivial⟩

/-- An instance that was not asked for anything. -/
def IsNew (t : SandboxToss) : Prop := t.paths = ∅ ∧ t.drift = ∅

theorem IsNew.walked (h : t.IsNew) (symbol : Symbol) :
    Walked rng digest t.seed t.trend t.vol symbol [] t where
  seed_eq := rfl
  trend_eq := rfl
  vol_eq := rfl
  path_eq := by rw [h.1, Dict.get?_empty, if_pos rfl]
  drift_eq := fun hne => absurd rfl hne

/-- **A query** makes the walk of its symbol longer and leaves the others. -/
theorem Walked.path (h : Walked rng digest seed trend vol symbol days t) (q : Symbol × ℤ) :
    Walked rng digest seed trend vol symbol (days ++ daysOf symbol [q])
      (t.path rng digest q.1 q.2).2 := by
  obtain ⟨asked, upto⟩ := q
  obtain ⟨hseed, htrend, hvol⟩ := @opened_setup rng digest t asked
  refine ⟨hseed.trans h.seed_eq, htrend.trans h.trend_eq, hvol.trans h.vol_eq, ?_, ?_⟩
  · by_cases hasked : asked = symbol
    · subst hasked
      obtain ⟨hpath, hdrift⟩ := h.opened
      have hdays : daysOf asked [(asked, upto)] = [upto] := by simp [daysOf]
      rw [hdays, if_neg (by simp), List.foldl_append, List.foldl_cons, List.foldl_nil]
      simp only [SandboxToss.path, Dict.get?_set_self, hpath, hdrift, Option.getD_some, hseed,
        hvol, h.seed_eq, h.vol_eq]
      rfl
    · have hdays : daysOf symbol [(asked, upto)] = [] := by simp [daysOf, hasked]
      rw [hdays, List.append_nil, ← h.path_eq, ← (opened_other hasked t).1]
      exact (Dict.get?_set _ _ _ _).trans (if_neg hasked)
  · intro hne
    by_cases hasked : asked = symbol
    · subst hasked
      exact h.opened.2
    · have hdays : daysOf symbol [(asked, upto)] = [] := by simp [daysOf, hasked]
      rw [hdays, List.append_nil] at hne
      exact (opened_other hasked t).2.trans (h.drift_eq hne)

/-- **The walk after a schedule.** -/
theorem IsNew.walked_run (h : t.IsNew) (rng : Random) (digest : Symbol → ℕ) (symbol : Symbol)
    (queries : List (Symbol × ℤ)) :
    Walked rng digest t.seed t.trend t.vol symbol (daysOf symbol queries)
      (t.run rng digest queries) := by
  induction queries using List.reverseRecOn with
  | nil => exact h.walked symbol
  | append_singleton queries q ih =>
    have hdays : daysOf symbol (queries ++ [q]) = daysOf symbol queries ++ daysOf symbol [q] := by
      simp [daysOf]
    rw [hdays, run, List.foldl_append]
    exact ih.path q

/-! ### Two schedules -/

/-- The length of the walk after some days were asked for. -/
def lengthAfter (days : List ℤ) : ℕ := if days = [] then 0 else Regrow.lengthFrom 1 days

/-- The lengths at which it started to grow. -/
def startsOf (days : List ℤ) : List ℕ := Regrow.startsFrom 1 days

/-- The growths start at the same lengths, as far as both walks go. -/
def SameStarts (days days' : List ℤ) : Prop :=
  ∀ L, L < lengthAfter days → L < lengthAfter days' → (L ∈ startsOf days ↔ L ∈ startsOf days')

/-- A price that both instances have is the same. -/
def PathsAgree (symbol : Symbol) (a b : SandboxToss) : Prop :=
  ∀ i : ℕ, ∀ p ∈ (a.walk symbol)[i]?, ∀ q ∈ (b.walk symbol)[i]?, p = q

theorem Walked.grown (h : Walked rng digest seed trend vol symbol days t) (hne : days ≠ []) :
    Regrow.Grown (prices rng digest symbol seed trend vol) (startsOf days) (t.walk symbol) ∧
      (t.walk symbol).length = lengthAfter days ∧
      (t.walk symbol)[0]? = some (firstPrice rng digest symbol seed) := by
  have hpath := h.path_eq
  rw [if_neg hne] at hpath
  obtain ⟨hgrown, hlen, hpre⟩ := (Regrow.grown_singleton
    (f := prices rng digest symbol seed trend vol) (firstPrice rng digest symbol seed)).run days
  rw [walk, hpath, Option.getD_some, lengthAfter, if_neg hne]
  exact ⟨hgrown, hlen, (Regrow.getElem?_of_front hpre Nat.one_pos).trans rfl⟩

theorem Walked.length (h : Walked rng digest seed trend vol symbol days t) :
    (t.walk symbol).length = lengthAfter days := by
  by_cases hne : days = []
  · have hpath := h.path_eq
    rw [if_pos hne] at hpath
    rw [walk, hpath, lengthAfter, if_pos hne]
    rfl
  · exact (h.grown hne).2.1

theorem ne_nil_of_lt_lengthAfter {i : ℕ} (h : i < lengthAfter days) : days ≠ [] := by
  rintro rfl
  exact absurd h (Nat.not_lt_zero i)

/-- **The same starts make the same prices.** -/
theorem Walked.agree {days' : List ℤ} {t' : SandboxToss}
    (h : Walked rng digest seed trend vol symbol days t)
    (h' : Walked rng digest seed trend vol symbol days' t') (hsame : SameStarts days days') :
    PathsAgree symbol t t' := by
  intro i p hp q hq
  obtain ⟨hi, -⟩ := List.getElem?_eq_some_iff.mp hp
  obtain ⟨hi', -⟩ := List.getElem?_eq_some_iff.mp hq
  obtain ⟨hgrown, hlen, h0⟩ := h.grown (ne_nil_of_lt_lengthAfter (h.length ▸ hi))
  obtain ⟨hgrown', hlen', h0'⟩ := h'.grown (ne_nil_of_lt_lengthAfter (h'.length ▸ hi'))
  have heq := hgrown.agree hgrown' (h0.trans h0'.symm)
    (fun L hL hL' => hsame L (hlen ▸ hL) (hlen' ▸ hL')) hi hi'
  rw [hp, hq] at heq
  exact Option.some.inj heq

/-- Draws that are zero but for the first after one growth. -/
def oneDraw (seed : ℤ) (L : ℕ) : Random where
  uniform := fun _ _ => 0
  normal := fun k i => if k = seed + L ∧ i = 0 then 1 else 0
  normalAfter := fun _ => 0

theorem firstPrice_oneDraw (L : ℕ) :
    firstPrice (oneDraw (stableSeed digest symbol seed) L) digest symbol seed = 5000 := by
  simp [firstPrice, oneDraw]

theorem prices_oneDraw (L M k : ℕ) (price : ℚ) :
    prices (oneDraw (stableSeed digest symbol seed) L) digest symbol seed 0 1 M k price =
      max 100 (price * (1 + if M = L ∧ k = 0 then 1 else 0)) := by
  simp [prices, nextPrice, gauss, oneDraw]

/-- **A start of its own** gives a schedule a price of its own, with some draws. -/
theorem Walked.differ {days' : List ℤ} {t' : SandboxToss} {L : ℕ}
    (h : Walked (oneDraw (stableSeed digest symbol seed) L) digest seed 0 1 symbol days t)
    (h' : Walked (oneDraw (stableSeed digest symbol seed) L) digest seed 0 1 symbol days' t')
    (hlen : L < lengthAfter days) (hlen' : L < lengthAfter days') (hL : L ∈ startsOf days)
    (hL' : L ∉ startsOf days') : (t.walk symbol)[L]? ≠ (t'.walk symbol)[L]? := by
  have hpos : 0 < L := Regrow.le_of_mem_startsFrom hL
  obtain ⟨hgrown, hlength, h0⟩ := h.grown (ne_nil_of_lt_lengthAfter hlen)
  obtain ⟨hgrown', hlength', h0'⟩ := h'.grown (ne_nil_of_lt_lengthAfter hlen')
  rw [firstPrice_oneDraw L] at h0 h0'
  refine hgrown.differ hgrown' h0 h0' hpos (hlength ▸ hlen) (hlength' ▸ hlen') hL hL' ?_ ?_
  · intro M k hMk
    rw [prices_oneDraw, if_neg hMk]
    norm_num
  · rw [prices_oneDraw, if_pos ⟨rfl, rfl⟩]
    norm_num

/-- **Two instances with one seed have the same prices**, whatever is drawn, exactly when
their schedules start the growths of the walk at the same lengths, as far as both go. -/
theorem paths_agree_iff (symbol : Symbol) (queries queries' : List (Symbol × ℤ)) :
    (∀ (rng : Random) (digest : Symbol → ℕ) (a b : SandboxToss), a.IsNew → b.IsNew →
        a.seed = b.seed → a.trend = b.trend → a.vol = b.vol →
        PathsAgree symbol (a.run rng digest queries) (b.run rng digest queries')) ↔
      SameStarts (daysOf symbol queries) (daysOf symbol queries') := by
  constructor
  · intro h L hlen hlen'
    let t : SandboxToss := { trend := 0, vol := 1 }
    have hnew : t.IsNew := ⟨rfl, rfl⟩
    let rng := oneDraw (stableSeed (fun _ => 0) symbol 42) L
    have hwalk := hnew.walked_run rng (fun _ => 0) symbol queries
    have hwalk' := hnew.walked_run rng (fun _ => 0) symbol queries'
    have hagree := h rng (fun _ => 0) t t hnew hnew rfl rfl rfl
    -- both walks have a price there, and the two are one
    have heq : ((t.run rng (fun _ => 0) queries).walk symbol)[L]? =
        ((t.run rng (fun _ => 0) queries').walk symbol)[L]? := by
      have hp := List.getElem?_eq_getElem (hwalk.length.symm ▸ hlen)
      have hq := List.getElem?_eq_getElem (hwalk'.length.symm ▸ hlen')
      rw [hp, hq, hagree L _ hp _ hq]
    constructor
    · intro hL
      by_contra hL'
      exact hwalk.differ hwalk' hlen hlen' hL hL' heq
    · intro hL'
      by_contra hL
      exact hwalk'.differ hwalk hlen' hlen hL' hL heq.symm
  · rintro hsame rng digest a b ha hb hseed htrend hvol
    have hwalk' := hb.walked_run rng digest symbol queries'
    rw [← hseed, ← htrend, ← hvol] at hwalk'
    exact (ha.walked_run rng digest symbol queries).agree hwalk' hsame

/-- One instance is asked for the second day at once, the other for the first day before
it: the second has a growth that starts at the second day. -/
theorem paths_disagree :
    ¬ PathsAgree "005930" (run (oneDraw 42 2) (fun _ => 0) {} [("005930", 2)])
      (run (oneDraw 42 2) (fun _ => 0) {} [("005930", 1), ("005930", 2)]) := by
  intro h
  have heq := h 2 (501501125 / 100000) (by decide +kernel) (509513125 / 100000)
    (by decide +kernel)
  norm_num at heq

end SandboxToss

end AutoTrade
