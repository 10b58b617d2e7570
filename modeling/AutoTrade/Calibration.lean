/-
AutoTrade/Calibration.lean

The returns that followed the buys, by the confidence they were decided with
(`engine/calibration.py` and `scripts/calibration_report.py`).

A sample is the return at the `h`-th trading day after a decision, counted in the cached
candles of the symbol.  `stats_sound` is about the buckets: they lie side by side
(`Bins.sum_tiled`), so that their statistics account for each sample once.

The returns, and what is computed of them, are read as exact rationals.  The code adds
and divides floats: the average of three returns of 0.1 is not 0.1 there, and two
averages that are equal here may differ there in the last digit.
-/
import AutoTrade.Lib.Bins
import AutoTrade.Repo
import Mathlib.Algebra.Order.BigOperators.Group.List
import Mathlib.Data.Prod.Lex

namespace AutoTrade

/-! ### `engine/calibration.py` -/

/-- `BUCKETS`: the bounds of the confidence, from the first up to the second. -/
def BUCKETS : List (ℚ × ℚ) :=
  [(0, 1 / 2), (1 / 2, 3 / 5), (3 / 5, 7 / 10), (7 / 10, 4 / 5), (4 / 5, 9 / 10),
    (9 / 10, 101 / 100)]

/-- `forward_return`: the return at the `horizon`-th close after the day of a decision. -/
def forwardReturn (dailyCloses : List (Date × ℚ)) (decisionDate : Date) (decisionPrice : ℚ)
    (horizon : ℤ) : Option ℚ :=
  if decisionPrice ≤ 0 ∨ horizon < 1 then none
  else
    let future := (dailyCloses.filter fun b => decisionDate < b.1).map Prod.snd
    future[(horizon - 1).toNat]?.map fun close => close / decisionPrice - 1

/-- `BucketStat`. -/
structure BucketStat where
  bucket : Text
  n : ℕ
  avgReturn : ℚ
  winRate : ℚ
  deriving DecidableEq

/-- `lo <= c < hi`, which holds of no infinity and of no NaN. -/
def inBucket (b : ℚ × ℚ) (confidence : FloatValue) : Bool :=
  (FloatValue.num b.1).le confidence && confidence.lt (.num b.2)

/-- The returns of a bucket. -/
def bucketReturns (samples : List (FloatValue × ℚ)) (b : ℚ × ℚ) : List ℚ :=
  (samples.filter fun x => inBucket b x.1).map Prod.snd

/-- `bucket_calibration`: a bucket without samples is left out.  The average and the win
rate are exact rationals, where the code has the nearest floats. -/
def bucketCalibration (samples : List (FloatValue × ℚ)) : List BucketStat :=
  BUCKETS.filterMap fun b =>
    let rets := bucketReturns samples b
    if rets.isEmpty then none
    else some
      { bucket := [.fixed 1 b.1, .lit "~", .fixed 1 (min b.2 1)]
        n := rets.length
        avgReturn := rets.sum / rets.length
        winRate := (rets.countP (0 < ·)) / rets.length }

/-- `is_monotonic`: each bucket against the next, on averages that are exact rationals. -/
def isMonotonic (stats : List BucketStat) : Bool :=
  let rets := stats.map BucketStat.avgReturn
  (rets.zip rets.tail).all fun p => p.1 ≤ p.2

/-! ### `scripts/calibration_report.py` -/

/-- A row of the query: the day of the tick, and the decision. -/
structure BuyRow where
  tradeDate : Date
  symbol : Symbol
  confidence : FloatValue
  decisionPrice : ℚ

/-- The row of a decision to buy whose price was kept. -/
def buyRow (ticks : List TickRow) (d : DecisionRow) : Option BuyRow :=
  if d.action = .buy then do
    let price ← d.decisionPrice
    let tick ← ticks[d.tickId - 1]?
    pure ⟨tick.tradeDate, d.symbol, d.confidence, price⟩
  else none

/-- The rows of the query. -/
def buyRows (db : Db) : List BuyRow := db.decisions.filterMap (buyRow db.ticks)

/-- `sorted(..)` of the dates and closes of a payload. -/
def sortedCloses (payload : List (Date × ℚ)) : List (Date × ℚ) :=
  payload.insertionSort fun a b => toLex a ≤ toLex b

/-- The payloads of `candle_cache`, by symbol. -/
abbrev Caches := Symbol → Option (List (Date × ℚ))

/-- The sample of a row, if it is mature. -/
def sample (caches : Caches) (horizon : ℤ) (row : BuyRow) : Option (FloatValue × ℚ) := do
  let payload ← caches row.symbol
  if payload.isEmpty then none
  else
    (forwardReturn (sortedCloses payload) row.tradeDate row.decisionPrice horizon).map
      (row.confidence, ·)

/-- The samples of a horizon, a row that is not mature being left out. -/
def samples (db : Db) (caches : Caches) (horizon : ℤ) :
    List (FloatValue × ℚ) :=
  (buyRows db).filterMap (sample caches horizon)

/-- What is printed of a horizon: the buckets, and the verdict unless there is none. -/
def calibration (db : Db) (caches : Caches) (horizon : ℤ) : List BucketStat × Option Bool :=
  let stats := bucketCalibration (samples db caches horizon)
  (stats, if stats.isEmpty then none else some (isMonotonic stats))

/-- The horizons of the report. -/
def calibrationReport (db : Db) (caches : Caches) : List (List BucketStat × Option Bool) :=
  [5, 20].map (calibration db caches)

/-! ### The statistics of the buckets -/

variable {samples : List (FloatValue × ℚ)} {stats : List BucketStat}

theorem buckets_tiled : Bins.Tiled (0 : ℚ) (101 / 100) BUCKETS :=
  .cons (by norm_num) <| .cons (by norm_num) <| .cons (by norm_num) <| .cons (by norm_num) <|
    .cons (by norm_num) <| .cons (by norm_num) <| .nil _

/-- A sample whose confidence is a number. -/
def numbered : FloatValue × ℚ → Option (ℚ × ℚ)
  | (.num c, r) => some (c, r)
  | _ => none

/-- The samples whose confidence is a number. -/
def numbers (samples : List (FloatValue × ℚ)) : List (ℚ × ℚ) := samples.filterMap numbered

/-- A bucket holds the numbers that are in it. -/
theorem bucketReturns_eq (samples : List (FloatValue × ℚ)) (b : ℚ × ℚ) :
    bucketReturns samples b = (Bins.members Prod.fst b (numbers samples)).map Prod.snd := by
  induction samples with
  | nil => rfl
  | cons x samples ih =>
    obtain ⟨c, r⟩ := x
    unfold bucketReturns numbers Bins.members at ih ⊢
    rcases c with c | - | - | -
    -- a number is kept by both or by neither
    · have hin : inBucket b (.num c) = decide (b.1 ≤ c ∧ c < b.2) := by
        unfold inBucket
        rw [FloatValue.le_num, FloatValue.lt_num, Bool.decide_and]
      rw [List.filterMap_cons_some (f := numbered) rfl, List.filter_cons, List.filter_cons, hin]
      split_ifs
      · rw [List.map_cons, List.map_cons, ih]
      · exact ih
    -- and nothing else is
    all_goals
      rw [List.filterMap_cons_none (f := numbered) rfl, List.filter_cons_of_neg]
      · exact ih
      · simp [inBucket, FloatValue.le, FloatValue.lt]

/-- The statistics of a bucket that has samples. -/
def statOf (samples : List (FloatValue × ℚ)) (b : ℚ × ℚ) : BucketStat :=
  { bucket := [.fixed 1 b.1, .lit "~", .fixed 1 (min b.2 1)]
    n := (bucketReturns samples b).length
    avgReturn := (bucketReturns samples b).sum / (bucketReturns samples b).length
    winRate := ((bucketReturns samples b).countP (0 < ·)) / (bucketReturns samples b).length }

theorem bucketCalibration_eq (samples : List (FloatValue × ℚ)) :
    bucketCalibration samples =
      (BUCKETS.filter fun b => !(bucketReturns samples b).isEmpty).map (statOf samples) := by
  rw [← List.filterMap_eq_map, List.filterMap_filter]
  refine List.filterMap_congr fun b _ => ?_
  show (if (bucketReturns samples b).isEmpty then none else some (statOf samples b)) = _
  rcases hempty : (bucketReturns samples b).isEmpty with - | - <;> simp

/-- A total over the statistics is a total over the buckets: a bucket without samples
would add nothing. -/
theorem sum_bucketCalibration (f : BucketStat → ℚ) (samples : List (FloatValue × ℚ))
    (g : ℚ × ℚ → ℚ)
    (hg : ∀ b, bucketReturns samples b ≠ [] →
      f (statOf samples b) = ((Bins.members Prod.fst b (numbers samples)).map g).sum) :
    ((bucketCalibration samples).map f).sum =
      ((Bins.members Prod.fst (0, 101 / 100) (numbers samples)).map g).sum := by
  rw [← Bins.sum_tiled g buckets_tiled, bucketCalibration_eq, List.map_map]
  induction BUCKETS with
  | nil => rfl
  | cons b bins ih =>
    rw [List.map_cons, List.sum_cons, ← ih]
    by_cases hempty : bucketReturns samples b = []
    · have hnone : Bins.members Prod.fst b (numbers samples) = [] := by
        rw [bucketReturns_eq] at hempty
        exact List.map_eq_nil_iff.mp hempty
      rw [List.filter_cons_of_neg (by simp [hempty]), hnone]
      simp
    · rw [List.filter_cons_of_pos (by simpa using hempty), List.map_cons, List.sum_cons]
      congr 1
      exact hg b hempty

theorem sum_countP (p : ℚ → Prop) [DecidablePred p] (xs : List (ℚ × ℚ)) :
    (xs.map fun x => if p x.2 then (1 : ℚ) else 0).sum = (xs.map Prod.snd).countP (p ·) := by
  induction xs with
  | nil => rfl
  | cons x xs ih =>
    rw [List.map_cons, List.sum_cons, ih, List.map_cons, List.countP_cons]
    by_cases hp : p x.2
    · simp [hp, add_comm]
    · simp [hp]

theorem length_ne_zero {xs : List ℚ} (h : xs ≠ []) : (xs.length : ℚ) ≠ 0 := by
  have := List.length_pos_of_ne_nil h
  positivity

/-- The mean of a list is between its bounds. -/
theorem mean_mem {xs : List ℚ} (hne : xs ≠ []) {m M : ℚ} (h : ∀ x ∈ xs, m ≤ x ∧ x ≤ M) :
    m ≤ xs.sum / xs.length ∧ xs.sum / xs.length ≤ M := by
  have hpos : (0 : ℚ) < xs.length := by
    have := List.length_pos_of_ne_nil hne
    positivity
  have hlow := List.card_nsmul_le_sum xs m fun x hx => (h x hx).1
  have hhigh := List.sum_le_card_nsmul xs M fun x hx => (h x hx).2
  rw [nsmul_eq_mul] at hlow hhigh
  rw [le_div_iff₀ hpos, div_le_iff₀ hpos]
  exact ⟨by linarith, by linarith⟩

theorem all_zip_tail (rets : List ℚ) :
    (rets.zip rets.tail).all (fun p => p.1 ≤ p.2) ↔ rets.IsChain (· ≤ ·) := by
  induction rets with
  | nil => simp
  | cons a rets ih =>
    cases rets with
    | nil => simp
    | cons b rets =>
      rw [List.isChain_cons_cons, ← ih]
      simp

/-- Neighbours in order are all in order. -/
theorem isMonotonic_iff :
    isMonotonic stats ↔ stats.Pairwise fun a b => a.avgReturn ≤ b.avgReturn := by
  show ((stats.map BucketStat.avgReturn).zip (stats.map BucketStat.avgReturn).tail).all _ ↔ _
  rw [all_zip_tail, List.isChain_iff_pairwise, List.pairwise_map]

theorem mem_bucketCalibration {st : BucketStat} (hst : st ∈ bucketCalibration samples) :
    ∃ b ∈ BUCKETS, bucketReturns samples b ≠ [] ∧ st = statOf samples b := by
  rw [bucketCalibration_eq] at hst
  obtain ⟨b, hb, rfl⟩ := List.mem_map.mp hst
  obtain ⟨hmem, hne⟩ := List.mem_filter.mp hb
  exact ⟨b, hmem, by simpa using hne, rfl⟩

/-- **The statistics account for the samples**: of those whose confidence is a number from
0 to 1 each is counted once, and so are its return and its win; a bucket has the mean of
its own returns and a win rate between nothing and all; and the verdict is about every two
buckets.  All of it in exact rationals. -/
theorem stats_sound (samples : List (FloatValue × ℚ)) :
    let stats := bucketCalibration samples
    let kept := (numbers samples).filter fun x => 0 ≤ x.1 ∧ x.1 < 101 / 100
    (stats.map fun st => (st.n : ℚ)).sum = kept.length ∧
      (stats.map fun st => (st.n : ℚ) * st.avgReturn).sum = (kept.map Prod.snd).sum ∧
      (stats.map fun st => (st.n : ℚ) * st.winRate).sum = kept.countP (0 < ·.2) ∧
      (∀ st ∈ stats, ∃ b ∈ BUCKETS, st.n = (bucketReturns samples b).length ∧ 0 < st.n ∧
        (∀ m M, (∀ r ∈ bucketReturns samples b, m ≤ r ∧ r ≤ M) →
          m ≤ st.avgReturn ∧ st.avgReturn ≤ M) ∧
        0 ≤ st.winRate ∧ st.winRate ≤ 1) ∧
      (isMonotonic stats ↔ stats.Pairwise fun a b => a.avgReturn ≤ b.avgReturn) := by
  intro stats kept
  have hkept : Bins.members Prod.fst (0, 101 / 100) (numbers samples) = kept := rfl
  refine ⟨?_, ?_, ?_, ?_, isMonotonic_iff⟩
  · rw [sum_bucketCalibration _ samples (fun _ => 1), hkept]
    · simp
    · intro b _
      simp [statOf, bucketReturns_eq]
  · rw [sum_bucketCalibration _ samples Prod.snd, hkept]
    intro b hne
    rw [← bucketReturns_eq]
    exact mul_div_cancel₀ _ (length_ne_zero hne)
  · rw [sum_bucketCalibration _ samples fun x => if 0 < x.2 then 1 else 0, hkept,
      sum_countP (0 < ·), List.countP_map]
    · rfl
    · intro b hne
      rw [sum_countP (0 < ·), ← bucketReturns_eq]
      exact mul_div_cancel₀ _ (length_ne_zero hne)
  · intro st hst
    obtain ⟨b, hb, hne, rfl⟩ := mem_bucketCalibration hst
    have hpos : 0 < (bucketReturns samples b).length := List.length_pos_of_ne_nil hne
    refine ⟨b, hb, rfl, hpos, fun m M hbounds => mean_mem hne hbounds, by
      show 0 ≤ _ / _
      positivity, ?_⟩
    show _ / _ ≤ (1 : ℚ)
    rw [div_le_one (by exact_mod_cast hpos)]
    exact_mod_cast List.countP_le_length

end AutoTrade
