/-
AutoTrade/Momentum.lean

What the relative strength index (`rsi` of `engine/indicators.py`) measures.

The index is `ratio` of two of Wilder's averages, that of the gains and that of the losses
of a series.  It is read off four facts.  The changes of a series know how it runs
(`forall_changes`), so an average is zero exactly when the series never moves that way.
The averages are linear, so their `ratio` keeps no scale.  A series that is mirrored has
its gains and losses exchanged, and the last close moves both averages the same way.

The closes and what is computed from them are exact rational numbers here; the floats of
the source round each operation.
-/
import AutoTrade.Screener
import AutoTrade.Lib.Smooth

namespace AutoTrade

variable {values : List ℚ} {period : ℕ} {r : ℚ}

/-! ### The changes of a series -/

@[simp] theorem changes_cons_cons (a b : ℚ) (values : List ℚ) :
    changes (a :: b :: values) = (b - a) :: changes (b :: values) := rfl

/-- What holds of every change holds of every two neighbours. -/
theorem forall_changes {p : ℚ → Prop} (values : List ℚ) :
    (∀ d ∈ changes values, p d) ↔ values.IsChain fun a b => p (b - a) := by
  induction values with
  | nil => simp [changes]
  | cons a values ih =>
    cases values with
    | nil => simp [changes]
    | cons b values =>
      rw [changes_cons_cons, List.forall_mem_cons, ih, List.isChain_cons_cons]

/-- No change is a gain exactly when the series never rises. -/
theorem never_rises (values : List ℚ) :
    (∀ d ∈ changes values, d ≤ 0) ↔ values.IsChain (· ≥ ·) := by
  simp only [forall_changes, sub_nonpos]

/-- No change is a loss exactly when the series never falls. -/
theorem never_falls (values : List ℚ) :
    (∀ d ∈ changes values, 0 ≤ d) ↔ values.IsChain (· ≤ ·) := by
  simp only [forall_changes, sub_nonneg]

theorem never_moves (values : List ℚ) :
    (∀ d ∈ changes values, d = 0) ↔ values.IsChain (· = ·) := by
  simp only [forall_changes, sub_eq_zero, eq_comm]

/-- Scaling scales the changes, and shifting leaves them. -/
theorem changes_map (a b : ℚ) (values : List ℚ) :
    changes (values.map (a * · + b)) = (changes values).map (a * ·) := by
  induction values with
  | nil => rfl
  | cons x values ih =>
    cases values with
    | nil => rfl
    | cons y values =>
      show (a * y + b - (a * x + b)) :: changes ((y :: values).map (a * · + b)) =
        a * (y - x) :: (changes (y :: values)).map (a * ·)
      rw [ih]
      congr 1
      ring

theorem changes_concat (values : List ℚ) (a b : ℚ) :
    changes (values ++ [a, b]) = changes (values ++ [a]) ++ [b - a] := by
  induction values with
  | nil => rfl
  | cons x values ih =>
    cases values with
    | nil => rfl
    | cons y values =>
      show (y - x) :: changes (y :: values ++ [a, b]) = (y - x) :: (changes _ ++ [b - a])
      rw [ih]
      rfl

/-! ### Average gain and average loss -/

/-- `avg_gain` of the source. -/
def avgGain (values : List ℚ) (period : ℕ) : ℚ :=
  wilder period ((changes values).map fun d => max d 0)

/-- `avg_loss` of the source. -/
def avgLoss (values : List ℚ) (period : ℕ) : ℚ :=
  wilder period ((changes values).map fun d => max (-d) 0)

theorem wilder_eq (period : ℕ) (xs : List ℚ) : wilder period xs = Smooth.average period xs := rfl

theorem avgGain_nonneg (hp : 1 ≤ period) : 0 ≤ avgGain values period :=
  Smooth.average_nonneg hp (List.forall_mem_map.mpr fun d _ => le_max_right d 0)

theorem avgLoss_nonneg (hp : 1 ≤ period) : 0 ≤ avgLoss values period :=
  Smooth.average_nonneg hp (List.forall_mem_map.mpr fun d _ => le_max_right (-d) 0)

/-- The average gain vanishes exactly when there is no gain; with a period of one only
the last change would count. -/
theorem avgGain_eq_zero_iff (hp : 2 ≤ period) :
    avgGain values period = 0 ↔ ∀ d ∈ changes values, d ≤ 0 := by
  rw [avgGain, wilder_eq, Smooth.average_eq_zero_iff hp
    (List.forall_mem_map.mpr fun d _ => le_max_right d 0), List.forall_mem_map]
  simp only [max_eq_right_iff]

/-- The same for losses. -/
theorem avgLoss_eq_zero_iff (hp : 2 ≤ period) :
    avgLoss values period = 0 ↔ ∀ d ∈ changes values, 0 ≤ d := by
  rw [avgLoss, wilder_eq, Smooth.average_eq_zero_iff hp
    (List.forall_mem_map.mpr fun d _ => le_max_right (-d) 0), List.forall_mem_map]
  simp only [max_eq_right_iff, neg_nonpos]

theorem avgGain_map {a : ℚ} (ha : 0 ≤ a) (b : ℚ) :
    avgGain (values.map (a * · + b)) period = a * avgGain values period := by
  rw [avgGain, avgGain, wilder_eq, wilder_eq, ← Smooth.average_map_mul, changes_map,
    List.map_map, List.map_map]
  congr 2
  funext d
  show max (a * d) 0 = a * max d 0
  rw [mul_max_of_nonneg _ _ ha, mul_zero]

theorem avgLoss_map {a : ℚ} (ha : 0 ≤ a) (b : ℚ) :
    avgLoss (values.map (a * · + b)) period = a * avgLoss values period := by
  rw [avgLoss, avgLoss, wilder_eq, wilder_eq, ← Smooth.average_map_mul, changes_map,
    List.map_map, List.map_map]
  congr 2
  funext d
  show max (-(a * d)) 0 = a * max (-d) 0
  rw [mul_max_of_nonneg _ _ ha, mul_zero, mul_neg]

/-- The gains of the mirrored series are the losses. -/
theorem avgGain_mirror (c : ℚ) : avgGain (values.map (c - ·)) period = avgLoss values period := by
  have hmap : values.map (c - ·) = values.map (-1 * · + c) := by
    congr 1
    funext x
    ring
  rw [avgGain, avgLoss, hmap, changes_map, List.map_map]
  congr 2
  funext d
  show max (-1 * d) 0 = max (-d) 0
  rw [neg_one_mul]

/-- The losses of the mirrored series are the gains. -/
theorem avgLoss_mirror (c : ℚ) : avgLoss (values.map (c - ·)) period = avgGain values period := by
  rw [← avgGain_mirror c, List.map_map]
  congr 1
  conv_rhs => rw [← List.map_id values]
  congr 1
  funext x
  exact sub_sub_cancel c x

/-- A higher last close gains no less. -/
theorem avgGain_mono (hp : 1 ≤ period) (values : List ℚ) (a : ℚ) {x y : ℚ} (hxy : x ≤ y) :
    avgGain (values ++ [a, x]) period ≤ avgGain (values ++ [a, y]) period := by
  rw [avgGain, avgGain, changes_concat, changes_concat, List.map_append, List.map_append]
  exact Smooth.average_mono_last hp _ (max_le_max_right 0 (sub_le_sub_right hxy a))

/-- And it loses no more. -/
theorem avgLoss_mono (hp : 1 ≤ period) (values : List ℚ) (a : ℚ) {x y : ℚ} (hxy : x ≤ y) :
    avgLoss (values ++ [a, y]) period ≤ avgLoss (values ++ [a, x]) period := by
  rw [avgLoss, avgLoss, changes_concat, changes_concat, List.map_append, List.map_append]
  exact Smooth.average_mono_last hp _
    (max_le_max_right 0 (neg_le_neg (sub_le_sub_right hxy a)))

/-! ### The index of a gain and a loss -/

/-- The last lines of `rsi`, from its two averages. -/
def ratio (gain loss : ℚ) : ℚ := if loss = 0 then 100 else 100 - 100 / (1 + gain / loss)

variable {gain loss gain' loss' : ℚ}

@[simp] theorem ratio_zero (gain : ℚ) : ratio gain 0 = 100 := if_pos rfl

/-- The index is the part of the gain, in hundredths. -/
theorem ratio_of_pos (hgain : 0 ≤ gain) (hloss : 0 < loss) :
    ratio gain loss = 100 * gain / (gain + loss) := by
  rw [ratio, if_neg hloss.ne']
  have hsum : gain + loss ≠ 0 := (add_pos_of_nonneg_of_pos hgain hloss).ne'
  have hfrac : 1 + gain / loss = (gain + loss) / loss := by field_simp; ring
  rw [hfrac]
  field_simp
  ring

theorem ratio_nonneg (hgain : 0 ≤ gain) (hloss : 0 ≤ loss) : 0 ≤ ratio gain loss := by
  rcases hloss.eq_or_lt with rfl | hpos
  · simp
  · rw [ratio_of_pos hgain hpos]
    positivity

/-- With some loss the index is below the whole. -/
theorem ratio_lt (hgain : 0 ≤ gain) (hloss : 0 < loss) : ratio gain loss < 100 := by
  rw [ratio_of_pos hgain hloss, div_lt_iff₀ (add_pos_of_nonneg_of_pos hgain hloss)]
  linarith

/-- The whole is the index of no loss, also where there is no gain. -/
theorem ratio_eq_hundred_iff (hgain : 0 ≤ gain) (hloss : 0 ≤ loss) :
    ratio gain loss = 100 ↔ loss = 0 := by
  rcases hloss.eq_or_lt with rfl | hpos
  · simp
  · exact iff_of_false (ratio_lt hgain hpos).ne hpos.ne'

theorem ratio_le (hgain : 0 ≤ gain) (hloss : 0 ≤ loss) : ratio gain loss ≤ 100 := by
  rcases hloss.eq_or_lt with rfl | hpos
  · simp
  · exact (ratio_lt hgain hpos).le

/-- Nothing is the index of losses without a gain. -/
theorem ratio_eq_zero_iff (hgain : 0 ≤ gain) (hloss : 0 ≤ loss) :
    ratio gain loss = 0 ↔ gain = 0 ∧ loss ≠ 0 := by
  rcases hloss.eq_or_lt with rfl | hpos
  · simp
  · rw [ratio_of_pos hgain hpos, div_eq_zero_iff,
      or_iff_left (add_pos_of_nonneg_of_pos hgain hpos).ne', mul_eq_zero,
      or_iff_right (by norm_num), and_iff_left hpos.ne']

theorem ratio_mul {a : ℚ} (ha : a ≠ 0) (gain loss : ℚ) :
    ratio (a * gain) (a * loss) = ratio gain loss := by
  rw [ratio, ratio, mul_div_mul_left _ _ ha]
  simp [ha]

/-- A gain and a loss that change places have the two parts of a hundred. -/
theorem ratio_swap (hgain : 0 ≤ gain) (hloss : 0 ≤ loss) (hne : gain ≠ 0 ∨ loss ≠ 0) :
    ratio loss gain = 100 - ratio gain loss := by
  rcases hloss.eq_or_lt with rfl | hlpos
  · have hgpos : 0 < gain := hgain.lt_of_ne' (hne.resolve_right fun h => h rfl)
    rw [ratio_zero, ratio_of_pos le_rfl hgpos]
    simp
  rcases hgain.eq_or_lt with rfl | hgpos
  · rw [ratio_zero, ratio_of_pos le_rfl hlpos]
    simp
  · rw [ratio_of_pos hlpos.le hgpos, ratio_of_pos hgpos.le hlpos, add_comm loss gain]
    field_simp
    ring

/-- More gain and less loss give a higher index. -/
theorem ratio_mono (hgain : 0 ≤ gain) (hle : gain ≤ gain') (hloss' : 0 ≤ loss')
    (hle' : loss' ≤ loss) : ratio gain loss ≤ ratio gain' loss' := by
  rcases hloss'.eq_or_lt with rfl | hpos'
  · rw [ratio_zero]
    exact ratio_le hgain hle'
  have hpos : 0 < loss := hpos'.trans_le hle'
  have hgain' : 0 ≤ gain' := hgain.trans hle
  rw [ratio_of_pos hgain hpos, ratio_of_pos hgain' hpos',
    div_le_div_iff₀ (add_pos_of_nonneg_of_pos hgain hpos)
      (add_pos_of_nonneg_of_pos hgain' hpos')]
  have hcross : gain * loss' ≤ gain' * loss := mul_le_mul hle hle' hpos'.le hgain'
  linarith

/-! ### The index of a series -/

theorem rsi_eq (values : List ℚ) (period : ℕ) :
    rsi values period =
      if period = 0 ∨ values.length < period + 1 then none
      else some (ratio (avgGain values period) (avgLoss values period)) := by
  rw [ratio, apply_ite some]
  rfl

/-- There is an index for a period and enough closes. -/
theorem rsi_eq_some_iff :
    rsi values period = some r ↔
      (1 ≤ period ∧ period < values.length) ∧
        r = ratio (avgGain values period) (avgLoss values period) := by
  rw [rsi_eq]
  split_ifs with hshort
  · refine iff_of_false (fun h => nomatch h) ?_
    rintro ⟨⟨hp, hlen⟩, -⟩
    omega
  · have hlong : 1 ≤ period ∧ period < values.length := by omega
    rw [Option.some_inj, eq_comm, and_iff_right hlong]

/-- Only a series that stands still has neither gains nor losses. -/
theorem ne_zero_of_moves (hp : 2 ≤ period) (hmoves : ¬ values.IsChain (· = ·)) :
    avgGain values period ≠ 0 ∨ avgLoss values period ≠ 0 := by
  by_contra hzero
  push Not at hzero
  obtain ⟨hgain, hloss⟩ := hzero
  rw [avgGain_eq_zero_iff hp] at hgain
  rw [avgLoss_eq_zero_iff hp] at hloss
  exact hmoves ((never_moves values).mp fun d hd => le_antisymm (hgain d hd) (hloss d hd))

/-- **The index reads how a series runs, whatever its scale**, in exact rational numbers:
it is a part of a hundred;
with two periods or more it is the whole exactly of a series that never falls, and nothing
exactly of one that never rises and does fall; another price unit leaves it as it is, the
mirrored series has the other part, and a higher last close never lowers it. -/
theorem rsi_sound (h : rsi values period = some r) :
    (0 ≤ r ∧ r ≤ 100) ∧
      (2 ≤ period →
        (r = 100 ↔ values.IsChain (· ≤ ·)) ∧
        (r = 0 ↔ values.IsChain (· ≥ ·) ∧ ¬ values.IsChain (· ≤ ·)) ∧
        (¬ values.IsChain (· = ·) → ∀ c,
          rsi (values.map (c - ·)) period = some (100 - r))) ∧
      (∀ a b, 0 < a → rsi (values.map (a * · + b)) period = some r) ∧
      ∀ init x y, values = init ++ [x] → x ≤ y →
        ∃ r', rsi (init ++ [y]) period = some r' ∧ r ≤ r' := by
  obtain ⟨⟨hp, hlen⟩, rfl⟩ := rsi_eq_some_iff.mp h
  have hgain : 0 ≤ avgGain values period := avgGain_nonneg hp
  have hloss : 0 ≤ avgLoss values period := avgLoss_nonneg hp
  refine ⟨⟨ratio_nonneg hgain hloss, ratio_le hgain hloss⟩, fun hp2 => ⟨?_, ?_, ?_⟩, ?_, ?_⟩
  · rw [ratio_eq_hundred_iff hgain hloss, avgLoss_eq_zero_iff hp2, never_falls]
  · rw [ratio_eq_zero_iff hgain hloss, avgGain_eq_zero_iff hp2, never_rises, ne_eq,
      avgLoss_eq_zero_iff hp2, never_falls]
  · intro hmoves c
    rw [rsi_eq_some_iff, List.length_map, avgGain_mirror, avgLoss_mirror]
    exact ⟨⟨hp, hlen⟩, (ratio_swap hgain hloss (ne_zero_of_moves hp2 hmoves)).symm⟩
  · intro a b ha
    rw [rsi_eq_some_iff, List.length_map, avgGain_map ha.le, avgLoss_map ha.le]
    exact ⟨⟨hp, hlen⟩, (ratio_mul ha.ne' _ _).symm⟩
  · rintro init x y rfl hxy
    -- the index needs a close before the last
    rcases List.eq_nil_or_concat init with rfl | ⟨pre, a, rfl⟩
    · rw [List.nil_append, List.length_singleton] at hlen
      omega
    simp only [List.append_assoc, List.singleton_append, List.concat_eq_append] at hlen hgain ⊢
    refine ⟨_, rsi_eq_some_iff.mpr ⟨⟨hp, ?_⟩, rfl⟩, ?_⟩
    · simpa using hlen
    · exact ratio_mono hgain (avgGain_mono hp pre a hxy) (avgLoss_nonneg hp)
        (avgLoss_mono hp pre a hxy)

/-- A series scaled and shifted, and one with a higher last close. -/
theorem rsi_sound_third :
    rsi ([3, 1, 4, 2].map (50 * · + 7)) 2 = some (100 / 3) ∧
      ∃ r', rsi [3, 1, 4, 9] 2 = some r' ∧ 100 / 3 ≤ r' := by
  obtain ⟨-, -, hscale, hlast⟩ :=
    rsi_sound (show rsi [3, 1, 4, 2] 2 = some (100 / 3) by decide +kernel)
  exact ⟨hscale 50 7 (by norm_num), hlast [3, 1, 4] 2 9 rfl (by norm_num)⟩

end AutoTrade
