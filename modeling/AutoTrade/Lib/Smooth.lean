/-
AutoTrade/Lib/Smooth.lean

Averages that are smoothed.

The average of a list is the mean of its first `n` elements, and each of the others
moves it by an `n`-th of its distance.  So every element has a part in the average when
`n` is not one (`average_eq_zero_iff`), the average is linear (`average_map_mul`), and
the last element moves it its own way (`average_mono_last`).
-/
import Mathlib.Algebra.Order.BigOperators.Group.List
import Mathlib.Algebra.Order.Field.Basic
import Mathlib.Algebra.BigOperators.Ring.List
import Mathlib.Data.List.Induction
import Mathlib.Tactic.Linarith
import Mathlib.Tactic.Ring

namespace Smooth

variable {K : Type*} [Field K]

/-- Move an average by each element of a list. -/
def smooth (n : ℕ) (avg : K) (xs : List K) : K :=
  xs.foldl (fun avg x => (avg * (n - 1) + x) / n) avg

/-- The mean of the first `n`, smoothed over the rest. -/
def average (n : ℕ) (xs : List K) : K := smooth n ((xs.take n).sum / n) (xs.drop n)

variable {n : ℕ} {avg a x y : K} {xs : List K}

theorem smooth_append (avg : K) (xs : List K) (x : K) :
    smooth n avg (xs ++ [x]) = (smooth n avg xs * (n - 1) + x) / n := by
  rw [smooth, List.foldl_append]
  rfl

theorem smooth_map_mul (a avg : K) (xs : List K) :
    smooth n (a * avg) (xs.map (a * ·)) = a * smooth n avg xs := by
  induction xs using List.reverseRecOn with
  | nil => rfl
  | append_singleton xs x ih =>
    rw [List.map_append, List.map_singleton, smooth_append, smooth_append, ih]
    ring

/-- The average is linear. -/
theorem average_map_mul (a : K) (xs : List K) :
    average n (xs.map (a * ·)) = a * average n xs := by
  have hsum : ((xs.take n).map (a * ·)).sum = a * (xs.take n).sum := by
    induction xs.take n with
    | nil => simp
    | cons x xs ih => rw [List.map_cons, List.sum_cons, List.sum_cons, ih, mul_add]
  rw [average, average, ← List.map_take, ← List.map_drop, hsum, mul_div_assoc, smooth_map_mul]

variable [LinearOrder K] [IsStrictOrderedRing K]

theorem pred_nonneg (hn : 1 ≤ n) : (0 : K) ≤ n - 1 := by
  have : (1 : K) ≤ n := by exact_mod_cast hn
  linarith

theorem smooth_nonneg (hn : 1 ≤ n) (havg : 0 ≤ avg) (hxs : ∀ x ∈ xs, 0 ≤ x) :
    0 ≤ smooth n avg xs := by
  induction xs generalizing avg with
  | nil => exact havg
  | cons x xs ih =>
    refine ih ?_ fun y hy => hxs y (List.mem_cons_of_mem _ hy)
    have hx : 0 ≤ x := hxs x List.mem_cons_self
    exact div_nonneg (add_nonneg (mul_nonneg havg (pred_nonneg hn)) hx) (Nat.cast_nonneg n)

/-- No element that was taken in is lost. -/
theorem smooth_eq_zero_iff (hn : 2 ≤ n) (havg : 0 ≤ avg) (hxs : ∀ x ∈ xs, 0 ≤ x) :
    smooth n avg xs = 0 ↔ avg = 0 ∧ ∀ x ∈ xs, x = 0 := by
  have hn1 : 1 ≤ n := Nat.le_of_succ_le hn
  have hpred : (0 : K) < n - 1 := by
    have : (2 : K) ≤ n := by exact_mod_cast hn
    linarith
  have hpos : (0 : K) < n := by exact_mod_cast hn1
  induction xs generalizing avg with
  | nil => simp [smooth]
  | cons x xs ih =>
    have hx : 0 ≤ x := hxs x List.mem_cons_self
    have hrest : ∀ y ∈ xs, 0 ≤ y := fun y hy => hxs y (List.mem_cons_of_mem _ hy)
    have hsum : 0 ≤ avg * (n - 1) + x := add_nonneg (mul_nonneg havg hpred.le) hx
    -- the first step is zero only from zero and with zero
    have hstep : (avg * (n - 1) + x) / n = 0 ↔ avg = 0 ∧ x = 0 := by
      rw [div_eq_zero_iff, or_iff_left hpos.ne',
        add_eq_zero_iff_of_nonneg (mul_nonneg havg hpred.le) hx, mul_eq_zero,
        or_iff_left hpred.ne']
    show smooth n ((avg * (n - 1) + x) / n) xs = 0 ↔ _
    refine (ih (div_nonneg hsum hpos.le) hrest).trans ?_
    rw [hstep, List.forall_mem_cons, and_assoc]

theorem average_nonneg (hn : 1 ≤ n) (hxs : ∀ x ∈ xs, 0 ≤ x) : 0 ≤ average n xs :=
  smooth_nonneg hn
    (div_nonneg (List.sum_nonneg fun x hx => hxs x (List.mem_of_mem_take hx)) (Nat.cast_nonneg n))
    fun x hx => hxs x (List.mem_of_mem_drop hx)

/-- **The average of what is not negative is zero only when all of it is.** -/
theorem average_eq_zero_iff (hn : 2 ≤ n) (hxs : ∀ x ∈ xs, 0 ≤ x) :
    average n xs = 0 ↔ ∀ x ∈ xs, x = 0 := by
  have htake : ∀ x ∈ xs.take n, 0 ≤ x := fun x hx => hxs x (List.mem_of_mem_take hx)
  have hpos : (0 : K) < n := by exact_mod_cast Nat.lt_of_succ_lt hn
  have hsum : (xs.take n).sum / n = 0 ↔ ∀ x ∈ xs.take n, x = 0 := by
    rw [div_eq_zero_iff, or_iff_left hpos.ne']
    refine ⟨fun h x hx => ?_, List.sum_eq_zero⟩
    exact List.all_zero_of_le_zero_le_of_sum_eq_zero htake h hx
  rw [average, smooth_eq_zero_iff hn (div_nonneg (List.sum_nonneg htake) hpos.le)
    (fun x hx => hxs x (List.mem_of_mem_drop hx)), hsum, ← List.forall_mem_append,
    List.take_append_drop]

/-- **The last element moves the average its own way.** -/
theorem average_mono_last (hn : 1 ≤ n) (xs : List K) (hxy : x ≤ y) :
    average n (xs ++ [x]) ≤ average n (xs ++ [y]) := by
  have hpos : (0 : K) < n := by exact_mod_cast hn
  rcases Nat.lt_or_ge xs.length n with hlt | hge
  · -- it is one of the first
    have htake : ∀ z : K, average n (xs ++ [z]) = (xs.sum + z) / n := by
      intro z
      have hlen : (xs ++ [z]).length ≤ n := by
        rw [List.length_append, List.length_singleton]
        exact hlt
      rw [average, List.take_of_length_le hlen, List.drop_of_length_le hlen, List.sum_append,
        List.sum_singleton]
      rfl
    rw [htake, htake]
    gcongr
  · have hlast : ∀ z : K, average n (xs ++ [z]) =
        (smooth n ((xs.take n).sum / n) (xs.drop n) * (n - 1) + z) / n := by
      intro z
      rw [average, List.take_append_of_le_length hge, List.drop_append_of_le_length hge,
        smooth_append]
    rw [hlast, hlast]
    gcongr

end Smooth
