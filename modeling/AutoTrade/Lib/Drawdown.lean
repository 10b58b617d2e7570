/-
AutoTrade/Lib/Drawdown.lean

The worst fall of a series from a value it has had before, in one pass.

The pass keeps the peak so far and the worst fall so far (`Drawdown.step`), and
measures each value against the peak only.  `isGreatest_worst` says that this is
enough: the result is the greatest of the falls between any two values of the
series, the earlier one positive.  The peak starts at zero, so that a series
that is never positive has no fall.
-/
import Mathlib.Algebra.Order.Field.Basic
import Mathlib.Data.List.Induction
import Mathlib.Order.Bounds.Basic

variable {K : Type*} [Field K] [LinearOrder K]

namespace Drawdown

/-- The greatest value so far, or zero. -/
def peak (xs : List K) : K := xs.foldl max 0

/-- Take one value into the peak and the worst fall. -/
def step (acc : K × K) (x : K) : K × K :=
  let peak := max acc.1 x
  (peak, if 0 < peak then max acc.2 ((peak - x) / peak) else acc.2)

/-- The worst fall of a series. -/
def worst (xs : List K) : K := (xs.foldl step (0, 0)).2

/-- The falls of a series: from a positive value to a later one, in parts of the
earlier. -/
def Falls (xs : List K) : Set K :=
  {d | ∃ x y, [x, y].Sublist xs ∧ 0 < x ∧ d = (x - y) / x}

variable {xs : List K} {x : K}

@[simp] theorem peak_concat : peak (xs ++ [x]) = max (peak xs) x := by
  simp [peak]

theorem foldl_step (xs : List K) : xs.foldl step (0, 0) = (peak xs, worst xs) := by
  refine Prod.ext ?_ rfl
  induction xs using List.reverseRecOn with
  | nil => rfl
  | append_singleton xs x ih =>
    have hpeak : (xs.foldl step (0, 0)).1 = peak xs := ih
    rw [List.foldl_append, peak_concat, ← hpeak]
    rfl

theorem worst_concat :
    worst (xs ++ [x]) =
      if 0 < max (peak xs) x then max (worst xs) ((max (peak xs) x - x) / max (peak xs) x)
      else worst xs := by
  rw [worst, List.foldl_append, foldl_step]
  rfl

theorem le_peak (h : x ∈ xs) : x ≤ peak xs := by
  induction xs using List.reverseRecOn with
  | nil => simp at h
  | append_singleton xs y ih =>
    rw [peak_concat]
    rcases List.mem_append.mp h with h | h
    · exact (ih h).trans (le_max_left _ _)
    · exact (List.mem_singleton.mp h).le.trans (le_max_right _ _)

/-- A positive peak is a value of the series. -/
theorem peak_mem (h : 0 < peak xs) : peak xs ∈ xs := by
  induction xs using List.reverseRecOn with
  | nil => exact absurd h (lt_irrefl _)
  | append_singleton xs y ih =>
    rw [peak_concat] at h ⊢
    rcases le_total y (peak xs) with hle | hle
    · rw [max_eq_left hle] at h ⊢
      exact List.mem_append_left _ (ih h)
    · rw [max_eq_right hle]
      simp

/-! ### The falls -/

/-- A fall of a longer series is one of the series, or ends in the new value. -/
theorem mem_falls_concat {d : K} :
    d ∈ Falls (xs ++ [x]) ↔ d ∈ Falls xs ∨ ∃ y ∈ xs, 0 < y ∧ d = (y - x) / y := by
  constructor
  · rintro ⟨y, z, hsub, hpos, rfl⟩
    obtain ⟨l, r, hlr, hl, hr⟩ := List.sublist_append_iff.mp hsub
    rcases r with - | ⟨w, r⟩
    · rw [List.append_nil] at hlr
      exact Or.inl ⟨y, z, hlr ▸ hl, hpos, rfl⟩
    -- the new value is the last of the two
    · obtain ⟨rfl, rfl⟩ : w = x ∧ r = [] := by
        have hle := hr.length_le
        rcases r with - | ⟨v, r⟩
        · exact ⟨by simpa using hr, rfl⟩
        · simp at hle
      rcases l with - | ⟨u, - | ⟨v, l⟩⟩
      · simp at hlr
      · simp only [List.cons_append, List.nil_append, List.cons.injEq, and_true] at hlr
        obtain ⟨rfl, rfl⟩ := hlr
        exact Or.inr ⟨y, List.singleton_sublist.mp hl, hpos, rfl⟩
      · simp at hlr
  · rintro (⟨y, z, hsub, hpos, rfl⟩ | ⟨y, hy, hpos, rfl⟩)
    · exact ⟨y, z, hsub.trans (List.sublist_append_left _ _), hpos, rfl⟩
    · refine ⟨y, x, ?_, hpos, rfl⟩
      exact (List.singleton_sublist.mpr hy).append (List.Sublist.refl [x])

theorem worst_nonneg (xs : List K) : 0 ≤ worst xs := by
  induction xs using List.reverseRecOn with
  | nil => exact le_rfl
  | append_singleton xs x ih =>
    rw [worst_concat]
    split_ifs
    · exact ih.trans (le_max_left _ _)
    · exact ih

section Ordered

variable [IsStrictOrderedRing K]

/-- A fall to a value that is not negative is deepest from the highest one. -/
theorem fall_mono {p q : K} (hp : 0 < p) (hpq : p ≤ q) (hx : 0 ≤ x) :
    (p - x) / p ≤ (q - x) / q := by
  have hq : 0 < q := hp.trans_le hpq
  rw [sub_div, sub_div, div_self hp.ne', div_self hq.ne']
  exact sub_le_sub_left (div_le_div_of_nonneg_left hx hp hpq) 1

/-- **The pass finds the greatest fall** of a series without negative values. -/
theorem isGreatest_worst (hxs : ∀ x ∈ xs, 0 ≤ x) :
    IsGreatest (insert 0 (Falls xs)) (worst xs) := by
  -- induction from the end, as the pass goes, since it reads the curve from the front
  induction xs using List.reverseRecOn with
  | nil =>
    refine ⟨Set.mem_insert _ _, ?_⟩
    rintro d (rfl | ⟨x, y, hsub, -, -⟩)
    · exact le_rfl
    · simp at hsub
  | append_singleton xs x ih =>
    obtain ⟨hmem, hub⟩ := ih fun y hy => hxs y (List.mem_append_left _ hy)
    have hx : 0 ≤ x := hxs x (by simp)
    have hkeep : worst xs ∈ insert 0 (Falls (xs ++ [x])) :=
      hmem.imp_right fun h => mem_falls_concat.mpr (Or.inl h)
    rw [worst_concat]
    split_ifs with hpeak
    · refine ⟨?_, ?_⟩
      · rcases max_choice (worst xs) ((max (peak xs) x - x) / max (peak xs) x) with h | h
        · rw [h]
          exact hkeep
        · -- the fall to the new value, which is none when it is the peak itself
          rw [h]
          rcases le_total (peak xs) x with hle | hle
          · rw [max_eq_right hle, sub_self, zero_div]
            exact Set.mem_insert _ _
          · rw [max_eq_left hle] at hpeak ⊢
            exact Or.inr (mem_falls_concat.mpr (Or.inr ⟨_, peak_mem hpeak, hpeak, rfl⟩))
      · rintro d (rfl | hd)
        · exact (worst_nonneg xs).trans (le_max_left _ _)
        · rcases mem_falls_concat.mp hd with hd | ⟨y, hy, hpos, rfl⟩
          · exact (hub (Or.inr hd)).trans (le_max_left _ _)
          · have hle : y ≤ max (peak xs) x := (le_peak hy).trans (le_max_left _ _)
            exact (fall_mono hpos hle hx).trans (le_max_right _ _)
    · refine ⟨hkeep, ?_⟩
      rintro d (rfl | hd)
      · exact worst_nonneg xs
      · rcases mem_falls_concat.mp hd with hd | ⟨y, hy, hpos, -⟩
        · exact hub (Or.inr hd)
        · exact absurd (hpos.trans_le ((le_peak hy).trans (le_max_left _ _))) hpeak

theorem worst_le_one (hxs : ∀ x ∈ xs, 0 ≤ x) : worst xs ≤ 1 := by
  rcases (isGreatest_worst hxs).1 with h | ⟨x, y, hsub, hpos, h⟩
  · exact h.le.trans zero_le_one
  · have hy : 0 ≤ y := hxs y (hsub.subset (by simp))
    rw [h, div_le_one hpos]
    exact sub_le_self x hy

end Ordered

end Drawdown
