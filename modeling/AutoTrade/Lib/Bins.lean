/-
AutoTrade/Lib/Bins.lean

Bins that lie side by side.

`Tiled lo hi bins` are half-open intervals that follow one another from `lo` to `hi`.
What is added up bin by bin is what is added up over the whole interval (`sum_tiled`):
no element between the two ends is missed, and none is in two bins.
-/
import Mathlib.Algebra.BigOperators.Group.List.Basic
import Mathlib.Order.Lattice

namespace Bins

variable {ι K M : Type*} [LinearOrder K] [AddCommMonoid M]

/-- The elements whose key is in a bin. -/
def members (key : ι → K) (b : K × K) (xs : List ι) : List ι :=
  xs.filter fun x => b.1 ≤ key x ∧ key x < b.2

/-- Bins from `lo` to `hi`, each beginning where the one before ends. -/
inductive Tiled : K → K → List (K × K) → Prop
  | nil (lo : K) : Tiled lo lo []
  | cons {lo mid hi : K} {bins : List (K × K)} (hle : lo ≤ mid) (htail : Tiled mid hi bins) :
      Tiled lo hi ((lo, mid) :: bins)

variable {key : ι → K} {lo mid hi : K} {bins : List (K × K)}

theorem Tiled.le (h : Tiled lo hi bins) : lo ≤ hi := by
  induction h with
  | nil => exact le_rfl
  | cons hle _ ih => exact hle.trans ih

theorem members_nil (key : ι → K) (lo : K) (xs : List ι) : members key (lo, lo) xs = [] :=
  List.filter_eq_nil_iff.mpr fun _ _ h =>
    absurd ((of_decide_eq_true h).1.trans_lt (of_decide_eq_true h).2) (lt_irrefl _)

/-- Two bins side by side hold what the bin over both holds. -/
theorem sum_members_split (f : ι → M) (hlo : lo ≤ mid) (hhi : mid ≤ hi) (xs : List ι) :
    ((members key (lo, mid) xs).map f).sum + ((members key (mid, hi) xs).map f).sum =
      ((members key (lo, hi) xs).map f).sum := by
  induction xs with
  | nil => simp [members]
  | cons x xs ih =>
    simp only [members] at ih ⊢
    simp only [List.filter_cons, decide_eq_true_eq]
    by_cases hmid : key x < mid
    · have hup : ¬ (mid ≤ key x ∧ key x < hi) := fun h => absurd h.1 (not_le.mpr hmid)
      have hall : (lo ≤ key x ∧ key x < hi) ↔ (lo ≤ key x ∧ key x < mid) :=
        and_congr_right fun _ => iff_of_true (hmid.trans_le hhi) hmid
      simp only [if_neg hup, hall]
      split_ifs
      · rw [List.map_cons, List.sum_cons, List.map_cons, List.sum_cons, ← ih, add_assoc]
      · exact ih
    · have hlow : ¬ (lo ≤ key x ∧ key x < mid) := fun h => hmid h.2
      have hge : mid ≤ key x := not_lt.mp hmid
      have hall : (lo ≤ key x ∧ key x < hi) ↔ (mid ≤ key x ∧ key x < hi) :=
        and_congr_left fun _ => iff_of_true (hlo.trans hge) hge
      simp only [if_neg hlow, hall]
      split_ifs
      · rw [List.map_cons, List.sum_cons, List.map_cons, List.sum_cons, ← ih, add_left_comm]
      · exact ih

/-- **Bin by bin is all at once.** -/
theorem sum_tiled (f : ι → M) (h : Tiled lo hi bins) (xs : List ι) :
    (bins.map fun b => ((members key b xs).map f).sum).sum =
      ((members key (lo, hi) xs).map f).sum := by
  induction h with
  | nil lo => rw [members_nil]; rfl
  | cons hle htail ih =>
    rw [List.map_cons, List.sum_cons, ih, sum_members_split f hle htail.le]

end Bins
