/-
AutoTrade/Lib/Seek.lean

A loop that counts up until a test is met.

`Seeker` carries what makes the loop stop: a measure that falls wherever the test
fails.  `seek` is then the least element from the start on that meets the test
(`seek_isLeast`), and it moves with its start (`seek_mono`).
-/
import Mathlib.Algebra.Order.SuccPred
import Mathlib.Order.Bounds.Basic

universe u

/-- A test that cannot fail for ever: `left` falls with each failure. -/
structure Seeker (α : Type u) [Add α] [One α] where
  test : α → Bool
  left : α → ℕ
  left_lt : ∀ n, test n = false → left (n + 1) < left n

namespace Seeker

section Loop

variable {α : Type u} [Add α] [One α]

/-- `while not test(n): n += 1`. -/
def seek (s : Seeker α) (n : α) : α :=
  if h : s.test n = true then n else s.seek (n + 1)
termination_by s.left n
decreasing_by exact s.left_lt n (Bool.eq_false_iff.mpr h)

variable (s : Seeker α)

theorem seek_of_test {n : α} (h : s.test n = true) : s.seek n = n := by
  rw [seek, dif_pos h]

theorem seek_of_not_test {n : α} (h : s.test n = false) : s.seek n = s.seek (n + 1) := by
  rw [seek, dif_neg (Bool.eq_false_iff.mp h)]

/-- What holds where the test is met, and passes from a number to the one before it
where it is not, holds from every start. -/
theorem seek_induction {P : α → α → Prop} (met : ∀ n, s.test n = true → P n n)
    (next : ∀ n, s.test n = false → P (n + 1) (s.seek (n + 1)) → P n (s.seek (n + 1)))
    (n : α) : P n (s.seek n) := by
  induction n using seek.induct (s := s) with
  | case1 n h =>
    rw [s.seek_of_test h]
    exact met n h
  | case2 n h ih =>
    have hfail := Bool.eq_false_iff.mpr h
    rw [s.seek_of_not_test hfail]
    exact next n hfail ih

@[simp] theorem test_seek (n : α) : s.test (s.seek n) = true :=
  s.seek_induction (P := fun _ m => s.test m = true) (fun _ h => h) (fun _ _ ih => ih) n

end Loop

section Order

variable {α : Type u} [LinearOrder α] [Add α] [One α] [SuccAddOrder α] (s : Seeker α)

theorem le_seek (n : α) : n ≤ s.seek n :=
  s.seek_induction (P := fun n m => n ≤ m) (fun n _ => le_refl n)
    (fun n _ ih => (Order.le_succ n).trans (Order.succ_eq_add_one n ▸ ih)) n

/-- Nothing that meets the test is passed over. -/
theorem seek_le {n m : α} (hnm : n ≤ m) (hm : s.test m = true) : s.seek n ≤ m := by
  refine s.seek_induction (P := fun n k => n ≤ m → k ≤ m) (fun n _ h => h) ?_ n hnm
  intro n hn ih hle
  -- the test fails at `n` and is met at `m`
  have hne : n ≠ m := by
    rintro rfl
    rw [hm] at hn
    cases hn
  exact ih (Order.add_one_le_of_lt (lt_of_le_of_ne hle hne))

/-- **The loop stops at the least number that meets the test.** -/
theorem seek_isLeast (n : α) : IsLeast {m | n ≤ m ∧ s.test m = true} (s.seek n) :=
  ⟨⟨s.le_seek n, s.test_seek n⟩, fun _ hm => s.seek_le hm.1 hm.2⟩

theorem seek_mono {n m : α} (h : n ≤ m) : s.seek n ≤ s.seek m :=
  s.seek_le (h.trans (s.le_seek m)) (s.test_seek m)

end Order

end Seeker
