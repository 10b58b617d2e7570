/-
AutoTrade/Lib/DictTotal.lean

Totals over a dictionary: `Dict.total f d` adds up `f v` over the values of `d`.

An assignment or a deletion moves the total by the difference at its key
(`total_set_new`, `total_set_old`, `total_erase`), which is all that a law of
conservation over a dictionary needs.
-/
import AutoTrade.Lib.Dict
import Mathlib.Algebra.BigOperators.Group.List.Basic
import Mathlib.Tactic.Abel

universe u v

namespace Dict

variable {κ : Type u} {υ : Type v} {M : Type*} [AddCommGroup M] (f : υ → M)

/-- The sum of `f` over the values. -/
def total (d : Dict κ υ) : M := (d.entries.map fun p => f p.2).sum

@[simp] theorem total_empty : total f (∅ : Dict κ υ) = 0 := rfl

theorem total_mapValues {υ' : Type v} (g : υ' → M) (h : υ → υ') (d : Dict κ υ) :
    total g (d.mapValues h) = total (fun v => g (h v)) d := by
  simp [total, mapValues, List.map_map, Function.comp_def]

variable [DecidableEq κ]

theorem sum_put_new {k : κ} (v : υ) {l : List (κ × υ)} (hk : find k l = none) :
    ((put k v l).map fun p => f p.2).sum = (l.map fun p => f p.2).sum + f v := by
  induction l with
  | nil => simp [put]
  | cons p l ih =>
    obtain ⟨k', v'⟩ := p
    by_cases h : k' = k
    · simp [find, h] at hk
    · have hrest : find k l = none := by simpa [find, h] using hk
      simp [put, h, ih hrest, add_assoc]

theorem sum_put_old {k : κ} {v₀ : υ} (v : υ) {l : List (κ × υ)} (hk : find k l = some v₀) :
    ((put k v l).map fun p => f p.2).sum = (l.map fun p => f p.2).sum - f v₀ + f v := by
  induction l with
  | nil => simp [find] at hk
  | cons p l ih =>
    obtain ⟨k', v'⟩ := p
    by_cases h : k' = k
    · have hv : v' = v₀ := by simpa [find, h] using hk
      simp only [put, h, if_true, List.map_cons, List.sum_cons, hv]
      abel
    · have hrest : find k l = some v₀ := by simpa [find, h] using hk
      simp only [put, h, if_false, List.map_cons, List.sum_cons, ih hrest]
      abel

/-- A new key adds its value. -/
theorem total_set_new {d : Dict κ υ} {k : κ} (v : υ) (hk : d.get? k = none) :
    total f (d.set k v) = total f d + f v := sum_put_new f v hk

/-- An old key exchanges its value. -/
theorem total_set_old {d : Dict κ υ} {k : κ} {v₀ : υ} (v : υ) (hk : d.get? k = some v₀) :
    total f (d.set k v) = total f d - f v₀ + f v := sum_put_old f v hk

/-- A deleted key takes its value along. -/
theorem total_erase {d : Dict κ υ} {k : κ} {v₀ : υ} (hk : d.get? k = some v₀) :
    total f (d.erase k) = total f d - f v₀ := by
  obtain ⟨l, hl⟩ := d
  unfold total erase
  unfold get? at hk
  simp only at hk ⊢
  induction l with
  | nil => simp [find] at hk
  | cons p l ih =>
    obtain ⟨k', v'⟩ := p
    rw [List.map_cons, List.nodup_cons] at hl
    by_cases h : k' = k
    -- the keys are distinct, so nothing else goes
    · subst h
      have hv : v' = v₀ := by simpa [find] using hk
      have hkeep : (l.filter fun q => q.1 ≠ k') = l := by
        rw [List.filter_eq_self]
        intro q hq
        simpa using fun heq : q.1 = k' => hl.1 (List.mem_map.mpr ⟨q, hq, heq⟩)
      rw [List.filter_cons_of_neg (by simp), hkeep, List.map_cons, List.sum_cons, hv]
      abel
    · have hrest : find k l = some v₀ := by simpa [find, h] using hk
      rw [List.filter_cons_of_pos (by simpa using h), List.map_cons, List.sum_cons,
        ih hl.2 hrest, List.map_cons, List.sum_cons]
      abel

end Dict
