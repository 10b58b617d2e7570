/-
AutoTrade/Lib/Mutex.lean

Locks and the regions they guard.

Parties `ι` each stand at a place `φ`, and a region `R a x` says that party `a`
is inside when it stands at `x`.  A lock guards the region when one party at
most is inside and the lock is taken exactly when some party is:

    Guards taken R place

One party moves at a time, and a move is one of three kinds: it takes the free
lock and goes inside, it leaves and frees the lock, or it stays on its side.
-/
import Mathlib.Logic.Function.Basic

namespace Mutex

variable {ι φ : Type*}

/-- The lock guards the region: at most one party is inside, and the lock is
taken exactly when one is. -/
structure Guards (taken : Prop) (R : ι → φ → Prop) (place : ι → φ) : Prop where
  unique : ∀ a b, R a (place a) → R b (place b) → a = b
  taken_iff : taken ↔ ∃ a, R a (place a)

section Rules

variable {taken taken' : Prop} {R : ι → φ → Prop} {place : ι → φ} {c : ι} {x : φ}

/-- With everyone outside, the lock is free. -/
theorem guards_empty (hfree : ¬ taken) (hout : ∀ a, ¬ R a (place a)) : Guards taken R place := by
  refine ⟨?_, ?_⟩
  · intro a b ha
    exact absurd ha (hout a)
  · exact iff_of_false hfree fun ⟨a, ha⟩ => hout a ha

theorem Guards.free (h : Guards taken R place) (hout : ∀ a, ¬ R a (place a)) : ¬ taken := by
  rw [h.taken_iff]
  rintro ⟨a, ha⟩
  exact hout a ha

theorem Guards.taken_of_inside (h : Guards taken R place) (hc : R c (place c)) : taken :=
  h.taken_iff.mpr ⟨c, hc⟩

variable [DecidableEq ι]

/-- Everyone but `c` is inside after the move of `c` as before. -/
theorem inside_update {a : ι} (ha : a ≠ c) :
    R a (Function.update place c x a) ↔ R a (place a) := by
  rw [Function.update_of_ne ha]

theorem inside_update_self : R c (Function.update place c x c) ↔ R c x := by
  rw [Function.update_self]

/-- **Taking the lock.** -/
theorem Guards.acquire (h : Guards taken R place) (hfree : ¬ taken) (hin : R c x)
    (htaken : taken') : Guards taken' R (Function.update place c x) := by
  have hout : ∀ a, ¬ R a (place a) := fun a ha => hfree (h.taken_of_inside ha)
  have honly : ∀ a, R a (Function.update place c x a) → a = c := by
    intro a ha
    by_contra hne
    exact hout a ((inside_update hne).mp ha)
  refine ⟨?_, ?_⟩
  · intro a b ha hb
    rw [honly a ha, honly b hb]
  · exact iff_of_true htaken ⟨c, inside_update_self.mpr hin⟩

/-- **Freeing the lock.** -/
theorem Guards.release (h : Guards taken R place) (hin : R c (place c)) (hout : ¬ R c x)
    (hfree : ¬ taken') : Guards taken' R (Function.update place c x) := by
  apply guards_empty hfree
  intro a ha
  by_cases hac : a = c
  · subst hac
    exact hout (inside_update_self.mp ha)
  · exact hac (h.unique a c ((inside_update hac).mp ha) hin)

/-- **A move on one side of the region.** -/
theorem Guards.stay (h : Guards taken R place) (hside : R c x ↔ R c (place c))
    (htaken : taken' ↔ taken) : Guards taken' R (Function.update place c x) := by
  have hsame : ∀ a, R a (Function.update place c x a) ↔ R a (place a) := by
    intro a
    by_cases hac : a = c
    · subst hac
      exact inside_update_self.trans hside
    · exact inside_update hac
  refine ⟨?_, ?_⟩
  · intro a b ha hb
    exact h.unique a b ((hsame a).mp ha) ((hsame b).mp hb)
  · rw [htaken, h.taken_iff]
    exact exists_congr fun a => (hsame a).symm

end Rules

end Mutex
