/-
AutoTrade/Lib/Gate.lean

A gate that lets a key through again only when its last passage is some time ago.

An ask names a key, a time and a window.  It passes when the last stamp of its key is
at least the window old, or there is none; and an ask that passes may leave a stamp.
The log of the stamps is the whole state:

    Passes log a  ↔  ∀ t ∈ lastOf log a.key, a.window ≤ a.now - t

With a clock that does not go back, each stamp of a key is at least a window after the
one before it (`spaced_foldl`).
-/
import AutoTrade.Lib.Run
import Mathlib.Algebra.Order.Group.Defs
import Mathlib.Data.List.Chain

universe u v

namespace Gate

variable {κ : Type u} {τ : Type v}

/-! ### Spaced times -/

section Spaced

variable [AddCommGroup τ] [LinearOrder τ] {gap t : τ} {ts : List τ}

/-- Each time is at least `gap` after the one before it. -/
def Spaced (gap : τ) (ts : List τ) : Prop := ts.IsChain fun a b => a + gap ≤ b

theorem spaced_nil : Spaced gap ([] : List τ) := .nil

theorem spaced_append_singleton :
    Spaced gap (ts ++ [t]) ↔ Spaced gap ts ∧ ∀ l ∈ ts.getLast?, l + gap ≤ t := by
  unfold Spaced
  rw [List.isChain_append]
  simp

end Spaced

/-! ### The gate -/

/-- An ask to pass, and the stamp it leaves if it does. -/
structure Ask (κ : Type u) (τ : Type v) where
  key : κ
  now : τ
  window : τ
  stamp : Option τ

/-- The stamps, in the order they were left. -/
abbrev Log (κ : Type u) (τ : Type v) := List (κ × τ)

variable [DecidableEq κ]

/-- The stamps of a key. -/
def stampsOf (k : κ) (log : Log κ τ) : List τ := (log.filter fun p => p.1 = k).map Prod.snd

/-- The last stamp of a key. -/
def lastOf (k : κ) (log : Log κ τ) : Option τ := (stampsOf k log).getLast?

section Log

variable {log : Log κ τ} {k k' : κ} {t : τ}

theorem stampsOf_append (log log' : Log κ τ) :
    stampsOf k (log ++ log') = stampsOf k log ++ stampsOf k log' := by
  unfold stampsOf
  rw [List.filter_append, List.map_append]

theorem stampsOf_self : stampsOf k [(k, t)] = [t] := by
  simp [stampsOf]

theorem stampsOf_of_ne (h : k' ≠ k) : stampsOf k [(k', t)] = [] := by
  simp [stampsOf, h]

theorem mem_stampsOf : t ∈ stampsOf k log ↔ (k, t) ∈ log := by
  simp [stampsOf]

theorem mem_of_lastOf (h : lastOf k log = some t) : (k, t) ∈ log :=
  mem_stampsOf.mp (List.mem_of_getLast? h)

/-- After a stamp, the last of its key is that one. -/
theorem lastOf_append_singleton :
    lastOf k' (log ++ [(k, t)]) = if k = k' then some t else lastOf k' log := by
  unfold lastOf
  rw [stampsOf_append]
  split
  · next h =>
    subst h
    rw [stampsOf_self, List.getLast?_concat]
  · next h => rw [stampsOf_of_ne h, List.append_nil]

end Log

variable [AddCommGroup τ] [LinearOrder τ]

/-- The ask passes: its key was stamped long enough ago, or never. -/
def Passes (log : Log κ τ) (a : Ask κ τ) : Prop :=
  ∀ t ∈ lastOf a.key log, a.window ≤ a.now - t

instance (log : Log κ τ) (a : Ask κ τ) : Decidable (Passes log a) :=
  inferInstanceAs (Decidable (∀ t ∈ lastOf a.key log, a.window ≤ a.now - t))

/-- An ask that passes is stamped. -/
def step (log : Log κ τ) (a : Ask κ τ) : Log κ τ :=
  if Passes log a then log ++ a.stamp.toList.map fun t => (a.key, t) else log

/-- The clock does not go back: an ask comes after the stamps there are, and leaves
its own, if any, no earlier. -/
structure InOrder (log : Log κ τ) (a : Ask κ τ) : Prop where
  after : ∀ p ∈ log, p.2 ≤ a.now
  stamped : ∀ t ∈ a.stamp, a.now ≤ t

section Rules

variable {log : Log κ τ} {a : Ask κ τ} {k : κ} {gap : τ}

theorem step_of_stamp_none (h : a.stamp = none) : step log a = log := by
  unfold step
  rw [h]
  split
  · exact List.append_nil _
  · rfl

theorem step_of_passes {t : τ} (hpass : Passes log a) (h : a.stamp = some t) :
    step log a = log ++ [(a.key, t)] := by
  unfold step
  rw [if_pos hpass, h]
  rfl

/-- An ask that is held back comes within its window of a stamp of its key. -/
theorem stamp_of_not_passes (h : ¬ Passes log a) :
    ∃ t, (a.key, t) ∈ log ∧ a.now - t < a.window := by
  unfold Passes at h
  push Not at h
  obtain ⟨t, ht, hlt⟩ := h
  exact ⟨t, mem_of_lastOf ht, hlt⟩

/-- An ask that stamps its own time leaves a stamp of its key within the window, its
own or the one that held it back. -/
theorem recent_of_step (hstamp : a.stamp = some a.now) (hpos : 0 < a.window) :
    ∃ t, (a.key, t) ∈ step log a ∧ a.now - t < a.window := by
  by_cases hpass : Passes log a
  · refine ⟨a.now, ?_, by rwa [sub_self]⟩
    rw [step_of_passes hpass hstamp]
    exact List.mem_append_right _ List.mem_cons_self
  · obtain ⟨t, ht, hlt⟩ := stamp_of_not_passes hpass
    refine ⟨t, ?_, hlt⟩
    unfold step
    rwa [if_neg hpass]

variable [IsOrderedAddMonoid τ]

/-- One ask keeps the stamps of a key spaced. -/
theorem spaced_step (h : Spaced gap (stampsOf k log)) (ha : InOrder log a)
    (hgap : a.key = k → gap ≤ a.window) : Spaced gap (stampsOf k (step log a)) := by
  unfold step
  split
  · next hpass =>
    rcases hstamp : a.stamp with - | t
    · rwa [Option.toList_none, List.map_nil, List.append_nil]
    · rw [Option.toList_some, List.map_singleton, stampsOf_append]
      by_cases hk : a.key = k
      · rw [hk, stampsOf_self]
        refine spaced_append_singleton.mpr ⟨h, ?_⟩
        intro l hl
        have hlong : a.window ≤ a.now - l := hpass l (hk ▸ hl)
        calc l + gap ≤ l + a.window := by gcongr; exact hgap hk
          _ ≤ a.now := by rwa [← le_sub_iff_add_le']
          _ ≤ t := ha.stamped t hstamp
      · rwa [stampsOf_of_ne hk, List.append_nil]
  · exact h

/-- **The stamps of a key are spaced**, by the shortest of its windows. -/
theorem spaced_foldl {asks : List (Ask κ τ)}
    (hasks : Run.Admits step (fun log a => InOrder log a ∧ (a.key = k → gap ≤ a.window)) log asks)
    (h : Spaced gap (stampsOf k log)) : Spaced gap (stampsOf k (asks.foldl step log)) :=
  hasks.invariant (I := fun log => Spaced gap (stampsOf k log))
    (fun _ _ hs ha => spaced_step hs ha.1 ha.2) h

end Rules

end Gate
