/-
AutoTrade/Lib/Hysteresis.lean

Latches with hysteresis over a linear order.  A `Band` has a threshold `high`
that sets the latch and a lower one `low` that releases it; between the two
the latch keeps what it had, so that a reading that hovers at one threshold
does not make it flap.

A `Latch` carries the fact that makes the thresholds work: while it is on, its
last reading is above `low`.  `Latch.observe` takes a reading,
`Latch.observeOpt` a reading that may be missing, and `Latch.run_on` says when a
run of readings ends with the latch on: it was on or some reading reached
`high`, and no reading since has come down to `low`.
-/
import Mathlib.Order.Lattice
import Mathlib.Data.List.Basic

universe u

/-- The two thresholds of a latch. -/
structure Band (α : Type u) [LinearOrder α] where
  low : α
  high : α
  low_lt_high : low < high

variable {α : Type u} [LinearOrder α] {b : Band α}

/-- A latch and its last reading; while it is on the reading is above `low`. -/
@[ext] structure Latch (b : Band α) where
  reading : α
  on : Bool
  armed : on → b.low < reading

namespace Latch

/-- Whether a latch is on after the reading `x`. -/
def held (low high : α) (on : Bool) (x : α) : Bool :=
  if high ≤ x then true else if on ∧ x ≤ low then false else on

theorem held_iff {low high : α} {on : Bool} {x : α} :
    held low high on x ↔ high ≤ x ∨ on ∧ low < x := by
  unfold held
  by_cases hx : high ≤ x
  · simp [hx]
  · cases on
    · simp [hx]
    · by_cases hl : x ≤ low
      · simp [hx, hl]
      · simp [hx, hl, not_le.mp hl]

/-- Take a reading. -/
def observe (l : Latch b) (x : α) : Latch b where
  reading := x
  on := held b.low b.high l.on x
  armed := by
    intro h
    rcases held_iff.mp h with hx | ⟨-, hx⟩
    · exact b.low_lt_high.trans_le hx
    · exact hx

/-- Take a reading that may be missing; a missing one changes nothing. -/
def observeOpt (l : Latch b) : Option α → Latch b
  | none => l
  | some x => l.observe x

/-- Take the readings of a run. -/
def run (l : Latch b) (xs : List (Option α)) : Latch b := xs.foldl observeOpt l

@[simp] theorem run_nil (l : Latch b) : l.run [] = l := rfl

@[simp] theorem run_cons (l : Latch b) (x : Option α) (xs : List (Option α)) :
    l.run (x :: xs) = (l.observeOpt x).run xs := rfl

theorem observe_on (l : Latch b) (x : α) :
    (l.observe x).on ↔ b.high ≤ x ∨ l.on ∧ b.low < x := held_iff

/-- A reading above `low` does not release the latch. -/
theorem observe_stays {l : Latch b} (h : l.on) {x : Option α}
    (hx : ∀ y, x = some y → b.low < y) : (l.observeOpt x).on := by
  cases x with
  | none => exact h
  | some y => exact (observe_on l y).mpr (Or.inr ⟨h, hx y rfl⟩)

/-- **No release without a low reading.**  A latch that is on is on after every
run of readings that stay above `low`, missing ones included. -/
theorem run_stays {l : Latch b} (h : l.on) {xs : List (Option α)}
    (hxs : ∀ y, some y ∈ xs → b.low < y) : (l.run xs).on := by
  induction xs generalizing l with
  | nil => exact h
  | cons x xs ih =>
    rw [run_cons]
    apply ih
    · exact observe_stays h fun y hy => hxs y (by simp [hy])
    · intro y hy
      exact hxs y (List.mem_cons_of_mem _ hy)

/-- **When a run ends with the latch on**: it was on or some reading reached
`high`, and no reading since came down to `low`. -/
theorem run_on {l : Latch b} {xs : List (Option α)} :
    (l.run xs).on ↔
      (l.on ∧ ∀ y, some y ∈ xs → b.low < y) ∨
      ∃ pre x post, xs = pre ++ some x :: post ∧ b.high ≤ x ∧
        ∀ y, some y ∈ post → b.low < y := by
  constructor
  · intro h
    induction xs generalizing l with
    | nil => exact Or.inl ⟨h, by simp⟩
    | cons x xs ih =>
      rw [run_cons] at h
      rcases ih h with ⟨hon, hall⟩ | ⟨pre, y, post, rfl, hy, hpost⟩
      · cases x with
        | none => exact Or.inl ⟨hon, by simpa using hall⟩
        | some x =>
          -- the reading at the head either set the latch or found it on
          rcases (observe_on l x).mp hon with hx | ⟨hl, hx⟩
          · exact Or.inr ⟨[], x, xs, rfl, hx, hall⟩
          · refine Or.inl ⟨hl, ?_⟩
            intro y hy
            rcases List.mem_cons.mp hy with hyx | hyx
            · rwa [Option.some.inj hyx]
            · exact hall y hyx
      · exact Or.inr ⟨x :: pre, y, post, rfl, hy, hpost⟩
  · rintro (⟨h, hall⟩ | ⟨pre, x, post, rfl, hx, hpost⟩)
    · exact run_stays h hall
    · have hsplit : l.run (pre ++ some x :: post) = ((l.run pre).observe x).run post := by
        simp [run, List.foldl_append, observeOpt]
      rw [hsplit]
      exact run_stays ((observe_on _ x).mpr (Or.inl hx)) hpost

end Latch
