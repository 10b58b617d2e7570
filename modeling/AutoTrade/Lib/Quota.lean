/-
AutoTrade/Lib/Quota.lean

A limit on what is spent in a day, kept by sessions.

Postings carry a day and an amount.  A session starts on some day with a
snapshot of what that day has spent, and posts amounts that stay, together
with the snapshot, within the limit; it may run past midnight.
`Kept.session` says that the limit then holds for every day: on the day it
started because the snapshot was at least what had been spent, and on a later
day because nothing had been spent on it before.
-/
import Mathlib.Algebra.Order.BigOperators.Group.List
import Mathlib.Algebra.BigOperators.Group.List.Basic

universe u v

/-- An amount spent on a day. -/
structure Posting (D : Type u) (K : Type v) where
  day : D
  amount : K
  deriving DecidableEq

namespace Posting

variable {D : Type u} {K : Type v} [LinearOrder D] [AddCommGroup K] [LinearOrder K]
  [IsOrderedAddMonoid K] {ps gs : List (Posting D K)} {cap q : K} {d today last : D}

/-- What the postings come to. -/
def total (ps : List (Posting D K)) : K := (ps.map Posting.amount).sum

/-- What was spent on the day `d`. -/
def spent (ps : List (Posting D K)) (d : D) : K := total (ps.filter fun p => p.day = d)

omit [LinearOrder D] [LinearOrder K] [IsOrderedAddMonoid K] in
theorem total_append : total (ps ++ gs) = total ps + total gs := by
  simp [total]

omit [LinearOrder K] [IsOrderedAddMonoid K] in
theorem spent_append : spent (ps ++ gs) d = spent ps d + spent gs d := by
  unfold spent
  rw [List.filter_append, total_append]

omit [LinearOrder D] in
/-- Fewer postings come to no more. -/
theorem total_le_of_sublist (h : gs.Sublist ps) (hps : ∀ p ∈ ps, 0 ≤ p.amount) :
    total gs ≤ total ps := by
  apply (h.map Posting.amount).sum_le_sum
  intro a ha
  obtain ⟨p, hp, rfl⟩ := List.mem_map.mp ha
  exact hps p hp

theorem spent_le_of_sublist (h : gs.Sublist ps) (hps : ∀ p ∈ ps, 0 ≤ p.amount) :
    spent gs d ≤ spent ps d :=
  total_le_of_sublist (h.filter _) fun p hp => hps p (List.mem_of_mem_filter hp)

theorem spent_nonneg (hps : ∀ p ∈ ps, 0 ≤ p.amount) : 0 ≤ spent ps d :=
  spent_le_of_sublist (List.nil_sublist ps) hps

theorem spent_le_total (hps : ∀ p ∈ ps, 0 ≤ p.amount) : spent ps d ≤ total ps :=
  total_le_of_sublist List.filter_sublist hps

omit [LinearOrder K] [IsOrderedAddMonoid K] in
/-- Nothing is spent on a day that has no posting. -/
theorem spent_eq_zero (ps : List (Posting D K)) (h : ∀ p ∈ ps, p.day ≠ d) : spent ps d = 0 := by
  have hnone : ps.filter (fun p => p.day = d) = [] := by
    rw [List.filter_eq_nil_iff]
    intro p hp
    simpa using h p hp
  rw [spent, hnone]
  rfl

/-- The limit is kept on every day, and nothing is posted past `today`. -/
structure Kept (cap : K) (today : D) (ps : List (Posting D K)) : Prop where
  nonneg : ∀ p ∈ ps, 0 ≤ p.amount
  past : ∀ p ∈ ps, p.day ≤ today
  within : ∀ d, spent ps d ≤ cap

omit [IsOrderedAddMonoid K] in
theorem kept_nil (hcap : 0 ≤ cap) (today : D) : Kept cap today [] where
  nonneg := by simp
  past := by simp
  within := fun _ => hcap

omit [IsOrderedAddMonoid K] in
/-- The same postings at a later time. -/
theorem Kept.later (h : Kept cap today ps) (hday : today ≤ last) : Kept cap last ps where
  nonneg := h.nonneg
  past := fun p hp => (h.past p hp).trans hday
  within := h.within

/-- **A session keeps the limit**, whatever day its postings fall on: it starts
on `d` with a snapshot `q` that covers what `d` has spent, and stays within the
limit with it. -/
theorem Kept.session (h : Kept cap today ps) (hday : today ≤ d) (hq : spent ps d ≤ q)
    (hq0 : 0 ≤ q) (hgs : ∀ p ∈ gs, 0 ≤ p.amount)
    (hspan : ∀ p ∈ gs, d ≤ p.day ∧ p.day ≤ last) (hlast : d ≤ last)
    (hcap : gs ≠ [] → q + total gs ≤ cap) : Kept cap last (ps ++ gs) where
  nonneg := by
    intro p hp
    rcases List.mem_append.mp hp with hp | hp
    · exact h.nonneg p hp
    · exact hgs p hp
  past := by
    intro p hp
    rcases List.mem_append.mp hp with hp | hp
    · exact ((h.past p hp).trans hday).trans hlast
    · exact (hspan p hp).2
  within := by
    intro t
    rcases gs.eq_nil_or_concat with rfl | hne
    · rw [List.append_nil]
      exact h.within t
    have hcap' : q + total gs ≤ cap := by
      obtain ⟨gs', g, rfl⟩ := hne
      exact hcap (by simp)
    rw [spent_append]
    rcases lt_trichotomy t d with htd | rfl | htd
    · -- before the session: nothing is posted on that day
      rw [spent_eq_zero gs fun p hp => ((htd.trans_le (hspan p hp).1).ne'), add_zero]
      exact h.within t
    · calc spent ps t + spent gs t ≤ q + total gs := add_le_add hq (spent_le_total hgs)
        _ ≤ cap := hcap'
    · -- after it started: nothing had been spent on that day
      rw [spent_eq_zero ps fun p hp =>
        (((h.past p hp).trans hday).trans_lt htd).ne, zero_add]
      calc spent gs t ≤ total gs := spent_le_total hgs
        _ ≤ q + total gs := le_add_of_nonneg_left hq0
        _ ≤ cap := hcap'

end Posting
