/-
AutoTrade/Lib/Periods.lean

Reports over periods that follow one another.

Items have dates, and more of them come in over time.  A report is recorded under
the end of its period and takes in the items dated after the end recorded last, so
that the periods are chained and the start of one is never chosen.  Of the reports
recorded under one end the newest stands.  A ledger is `Covered` when every item
dated up to the last end is in a report that stands.

Two things can break it, and each has its lemma:

* `covered_extend` — an item comes in with a date that has been reported past;
* `covered_record` — an end is recorded again, and the report that stood under it
  was the only one with some item.

What is measured over each of the chained periods, from a value at its start to one at
its end, multiplies up to what is measured over the whole, times the moves from each end
to the start of the period after it (`prod_chain`).
-/
import Mathlib.Algebra.BigOperators.Group.List.Basic
import Mathlib.Algebra.Field.Basic
import Mathlib.Data.Set.Basic
import Mathlib.Order.Defs.LinearOrder
import Mathlib.Tactic.FieldSimp
import Mathlib.Tactic.Ring

namespace Periods

variable {ι δ : Type*} [LinearOrder δ]

/-- The items that are there, with their dates, and the reports, the newest last: the
end of a period and the items taken in. -/
structure Ledger (ι δ : Type*) where
  date : ι → Option δ
  log : List (δ × Set ι)

namespace Ledger

variable {l : Ledger ι δ}

/-- The end recorded last. -/
def last (l : Ledger ι δ) : Option δ := l.log.getLast?.map Prod.fst

/-- The date is after the end recorded last. -/
def After (l : Ledger ι δ) (d : δ) : Prop := ∀ e, l.last = some e → e < d

/-- The report that stands for an end. -/
def standing (l : Ledger ι δ) (e : δ) : Option (Set ι) :=
  ((l.log.filter fun r => r.1 = e).getLast?).map Prod.snd

/-- An item is in a report that stands. -/
def Reported (l : Ledger ι δ) (x : ι) : Prop := ∃ e s, l.standing e = some s ∧ x ∈ s

/-- Every item dated up to the last end is in a report that stands. -/
def Covered (l : Ledger ι δ) : Prop :=
  ∀ x d e, l.date x = some d → l.last = some e → d ≤ e → l.Reported x

/-- Items come in. -/
def extend (l : Ledger ι δ) (date : ι → Option δ) : Ledger ι δ := { l with date }

/-- A report is recorded under the end `e`. -/
def record (l : Ledger ι δ) (e : δ) : Ledger ι δ :=
  { l with log := l.log ++ [(e, {x | ∃ d, l.date x = some d ∧ l.After d})] }

/-- The ends do not go back, and what was reported is there. -/
structure Wf (l : Ledger ι δ) : Prop where
  sorted : (l.log.map Prod.fst).Pairwise (· ≤ ·)
  known : ∀ r ∈ l.log, ∀ x ∈ r.2, l.date x ≠ none

/-! ### Recording -/

@[simp] theorem record_last (e : δ) : (l.record e).last = some e := by
  simp [last, record]

theorem record_standing_self (e : δ) :
    (l.record e).standing e = some {x | ∃ d, l.date x = some d ∧ l.After d} := by
  simp [standing, record, List.filter_append]

theorem record_standing_of_ne {e e' : δ} (h : e' ≠ e) :
    (l.record e).standing e' = l.standing e' := by
  simp [standing, record, List.filter_append, h.symm]

/-- A report that stands was recorded. -/
theorem mem_of_standing {e : δ} {s : Set ι} (h : l.standing e = some s) : (e, s) ∈ l.log := by
  obtain ⟨⟨e', s'⟩, hlast, rfl⟩ := Option.map_eq_some_iff.mp h
  obtain ⟨hmem, he⟩ := List.mem_filter.mp (List.mem_of_getLast? hlast)
  have he : e' = e := of_decide_eq_true he
  exact he ▸ hmem

/-- No end is after the last. -/
theorem Wf.le_last (h : l.Wf) {r : δ × Set ι} (hr : r ∈ l.log) :
    ∃ e, l.last = some e ∧ r.1 ≤ e := by
  have hsorted := h.sorted
  unfold last
  rcases List.eq_nil_or_concat l.log with hnil | ⟨log, r', hlog⟩
  · rw [hnil] at hr
    cases hr
  · rw [List.concat_eq_append] at hlog
    rw [hlog, List.map_append, List.pairwise_append] at hsorted
    rw [hlog] at hr ⊢
    refine ⟨r'.1, by simp, ?_⟩
    rcases List.mem_append.mp hr with hr | hr
    · exact hsorted.2.2 _ (List.mem_map_of_mem hr) _ (by simp)
    · rw [List.mem_singleton.mp hr]

theorem Wf.reported_known (h : l.Wf) {x : ι} (hx : l.Reported x) : l.date x ≠ none := by
  obtain ⟨e, s, hs, hmem⟩ := hx
  exact h.known _ (mem_of_standing hs) x hmem

/-! ### What keeps a ledger covered -/

section Extend

variable {date : ι → Option δ}

theorem Wf.extend (h : l.Wf) (hext : ∀ x d, l.date x = some d → date x = some d) :
    (l.extend date).Wf := by
  refine ⟨h.sorted, ?_⟩
  intro r hr x hx
  obtain ⟨d, hd⟩ := Option.ne_none_iff_exists'.mp (h.known r hr x hx)
  rw [show (l.extend date).date x = some d from hext x d hd]
  exact Option.some_ne_none d

/-- **Items keep a ledger covered** exactly when those that are new are dated after the
last end. -/
theorem covered_extend (h : l.Wf) (hc : l.Covered)
    (hext : ∀ x d, l.date x = some d → date x = some d) :
    (l.extend date).Covered ↔ ∀ x d, l.date x = none → date x = some d → l.After d := by
  constructor
  · intro hcovered x d hnew hd e he
    by_contra hlt
    exact h.reported_known (hcovered x d e hd he (not_lt.mp hlt)) hnew
  · intro hafter x d e hd he hle
    rcases hold : l.date x with - | d'
    · exact absurd (hafter x d hold hd e he) (not_lt.mpr hle)
    · have hsame : d' = d := Option.some.inj ((hext x d' hold).symm.trans hd)
      exact hc x d' e hold he (hsame ▸ hle)

end Extend

section Record

variable {e : δ}

theorem Wf.record (h : l.Wf) (hle : ∀ r ∈ l.log, r.1 ≤ e) : (l.record e).Wf := by
  constructor
  · show ((l.log ++ [_]).map Prod.fst).Pairwise (· ≤ ·)
    rw [List.map_append, List.pairwise_append]
    refine ⟨h.sorted, List.pairwise_singleton _ _, ?_⟩
    intro e₁ he₁ e₂ he₂
    obtain ⟨r, hr, rfl⟩ := List.mem_map.mp he₁
    rw [List.mem_singleton.mp he₂]
    exact hle r hr
  · intro r hr x hx
    rcases List.mem_append.mp hr with hr | hr
    · exact h.known r hr x hx
    · rw [List.mem_singleton.mp hr] at hx
      obtain ⟨d, hd, -⟩ := hx
      rw [show (l.record e).date x = some d from hd]
      exact Option.some_ne_none d

/-- **A report keeps a ledger covered** exactly when its end is new, or every item that
is dated up to it is in a report that stands for another end. -/
theorem covered_record (h : l.Wf) (hc : l.Covered) (hle : ∀ r ∈ l.log, r.1 ≤ e) :
    (l.record e).Covered ↔ (l.last = some e → ∀ x d, l.date x = some d → d ≤ e →
      ∃ e', e' ≠ e ∧ ∃ s, l.standing e' = some s ∧ x ∈ s) := by
  constructor
  · intro hcovered hlast x d hd hde
    obtain ⟨e', s, hs, hx⟩ := hcovered x d e hd (record_last e) hde
    by_cases he : e' = e
    · subst he
      rw [record_standing_self] at hs
      cases hs
      obtain ⟨d', hd', hafter⟩ := hx
      have hsame : d' = d := Option.some.inj (hd'.symm.trans hd)
      exact absurd (hafter e' hlast) (not_lt.mpr (hsame ▸ hde))
    · exact ⟨e', he, s, record_standing_of_ne he ▸ hs, hx⟩
  · intro hother x d e₀ hd he₀ hle₀
    rw [record_last] at he₀
    cases he₀
    by_cases hafter : l.After d
    · exact ⟨e, _, record_standing_self e, d, hd, hafter⟩
    · -- reported before, under this end or another
      unfold After at hafter
      push Not at hafter
      obtain ⟨e₁, hlast, hde₁⟩ := hafter
      obtain ⟨e', s, hs, hx⟩ := hc x d e₁ hd hlast hde₁
      by_cases he : e' = e
      · obtain ⟨e₂, hlast', hle₂⟩ := h.le_last (mem_of_standing hs)
        have hle₂ : e' ≤ e₂ := hle₂
        obtain ⟨r, hr, hre⟩ := Option.map_eq_some_iff.mp hlast'
        have hback : e₂ ≤ e := hre ▸ hle r (List.mem_of_getLast? hr)
        have hsame : e₂ = e := le_antisymm hback (he ▸ hle₂)
        obtain ⟨e₃, hne, s', hs', hx'⟩ := hother (hsame ▸ hlast') x d hd hle₀
        exact ⟨e₃, s', (record_standing_of_ne hne).trans hs', hx'⟩
      · exact ⟨e', s, (record_standing_of_ne he).trans hs, hx⟩

end Record

end Ledger

/-! ### Chained periods -/

/-- The periods up to the ends, each from the end before. -/
def chain {τ : Type*} : Option τ → List τ → List (Option τ × τ)
  | _, [] => []
  | s, e :: es => (s, e) :: chain (some e) es

/-- A period that is added starts at the last end. -/
theorem chain_concat {τ : Type*} (s : Option τ) (es : List τ) (e : τ) :
    chain s (es ++ [e]) = chain s es ++ [(es.getLast?.or s, e)] := by
  induction es generalizing s with
  | nil => rfl
  | cons e' es ih =>
    rw [List.cons_append, chain, chain, ih (some e'), List.cons_append, List.getLast?_cons]
    rcases es.getLast? with - | last
    · rfl
    · rfl

/-- The periods of growing ends start before they end. -/
theorem lt_of_mem_chain {s : Option δ} {es : List δ} (hes : es.Pairwise (· < ·))
    (hs : ∀ d ∈ s, ∀ e ∈ es, d < e) {p : Option δ × δ} (hp : p ∈ chain s es) :
    p.2 ∈ es ∧ ∀ d ∈ p.1, d < p.2 := by
  induction es generalizing s with
  | nil => cases hp
  | cons e es ih =>
    obtain ⟨he, hes⟩ := List.pairwise_cons.mp hes
    rcases List.mem_cons.mp hp with rfl | hp
    · exact ⟨List.mem_cons_self, fun d hd => hs d hd e List.mem_cons_self⟩
    · have hstart : ∀ d ∈ some e, ∀ e' ∈ es, d < e' := by
        rintro d hd e' he'
        obtain rfl := Option.some.inj hd
        exact he e' he'
      obtain ⟨hmem, hlt⟩ := ih hes hstart hp
      exact ⟨List.mem_cons_of_mem e hmem, hlt⟩

section Products

variable {τ K : Type*} [Field K]

/-- **The ratios of the periods multiply up** to the ratio of the whole, times the moves
from each end to the start that follows it. -/
theorem prod_chain {F : Option τ → K} {G : τ → K} (hF : ∀ s, F s ≠ 0) (hG : ∀ e, G e ≠ 0)
    (s : Option τ) (e : τ) (es : List τ) :
    G ((e :: es).getLast (List.cons_ne_nil e es)) / F s =
      ((chain s (e :: es)).map fun p => G p.2 / F p.1).prod *
        ((e :: es).dropLast.map fun d => F (some d) / G d).prod := by
  induction es generalizing s e with
  | nil => simp [chain]
  | cons e' es ih =>
    rw [chain, List.map_cons, List.prod_cons, List.dropLast_cons_cons, List.map_cons,
      List.prod_cons, List.getLast_cons (List.cons_ne_nil e' es)]
    have hrest := ih (some e) e'
    have hs := hF s
    have he := hF (some e)
    have hGe := hG e
    calc G ((e' :: es).getLast (List.cons_ne_nil e' es)) / F s
        = G e / F s * (F (some e) / G e) *
            (G ((e' :: es).getLast (List.cons_ne_nil e' es)) / F (some e)) := by
          field_simp
      _ = _ := by
          rw [hrest]
          ring

end Products

end Periods
