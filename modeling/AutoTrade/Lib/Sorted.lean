/-
AutoTrade/Lib/Sorted.lean

Sorted lists, cut at a bound.

A stable sort commutes with a filter, so what a sorted list shows up to a bound
depends only on what there was up to the bound (`filter_insertionSort`,
`sort_filter`).  In a sorted list that part is a prefix (`le_append_lt`): an
offset counted from the front and the index of one of its elements do not see
what comes after (`filter_drop`, `idxOf_filter`).  An index counts what comes
before, so the difference of two is the number of the elements between
(`idxOf_sub_idxOf`).
-/
import Mathlib.Data.Finset.Sort
import Mathlib.Data.List.Sort

universe u

namespace Sorted

variable {α : Type u}

section Insertion

variable {r : α → α → Prop} [DecidableRel r]

/-- Inserting and filtering commute in a sorted list. -/
theorem filter_orderedInsert [IsTrans α r] (p : α → Bool) (a : α) {l : List α}
    (hl : l.Pairwise r) :
    (l.orderedInsert r a).filter p =
      if p a then (l.filter p).orderedInsert r a else l.filter p := by
  induction l with
  | nil =>
    rcases hp : p a with - | - <;> simp [hp]
  | cons b l ih =>
    obtain ⟨hb, hl⟩ := List.pairwise_cons.mp hl
    by_cases hab : r a b
    · rw [List.orderedInsert_cons_of_le r l hab]
      -- what is inserted before `b` is before all that is kept
      have hall : ∀ c ∈ (b :: l).filter p, r a c := by
        intro c hc
        rcases List.mem_cons.mp (List.mem_filter.mp hc).1 with rfl | hc
        · exact hab
        · exact IsTrans.trans a b c hab (hb c hc)
      have hfront : ((b :: l).filter p).orderedInsert r a = a :: (b :: l).filter p := by
        rcases hf : (b :: l).filter p with - | ⟨c, rest⟩
        · rfl
        · exact List.orderedInsert_cons_of_le r rest (hall c (hf ▸ List.mem_cons_self))
      rw [hfront, List.filter_cons]
    · rw [List.orderedInsert_of_not_le r l hab, List.filter_cons, List.filter_cons, ih hl]
      split_ifs with hpb hpa
      · rw [List.orderedInsert_of_not_le r _ hab]
      · rfl
      · rfl
      · rfl

variable [IsTrans α r] [Std.Total r]

/-- **Sorting and filtering commute.** -/
theorem filter_insertionSort (p : α → Bool) (l : List α) :
    (l.insertionSort r).filter p = (l.filter p).insertionSort r := by
  induction l with
  | nil => rfl
  | cons a l ih =>
    rw [List.insertionSort_cons, filter_orderedInsert p a (List.pairwise_insertionSort r l), ih,
      List.filter_cons]
    split_ifs
    · rfl
    · rfl

end Insertion

section Bound

variable [LinearOrder α]

theorem sort_filter (s : Finset α) (p : α → Prop) [DecidablePred p] :
    (s.filter p).sort (· ≤ ·) = (s.sort (· ≤ ·)).filter p := by
  have hset : s.filter p = ((s.sort (· ≤ ·)).filter p).toFinset := by
    ext x
    simp
  rw [hset, List.toFinset_sort (· ≤ ·) ((s.sort_nodup _).filter _)]
  exact (s.pairwise_sort _).filter _

variable {l : List α}

/-- What is keyed up to a bound, then the rest. -/
theorem le_append_lt_of_key {β : Type*} {key : β → α} {l : List β}
    (hl : l.Pairwise fun a b => key a < key b) (t : α) :
    l.filter (fun a => key a ≤ t) ++ l.filter (fun a => t < key a) = l := by
  induction l with
  | nil => rfl
  | cons a l ih =>
    obtain ⟨ha, hl⟩ := List.pairwise_cons.mp hl
    by_cases hat : key a ≤ t
    · simp only [List.filter_cons, hat, not_lt.mpr hat, decide_true, decide_false, if_true,
        Bool.false_eq_true, if_false, List.cons_append, ih hl]
    · -- past the bound there is nothing up to it
      have hnone : l.filter (fun a => key a ≤ t) = [] := by
        rw [List.filter_eq_nil_iff]
        intro b hb
        simpa using (not_le.mp hat).trans (ha b hb)
      have hrest : l.filter (fun a => t < key a) = l := by
        rw [← ih hl, hnone, List.nil_append, List.filter_filter]
        simp
      simp only [List.filter_cons, hat, not_le.mp hat, decide_true, decide_false, if_true,
        Bool.false_eq_true, if_false, hnone, hrest, List.nil_append]

/-- The elements up to a bound, then the others. -/
theorem le_append_lt (hl : l.Pairwise (· < ·)) (t : α) :
    l.filter (· ≤ t) ++ l.filter (t < ·) = l :=
  @le_append_lt_of_key α _ α id l hl t

/-- An offset from the front does not see what comes after the bound. -/
theorem filter_drop (hl : l.Pairwise (· < ·)) (t : α) (k : ℕ) :
    (l.drop k).filter (· ≤ t) = (l.filter (· ≤ t)).drop k := by
  have hnone : ∀ m, ((l.filter (t < ·)).drop m).filter (· ≤ t) = [] := by
    intro m
    rw [List.filter_eq_nil_iff]
    intro b hb
    have hlt := (List.mem_filter.mp (List.mem_of_mem_drop hb)).2
    simpa using hlt
  have hall : ∀ m, ((l.filter (· ≤ t)).drop m).filter (· ≤ t) = (l.filter (· ≤ t)).drop m := by
    intro m
    rw [List.filter_eq_self]
    intro b hb
    exact (List.mem_filter.mp (List.mem_of_mem_drop hb)).2
  conv_lhs => rw [← le_append_lt hl t]
  rw [List.drop_append, List.filter_append, hall, hnone, List.append_nil]

/-- An index does not see what comes after the bound. -/
theorem idxOf_filter (hl : l.Pairwise (· < ·)) {t x : α} (hx : x ∈ l) (hxt : x ≤ t) :
    (l.filter (· ≤ t)).idxOf x = l.idxOf x := by
  have hmem : x ∈ l.filter (· ≤ t) := List.mem_filter.mpr ⟨hx, decide_eq_true hxt⟩
  conv_rhs => rw [← le_append_lt hl t]
  rw [List.idxOf_append_of_mem hmem]

/-- An index counts the elements before. -/
theorem length_filter_le (hl : l.Pairwise (· < ·)) {x : α} (hx : x ∈ l) :
    (l.filter (· ≤ x)).length = l.idxOf x + 1 := by
  induction l with
  | nil => cases hx
  | cons a l ih =>
    obtain ⟨ha, hl⟩ := List.pairwise_cons.mp hl
    rcases List.mem_cons.mp hx with rfl | hx
    · have hnone : l.filter (· ≤ x) = [] := by
        rw [List.filter_eq_nil_iff]
        intro b hb
        simpa using ha b hb
      rw [List.filter_cons, if_pos (by simp), hnone, List.idxOf_cons_self, List.length_singleton]
    · rw [List.filter_cons, if_pos (by simpa using (ha x hx).le), List.length_cons, ih hl hx,
        List.idxOf_cons_ne l (ha x hx).ne]

/-- **The difference of two indices** is the number of the elements after the one and
up to the other. -/
theorem idxOf_sub_idxOf (hl : l.Pairwise (· < ·)) {x y : α} (hx : x ∈ l) (hy : y ∈ l) :
    l.idxOf y - l.idxOf x = (l.filter fun z => x < z ∧ z ≤ y).length := by
  have hbetween : (l.filter fun z => x < z ∧ z ≤ y) = (l.filter (· ≤ y)).filter (x < ·) := by
    simp [List.filter_filter]
  have hsplit := congrArg List.length (le_append_lt (hl.filter (· ≤ y)) x)
  rw [List.length_append, ← hbetween, length_filter_le hl hy] at hsplit
  have hx' := length_filter_le hl hx
  rcases le_total x y with hxy | hyx
  · have hlow : (l.filter (· ≤ y)).filter (· ≤ x) = l.filter (· ≤ x) := by
      rw [List.filter_filter]
      apply List.filter_congr
      intro z _
      simpa using fun hz : z ≤ x => hz.trans hxy
    rw [hlow] at hsplit
    omega
  · have hlow : (l.filter (· ≤ y)).filter (· ≤ x) = l.filter (· ≤ y) := by
      rw [List.filter_eq_self]
      intro z hz
      simpa using (of_decide_eq_true (List.mem_filter.mp hz).2).trans hyx
    have hle : (l.filter (· ≤ y)).length ≤ (l.filter (· ≤ x)).length := by
      rw [← List.countP_eq_length_filter, ← List.countP_eq_length_filter]
      apply List.countP_mono_left
      intro z _ hz
      simpa using (of_decide_eq_true hz).trans hyx
    rw [hlow, length_filter_le hl hy] at hsplit
    rw [length_filter_le hl hy] at hle
    omega

end Bound

end Sorted
