/-
AutoTrade/Lib/Fill.lean

A list filled from streams, each element once, up to a cap, and cyclic streams.

`upTo` appends what a stream has and the list lacks, in order, until the list
is as long as the cap; `upTo_eq` says it in one equation, and the rest is read
off it.

A stream that advances by `n` at every tick shows each of its elements among
its first `n` once in any `⌈length / n⌉` ticks (`rotate_covers`).  When an
element is further back at the first tick of such a window it is no further in
front at the others (`rotate_behind`).
-/
import Mathlib.Data.Finset.Dedup
import Mathlib.Data.Finset.Card
import Mathlib.Data.List.Rotate

universe u

namespace Fill

variable {α : Type u} [DecidableEq α]

/-! ### What a stream has that a list lacks -/

/-- The first occurrences in a stream of what was not seen. -/
def unseen : List α → List α → List α
  | _, [] => []
  | seen, c :: stream =>
    if c ∈ seen then unseen seen stream else c :: unseen (seen ++ [c]) stream

theorem mem_unseen {seen stream : List α} {c : α} :
    c ∈ unseen seen stream ↔ c ∈ stream ∧ c ∉ seen := by
  induction stream generalizing seen with
  | nil => simp [unseen]
  | cons d stream ih =>
    by_cases hd : d ∈ seen
    · rw [unseen, if_pos hd, ih]
      constructor
      · rintro ⟨hc, hn⟩
        exact ⟨List.mem_cons_of_mem _ hc, hn⟩
      · rintro ⟨hc, hn⟩
        rcases List.mem_cons.mp hc with rfl | hc
        · exact absurd hd hn
        · exact ⟨hc, hn⟩
    · rw [unseen, if_neg hd, List.mem_cons, ih]
      by_cases hcd : c = d
      · subst hcd
        simp [hd]
      · simp [hcd]

theorem nodup_unseen (seen stream : List α) : (unseen seen stream).Nodup := by
  induction stream generalizing seen with
  | nil => exact List.nodup_nil
  | cons d stream ih =>
    by_cases hd : d ∈ seen
    · rw [unseen, if_pos hd]
      exact ih seen
    · rw [unseen, if_neg hd, List.nodup_cons]
      refine ⟨fun h => ?_, ih _⟩
      exact (mem_unseen.mp h).2 (by simp)

theorem length_unseen (seen stream : List α) :
    (unseen seen stream).length = (stream.toFinset \ seen.toFinset).card := by
  rw [← List.toFinset_card_of_nodup (nodup_unseen seen stream)]
  congr 1
  ext c
  simp [mem_unseen]

/-- A stream without repetitions is only filtered. -/
theorem unseen_eq_filter {seen stream : List α} (h : stream.Nodup) :
    unseen seen stream = stream.filter (· ∉ seen) := by
  induction stream generalizing seen with
  | nil => rfl
  | cons d stream ih =>
    obtain ⟨hd, hn⟩ := List.nodup_cons.mp h
    by_cases hs : d ∈ seen
    · rw [unseen, if_pos hs, ih hn, List.filter_cons_of_neg (by simpa using hs)]
    · rw [unseen, if_neg hs, ih hn, List.filter_cons_of_pos (by simpa using hs)]
      congr 1
      apply List.filter_congr
      intro c hc
      have hcd : c ≠ d := fun e => hd (e ▸ hc)
      simp [hcd]

/-! ### Filling up to a cap -/

/-- Append what the stream has and the list lacks, while the list is shorter
than the cap. -/
def upTo (cap : ℕ) : List α → List α → List α
  | result, [] => result
  | result, c :: stream =>
    if cap ≤ result.length then result
    else if c ∈ result then upTo cap result stream
    else upTo cap (result ++ [c]) stream

variable {cap : ℕ} {result stream : List α}

theorem upTo_eq (cap : ℕ) (result stream : List α) :
    upTo cap result stream = result ++ (unseen result stream).take (cap - result.length) := by
  induction stream generalizing result with
  | nil => simp [upTo, unseen]
  | cons c stream ih =>
    by_cases hcap : cap ≤ result.length
    · have hzero : cap - result.length = 0 := by omega
      rw [upTo, if_pos hcap, hzero, List.take_zero, List.append_nil]
    · rw [upTo, if_neg hcap]
      by_cases hc : c ∈ result
      · rw [if_pos hc, ih, unseen, if_pos hc]
      · have hroom : cap - result.length = (cap - (result ++ [c]).length) + 1 := by
          rw [List.length_append, List.length_singleton]
          omega
        rw [if_neg hc, ih, unseen, if_neg hc, hroom, List.take_succ_cons, List.append_assoc,
          List.singleton_append]

theorem length_upTo (cap : ℕ) (result stream : List α) :
    (upTo cap result stream).length =
      result.length + min (cap - result.length) (stream.toFinset \ result.toFinset).card := by
  rw [upTo_eq, List.length_append, List.length_take, length_unseen]

theorem prefix_upTo (cap : ℕ) (result stream : List α) : result <+: upTo cap result stream := by
  rw [upTo_eq]
  exact List.prefix_append _ _

theorem nodup_upTo (cap : ℕ) (stream : List α) (h : result.Nodup) :
    (upTo cap result stream).Nodup := by
  rw [upTo_eq, List.nodup_append']
  refine ⟨h, (nodup_unseen _ _).sublist (List.take_sublist _ _), fun c hc hu => ?_⟩
  exact (mem_unseen.mp (List.mem_of_mem_take hu)).2 hc

theorem mem_upTo_of_mem {c : α} (cap : ℕ) (stream : List α) (h : c ∈ result) :
    c ∈ upTo cap result stream :=
  (prefix_upTo cap result stream).mem h

theorem mem_or_mem_of_mem_upTo {c : α} (h : c ∈ upTo cap result stream) :
    c ∈ result ∨ c ∈ stream := by
  rw [upTo_eq, List.mem_append] at h
  exact h.imp_right fun h => (mem_unseen.mp (List.mem_of_mem_take h)).1

/-- The cap was reached, or the whole stream was taken. -/
theorem full_or_taken (cap : ℕ) (result stream : List α) :
    cap ≤ (upTo cap result stream).length ∨ ∀ c ∈ stream, c ∈ upTo cap result stream := by
  by_cases hroom : (unseen result stream).length ≤ cap - result.length
  · refine Or.inr fun c hc => ?_
    rw [upTo_eq, List.take_of_length_le hroom, List.mem_append]
    by_cases hr : c ∈ result
    · exact Or.inl hr
    · exact Or.inr (mem_unseen.mpr ⟨hc, hr⟩)
  · left
    rw [upTo_eq, List.length_append, List.length_take]
    omega

theorem upTo_of_full (stream : List α) (h : cap ≤ result.length) :
    upTo cap result stream = result := by
  have hzero : cap - result.length = 0 := by omega
  rw [upTo_eq, hzero, List.take_zero, List.append_nil]

theorem upTo_of_taken (cap : ℕ) (h : ∀ c ∈ stream, c ∈ result) :
    upTo cap result stream = result := by
  have hnone : unseen result stream = [] :=
    List.eq_nil_iff_forall_not_mem.mpr fun c hc =>
      (mem_unseen.mp hc).2 (h c (mem_unseen.mp hc).1)
  rw [upTo_eq, hnone, List.take_nil, List.append_nil]

/-- Reading a stream again from any of its elements changes nothing. -/
theorem upTo_upTo_of_subset {again : List α} (h : ∀ c ∈ again, c ∈ stream) :
    upTo cap (upTo cap result stream) again = upTo cap result stream := by
  rcases full_or_taken cap result stream with hfull | htaken
  · exact upTo_of_full again hfull
  · exact upTo_of_taken cap fun c hc => htaken c (h c hc)

/-! ### Cyclic streams -/

section Cyclic

omit [DecidableEq α]

variable {l : List α} {n : ℕ}

theorem rotate_add_of_le {j : ℕ} (k : ℕ) (h : j ≤ l.length) :
    l.rotate (k + j) = (l.rotate k).drop j ++ (l.rotate k).take j := by
  rw [← List.rotate_rotate, List.rotate_eq_drop_append_take (by simpa using h)]

/-- Ticks of a window whose strides add up to less than the length. -/
theorem lt_window_iff {m j : ℕ} (hn : 0 < n) (hm : 0 < m) : j < (m + n - 1) / n ↔ j * n < m := by
  rw [Nat.lt_iff_add_one_le, Nat.le_div_iff_mul_le hn, Nat.add_mul, Nat.one_mul]
  omega

/-- **A stride of `n` shows every element among the first `n` in each window of
`⌈length / n⌉` ticks.** -/
theorem rotate_covers {a : α} (hn : 0 < n) (ha : a ∈ l) (t₀ : ℕ) :
    ∃ t, t₀ ≤ t ∧ t < t₀ + (l.length + n - 1) / n ∧ a ∈ (l.rotate (t * n)).take n := by
  obtain ⟨o, ho, hget⟩ := List.getElem_of_mem (List.mem_rotate.mpr ha : a ∈ l.rotate (t₀ * n))
  rw [List.length_rotate] at ho
  have hle : o / n * n ≤ o := Nat.div_mul_le_self o n
  -- the tick whose block holds the offset `o`
  have hblock : o / n < (l.length + n - 1) / n :=
    (lt_window_iff hn (by omega)).mpr (by omega)
  refine ⟨t₀ + o / n, Nat.le_add_right _ _, by omega, ?_⟩
  have hmod : o - o / n * n < n := by
    have := Nat.mod_lt o hn
    have := Nat.div_add_mod o n
    rw [Nat.mul_comm] at this
    omega
  rw [Nat.add_mul, rotate_add_of_le _ (by omega)]
  apply List.mem_of_getElem? (i := o - o / n * n)
  rw [List.getElem?_take_of_lt hmod, List.getElem?_append_left (by
    rw [List.length_drop, List.length_rotate]; omega), List.getElem?_drop,
    Nat.add_sub_cancel' hle, List.getElem?_eq_getElem (by simpa using ho), hget]

/-- What stands before an element at a tick still stands before it when the
stream has advanced past it. -/
theorem rotate_behind {a : α} {front back : List α} {k j : ℕ}
    (h : l.rotate k = front ++ a :: back) (hj : front.length < j) (hjl : j ≤ l.length) :
    ∃ ahead rest, l.rotate (k + j) = ahead ++ front ++ a :: rest := by
  refine ⟨(l.rotate k).drop j, back.take (j - front.length - 1), ?_⟩
  have hcut : (l.rotate k).take j = front ++ a :: back.take (j - front.length - 1) := by
    rw [h, List.take_append, List.take_of_length_le (by omega)]
    congr 1
    rw [show j - front.length = (j - front.length - 1) + 1 by omega, List.take_succ_cons]
    simp
  rw [rotate_add_of_le k hjl, hcut, List.append_assoc]

/-- The element of a list that has `k` kept ones before it. -/
theorem exists_nth_of_lt_length_filter {p : α → Bool} {k : ℕ} (h : k < (l.filter p).length) :
    ∃ front a back, l = front ++ a :: back ∧ p a = true ∧ (front.filter p).length = k := by
  induction l generalizing k with
  | nil => simp at h
  | cons b l ih =>
    rcases hb : p b with - | -
    · rw [List.filter_cons_of_neg (by simp [hb])] at h
      obtain ⟨front, a, back, rfl, ha, hk⟩ := ih h
      exact ⟨b :: front, a, back, rfl, ha, by rwa [List.filter_cons_of_neg (by simp [hb])]⟩
    · rcases k with - | k
      · exact ⟨[], b, l, rfl, hb, rfl⟩
      · rw [List.filter_cons_of_pos hb, List.length_cons] at h
        obtain ⟨front, a, back, rfl, ha, hk⟩ := ih (Nat.lt_of_succ_lt_succ h)
        refine ⟨b :: front, a, back, rfl, ha, ?_⟩
        rw [List.filter_cons_of_pos hb, List.length_cons, hk]

theorem filter_rotate_isRotated (p : α → Bool) (l : List α) (k : ℕ) :
    (l.rotate k).filter p ~r l.filter p := by
  have hsplit : l.filter p =
      (l.take (k % l.length)).filter p ++ (l.drop (k % l.length)).filter p := by
    rw [← List.filter_append, List.take_append_drop]
  rw [List.rotate_eq_drop_append_take_mod, List.filter_append, hsplit]
  exact List.isRotated_append

/-- Two rotations of a list without repetitions show the same first `r`
elements exactly when they show the same first one. -/
theorem take_eq_take_iff {xs ys : List α} (hrot : xs ~r ys) (hnd : xs.Nodup) (r : ℕ) :
    xs.take r = ys.take r ↔ r = 0 ∨ xs.head? = ys.head? := by
  obtain ⟨k, hk⟩ := hrot
  constructor
  · intro h
    rcases r with - | r
    · exact Or.inl rfl
    · right
      have := congrArg List.head? h
      rwa [List.head?_take, List.head?_take, if_neg (Nat.succ_ne_zero r),
        if_neg (Nat.succ_ne_zero r)] at this
  · rintro (rfl | h)
    · simp
    · rcases xs with - | ⟨x, xs⟩
      · simp only [List.rotate_nil] at hk
        rw [← hk]
      · have hlt : k % (x :: xs).length < (x :: xs).length := Nat.mod_lt _ (by simp)
        rw [← hk, ← List.rotate_mod, List.head?_rotate hlt, List.getElem?_eq_getElem hlt] at h
        have hzero : (0 : ℕ) = k % (x :: xs).length := by
          have hget : (x :: xs)[0] = (x :: xs)[k % (x :: xs).length] := by
            simpa using h
          exact hnd.getElem_inj_iff.mp hget
        rw [← hk, ← List.rotate_mod, ← hzero, List.rotate_zero]

end Cyclic

end Fill
