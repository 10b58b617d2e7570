/-
AutoTrade/Lib/Regrow.lean

Lists that grow on demand, by a generator that starts anew at each growth.

`reach f xs u` makes a list longer than `u`: the elements it appends are each made of
the one before by `f L k`, where `L` is the length the growth started at and `k` counts
from there.  `Grown f starts xs` is what such lists are: each element is made by the
last start up to it.  Two lists that have grown with the same starts, as far as both
go, agree there (`Grown.agree`); where only one has a start, a generator can tell them
apart (`Grown.differ`).
-/
import Mathlib.Algebra.Order.Ring.Int
import Mathlib.Data.List.Infix

universe u

namespace Regrow

variable {α : Type u}

/-- Append `n` elements, the first with the count `k`. -/
def extend (g : ℕ → α → α) : ℕ → ℕ → List α → List α
  | 0, _, xs => xs
  | n + 1, k, xs => extend g n (k + 1) (xs ++ (xs.getLast?.map (g k)).toList)

/-- Make the list longer than `u`. -/
def reach (f : ℕ → ℕ → α → α) (xs : List α) (u : ℤ) : List α :=
  if (xs.length : ℤ) ≤ u then extend (f xs.length) (u + 1 - xs.length).toNat 0 xs else xs

/-- The length after some calls of `reach`. -/
def lengthFrom : ℕ → List ℤ → ℕ
  | n, [] => n
  | n, u :: us => if (n : ℤ) ≤ u then lengthFrom (u + 1).toNat us else lengthFrom n us

/-- The lengths at which some calls of `reach` start to grow. -/
def startsFrom : ℕ → List ℤ → List ℕ
  | _, [] => []
  | n, u :: us => if (n : ℤ) ≤ u then n :: startsFrom (u + 1).toNat us else startsFrom n us

/-! ### One growth -/

theorem getElem?_of_front {xs ys : List α} (h : xs <+: ys) {i : ℕ} (hi : i < xs.length) :
    ys[i]? = xs[i]? := by
  obtain ⟨zs, rfl⟩ := h
  exact List.getElem?_append_left hi

theorem extend_spec (g : ℕ → α → α) (n k : ℕ) {xs : List α} (hne : xs ≠ []) :
    (extend g n k xs).length = xs.length + n ∧ xs <+: extend g n k xs ∧
      ∀ i, xs.length ≤ i → i < xs.length + n →
        (extend g n k xs)[i]? = ((extend g n k xs)[i - 1]?).map (g (k + (i - xs.length))) := by
  induction n generalizing k xs with
  | zero => exact ⟨rfl, List.prefix_rfl, fun i hle hlt => by omega⟩
  | succ n ih =>
    have hlast : xs.getLast?.map (g k) = some (g k (xs.getLast hne)) := by
      rw [List.getLast?_eq_some_getLast hne, Option.map_some]
    rw [extend, hlast, Option.toList_some]
    have hne' : xs ++ [g k (xs.getLast hne)] ≠ [] := List.concat_ne_nil _ xs
    obtain ⟨hlen, hpre, hstep⟩ := ih (k + 1) hne'
    rw [List.length_append, List.length_singleton] at hlen hstep
    refine ⟨by omega, (List.prefix_append _ _).trans hpre, fun i hle hlt => ?_⟩
    rcases hle.eq_or_lt with rfl | hgt
    · -- the first element that is appended
      have hpos : 0 < xs.length := List.length_pos_of_ne_nil hne
      have hnew : xs.length < (xs ++ [g k (xs.getLast hne)]).length := by
        rw [List.length_append, List.length_singleton]
        exact Nat.lt_succ_self _
      rw [getElem?_of_front hpre hnew, getElem?_of_front hpre ((Nat.sub_le _ _).trans_lt hnew),
        List.getElem?_concat_length, List.getElem?_append_left (by omega),
        ← List.getLast?_eq_getElem?, Nat.sub_self, Nat.add_zero, hlast]
    · rw [hstep i hgt (by omega)]
      congr 2
      omega

/-- A call leaves a list with the old one in front, longer than what it is asked for. -/
theorem reach_spec (f : ℕ → ℕ → α → α) {xs : List α} (hne : xs ≠ []) (u : ℤ) :
    xs <+: reach f xs u ∧ ((reach f xs u).length : ℤ) = max (xs.length : ℤ) (u + 1) := by
  rw [reach]
  split_ifs with hu
  · obtain ⟨hlen, hpre, -⟩ := extend_spec (f xs.length) (u + 1 - xs.length).toNat 0 hne
    exact ⟨hpre, by omega⟩
  · exact ⟨List.prefix_rfl, by omega⟩

theorem extend_forall {P : α → Prop} {g : ℕ → α → α} (hg : ∀ k x, P x → P (g k x)) (n k : ℕ)
    {xs : List α} (h : ∀ x ∈ xs, P x) : ∀ x ∈ extend g n k xs, P x := by
  induction n generalizing k xs with
  | zero => exact h
  | succ n ih =>
    refine ih (k + 1) fun x hx => ?_
    rcases List.mem_append.mp hx with hx | hx
    · exact h x hx
    · obtain ⟨y, hy, rfl⟩ := Option.map_eq_some_iff.mp (Option.mem_toList.mp hx)
      exact hg k y (h y (List.mem_of_getLast? hy))

/-- What the generator keeps holds of the whole list. -/
theorem reach_forall {P : α → Prop} {f : ℕ → ℕ → α → α} (hf : ∀ L k x, P x → P (f L k x))
    {xs : List α} (h : ∀ x ∈ xs, P x) (u : ℤ) : ∀ x ∈ reach f xs u, P x := by
  rw [reach]
  split_ifs
  · exact extend_forall (hf xs.length) _ 0 h
  · exact h

theorem le_of_mem_startsFrom {n L : ℕ} {us : List ℤ} (h : L ∈ startsFrom n us) : n ≤ L := by
  induction us generalizing n with
  | nil => cases h
  | cons u us ih =>
    rw [startsFrom] at h
    split_ifs at h with hu
    · rcases List.mem_cons.mp h with rfl | h
      · exact le_rfl
      · have := ih h
        omega
    · exact ih h

/-! ### Lists that have grown -/

/-- Each element is made of the one before by the last start up to it. -/
structure Grown (f : ℕ → ℕ → α → α) (starts : List ℕ) (xs : List α) : Prop where
  ne_nil : xs ≠ []
  lt_length : ∀ L ∈ starts, L < xs.length
  step : ∀ i, 0 < i → i < xs.length → ∃ L ∈ starts, L ≤ i ∧ (∀ M ∈ starts, M ≤ i → M ≤ L) ∧
    xs[i]? = (xs[i - 1]?).map (f L (i - L))

variable {f : ℕ → ℕ → α → α} {starts starts' : List ℕ} {xs ys : List α}

theorem grown_singleton (x : α) : Grown f [] [x] where
  ne_nil := List.cons_ne_nil x []
  lt_length := by simp
  step := fun i hpos hlt => by
    rw [List.length_singleton] at hlt
    omega

/-- **A growth adds its start.** -/
theorem Grown.reach {u : ℤ} (h : Grown f starts xs) (hu : (xs.length : ℤ) ≤ u) :
    Grown f (starts ++ [xs.length]) (reach f xs u) ∧
      (Regrow.reach f xs u).length = (u + 1).toNat ∧ xs <+: Regrow.reach f xs u := by
  rw [Regrow.reach, if_pos hu]
  obtain ⟨hlen, hpre, hstep⟩ := extend_spec (f xs.length) (u + 1 - xs.length).toNat 0 h.ne_nil
  refine ⟨⟨?_, ?_, ?_⟩, by omega, hpre⟩
  · exact fun hnil => h.ne_nil (List.prefix_nil.mp (hnil ▸ hpre))
  · intro L hL
    rcases List.mem_append.mp hL with hL | hL
    · exact (h.lt_length L hL).trans_le hpre.length_le
    · rw [List.mem_singleton.mp hL]
      omega
  · intro i hpos hi
    by_cases hold : i < xs.length
    · -- an element from before: the new start is after it
      obtain ⟨L, hL, hle, hmax, heq⟩ := h.step i hpos hold
      refine ⟨L, List.mem_append_left _ hL, hle, ?_, ?_⟩
      · intro M hM hMi
        rcases List.mem_append.mp hM with hM | hM
        · exact hmax M hM hMi
        · rw [List.mem_singleton.mp hM] at hMi
          omega
      · rw [getElem?_of_front hpre hold, getElem?_of_front hpre (by omega), heq]
    · refine ⟨xs.length, List.mem_append_right _ List.mem_cons_self, by omega, ?_, ?_⟩
      · intro M hM _
        rcases List.mem_append.mp hM with hM | hM
        · exact (h.lt_length M hM).le
        · exact (List.mem_singleton.mp hM).le
      · rw [hstep i (by omega) (by omega), Nat.zero_add]

/-- **What some calls leave**: a list that has grown with their starts. -/
theorem Grown.run (h : Grown f starts xs) (us : List ℤ) :
    Grown f (starts ++ startsFrom xs.length us) (us.foldl (Regrow.reach f) xs) ∧
      (us.foldl (Regrow.reach f) xs).length = lengthFrom xs.length us ∧
      xs <+: us.foldl (Regrow.reach f) xs := by
  induction us generalizing starts xs with
  | nil => exact ⟨by simpa [startsFrom] using h, rfl, List.prefix_rfl⟩
  | cons u us ih =>
    rw [List.foldl_cons, startsFrom, lengthFrom]
    by_cases hu : (xs.length : ℤ) ≤ u
    · obtain ⟨hgrown, hlen, hpre⟩ := h.reach hu
      obtain ⟨hrun, hlen', hpre'⟩ := ih hgrown
      rw [hlen, List.append_assoc] at hrun
      rw [if_pos hu, if_pos hu]
      exact ⟨hrun, hlen'.trans (by rw [hlen]), hpre.trans hpre'⟩
    · have hsame : Regrow.reach f xs u = xs := if_neg hu
      rw [hsame, if_neg hu, if_neg hu]
      exact ih h

/-! ### Two lists -/

/-- **The same starts make the same elements**, as far as both lists go. -/
theorem Grown.agree (hx : Grown f starts xs) (hy : Grown f starts' ys) (h0 : xs[0]? = ys[0]?)
    (hsame : ∀ L, L < xs.length → L < ys.length → (L ∈ starts ↔ L ∈ starts')) {i : ℕ}
    (hi : i < xs.length) (hi' : i < ys.length) : xs[i]? = ys[i]? := by
  induction i with
  | zero => exact h0
  | succ i ih =>
    obtain ⟨L, hL, hle, hmax, heq⟩ := hx.step (i + 1) (by omega) hi
    obtain ⟨L', hL', hle', hmax', heq'⟩ := hy.step (i + 1) (by omega) hi'
    have hLL : L = L' := by
      apply Nat.le_antisymm
      · exact hmax' L ((hsame L (by omega) (by omega)).mp hL) hle
      · exact hmax L' ((hsame L' (by omega) (by omega)).mpr hL') hle'
    subst hLL
    rw [heq, heq', Nat.add_sub_cancel, ih (by omega) (by omega)]

/-- A generator that keeps an element leaves it. -/
theorem Grown.still (hx : Grown f starts xs) {x : α} (h0 : xs[0]? = some x) {n : ℕ}
    (hf : ∀ L k, L + k < n → f L k x = x) {i : ℕ} (hin : i < n) (hi : i < xs.length) :
    xs[i]? = some x := by
  induction i with
  | zero => exact h0
  | succ i ih =>
    obtain ⟨L, -, hle, -, heq⟩ := hx.step (i + 1) (by omega) hi
    rw [heq, Nat.add_sub_cancel, ih (by omega) (by omega), Option.map_some,
      hf L (i + 1 - L) (by omega)]

/-- **A start of only one list shows**, with a generator that keeps an element except
for the first draw from that start. -/
theorem Grown.differ (hx : Grown f starts xs) (hy : Grown f starts' ys) {x : α}
    (h0 : xs[0]? = some x) (h0' : ys[0]? = some x) {L : ℕ} (hpos : 0 < L)
    (hlen : L < xs.length) (hlen' : L < ys.length) (hL : L ∈ starts) (hL' : L ∉ starts')
    (hf : ∀ M k, ¬ (M = L ∧ k = 0) → f M k x = x) (hne : f L 0 x ≠ x) : xs[L]? ≠ ys[L]? := by
  have hkeep : ∀ M k, M + k < L → f M k x = x := fun M k hlt => hf M k (by omega)
  obtain ⟨M, -, hle, hmax, heq⟩ := hx.step L hpos hlen
  obtain rfl : M = L := Nat.le_antisymm hle (hmax L hL le_rfl)
  obtain ⟨M', hM', hle', -, heq'⟩ := hy.step M hpos hlen'
  have hneM : M' ≠ M := fun h => hL' (h ▸ hM')
  rw [heq, heq', hx.still h0 hkeep (by omega) (by omega), hy.still h0' hkeep (by omega) (by omega),
    Option.map_some, Option.map_some, Nat.sub_self, hf M' (M - M') (fun h => hneM h.1)]
  exact fun h => hne (Option.some.inj h)

end Regrow
