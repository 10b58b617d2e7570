/-
AutoTrade/Lib/Sweep.lean

A list that is worked off by looking at `n` of what is left in every round.

Of `seed` what is not done is left, in the order of the list; the rounds look at
the blocks of `n` of it, one after another and around.  An element that can be
done is done when its turn comes, another one stays.  What is left gets shorter,
and with it the blocks move, so that an element may be passed over; but as long
as nothing is done the blocks stay, and every element has its turn within
`⌈left / n⌉` rounds.  So something is done in each such window while there is
anything to do (`left_lt`), and `swept` bounds the rounds that all of it takes.
When everything can be done, every round does a block of `n` (`swept_all`).
-/
import AutoTrade.Lib.Fill

universe u

namespace Sweep

variable {α : Type u} [DecidableEq α] {seed : List α} {done : ℕ → Finset α} {can : α → Prop}
  {n start rounds : ℕ}

/-- What is left before a round. -/
def left (seed : List α) (done : ℕ → Finset α) (k : ℕ) : List α := seed.filter (· ∉ done k)

/-- The block that a round looks at. -/
def turn (seed : List α) (done : ℕ → Finset α) (n start k : ℕ) : List α :=
  ((left seed done k).rotate ((start + k) * n)).take n

/-- The rounds in which every element has its turn. -/
def window (n len : ℕ) : ℕ := (len + n - 1) / n

/-- What the rounds do: what is done stays done, and who can be done is done in his
turn. -/
structure Sweeps (seed : List α) (done : ℕ → Finset α) (can : α → Prop)
    (n start rounds : ℕ) : Prop where
  pos : 0 < n
  mono : ∀ k < rounds, done k ⊆ done (k + 1)
  turn : ∀ k < rounds, ∀ c ∈ turn seed done n start k, can c → c ∈ done (k + 1)

theorem mem_left {k : ℕ} {c : α} : c ∈ left seed done k ↔ c ∈ seed ∧ c ∉ done k := by
  simp [left]

namespace Sweeps

theorem mono_le (h : Sweeps seed done can n start rounds) {j k : ℕ} (hjk : j ≤ k)
    (hk : k ≤ rounds) : done j ⊆ done k := by
  induction k, hjk using Nat.le_induction with
  | base => exact subset_rfl
  | succ k hjk ih => exact (ih (Nat.le_of_succ_le hk)).trans (h.mono k hk)

theorem left_sublist (h : Sweeps seed done can n start rounds) {j k : ℕ} (hjk : j ≤ k)
    (hk : k ≤ rounds) : (left seed done k).Sublist (left seed done j) := by
  apply List.monotone_filter_right
  intro c hc
  have hc : c ∉ done k := by simpa using hc
  simpa using fun hj => hc (h.mono_le hjk hk hj)

/-- **While there is anything to do, a window does something.** -/
theorem left_lt (h : Sweeps seed done can n start rounds) {k w : ℕ}
    (hw : window n (left seed done k).length ≤ w) (hk : k + w ≤ rounds) {c : α} (hc : c ∈ seed)
    (hcan : can c) (hnot : c ∉ done (k + w)) :
    (left seed done (k + w)).length < (left seed done k).length := by
  by_contra hge
  -- nothing has left, so the blocks have not moved
  have hsame : ∀ i ≤ w, left seed done (k + i) = left seed done k := by
    intro i hi
    have hlast := h.left_sublist (show k + i ≤ k + w by omega) hk
    have hfirst := h.left_sublist (show k ≤ k + i by omega) (by omega)
    exact hfirst.eq_of_length_le ((not_lt.mp hge).trans hlast.length_le)
  have hleft : c ∈ left seed done k :=
    mem_left.mpr ⟨hc, fun hdone => hnot (h.mono_le (Nat.le_add_right k w) hk hdone)⟩
  obtain ⟨t, hle, hlt, hturn⟩ := Fill.rotate_covers h.pos hleft (start + k)
  obtain ⟨i, rfl⟩ := Nat.exists_eq_add_of_le hle
  have hi : i < w := by
    unfold window at hw
    omega
  rw [Nat.add_assoc] at hturn
  have hdone : c ∈ done (k + i + 1) := by
    refine h.turn (k + i) (by omega) c ?_ hcan
    rw [Sweep.turn, hsame i hi.le]
    exact hturn
  exact hnot (h.mono_le (by omega) hk hdone)

/-- **Everything that can be done is done** after as many windows as there were
elements left. -/
theorem swept (h : Sweeps seed done can n start rounds)
    (hrounds : (left seed done 0).length * window n (left seed done 0).length ≤ rounds) :
    ∀ c ∈ seed, can c → c ∈ done rounds := by
  intro c hc hcan
  by_contra hnot
  set total := (left seed done 0).length with htotal
  set w := window n total with hw
  have hkeep : ∀ k ≤ rounds, c ∉ done k := fun k hk hdone => hnot (h.mono_le hk le_rfl hdone)
  -- each window has made what is left shorter
  have hshort : ∀ j ≤ total, (left seed done (j * w)).length + j ≤ total := by
    intro j hj
    induction j with
    | zero => simp [htotal]
    | succ j ih =>
      have hbefore := ih (Nat.le_of_succ_le hj)
      have hend : j * w + w ≤ rounds := by
        rw [← Nat.succ_mul]
        exact (Nat.mul_le_mul_right w hj).trans hrounds
      have hwindow : window n (left seed done (j * w)).length ≤ w := by
        have hlen : (left seed done (j * w)).length + n - 1 ≤ total + n - 1 := by omega
        exact Nat.div_le_div_right hlen
      have hlt := h.left_lt hwindow hend hc hcan (hkeep _ hend)
      rw [Nat.succ_mul]
      omega
  have hnil := hshort total le_rfl
  have hmem : c ∈ left seed done (total * w) := mem_left.mpr ⟨hc, hkeep _ hrounds⟩
  have := List.length_pos_of_mem hmem
  omega

/-- A round does the whole of its block, when all of it can be done. -/
theorem left_succ_le (h : Sweeps seed done can n start rounds) (hall : ∀ c ∈ seed, can c) {k : ℕ}
    (hk : k < rounds) : (left seed done (k + 1)).length ≤ (left seed done k).length - n := by
  set stream := (left seed done k).rotate ((start + k) * n) with hstream
  have hblock : (stream.take n).filter (· ∉ done (k + 1)) = [] := by
    rw [List.filter_eq_nil_iff]
    intro c hc
    have hseed : c ∈ seed :=
      (mem_left.mp (List.mem_rotate.mp (List.mem_of_mem_take hc))).1
    simpa using h.turn k hk c hc (hall c hseed)
  have hsame : left seed done (k + 1) = (left seed done k).filter (· ∉ done (k + 1)) := by
    rw [left, left, List.filter_filter]
    refine List.filter_congr fun c _ => ?_
    by_cases hc : c ∈ done (k + 1)
    · simp [hc]
    · have hold : c ∉ done k := fun hold => hc (h.mono k hk hold)
      simp [hc, hold]
  have hperm : ((left seed done k).filter (· ∉ done (k + 1))).length =
      (stream.filter (· ∉ done (k + 1))).length :=
    ((List.rotate_perm _ _).symm.filter _).length_eq
  rw [hsame, hperm, ← List.take_append_drop n stream, List.filter_append, hblock, List.nil_append]
  refine (List.length_filter_le _ _).trans ?_
  rw [List.length_drop, hstream, List.length_rotate]

/-- **What can be done entirely** takes as many rounds as it has blocks. -/
theorem swept_all (h : Sweeps seed done can n start rounds) (hall : ∀ c ∈ seed, can c)
    (hrounds : (left seed done 0).length ≤ rounds * n) : ∀ c ∈ seed, c ∈ done rounds := by
  have hshort : ∀ k ≤ rounds, (left seed done k).length ≤ (left seed done 0).length - k * n := by
    intro k hk
    induction k with
    | zero => simp
    | succ k ih =>
      have hbefore := ih (Nat.le_of_succ_le hk)
      have hround := h.left_succ_le hall hk
      rw [Nat.succ_mul]
      omega
  intro c hc
  by_contra hnot
  have hend := hshort rounds le_rfl
  have := List.length_pos_of_mem (mem_left.mpr ⟨hc, hnot⟩)
  omega

end Sweeps

end Sweep
