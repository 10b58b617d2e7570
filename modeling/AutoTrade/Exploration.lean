/-
AutoTrade/Exploration.lean

How often the symbols without a recent measurement come up.

Their stream advances by `n_explore` at every tick, so each of them is among
its first `n_explore` in every `⌈|stale| / n_explore⌉` ticks.  What a tick
takes of them is what the watchlist and the picks from the pool leave under
`limit`, which is less than `n_explore` as soon as there is a watchlist and the
pool is large: the picks from the pool are counted from the end of the
watchlist.  The stride does not know this, and the rest of each block is not
seen, at this tick or later (`exploration_iff`).
-/
import AutoTrade.Symbols

namespace AutoTrade

open Fill

variable (seedCodes : List Symbol) (limit : ℕ) (incl : List String) (tickCount : ℕ)
  (advPool : Option (List Symbol)) (fresh : Finset Symbol) (exploreRatio : ℚ)

theorem nExplore_pos : 0 < nExplore limit exploreRatio :=
  lt_of_lt_of_le Nat.one_pos (Nat.le_max_left _ _)

/-- What the watchlist and the picks from the pool leave under `limit`. -/
def slotsLeft : ℕ :=
  limit - ((includeCodes incl).length + min (nExploit limit exploreRatio) (newInPool incl advPool))

/-- Among the stale symbols whose turn it is no more are unwatched than there
are slots left. -/
def ExploreFits : Prop :=
  ∀ tickCount, (((rotate (staleOf seedCodes fresh) (tickCount * nExplore limit exploreRatio)).take
    (nExplore limit exploreRatio)).filter (· ∉ includeCodes incl)).length ≤
      slotsLeft limit incl advPool exploreRatio

/-- Every stale symbol comes up in each window of `⌈|stale| / n_explore⌉` ticks. -/
def Explored : Prop :=
  ∀ t₀, ∀ c ∈ staleOf seedCodes fresh,
    ∃ t, t₀ ≤ t ∧
      t < t₀ + ((staleOf seedCodes fresh).length + nExplore limit exploreRatio - 1) /
        nExplore limit exploreRatio ∧
      c ∈ resolveUniverse seedCodes limit incl t advPool fresh exploreRatio

/-! ### A stale symbol at one tick -/

/-- The last stream adds no stale symbol: when there is room for it, all of
them are there. -/
theorem mem_resolveUniverse_stale_iff {c : Symbol} (hc : c ∈ staleOf seedCodes fresh) :
    c ∈ resolveUniverse seedCodes limit incl tickCount advPool fresh exploreRatio ↔
      c ∈ explored seedCodes limit incl tickCount advPool fresh exploreRatio := by
  rw [resolveUniverse_eq, explored]
  refine ⟨fun h => ?_, mem_upTo_of_mem _ _⟩
  rcases full_or_taken limit (exploited limit incl tickCount advPool exploreRatio)
    ((staleOf seedCodes fresh).rotate (tickCount * nExplore limit exploreRatio)) with hf | ht
  · rwa [upTo_of_full _ hf] at h
  · exact ht c (List.mem_rotate.mpr hc)

variable {seedCodes limit incl tickCount advPool fresh exploreRatio}

theorem mem_explored_iff (hnd : (staleOf seedCodes fresh).Nodup) {c : Symbol} :
    c ∈ explored seedCodes limit incl tickCount advPool fresh exploreRatio ↔
      c ∈ exploited limit incl tickCount advPool exploreRatio ∨
        c ∈ (((staleOf seedCodes fresh).rotate (tickCount * nExplore limit exploreRatio)).filter
          (· ∉ exploited limit incl tickCount advPool exploreRatio)).take
            (slotsLeft limit incl advPool exploreRatio) := by
  rw [explored, upTo_eq, unseen_eq_filter (List.nodup_rotate.mpr hnd), List.mem_append,
    length_exploited, slotsLeft]

/-- **A block that fits is seen at its tick.** -/
theorem mem_resolveUniverse_turn (hnd : (staleOf seedCodes fresh).Nodup)
    (hfits : ExploreFits seedCodes limit incl advPool fresh exploreRatio) {c : Symbol}
    (hturn : c ∈ ((staleOf seedCodes fresh).rotate (tickCount * nExplore limit exploreRatio)).take
      (nExplore limit exploreRatio)) :
    c ∈ resolveUniverse seedCodes limit incl tickCount advPool fresh exploreRatio := by
  have hc : c ∈ staleOf seedCodes fresh := List.mem_rotate.mp (List.mem_of_mem_take hturn)
  rw [mem_resolveUniverse_stale_iff _ _ _ _ _ _ _ hc, mem_explored_iff hnd]
  by_cases hpicked : c ∈ exploited limit incl tickCount advPool exploreRatio
  · exact Or.inl hpicked
  · right
    -- what is left of the block stands at the front of what is left of the stream
    set stream := (staleOf seedCodes fresh).rotate (tickCount * nExplore limit exploreRatio)
      with hstream
    set n := nExplore limit exploreRatio with hn
    have hblock : c ∈ (stream.take n).filter
        (· ∉ exploited limit incl tickCount advPool exploreRatio) :=
      List.mem_filter.mpr ⟨hturn, by simpa using hpicked⟩
    have hshort : ((stream.take n).filter
        (· ∉ exploited limit incl tickCount advPool exploreRatio)).length ≤
        slotsLeft limit incl advPool exploreRatio := by
      have hturn := hfits tickCount
      rw [rotate_eq] at hturn
      refine le_trans (List.Sublist.length_le ?_) hturn
      apply List.monotone_filter_right
      intro d hd
      have hd : d ∉ exploited limit incl tickCount advPool exploreRatio := by simpa using hd
      simpa using fun h => hd ((prefix_exploited limit incl tickCount advPool exploreRatio).mem h)
    have hsplit : stream.filter (· ∉ exploited limit incl tickCount advPool exploreRatio) =
        (stream.take n).filter (· ∉ exploited limit incl tickCount advPool exploreRatio) ++
          (stream.drop n).filter (· ∉ exploited limit incl tickCount advPool exploreRatio) := by
      rw [← List.filter_append, List.take_append_drop]
    rw [hsplit, List.take_append]
    exact List.mem_append_left _ (by rwa [List.take_of_length_le hshort])

theorem explored_of_fits (hnd : (staleOf seedCodes fresh).Nodup)
    (hfits : ExploreFits seedCodes limit incl advPool fresh exploreRatio) :
    Explored seedCodes limit incl advPool fresh exploreRatio := by
  intro t₀ c hc
  obtain ⟨t, hle, hlt, hturn⟩ := rotate_covers (nExplore_pos limit exploreRatio) hc t₀
  exact ⟨t, hle, hlt, mem_resolveUniverse_turn hnd hfits hturn⟩

theorem nExplore_le (hlimit : 1 ≤ limit) (hratio : exploreRatio ≤ 1) :
    nExplore limit exploreRatio ≤ limit := by
  have hceil : ⌈limit * exploreRatio⌉ ≤ (limit : ℤ) := by
    rw [Int.ceil_le]
    have := mul_le_mul_of_nonneg_left hratio (Nat.cast_nonneg (α := ℚ) limit)
    simpa using this
  unfold nExplore
  omega

/-- A block fits where the watchlist and the pool leave its slots. -/
theorem exploreFits_of_le
    (h : nExplore limit exploreRatio ≤ slotsLeft limit incl advPool exploreRatio) :
    ExploreFits seedCodes limit incl advPool fresh exploreRatio := fun _ =>
  ((List.length_filter_le _ _).trans (List.length_take_le _ _)).trans h

/-- Without a watchlist the pool leaves the slots of a block. -/
theorem exploreFits_of_unwatched (hlimit : 1 ≤ limit) (hratio : exploreRatio ≤ 1)
    (hincl : includeCodes incl = []) :
    ExploreFits seedCodes limit incl advPool fresh exploreRatio := by
  refine exploreFits_of_le ?_
  have hn := nExplore_le hlimit hratio
  have := Nat.min_le_left (nExploit limit exploreRatio) (newInPool incl advPool)
  rw [slotsLeft, hincl, List.length_nil, Nat.zero_add]
  unfold nExploit at this ⊢
  omega

/-! ### What is never seen -/

/-- An unwatched stale symbol is not seen when as many unwatched ones as there
are slots stand before it. -/
theorem not_mem_explored (hnd : (staleOf seedCodes fresh).Nodup)
    (hpool : ∀ c ∈ staleOf seedCodes fresh, c ∉ advPool.getD []) {c : Symbol}
    {front back : List Symbol}
    (hstream : (staleOf seedCodes fresh).rotate (tickCount * nExplore limit exploreRatio) =
      front ++ c :: back)
    (hwatched : c ∉ includeCodes incl)
    (hfront : slotsLeft limit incl advPool exploreRatio ≤
      (front.filter (· ∉ includeCodes incl)).length) :
    c ∉ explored seedCodes limit incl tickCount advPool fresh exploreRatio := by
  have hmem : ∀ d ∈ front ++ c :: back, d ∈ staleOf seedCodes fresh := fun d hd =>
    List.mem_rotate.mp (hstream ▸ hd)
  have hpicked : ∀ d ∈ front ++ c :: back,
      d ∈ exploited limit incl tickCount advPool exploreRatio ↔ d ∈ includeCodes incl := by
    intro d hd
    refine ⟨fun h => ?_, (prefix_exploited limit incl tickCount advPool exploreRatio).mem⟩
    rcases mem_of_mem_exploited limit incl tickCount advPool exploreRatio h with h | h
    · exact h
    · exact absurd h (hpool d (hmem d hd))
  have hunpicked : (front ++ c :: back).filter
      (· ∉ exploited limit incl tickCount advPool exploreRatio) =
        (front ++ c :: back).filter (· ∉ includeCodes incl) :=
    List.filter_congr fun d hd => decide_eq_decide.mpr (not_congr (hpicked d hd))
  rw [mem_explored_iff hnd, hstream, hunpicked]
  rintro (h | h)
  · exact hwatched ((hpicked c (by simp)).mp h)
  · rw [List.filter_append, List.take_append_of_le_length hfront] at h
    have hcf : c ∈ front := List.mem_of_mem_filter (List.mem_of_mem_take h)
    have hdup : (front ++ c :: back).Nodup := hstream ▸ List.nodup_rotate.mpr hnd
    exact (List.nodup_append'.mp hdup).2.2 hcf List.mem_cons_self

/-- **Of a block that does not fit a symbol is missed by a whole window.** -/
theorem fits_of_explored (hnd : (staleOf seedCodes fresh).Nodup)
    (hpool : ∀ c ∈ staleOf seedCodes fresh, c ∉ advPool.getD [])
    (hexplored : Explored seedCodes limit incl advPool fresh exploreRatio) :
    ExploreFits seedCodes limit incl advPool fresh exploreRatio := by
  by_contra hfits
  obtain ⟨t₀, ht₀⟩ := not_forall.mp hfits
  rw [not_le, rotate_eq] at ht₀
  obtain ⟨front, c, rest, hblock, hwatched, hfront⟩ := exists_nth_of_lt_length_filter ht₀
  set n := nExplore limit exploreRatio with hn
  -- the starved symbol is in the block of the tick, behind too many others
  have hstream : (staleOf seedCodes fresh).rotate (t₀ * n) =
      front ++ c :: (rest ++ ((staleOf seedCodes fresh).rotate (t₀ * n)).drop n) := by
    calc (staleOf seedCodes fresh).rotate (t₀ * n)
        = ((staleOf seedCodes fresh).rotate (t₀ * n)).take n ++
            ((staleOf seedCodes fresh).rotate (t₀ * n)).drop n := (List.take_append_drop _ _).symm
      _ = _ := by rw [hblock, List.append_assoc, List.cons_append]
  have hc : c ∈ staleOf seedCodes fresh :=
    List.mem_rotate.mp (hstream ▸ List.mem_append_right _ List.mem_cons_self)
  have hshort : front.length < n := by
    have := congrArg List.length hblock
    simp only [List.length_take, List.length_append, List.length_cons] at this
    omega
  obtain ⟨t, hle, hlt, hseen⟩ := hexplored t₀ c hc
  rw [mem_resolveUniverse_stale_iff _ _ _ _ _ _ _ hc] at hseen
  have hwatched : c ∉ includeCodes incl := by simpa using hwatched
  rcases Nat.eq_or_lt_of_le hle with rfl | hlater
  · exact not_mem_explored hnd hpool hstream hwatched hfront.ge hseen
  · -- a later tick of the window is past the symbol and not yet around
    obtain ⟨j, rfl⟩ := Nat.exists_eq_add_of_le hle
    have hj : 0 < j := by omega
    have hwrap : j * n < (staleOf seedCodes fresh).length :=
      (lt_window_iff (nExplore_pos limit exploreRatio) (List.length_pos_of_mem hc)).mp
        (by omega)
    have hpast : front.length < j * n :=
      lt_of_lt_of_le hshort (Nat.le_mul_of_pos_left n hj)
    obtain ⟨ahead, back, hahead⟩ := rotate_behind hstream hpast hwrap.le
    rw [← Nat.add_mul] at hahead
    refine not_mem_explored hnd hpool hahead hwatched ?_ hseen
    rw [List.filter_append, List.length_append, hfront]
    exact Nat.le_add_left _ _

variable (seedCodes limit incl advPool fresh exploreRatio)

/-- **Exploration.**  Every stale symbol comes up in each window when every
block fits in the slots left; and when no stale symbol is in the pool, where a
pick could show it by chance, only then. -/
theorem exploration_iff (hnd : (staleOf seedCodes fresh).Nodup) :
    (ExploreFits seedCodes limit incl advPool fresh exploreRatio →
        Explored seedCodes limit incl advPool fresh exploreRatio) ∧
      ((∀ c ∈ staleOf seedCodes fresh, c ∉ advPool.getD []) →
        (Explored seedCodes limit incl advPool fresh exploreRatio ↔
          ExploreFits seedCodes limit incl advPool fresh exploreRatio)) :=
  ⟨explored_of_fits hnd, fun hpool => ⟨fits_of_explored hnd hpool, explored_of_fits hnd⟩⟩

/-- One symbol is stale.  The watched one and the pick from the pool fill the
two slots, and it never comes up. -/
theorem not_explored_sample :
    1 ≤ 2 ∧ (0 : ℚ) < 1 / 5 ∧ (1 / 5 : ℚ) ≤ 1 ∧ (["A00001"] : List String).length < 2 ∧
      staleOf ["A00001", "B00002", "C00003", "D00004"] {"A00001", "B00002", "C00003"} ≠ [] ∧
      (staleOf ["A00001", "B00002", "C00003", "D00004"] {"A00001", "B00002", "C00003"}).Nodup ∧
      ¬ Explored ["A00001", "B00002", "C00003", "D00004"] 2 ["A00001"]
        (some ["B00002", "C00003"]) {"A00001", "B00002", "C00003"} (1 / 5) := by
  refine ⟨by norm_num, by norm_num, by norm_num, by decide, by decide +kernel,
    by decide +kernel, fun h => ?_⟩
  have hfits := fits_of_explored (by decide +kernel) (by decide +kernel) h 0
  revert hfits
  decide +kernel

/-- Four symbols are stale, one is watched and two are in the pool: five slots are enough
to explore two at each tick, and four are not. -/
theorem exploration_iff_sample :
    let seed := ["A00001", "B00002", "C00003", "D00004", "E00005", "F00006", "G00007"]
    let fresh : Finset Symbol := {"A00001", "B00002", "C00003"}
    Explored seed 5 ["A00001"] (some ["B00002", "C00003"]) fresh (2 / 5) ∧
      ¬ Explored seed 4 ["A00001"] (some ["B00002", "C00003"]) fresh (2 / 5) := by
  intro seed fresh
  have hnd : (staleOf seed fresh).Nodup := by decide +kernel
  have hpool : ∀ c ∈ staleOf seed fresh, c ∉ (some ["B00002", "C00003"]).getD [] := by
    decide +kernel
  refine ⟨?_, ?_⟩
  · refine (exploration_iff _ 5 ["A00001"] (some ["B00002", "C00003"]) _ (2 / 5) hnd).1 ?_
    exact exploreFits_of_le (by decide +kernel)
  · intro hexplored
    have hfits := ((exploration_iff _ 4 ["A00001"] (some ["B00002", "C00003"]) _ (2 / 5)
      hnd).2 hpool).mp hexplored 0
    revert hfits
    decide +kernel

end AutoTrade
