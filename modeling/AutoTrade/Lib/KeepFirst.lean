/-
AutoTrade/Lib/KeepFirst.lean

Tables that keep the first row offered for each key.

`offer key` adds a row unless its key has one, `offerAll key` does so for a list,
one row after another.  What they leave is told by `firsts key`, the rows of a list
that are the first of it with their key: a table and what is offered to it become
the table and those of the firsts that have a new key (`offerAll_eq`), and under each
key there is what was offered first (`filter_key_firsts`).

`readUntilStale` offers the pages of a list until one adds nothing.  It does what
offering all of them does exactly when a page that adds nothing has no new key
after it (`readUntilStale_eq_iff`).
-/
import Mathlib.Data.List.Nodup

universe u v

namespace KeepFirst

variable {ρ : Type u} {κ : Type v} [DecidableEq κ] (key : ρ → κ)

/-! ### The first rows of a list -/

/-- The rows that are the first with their key. -/
def firsts : List ρ → List ρ
  | [] => []
  | r :: rs => r :: (firsts rs).filter fun x => key x ≠ key r

theorem firsts_sublist (rs : List ρ) : (firsts key rs).Sublist rs := by
  induction rs with
  | nil => exact .slnil
  | cons r rs ih => exact (List.filter_sublist.trans ih).cons_cons r

omit [DecidableEq κ] in
/-- The keys of the rows whose keys are kept. -/
theorem mem_keys_filter (P : κ → Prop) [DecidablePred P] (rs : List ρ) {k : κ} :
    k ∈ (rs.filter fun x => P (key x)).map key ↔ k ∈ rs.map key ∧ P k := by
  simp only [List.mem_map, List.mem_filter, decide_eq_true_eq]
  constructor
  · rintro ⟨x, ⟨hx, hP⟩, rfl⟩
    exact ⟨⟨x, hx, rfl⟩, hP⟩
  · rintro ⟨⟨x, hx, rfl⟩, hP⟩
    exact ⟨x, ⟨hx, hP⟩, rfl⟩

@[simp] theorem mem_keys_firsts {rs : List ρ} {k : κ} :
    k ∈ (firsts key rs).map key ↔ k ∈ rs.map key := by
  induction rs with
  | nil => rfl
  | cons r rs ih =>
    have hkeys := mem_keys_filter key (· ≠ key r) (firsts key rs) (k := k)
    rw [firsts, List.map_cons, List.map_cons, List.mem_cons, List.mem_cons, hkeys, ih]
    by_cases hk : k = key r
    · simp [hk]
    · simp [hk]

theorem nodup_firsts (rs : List ρ) : ((firsts key rs).map key).Nodup := by
  induction rs with
  | nil => exact List.nodup_nil
  | cons r rs ih =>
    rw [firsts, List.map_cons, List.nodup_cons]
    refine ⟨?_, ih.sublist (List.filter_sublist.map key)⟩
    intro hmem
    obtain ⟨x, hx, heq⟩ := List.mem_map.mp hmem
    exact of_decide_eq_true (List.mem_filter.mp hx).2 heq

/-- **Under each key there is what came first under it.** -/
theorem filter_key_firsts (rs : List ρ) (k : κ) :
    (firsts key rs).filter (fun r => key r = k) = (rs.find? fun r => key r = k).toList := by
  induction rs with
  | nil => rfl
  | cons r rs ih =>
    rw [firsts, List.filter_cons, List.filter_filter]
    by_cases hk : key r = k
    · rw [if_pos (decide_eq_true hk),
        List.find?_cons_of_pos (by simpa using hk)]
      -- no later row has the key of the first
      have hnone : (firsts key rs).filter
          (fun x => decide (key x = k) && decide (key x ≠ key r)) = [] := by
        rw [List.filter_eq_nil_iff]
        intro x _
        simp [hk]
      rw [hnone, Option.toList_some]
    · rw [if_neg (by simpa using hk), List.find?_cons_of_neg (by simpa using hk), ← ih]
      apply List.filter_congr
      intro x _
      by_cases hx : key x = k
      · simp [hx, Ne.symm hk]
      · simp [hx]

theorem firsts_append (rs ts : List ρ) :
    firsts key (rs ++ ts) =
      firsts key rs ++ (firsts key ts).filter fun r => key r ∉ rs.map key := by
  induction rs with
  | nil => simp [firsts]
  | cons r rs ih =>
    rw [List.cons_append, firsts, firsts, ih, List.filter_append, List.filter_filter,
      List.cons_append]
    congr 2
    apply List.filter_congr
    intro x _
    by_cases hx : key x = key r <;> simp [hx]

theorem firsts_map {α : Type*} (f : α → ρ) (l : List α) :
    firsts key (l.map f) = (firsts (key ∘ f) l).map f := by
  induction l with
  | nil => rfl
  | cons a l ih =>
    rw [List.map_cons, firsts, firsts, ih, List.filter_map, List.map_cons]
    rfl

/-- Rows with keys of their own are all firsts. -/
theorem firsts_of_nodup {rs : List ρ} (h : (rs.map key).Nodup) : firsts key rs = rs := by
  induction rs with
  | nil => rfl
  | cons r rs ih =>
    rw [List.map_cons, List.nodup_cons] at h
    rw [firsts, ih h.2, List.filter_eq_self.mpr]
    intro x hx
    exact decide_eq_true fun heq => h.1 (List.mem_map.mpr ⟨x, hx, heq⟩)

/-! ### Offering rows to a table -/

/-- Add a row unless its key has one. -/
def offer (rows : List ρ) (r : ρ) : List ρ := if key r ∈ rows.map key then rows else rows ++ [r]

/-- Offers one after another. -/
def offerAll (rows rs : List ρ) : List ρ := rs.foldl (offer key) rows

/-- **What a table has after an offer**: its own rows, and of the firsts those with a
new key. -/
theorem offerAll_eq (rows rs : List ρ) :
    offerAll key rows rs = rows ++ (firsts key rs).filter fun r => key r ∉ rows.map key := by
  induction rs generalizing rows with
  | nil => simp [offerAll, firsts]
  | cons r rs ih =>
    rw [offerAll, List.foldl_cons, ← offerAll, ih, firsts, List.filter_cons, List.filter_filter]
    by_cases hk : key r ∈ rows.map key
    · rw [offer, if_pos hk, if_neg (by simpa using hk)]
      congr 1
      apply List.filter_congr
      intro x _
      by_cases hx : key x = key r
      · simp only [hx, hk]
        simp
      · simp [hx]
    · rw [offer, if_neg hk, if_pos (decide_eq_true hk), List.append_assoc, List.singleton_append]
      congr 2
      apply List.filter_congr
      intro x _
      by_cases hx : key x = key r <;> simp [hx]

/-- A table that was filled by offers is the firsts of all that was offered. -/
theorem offerAll_firsts (rs ts : List ρ) :
    offerAll key (firsts key rs) ts = firsts key (rs ++ ts) := by
  rw [offerAll_eq, firsts_append]
  simp only [mem_keys_firsts]

theorem offerAll_nil (rs : List ρ) : offerAll key [] rs = firsts key rs := by
  simp [offerAll_eq]

/-- Rows are never changed or removed. -/
theorem prefix_offerAll (rows rs : List ρ) : rows <+: offerAll key rows rs :=
  ⟨_, (offerAll_eq key rows rs).symm⟩

theorem offerAll_append (rows rs ts : List ρ) :
    offerAll key rows (rs ++ ts) = offerAll key (offerAll key rows rs) ts :=
  List.foldl_append

theorem mem_keys_offerAll {rows rs : List ρ} {k : κ} :
    k ∈ (offerAll key rows rs).map key ↔ k ∈ rows.map key ∨ k ∈ rs.map key := by
  have hkeys := mem_keys_filter key (· ∉ rows.map key) (firsts key rs) (k := k)
  rw [offerAll_eq, List.map_append, List.mem_append, hkeys, mem_keys_firsts]
  by_cases hk : k ∈ rows.map key
  · simp [hk]
  · simp [hk]

/-- An offer adds nothing exactly when its keys have their rows. -/
theorem offerAll_eq_self_iff {rows rs : List ρ} :
    offerAll key rows rs = rows ↔ ∀ r ∈ rs, key r ∈ rows.map key := by
  constructor
  · intro h r hr
    rw [← h]
    exact (mem_keys_offerAll key).mpr (Or.inr (List.mem_map_of_mem hr))
  · intro h
    rw [offerAll_eq, List.filter_eq_nil_iff.mpr, List.append_nil]
    intro r hr
    simpa using h r ((firsts_sublist key rs).subset hr)

/-! ### Reading pages -/

/-- Offer page after page. -/
def readAll (rows : List ρ) (pages : List (List ρ)) : List ρ := pages.foldl (offerAll key) rows

/-- Offer page after page until one adds nothing. -/
def readUntilStale : List ρ → List (List ρ) → List ρ
  | rows, [] => rows
  | rows, page :: pages =>
    if (offerAll key rows page).length = rows.length then rows
    else readUntilStale (offerAll key rows page) pages

theorem readAll_eq (rows : List ρ) (pages : List (List ρ)) :
    readAll key rows pages = offerAll key rows pages.flatten := by
  induction pages generalizing rows with
  | nil => rfl
  | cons page pages ih =>
    rw [readAll, List.foldl_cons, ← readAll, ih, List.flatten_cons, offerAll_append]

/-- An offer that does not lengthen a table leaves it as it is. -/
theorem offerAll_length_iff {rows rs : List ρ} :
    (offerAll key rows rs).length = rows.length ↔ offerAll key rows rs = rows :=
  ⟨fun h => ((prefix_offerAll key rows rs).eq_of_length h.symm).symm, fun h => by rw [h]⟩

theorem subset_keys_readAll {rows : List ρ} (pages : List (List ρ)) {k : κ}
    (h : k ∈ rows.map key) : k ∈ (readAll key rows pages).map key := by
  rw [readAll_eq]
  exact (mem_keys_offerAll key).mpr (Or.inl h)

/-- **Stopping at a page that adds nothing loses nothing** exactly when no page after
it has a key that is not in the table by then. -/
theorem readUntilStale_eq_iff {rows : List ρ} {pages : List (List ρ)} :
    readUntilStale key rows pages = readAll key rows pages ↔
      ∀ pre page post, pages = pre ++ page :: post →
        (∀ r ∈ page, key r ∈ (readAll key rows pre).map key) →
          ∀ r ∈ post.flatten, key r ∈ (readAll key rows pre).map key := by
  induction pages generalizing rows with
  | nil => simp [readUntilStale, readAll]
  | cons page pages ih =>
    rw [readUntilStale]
    by_cases hstale : offerAll key rows page = rows
    · -- it stops here: what is lost is what the later pages would add
      have hread : readAll key rows (page :: pages) = readAll key rows pages := by
        rw [readAll, List.foldl_cons, hstale, readAll]
      rw [if_pos ((offerAll_length_iff key).mpr hstale), hread, readAll_eq, eq_comm,
        offerAll_eq_self_iff]
      constructor
      · rintro h pre page' post heq - r hr
        apply subset_keys_readAll
        rcases pre with - | ⟨first, pre⟩
        · obtain ⟨-, rfl⟩ := List.cons.inj heq
          exact h r hr
        · obtain ⟨-, rfl⟩ := List.cons.inj heq
          exact h r (by simp [hr])
      · intro h
        exact h [] page pages rfl ((offerAll_eq_self_iff key).mp hstale)
    · rw [if_neg (mt (offerAll_length_iff key).mp hstale), readAll, List.foldl_cons, ← readAll,
        ih]
      constructor
      · rintro h pre page' post heq hpage
        rcases pre with - | ⟨first, pre⟩
        · obtain ⟨rfl, rfl⟩ := List.cons.inj heq
          exact absurd ((offerAll_eq_self_iff key).mpr hpage) hstale
        · obtain ⟨rfl, rfl⟩ := List.cons.inj heq
          exact h pre page' post rfl hpage
      · rintro h pre page' post rfl
        exact h (page :: pre) page' post rfl

/-- What was read has everything exactly when it has each key of the pages. -/
theorem readUntilStale_eq_iff_subset {rows : List ρ} {pages : List (List ρ)} :
    readUntilStale key rows pages = readAll key rows pages ↔
      ∀ r ∈ pages.flatten, key r ∈ (readUntilStale key rows pages).map key := by
  constructor
  · intro h r hr
    rw [h, readAll_eq]
    exact (mem_keys_offerAll key).mpr (Or.inr (List.mem_map_of_mem hr))
  · intro h
    induction pages generalizing rows with
    | nil => rfl
    | cons page pages ih =>
      rw [readUntilStale] at h ⊢
      by_cases hlen : (offerAll key rows page).length = rows.length
      · rw [if_pos hlen] at h ⊢
        rw [readAll_eq]
        exact ((offerAll_eq_self_iff key).mpr h).symm
      · rw [if_neg hlen] at h ⊢
        exact ih fun r hr => h r (List.mem_flatten.mpr
          (let ⟨p, hp, hrp⟩ := List.mem_flatten.mp hr; ⟨p, List.mem_cons_of_mem _ hp, hrp⟩))

/-! ### Numbered pages -/

variable {key} {rows : List ρ} {page : ℕ → List ρ} {n : ℕ}

/-- The key is in the table, or on a page before `i`. -/
def KnownBefore (key : ρ → κ) (rows : List ρ) (page : ℕ → List ρ) (i : ℕ) (k : κ) : Prop :=
  k ∈ rows.map key ∨ ∃ m < i, k ∈ (page m).map key

theorem mem_keys_readAll_range {i : ℕ} {k : κ} :
    k ∈ (readAll key rows ((List.range i).map page)).map key ↔
      KnownBefore key rows page i k := by
  rw [readAll_eq, mem_keys_offerAll]
  unfold KnownBefore
  simp only [List.mem_map, List.mem_flatten, List.mem_range]
  constructor
  · rintro (h | ⟨r, ⟨_, ⟨m, hm, rfl⟩, hr⟩, rfl⟩)
    · exact Or.inl h
    · exact Or.inr ⟨m, hm, r, hr, rfl⟩
  · rintro (h | ⟨m, hm, r, hr, rfl⟩)
    · exact Or.inl h
    · exact Or.inr ⟨r, ⟨_, ⟨m, hm, rfl⟩, hr⟩, rfl⟩

/-- Where the numbered pages can be cut. -/
theorem pages_eq_append_cons {pre post : List (List ρ)} {p : List ρ} :
    (List.range n).map page = pre ++ p :: post ↔
      ∃ i < n, pre = (List.range i).map page ∧ p = page i ∧
        post = (List.range' (i + 1) (n - i - 1)).map page := by
  simp only [List.range_eq_range']
  constructor
  · intro h
    obtain ⟨l₁, l₂, hl, rfl, hcons⟩ := List.map_eq_append_iff.mp h
    obtain ⟨i, hi, rfl, rfl⟩ := List.range'_eq_append_iff.mp hl
    obtain ⟨a, l, hl, rfl, rfl⟩ := List.map_eq_cons_iff.mp hcons
    obtain ⟨rfl, hpos, rfl⟩ := List.range'_eq_cons_iff.mp hl
    exact ⟨i, by omega, rfl, by simp, by simp⟩
  · rintro ⟨i, hi, rfl, rfl, rfl⟩
    obtain ⟨m, rfl⟩ : ∃ m, n = i + (m + 1) := ⟨n - i - 1, by omega⟩
    rw [← List.range'_append_1, List.range'_succ, List.map_append, List.map_cons]
    simp

/-- `readUntilStale_eq_iff` for numbered pages. -/
theorem readUntilStale_range_iff :
    readUntilStale key rows ((List.range n).map page) =
        readAll key rows ((List.range n).map page) ↔
      ∀ i j, i < j → j < n → (∀ r ∈ page i, KnownBefore key rows page i (key r)) →
        ∀ r ∈ page j, KnownBefore key rows page i (key r) := by
  rw [readUntilStale_eq_iff]
  constructor
  · intro h i j hij hj hi r hr
    rw [← mem_keys_readAll_range]
    refine h _ _ _ (pages_eq_append_cons.mpr ⟨i, Nat.lt_trans hij hj, rfl, rfl, rfl⟩) ?_ r ?_
    · exact fun r hr => mem_keys_readAll_range.mpr (hi r hr)
    · refine List.mem_flatten.mpr ⟨page j, List.mem_map.mpr ⟨j, ?_, rfl⟩, hr⟩
      rw [List.mem_range'_1]
      omega
  · intro h pre p post hpages hp r hr
    obtain ⟨i, hi, rfl, rfl, rfl⟩ := pages_eq_append_cons.mp hpages
    obtain ⟨q, hq, hr⟩ := List.mem_flatten.mp hr
    obtain ⟨j, hj, rfl⟩ := List.mem_map.mp hq
    rw [List.mem_range'_1] at hj
    rw [mem_keys_readAll_range]
    exact h i j (by omega) (by omega) (fun r hr => mem_keys_readAll_range.mp (hp r hr)) r hr

end KeepFirst
