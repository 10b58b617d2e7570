/-
AutoTrade/Lib/ReadThrough.lean

A cache in front of an origin that may fail.

    look the key up; young enough: serve the row
                     else:         ask the origin, save its answer, give it

The cache, the origin and the save may each raise, and a save that raises may have
landed.  The store keeps the history of its saves; the row of a key is the last one,
and the saves of a key are the stamps of a gate whose window is the age that the reads
allow.  So what is served is as young as the read asks for (`served_or_given`), and the
saves of a key are spaced (`spaced_run`).
-/
import AutoTrade.Lib.Dict
import AutoTrade.Lib.Effect
import AutoTrade.Lib.Gate

universe u

namespace ReadThrough

open Effect

/-- A row of the cache. -/
structure Row (τ ρ : Type u) where
  stamp : τ
  value : ρ

/-- The rows, and what was saved: the key, the time and the answer. -/
structure Store (κ τ υ ρ : Type u) where
  rows : Dict κ (Row τ ρ)
  saves : List (κ × τ × υ) := []

/-- A read: when it looks, what age it allows, what the origin would answer, and how
the calls end. -/
structure Read (κ τ υ ε : Type u) where
  key : κ
  now : τ
  ttl : τ
  lookup : Fate
  answer : Except ε υ
  save : Fate
  savedAt : τ

/-- What a cache does with what it holds. -/
structure Policy (κ τ υ ρ ε α : Type u) where
  /-- whether an answer is saved -/
  keep : υ → Bool
  dump : υ → ρ
  serve : κ → Row τ ρ → Except ε α
  give : υ → α
  /-- what the cache raises -/
  lost : ε

variable {κ τ υ ρ ε α : Type u} [DecidableEq κ]

/-- A save: the row of the key is replaced, and the save is noted. -/
def Store.put (s : Store κ τ υ ρ) (p : Policy κ τ υ ρ ε α) (key : κ) (stamp : τ) (v : υ) :
    Store κ τ υ ρ where
  rows := s.rows.set key ⟨stamp, p.dump v⟩
  saves := s.saves ++ [(key, stamp, v)]

/-- Ask the origin, and save what it answers. -/
def fetch (p : Policy κ τ υ ρ ε α) (r : Read κ τ υ ε) : Effect ε (Store κ τ υ ρ) α := do
  let v ← Effect.lift r.answer
  when (p.keep v) (commit r.save p.lost fun s => s.put p r.key r.savedAt v)
  pure (p.give v)

variable [AddCommGroup τ] [LinearOrder τ]

/-- A read: what is stored while it is young, else what is fetched. -/
def read (p : Policy κ τ υ ρ ε α) (r : Read κ τ υ ε) : Effect ε (Store κ τ υ ρ) α := do
  let cached ← query r.lookup p.lost fun s => s.rows.get? r.key
  match cached with
  | some row => if r.now - row.stamp < r.ttl then Effect.lift (p.serve r.key row) else fetch p r
  | none => fetch p r

/-- Reads one after another. -/
def run (p : Policy κ τ υ ρ ε α) (s : Store κ τ υ ρ) (rs : List (Read κ τ υ ε)) : Store κ τ υ ρ :=
  rs.foldl (fun s r => (read p r s).2) s

section Rules

variable {p : Policy κ τ υ ρ ε α} {s : Store κ τ υ ρ} {r : Read κ τ υ ε} {k : κ}

/-- The stamps of the saves. -/
def stamps (s : Store κ τ υ ρ) : Gate.Log κ τ := s.saves.map fun e => (e.1, e.2.1)

/-- The row of a key is the last of its saves. -/
structure Backed (p : Policy κ τ υ ρ ε α) (s : Store κ τ υ ρ) : Prop where
  row : ∀ k row, s.rows.get? k = some row →
    ∃ v, (k, row.stamp, v) ∈ s.saves ∧ row.value = p.dump v
  last : ∀ k, Gate.lastOf k (stamps s) = (s.rows.get? k).map Row.stamp
  kept : ∀ e ∈ s.saves, p.keep e.2.2 = true

omit [AddCommGroup τ] [LinearOrder τ] in
theorem backed_put {stamp : τ} {v : υ} (h : Backed p s) (hv : p.keep v = true) :
    Backed p (s.put p k stamp v) where
  row := by
    intro k' row hrow
    have hget : (s.rows.set k ⟨stamp, p.dump v⟩).get? k' = some row := hrow
    rw [Dict.get?_set] at hget
    split at hget
    · next hk =>
      cases hget
      subst hk
      exact ⟨v, List.mem_append_right _ List.mem_cons_self, rfl⟩
    · obtain ⟨v', hmem, hval⟩ := h.row k' row hget
      exact ⟨v', List.mem_append_left _ hmem, hval⟩
  last := by
    intro k'
    have hstamps : stamps (s.put p k stamp v) = stamps s ++ [(k, stamp)] := List.map_append
    show _ = ((s.rows.set k ⟨stamp, p.dump v⟩).get? k').map Row.stamp
    rw [hstamps, Gate.lastOf_append_singleton, Dict.get?_set, h.last]
    split <;> rfl
  kept := by
    intro e he
    rcases List.mem_append.mp he with he | he
    · exact h.kept e he
    · rw [List.mem_singleton.mp he]
      exact hv

omit [AddCommGroup τ] [LinearOrder τ] in
theorem backed_empty : Backed p (⟨∅, []⟩ : Store κ τ υ ρ) where
  row := by
    intro k row hrow
    rw [Dict.get?_empty] at hrow
    cases hrow
  last := by
    intro k
    rw [Dict.get?_empty]
    rfl
  kept := nofun

/-- The save of the read lands, if the read comes to it. -/
def lands (p : Policy κ τ υ ρ ε α) (r : Read κ τ υ ε) : Bool :=
  match r.lookup, r.answer with
  | .returns, .ok v => p.keep v && (r.save ≠ .raises false)
  | _, _ => false

/-- The read, as an ask of the gate. -/
def ask (p : Policy κ τ υ ρ ε α) (r : Read κ τ υ ε) : Gate.Ask κ τ where
  key := r.key
  now := r.now
  window := r.ttl
  stamp := if lands p r then some r.savedAt else none

/-- What a read comes to. -/
inductive Ends (p : Policy κ τ υ ρ ε α) (r : Read κ τ υ ε) (s : Store κ τ υ ρ) :
    Except ε α × Store κ τ υ ρ → Prop
  /-- the cache cannot be read -/
  | lost (h : r.lookup ≠ .returns) : Ends p r s (.error p.lost, s)
  /-- a row that is young enough -/
  | served {row : Row τ ρ} (hl : r.lookup = .returns) (hrow : s.rows.get? r.key = some row)
      (hyoung : r.now - row.stamp < r.ttl) : Ends p r s (p.serve r.key row, s)
  /-- the origin fails -/
  | failed {e : ε} (hpass : Gate.Passes (stamps s) (ask p r)) (ha : r.answer = .error e) :
      Ends p r s (.error e, s)
  /-- an answer that is given, and saved if it is to be kept -/
  | given {v : υ} (hl : r.lookup = .returns) (hpass : Gate.Passes (stamps s) (ask p r))
      (ha : r.answer = .ok v) (hsave : p.keep v = true → r.save = .returns) :
      Ends p r s (.ok (p.give v), if p.keep v = true then s.put p r.key r.savedAt v else s)
  /-- an answer that is lost with its save, which may have landed -/
  | unsaved {v : υ} (hl : r.lookup = .returns) (hpass : Gate.Passes (stamps s) (ask p r))
      (ha : r.answer = .ok v) (hv : p.keep v = true) {landed : Bool}
      (hsave : r.save = .raises landed) :
      Ends p r s (.error p.lost, if landed = true then s.put p r.key r.savedAt v else s)

theorem fetch_ends (hl : r.lookup = .returns) (hpass : Gate.Passes (stamps s) (ask p r)) :
    Ends p r s (fetch p r s) := by
  unfold fetch
  rcases ha : r.answer with e | v
  · exact .failed hpass ha
  · rcases hv : p.keep v with - | -
    · have hend : Ends p r s (.ok (p.give v), if p.keep v = true then _ else s) :=
        .given hl hpass ha (by rw [hv]; nofun)
      rw [if_neg (by rw [hv]; nofun)] at hend
      simpa [bind_apply, when, hv] using hend
    · rcases hsave : r.save with - | landed
      · have hend : Ends p r s (.ok (p.give v), if p.keep v = true then _ else s) :=
          .given hl hpass ha fun _ => hsave
        rw [if_pos hv] at hend
        simpa [bind_apply, when, hv, commit] using hend
      · have hend := Ends.unsaved hl hpass ha hv hsave
        rcases landed with - | -
        · simpa [bind_apply, when, hv, commit] using hend
        · simpa [bind_apply, when, hv, commit] using hend

/-- **A read, case by case.** -/
theorem read_ends (h : Backed p s) : Ends p r s (read p r s) := by
  unfold read
  rcases hl : r.lookup with - | landed
  · have hquery : (query .returns p.lost fun s : Store κ τ υ ρ => s.rows.get? r.key) s =
        (.ok (s.rows.get? r.key), s) := rfl
    rw [bind_ok hquery]
    rcases hrow : s.rows.get? r.key with - | row
    · refine fetch_ends hl ?_
      intro t ht
      rw [ask, h.last, hrow] at ht
      cases ht
    · simp only
      split
      · next hyoung => exact .served hl hrow hyoung
      · next hold =>
        refine fetch_ends hl ?_
        intro t ht
        rw [ask, h.last, hrow] at ht
        cases ht
        exact not_lt.mp hold
  · exact .lost (by rw [hl]; nofun)

theorem Ends.backed {x : Except ε α × Store κ τ υ ρ} (hx : Ends p r s x) (h : Backed p s) :
    Backed p x.2 := by
  cases hx with
  | lost _ => exact h
  | served _ _ _ => exact h
  | failed _ _ => exact h
  | @given v _ _ _ _ =>
    simp only
    split
    · next hv => exact backed_put h hv
    · exact h
  | unsaved _ _ _ hv _ =>
    simp only
    split
    · exact backed_put h hv
    · exact h

/-- A read does to the stamps what its ask does at the gate. -/
theorem Ends.stamps {x : Except ε α × Store κ τ υ ρ} (hx : Ends p r s x) (h : Backed p s) :
    stamps x.2 = Gate.step (ReadThrough.stamps s) (ask p r) := by
  have hput : ∀ v, ReadThrough.stamps (s.put p r.key r.savedAt v) =
      ReadThrough.stamps s ++ [(r.key, r.savedAt)] := fun v => List.map_append
  have hnone : lands p r = false →
      Gate.step (ReadThrough.stamps s) (ask p r) = ReadThrough.stamps s := by
    intro hlands
    exact Gate.step_of_stamp_none (if_neg (by rw [hlands]; nofun))
  have hsome : lands p r = true → Gate.Passes (ReadThrough.stamps s) (ask p r) →
      Gate.step (ReadThrough.stamps s) (ask p r) =
        ReadThrough.stamps s ++ [(r.key, r.savedAt)] := by
    intro hlands hpass
    exact Gate.step_of_passes hpass (if_pos hlands)
  cases hx with
  | lost hl =>
    refine (hnone ?_).symm
    unfold lands
    split
    · next hl' _ => exact absurd hl' hl
    · rfl
  | @served row hl hrow hyoung =>
    -- a young row holds the read back at the gate
    have hheld : ¬ Gate.Passes (ReadThrough.stamps s) (ask p r) := by
      intro hpass
      refine not_le.mpr hyoung (hpass row.stamp ?_)
      rw [ask, h.last, hrow]
      rfl
    exact (if_neg hheld).symm
  | failed hpass ha =>
    refine (hnone ?_).symm
    unfold lands
    rw [ha]
    split
    · next ha' => cases ha'
    · rfl
  | @given v hl hpass ha hsave =>
    simp only
    split
    · next hv =>
      rw [hput]
      refine (hsome ?_ hpass).symm
      unfold lands
      simp [hl, ha, hv, hsave hv]
    · next hv =>
      refine (hnone ?_).symm
      unfold lands
      simp [hl, ha, hv]
  | @unsaved v hl hpass ha hv landed hsave =>
    rcases landed with - | -
    · refine (hnone ?_).symm
      unfold lands
      simp [hl, ha, hsave]
    · show ReadThrough.stamps (s.put p r.key r.savedAt v) = _
      rw [hput]
      refine (hsome ?_ hpass).symm
      unfold lands
      simp [hl, ha, hv, hsave]

/-! ### Runs -/

section Runs

variable {rs : List (Read κ τ υ ε)}

theorem backed_run (h : Backed p s) : Backed p (run p s rs) :=
  Run.foldl_invariant (I := Backed p) (fun _ _ hs => (read_ends hs).backed hs) h rs

/-- The stamps of a run are those of its asks at the gate. -/
theorem stamps_run (h : Backed p s) :
    stamps (run p s rs) = (rs.map (ask p)).foldl Gate.step (stamps s) := by
  induction rs generalizing s with
  | nil => rfl
  | cons r rs ih =>
    have hstep : Backed p (read p r s).2 := (read_ends h).backed h
    rw [List.map_cons, List.foldl_cons, ← (read_ends h).stamps h]
    exact ih hstep

/-- What a read saves is what the origin answered it. -/
theorem Ends.saves {x : Except ε α × Store κ τ υ ρ} (hx : Ends p r s x) {e : κ × τ × υ}
    (he : e ∈ x.2.saves) :
    e ∈ s.saves ∨ (e.1 = r.key ∧ e.2.1 = r.savedAt ∧ r.answer = .ok e.2.2) := by
  have hput : ∀ v, r.answer = .ok v → e ∈ (s.put p r.key r.savedAt v).saves →
      e ∈ s.saves ∨ (e.1 = r.key ∧ e.2.1 = r.savedAt ∧ r.answer = .ok e.2.2) := by
    intro v ha hmem
    rcases List.mem_append.mp hmem with hmem | hmem
    · exact .inl hmem
    · rw [List.mem_singleton.mp hmem]
      exact .inr ⟨rfl, rfl, ha⟩
  cases hx with
  | lost _ => exact .inl he
  | served _ _ _ => exact .inl he
  | failed _ _ => exact .inl he
  | @given v _ _ ha _ =>
    simp only at he
    split at he
    · exact hput v ha he
    · exact .inl he
  | @unsaved v _ _ ha _ _ _ =>
    simp only at he
    split at he
    · exact hput v ha he
    · exact .inl he

/-- Every save of a run is an answer of the origin to one of its reads. -/
theorem saves_run (h : Backed p s) {e : κ × τ × υ} (he : e ∈ (run p s rs).saves) :
    e ∈ s.saves ∨ ∃ r ∈ rs, r.key = e.1 ∧ r.savedAt = e.2.1 ∧ r.answer = .ok e.2.2 := by
  induction rs generalizing s with
  | nil => exact .inl he
  | cons r rs ih =>
    rcases ih ((read_ends h).backed h) he with he | ⟨r', hr', hsave⟩
    · rcases (read_ends h).saves he with he | ⟨hkey, hstamp, ha⟩
      · exact .inl he
      · exact .inr ⟨r, List.mem_cons_self, hkey.symm, hstamp.symm, ha⟩
    · exact .inr ⟨r', List.mem_cons_of_mem r hr', hsave⟩

/-- A read leaves a row as it was, or writes what the origin answered it. -/
theorem Ends.rows {x : Except ε α × Store κ τ υ ρ} (hx : Ends p r s x) (k : κ) :
    x.2.rows.get? k = s.rows.get? k ∨
      r.key = k ∧ ∃ v, r.answer = .ok v ∧ x.2.rows.get? k = some ⟨r.savedAt, p.dump v⟩ := by
  have hput : ∀ v, r.answer = .ok v →
      (s.put p r.key r.savedAt v).rows.get? k = s.rows.get? k ∨
        r.key = k ∧ ∃ v', r.answer = .ok v' ∧
          (s.put p r.key r.savedAt v).rows.get? k = some ⟨r.savedAt, p.dump v'⟩ := by
    intro v ha
    show (s.rows.set r.key ⟨r.savedAt, p.dump v⟩).get? k = _ ∨ _ ∧ ∃ v', _ ∧
      (s.rows.set r.key ⟨r.savedAt, p.dump v⟩).get? k = _
    rw [Dict.get?_set]
    split
    · next hk => exact .inr ⟨hk, v, ha, rfl⟩
    · exact .inl rfl
  cases hx with
  | lost _ => exact .inl rfl
  | served _ _ _ => exact .inl rfl
  | failed _ _ => exact .inl rfl
  | @given v _ _ ha _ =>
    simp only
    split
    · exact hput v ha
    · exact .inl rfl
  | @unsaved v _ _ ha _ _ _ =>
    simp only
    split
    · exact hput v ha
    · exact .inl rfl

/-- **A row after a run** is the row before it, or what the origin answered one of the
reads. -/
theorem rows_run (h : Backed p s) (rs : List (Read κ τ υ ε)) (k : κ) :
    (run p s rs).rows.get? k = s.rows.get? k ∨
      ∃ r ∈ rs, r.key = k ∧ ∃ v, r.answer = .ok v ∧
        (run p s rs).rows.get? k = some ⟨r.savedAt, p.dump v⟩ := by
  induction rs generalizing s with
  | nil => exact .inl rfl
  | cons r rs ih =>
    rcases ih ((read_ends h).backed h) with hsame | ⟨r', hr', hrow⟩
    · rcases (read_ends h).rows k with hkept | ⟨hkey, v, ha, hput⟩
      · exact .inl (hsame.trans hkept)
      · exact .inr ⟨r, List.mem_cons_self, hkey, v, ha, hsame.trans hput⟩
    · exact .inr ⟨r', List.mem_cons_of_mem r hr', hrow⟩

/-- The clock of the reads does not go back. -/
structure Clocked (rs : List (Read κ τ υ ε)) : Prop where
  spent : ∀ r ∈ rs, r.now ≤ r.savedAt
  forward : rs.Pairwise fun r r' => r.savedAt ≤ r'.now

omit [DecidableEq κ] [AddCommGroup τ] in
theorem Clocked.tail {r : Read κ τ υ ε} (h : Clocked (r :: rs)) : Clocked rs where
  spent := fun r' hr' => h.spent r' (List.mem_cons_of_mem r hr')
  forward := (List.pairwise_cons.mp h.forward).2

omit [DecidableEq κ] [AddCommGroup τ] [LinearOrder τ] in
/-- An ask leaves its stamp when the read is saved. -/
theorem ask_stamp {t : τ} (h : (ask p r).stamp = some t) : t = r.savedAt := by
  unfold ask at h
  simp only at h
  split at h
  · exact (Option.some.inj h).symm
  · cases h

theorem admits_asks {log : Gate.Log κ τ} {gap : τ} (hrs : Clocked rs)
    (hlog : ∀ e ∈ log, ∀ r ∈ rs, e.2 ≤ r.now) (hgap : ∀ r ∈ rs, r.key = k → gap ≤ r.ttl) :
    Run.Admits Gate.step (fun log a => Gate.InOrder log a ∧ (a.key = k → gap ≤ a.window)) log
      (rs.map (ask p)) := by
  induction rs generalizing log with
  | nil => trivial
  | cons r rs ih =>
    refine ⟨⟨⟨fun e he => hlog e he r List.mem_cons_self, ?_⟩, hgap r List.mem_cons_self⟩,
      ih hrs.tail ?_ fun r' hr' => hgap r' (List.mem_cons_of_mem r hr')⟩
    · intro t ht
      rw [ask_stamp ht]
      exact hrs.spent r List.mem_cons_self
    · intro e he r' hr'
      have hcases : e ∈ log ∨ e.2 = r.savedAt := by
        unfold Gate.step at he
        split at he
        · rcases List.mem_append.mp he with he | he
          · exact .inl he
          · obtain ⟨t, ht, rfl⟩ := List.mem_map.mp he
            exact .inr (ask_stamp (Option.mem_toList.mp ht))
        · exact .inl he
      rcases hcases with he | he
      · exact hlog e he r' (List.mem_cons_of_mem r hr')
      · rw [he]
        exact (List.pairwise_cons.mp hrs.forward).1 r' hr'

variable [IsOrderedAddMonoid τ]

/-- **The saves of a key are spaced**, by the shortest age that its reads allow. -/
theorem spaced_run {gap : τ} (h : Backed p s) (hrs : Clocked rs)
    (hlog : ∀ e ∈ stamps s, ∀ r ∈ rs, e.2 ≤ r.now) (hgap : ∀ r ∈ rs, r.key = k → gap ≤ r.ttl)
    (hspaced : Gate.Spaced gap (Gate.stampsOf k (stamps s))) :
    Gate.Spaced gap (Gate.stampsOf k (stamps (run p s rs))) := by
  rw [stamps_run h]
  exact Gate.spaced_foldl (admits_asks hrs hlog hgap) hspaced

end Runs

/-- **What a read gives**: a save of its key that is young enough, as it is served, and
nothing is asked; or the answer of the origin. -/
theorem served_or_given {a : α} (h : Backed p s) (hok : (read p r s).1 = .ok a) :
    (∃ t v, (r.key, t, v) ∈ s.saves ∧ p.keep v = true ∧ r.now - t < r.ttl ∧
        p.serve r.key ⟨t, p.dump v⟩ = .ok a ∧ (read p r s).2 = s) ∨
      ∃ v, r.answer = .ok v ∧ a = p.give v ∧ Gate.Passes (stamps s) (ask p r) := by
  have hends : Ends p r s (read p r s) := read_ends h
  generalize read p r s = x at hends hok
  cases hends with
  | lost _ => cases hok
  | @served row hl hrow hyoung =>
    obtain ⟨v, hmem, hval⟩ := h.row _ _ hrow
    refine .inl ⟨row.stamp, v, hmem, h.kept _ hmem, hyoung, ?_, rfl⟩
    rw [← hval]
    exact hok
  | failed _ _ => cases hok
  | @given v hl hpass ha hsave =>
    cases hok
    exact .inr ⟨v, ha, rfl, hpass⟩
  | unsaved _ _ _ _ _ => cases hok

/-- While the last save of its key is young, a read asks nothing and changes nothing. -/
theorem read_young {t : τ} (h : Backed p s) (hlast : Gate.lastOf r.key (stamps s) = some t)
    (hyoung : r.now - t < r.ttl) (hl : r.lookup = .returns) :
    ∃ row, s.rows.get? r.key = some row ∧ read p r s = (p.serve r.key row, s) := by
  rw [h.last] at hlast
  obtain ⟨row, hrow, rfl⟩ := Option.map_eq_some_iff.mp hlast
  refine ⟨row, hrow, ?_⟩
  have hquery : (query r.lookup p.lost fun s : Store κ τ υ ρ => s.rows.get? r.key) s =
      (.ok (some row), s) := by
    rw [hl]
    exact congrArg (fun x => (Except.ok x, s)) hrow
  unfold read
  rw [bind_ok hquery]
  simp only
  rw [if_pos hyoung]
  rfl

end Rules

end ReadThrough
