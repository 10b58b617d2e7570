/-
AutoTrade/Lib/OnceLog.lean

Idempotent processing.  A processor that must act once for a key keeps a
dictionary `seen` of what it answered and a `log` of its answers; a key that
is in `seen` is answered from it and nothing is added.

`Agrees key seen log` is the invariant of the pair: the log has one answer a
key, and the dictionary holds exactly the answers of the log.
`Agrees.record` keeps it when a new key is answered.  `Covers seen acts` says
that each act of a list was for a different key, and each for a key that is
in `seen` by now; `Covers.act` keeps it when an act is made on the way to
answering a new key, `Covers.record` when none is.
-/
import AutoTrade.Lib.Dict

universe u v w

namespace OnceLog

variable {κ : Type u} {ρ : Type v} {α : Type w} [DecidableEq κ] {key : ρ → κ}

omit [DecidableEq κ] in
/-- Appending an entry with a new key keeps the keys distinct. -/
theorem nodup_map_concat {f : α → κ} {l : List α} {a : α} (hl : (l.map f).Nodup)
    (ha : f a ∉ l.map f) : ((l ++ [a]).map f).Nodup := by
  rw [List.map_append, List.nodup_append]
  refine ⟨hl, List.nodup_singleton _, ?_⟩
  intro k hk k' hk' heq
  rw [List.map_singleton, List.mem_singleton] at hk'
  exact ha (hk' ▸ heq ▸ hk)

/-- One answer a key, and the dictionary holds exactly the log. -/
structure Agrees (key : ρ → κ) (seen : Dict κ ρ) (log : List ρ) : Prop where
  nodup : (log.map key).Nodup
  get?_iff : ∀ k r, seen.get? k = some r ↔ r ∈ log ∧ key r = k

theorem agrees_empty : Agrees key ∅ [] where
  nodup := List.nodup_nil
  get?_iff := by simp

/-- A key is in the dictionary exactly when it has an answer in the log. -/
theorem Agrees.mem_keys {seen : Dict κ ρ} {log : List ρ} (h : Agrees key seen log) {k : κ} :
    k ∈ seen.keys ↔ k ∈ log.map key := by
  constructor
  · intro hk
    obtain ⟨r, hr⟩ := Dict.exists_get?_of_mem hk
    obtain ⟨hmem, rfl⟩ := (h.get?_iff k r).mp hr
    exact List.mem_map.mpr ⟨r, hmem, rfl⟩
  · intro hk
    obtain ⟨r, hmem, rfl⟩ := List.mem_map.mp hk
    exact Dict.mem_keys_of_get? ((h.get?_iff _ r).mpr ⟨hmem, rfl⟩)

/-- **Answering a new key keeps the agreement.** -/
theorem Agrees.record {seen : Dict κ ρ} {log : List ρ} (h : Agrees key seen log) {r : ρ}
    (hr : seen.get? (key r) = none) : Agrees key (seen.set (key r) r) (log ++ [r]) where
  nodup := by
    apply nodup_map_concat h.nodup
    rw [← h.mem_keys]
    exact Dict.get?_eq_none.mp hr
  get?_iff := by
    intro k r'
    rw [Dict.get?_set]
    by_cases hk : key r = k
    · subst hk
      rw [if_pos rfl]
      have hnone : ∀ x ∈ log, key x ≠ key r := by
        intro x hx heq
        have := (h.get?_iff (key r) x).mpr ⟨hx, heq⟩
        rw [hr] at this
        cases this
      constructor
      · intro heq
        obtain rfl := Option.some.inj heq
        exact ⟨by simp, rfl⟩
      · rintro ⟨hmem, heq⟩
        rcases List.mem_append.mp hmem with hmem | hmem
        · exact absurd heq (hnone r' hmem)
        · rw [List.mem_singleton.mp hmem]
    · rw [if_neg hk, h.get?_iff]
      constructor
      · rintro ⟨hmem, heq⟩
        exact ⟨List.mem_append_left _ hmem, heq⟩
      · rintro ⟨hmem, heq⟩
        rcases List.mem_append.mp hmem with hmem | hmem
        · exact ⟨hmem, heq⟩
        · rw [List.mem_singleton.mp hmem] at heq
          exact absurd heq hk

/-- Each act was for a key of its own, answered by now. -/
structure Covers (actKey : α → κ) (seen : Dict κ ρ) (acts : List α) : Prop where
  nodup : (acts.map actKey).Nodup
  answered : ∀ a ∈ acts, actKey a ∈ seen.keys

variable {actKey : α → κ} {seen : Dict κ ρ} {acts : List α} {k : κ} {r : ρ}

omit [DecidableEq κ] in
theorem covers_nil (actKey : α → κ) (seen : Dict κ ρ) : Covers actKey seen [] where
  nodup := List.nodup_nil
  answered := by simp

theorem Covers.record (h : Covers actKey seen acts) : Covers actKey (seen.set k r) acts where
  nodup := h.nodup
  answered := fun a ha => Dict.mem_keys_set.mpr (Or.inr (h.answered a ha))

/-- **An act for a new key is the first for it.** -/
theorem Covers.act (h : Covers actKey seen acts) {a : α} (ha : seen.get? (actKey a) = none) :
    Covers actKey (seen.set (actKey a) r) (acts ++ [a]) where
  nodup := by
    apply nodup_map_concat h.nodup
    intro hk
    obtain ⟨b, hb, heq⟩ := List.mem_map.mp hk
    exact Dict.get?_eq_none.mp ha (heq ▸ h.answered b hb)
  answered := by
    intro b hb
    rcases List.mem_append.mp hb with hb | hb
    · exact Dict.mem_keys_set.mpr (Or.inr (h.answered b hb))
    · rw [List.mem_singleton.mp hb]
      exact Dict.mem_keys_set.mpr (Or.inl rfl)

end OnceLog
