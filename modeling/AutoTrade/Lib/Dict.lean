/-
AutoTrade/Lib/Dict.lean

Insertion-ordered dictionaries: assigning to a key that is there keeps its
place, assigning to a new key appends it, and iteration is in that order.
Each dictionary carries the proof that its keys are distinct.

`Dict.ofList` is the literal `{k: v for k, v in l}` (the last value of a key
wins, its first occurrence gives the place) and `List.unique` the idiom
`list(dict.fromkeys(xs))`.
-/
import Mathlib.Data.List.Nodup
import Mathlib.Data.List.Basic

universe u v

/-- An insertion-ordered dictionary. -/
structure Dict (κ : Type u) (υ : Type v) where
  entries : List (κ × υ)
  nodup : (entries.map Prod.fst).Nodup

namespace Dict

variable {κ : Type u} {υ : Type v}

@[ext] theorem ext {d d' : Dict κ υ} (h : d.entries = d'.entries) : d = d' := by
  cases d; cases d'; cases h; rfl

instance [DecidableEq κ] [DecidableEq υ] : DecidableEq (Dict κ υ) := fun d d' =>
  decidable_of_iff (d.entries = d'.entries) ⟨ext, fun h => h ▸ rfl⟩

/-- `{}`. -/
def empty : Dict κ υ := ⟨[], by simp⟩

instance : EmptyCollection (Dict κ υ) := ⟨empty⟩

/-- The keys, in order. -/
def keys (d : Dict κ υ) : List κ := d.entries.map Prod.fst

/-- The values, in the order of their keys. -/
def values (d : Dict κ υ) : List υ := d.entries.map Prod.snd

theorem keys_nodup (d : Dict κ υ) : d.keys.Nodup := d.nodup

@[simp] theorem keys_empty : (∅ : Dict κ υ).keys = [] := rfl

variable [DecidableEq κ]

/-! ### Lookup -/

/-- Look `k` up in a list of pairs. -/
def find (k : κ) : List (κ × υ) → Option υ
  | [] => none
  | (k', v) :: rest => if k' = k then some v else find k rest

/-- `d.get(k)`. -/
def get? (d : Dict κ υ) (k : κ) : Option υ := find k d.entries

theorem find_eq_none {k : κ} {l : List (κ × υ)} :
    find k l = none ↔ k ∉ l.map Prod.fst := by
  induction l with
  | nil => simp [find]
  | cons p l ih =>
    obtain ⟨k', v⟩ := p
    by_cases h : k' = k
    · simp [find, h]
    · simp [find, h, ih, Ne.symm h]

theorem find_eq_some {k : κ} {v : υ} {l : List (κ × υ)} (hl : (l.map Prod.fst).Nodup) :
    find k l = some v ↔ (k, v) ∈ l := by
  induction l with
  | nil => simp [find]
  | cons p l ih =>
    obtain ⟨k', v'⟩ := p
    simp only [List.map_cons, List.nodup_cons] at hl
    by_cases h : k' = k
    · subst h
      have hno : (k', v) ∉ l := fun hm => hl.1 (List.mem_map.mpr ⟨_, hm, rfl⟩)
      simp [find, hno, eq_comm]
    · simp [find, h, ih hl.2, Ne.symm h]

theorem get?_eq_none {d : Dict κ υ} {k : κ} : d.get? k = none ↔ k ∉ d.keys :=
  find_eq_none

/-- A key is looked up among the entries. -/
theorem get?_eq_some {d : Dict κ υ} {k : κ} {v : υ} :
    d.get? k = some v ↔ (k, v) ∈ d.entries := find_eq_some d.nodup

@[simp] theorem get?_empty (k : κ) : (∅ : Dict κ υ).get? k = none := rfl

theorem mem_keys_of_get? {d : Dict κ υ} {k : κ} {v : υ} (h : d.get? k = some v) :
    k ∈ d.keys := List.mem_map.mpr ⟨_, get?_eq_some.mp h, rfl⟩

theorem exists_get?_of_mem {d : Dict κ υ} {k : κ} (h : k ∈ d.keys) :
    ∃ v, d.get? k = some v := by
  rcases e : d.get? k with - | v
  · exact absurd h (get?_eq_none.mp e)
  · exact ⟨v, rfl⟩

/-- A lookup succeeds exactly on the keys. -/
theorem get?_isSome {d : Dict κ υ} {k : κ} : (d.get? k).isSome ↔ k ∈ d.keys := by
  rw [← not_iff_not, ← get?_eq_none, Option.not_isSome_iff_eq_none]

theorem mem_values {d : Dict κ υ} {v : υ} : v ∈ d.values ↔ ∃ k, d.get? k = some v := by
  constructor
  · intro h
    obtain ⟨⟨k, v'⟩, hmem, rfl⟩ := List.mem_map.mp h
    exact ⟨k, get?_eq_some.mpr hmem⟩
  · rintro ⟨k, h⟩
    exact List.mem_map.mpr ⟨_, get?_eq_some.mp h, rfl⟩

/-! ### Assignment -/

/-- Assign in a list of pairs: in place when the key is there, else at the end. -/
def put (k : κ) (v : υ) : List (κ × υ) → List (κ × υ)
  | [] => [(k, v)]
  | (k', v') :: rest => if k' = k then (k, v) :: rest else (k', v') :: put k v rest

theorem keys_put (k : κ) (v : υ) (l : List (κ × υ)) :
    (put k v l).map Prod.fst =
      if k ∈ l.map Prod.fst then l.map Prod.fst else l.map Prod.fst ++ [k] := by
  induction l with
  | nil => rfl
  | cons p l ih =>
    obtain ⟨k', v'⟩ := p
    by_cases h : k' = k
    · simp [put, h]
    · by_cases hk : k ∈ l.map Prod.fst
      · simp [put, h, ih, hk]
      · simp [put, h, ih, hk, Ne.symm h]

/-- What is put is found, and nothing else changes. -/
theorem find_put (k k' : κ) (v : υ) (l : List (κ × υ)) :
    find k' (put k v l) = if k = k' then some v else find k' l := by
  induction l with
  | nil => simp [put, find]
  | cons p l ih =>
    obtain ⟨k₀, v₀⟩ := p
    by_cases h : k₀ = k
    · subst h
      by_cases hk : k₀ = k' <;> simp [put, find, hk]
    · by_cases hk : k₀ = k'
      · subst hk
        simp [put, find, h, Ne.symm h]
      · simp [put, find, h, hk, ih]

/-- `d[k] = v`. -/
def set (d : Dict κ υ) (k : κ) (v : υ) : Dict κ υ :=
  ⟨put k v d.entries, by
    rw [keys_put]
    split
    · exact d.nodup
    · next h => exact List.nodup_append.mpr ⟨d.nodup, by simp, by
        rintro a ha b hb rfl
        rw [List.mem_singleton] at hb
        exact h (hb ▸ ha)⟩⟩

/-- A key that is set has its new value, and the others keep theirs. -/
theorem get?_set (d : Dict κ υ) (k k' : κ) (v : υ) :
    (d.set k v).get? k' = if k = k' then some v else d.get? k' :=
  find_put k k' v d.entries

@[simp] theorem get?_set_self (d : Dict κ υ) (k : κ) (v : υ) :
    (d.set k v).get? k = some v := by
  rw [get?_set, if_pos rfl]

/-- A key that is there keeps its place; a new one comes last. -/
theorem keys_set (d : Dict κ υ) (k : κ) (v : υ) :
    (d.set k v).keys = if k ∈ d.keys then d.keys else d.keys ++ [k] :=
  keys_put k v d.entries

theorem mem_keys_set {d : Dict κ υ} {k k' : κ} {v : υ} :
    k' ∈ (d.set k v).keys ↔ k' = k ∨ k' ∈ d.keys := by
  rw [keys_set]
  split
  · next h =>
    constructor
    · exact Or.inr
    · rintro (rfl | h')
      exacts [h, h']
  · rw [List.mem_append, List.mem_singleton, or_comm]

/-- `del d[k]`, where nothing happens when the key is missing. -/
def erase (d : Dict κ υ) (k : κ) : Dict κ υ :=
  ⟨d.entries.filter fun p => p.1 ≠ k,
    d.nodup.sublist (List.filter_sublist.map Prod.fst)⟩

theorem mem_keys_erase {d : Dict κ υ} {k k' : κ} :
    k' ∈ (d.erase k).keys ↔ k' ≠ k ∧ k' ∈ d.keys := by
  simp only [keys, erase, List.mem_map, List.mem_filter, decide_eq_true_eq]
  constructor
  · rintro ⟨p, ⟨hp, hne⟩, rfl⟩
    exact ⟨hne, p, hp, rfl⟩
  · rintro ⟨hne, p, hp, rfl⟩
    exact ⟨p, ⟨hp, hne⟩, rfl⟩

/-- An erased key is gone, and the others keep their values. -/
theorem get?_erase (d : Dict κ υ) (k k' : κ) :
    (d.erase k).get? k' = if k = k' then none else d.get? k' := by
  split
  · next h =>
    subst h
    rw [get?_eq_none, mem_keys_erase]
    exact fun hmem => hmem.1 rfl
  · next h =>
    apply Option.ext
    intro v
    rw [get?_eq_some, get?_eq_some]
    simp [erase, Ne.symm h]

/-! ### Values -/

/-- `{k: f(v) for k, v in d.items()}`. -/
def mapValues {υ' : Type v} (f : υ → υ') (d : Dict κ υ) : Dict κ υ' :=
  ⟨d.entries.map fun p => (p.1, f p.2), by
    rw [List.map_map]
    exact d.nodup⟩

omit [DecidableEq κ] in
@[simp] theorem keys_mapValues {υ' : Type v} (f : υ → υ') (d : Dict κ υ) :
    (d.mapValues f).keys = d.keys := by
  simp [keys, mapValues, List.map_map, Function.comp_def]

omit [DecidableEq κ] in
@[simp] theorem values_mapValues {υ' : Type v} (f : υ → υ') (d : Dict κ υ) :
    (d.mapValues f).values = d.values.map f := by
  simp [values, mapValues, List.map_map, Function.comp_def]

theorem find_map {υ' : Type v} (f : υ → υ') (k : κ) (l : List (κ × υ)) :
    find k (l.map fun p => (p.1, f p.2)) = (find k l).map f := by
  induction l with
  | nil => rfl
  | cons p l ih =>
    obtain ⟨k', v⟩ := p
    by_cases h : k' = k
    · simp [find, h]
    · simp [find, h, ih]

theorem get?_mapValues {υ' : Type v} (f : υ → υ') (d : Dict κ υ) (k : κ) :
    (d.mapValues f).get? k = (d.get? k).map f := find_map f k d.entries

theorem put_map {υ' : Type v} (f : υ → υ') (k : κ) (v : υ) (l : List (κ × υ)) :
    put k (f v) (l.map fun p => (p.1, f p.2)) = (put k v l).map fun p => (p.1, f p.2) := by
  induction l with
  | nil => rfl
  | cons p l ih =>
    obtain ⟨k', v'⟩ := p
    by_cases h : k' = k
    · simp [put, h]
    · simp [put, h, ih]

/-- Mapping the values commutes with setting one. -/
theorem mapValues_set {υ' : Type v} (f : υ → υ') (d : Dict κ υ) (k : κ) (v : υ) :
    (d.set k v).mapValues f = (d.mapValues f).set k (f v) :=
  ext (put_map f k v d.entries).symm

theorem mapValues_erase {υ' : Type v} (f : υ → υ') (d : Dict κ υ) (k : κ) :
    (d.erase k).mapValues f = (d.mapValues f).erase k := by
  apply ext
  simp [mapValues, erase, List.filter_map, Function.comp_def]

/-! ### Dictionaries from lists -/

/-- `{k: v for k, v in l}`. -/
def ofList (l : List (κ × υ)) : Dict κ υ :=
  l.foldl (fun d p => d.set p.1 p.2) ∅

theorem mem_keys_foldl_set {l : List (κ × υ)} {d : Dict κ υ} {k : κ} :
    k ∈ (l.foldl (fun d p => d.set p.1 p.2) d).keys ↔ k ∈ d.keys ∨ k ∈ l.map Prod.fst := by
  induction l generalizing d with
  | nil => simp
  | cons p l ih =>
    rw [List.foldl_cons, ih, mem_keys_set, List.map_cons, List.mem_cons]
    tauto

@[simp] theorem mem_keys_ofList {l : List (κ × υ)} {k : κ} :
    k ∈ (ofList l).keys ↔ k ∈ l.map Prod.fst := by
  simp [ofList, mem_keys_foldl_set]

/-- A value that is found was there before, or is in the list. -/
theorem mem_of_foldl_set_get? {l : List (κ × υ)} {d : Dict κ υ} {k : κ} {v : υ}
    (h : (l.foldl (fun d p => d.set p.1 p.2) d).get? k = some v) :
    d.get? k = some v ∨ (k, v) ∈ l := by
  induction l generalizing d with
  | nil => exact Or.inl h
  | cons p l ih =>
    rcases ih h with h' | h'
    · rw [get?_set] at h'
      split at h'
      · next hk =>
        right
        rw [← Option.some.inj h', ← hk]
        exact List.mem_cons_self
      · exact Or.inl h'
    · exact Or.inr (List.mem_cons_of_mem _ h')

theorem ofList_map {υ' : Type v} (f : υ → υ') (l : List (κ × υ)) :
    ofList (l.map fun p => (p.1, f p.2)) = (ofList l).mapValues f := by
  have key : ∀ d : Dict κ υ, (l.map fun p => (p.1, f p.2)).foldl (fun d p => d.set p.1 p.2)
      (d.mapValues f) = (l.foldl (fun d p => d.set p.1 p.2) d).mapValues f := by
    induction l with
    | nil => exact fun _ => rfl
    | cons p l ih =>
      intro d
      rw [List.map_cons, List.foldl_cons, List.foldl_cons, ← ih, mapValues_set]
  exact key ∅

/-- What a dictionary built from a list holds was in the list. -/
theorem mem_of_ofList_get? {l : List (κ × υ)} {k : κ} {v : υ}
    (h : (ofList l).get? k = some v) : (k, v) ∈ l := by
  rcases mem_of_foldl_set_get? h with h' | h'
  · simp at h'
  · exact h'

/-- A dictionary built from a list whose keys are distinct holds the list. -/
theorem get?_ofList {l : List (κ × υ)} (hl : (l.map Prod.fst).Nodup) {k : κ} {v : υ} :
    (ofList l).get? k = some v ↔ (k, v) ∈ l := by
  constructor
  · exact mem_of_ofList_get?
  · intro hmem
    have hkey : k ∈ (ofList l).keys := mem_keys_ofList.mpr (List.mem_map.mpr ⟨_, hmem, rfl⟩)
    obtain ⟨v', hv'⟩ := exists_get?_of_mem hkey
    have hsame : v' = v := by
      have h := (find_eq_some hl).mpr (mem_of_ofList_get? hv')
      have h' := (find_eq_some hl).mpr hmem
      rw [h'] at h
      exact (Option.some.inj h).symm
    rw [hv', hsame]

/-- A dictionary built from a list holds the last value under each key. -/
theorem get?_ofList_eq_getLast? (l : List (κ × υ)) (k : κ) :
    (ofList l).get? k = ((l.filter fun p => p.1 = k).getLast?).map Prod.snd := by
  have key : ∀ d : Dict κ υ, (l.foldl (fun d p => d.set p.1 p.2) d).get? k =
      (((l.filter fun p => p.1 = k).getLast?).map Prod.snd).or (d.get? k) := by
    induction l with
    | nil => exact fun _ => rfl
    | cons p l ih =>
      intro d
      rw [List.foldl_cons, ih, get?_set, List.filter_cons]
      by_cases hk : p.1 = k
      · rw [if_pos hk, if_pos (decide_eq_true hk), List.getLast?_cons]
        generalize (l.filter fun p => decide (p.1 = k)).getLast? = last
        cases last with
        | none => rfl
        | some q => rfl
      · rw [if_neg hk, if_neg (by simpa using hk)]
  rw [ofList, key, get?_empty, Option.or_none]

/-- A dictionary comprehension, some of whose elements are left out: each element that
is not keeps its own key. -/
theorem get?_ofList_filterMap {α : Type*} {l : List α} {key : α → κ} {f : α → Option (κ × υ)}
    (hl : (l.map key).Nodup) (hf : ∀ x p, f x = some p → p.1 = key x) {k : κ} {v : υ} :
    (ofList (l.filterMap f)).get? k = some v ↔ ∃ x ∈ l, f x = some (k, v) := by
  have hkeys : ((l.filterMap f).map Prod.fst).Sublist (l.map key) := by
    clear hl
    induction l with
    | nil => exact .slnil
    | cons x l ih =>
      rcases hx : f x with - | p
      · rw [List.filterMap_cons_none hx, List.map_cons]
        exact ih.cons _
      · rw [List.filterMap_cons_some hx, List.map_cons, List.map_cons, hf x p hx]
        exact ih.cons_cons _
  rw [get?_ofList (hl.sublist hkeys), List.mem_filterMap]

/-! ### Counting -/

/-- `d[x] = d.get(x, 0) + 1` over a list. -/
def tally (xs : List κ) : Dict κ ℕ := xs.foldl (fun d x => d.set x ((d.get? x).getD 0 + 1)) ∅

end Dict

/-- `list(dict.fromkeys(xs))`: the first occurrences, in order. -/
def List.unique {κ : Type u} [DecidableEq κ] (xs : List κ) : List κ :=
  (Dict.ofList (xs.map fun x => (x, ()))).keys

namespace List

variable {κ : Type u} [DecidableEq κ] {xs : List κ} {x : κ}

theorem nodup_unique : xs.unique.Nodup := Dict.keys_nodup _

@[simp] theorem mem_unique : x ∈ xs.unique ↔ x ∈ xs := by
  simp [unique]

end List
