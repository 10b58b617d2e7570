/-
AutoTrade/Lib/Fallible.lean

Lists of calls that may raise.  `mapM` and `foldlM` over `Except` make the calls
in turn and end at the first exception; the rules here say when there is one
(`mapM_raises`, `foldlM_raises`: exactly when one of the calls raises) and what
the answers are when there is none.
-/
import Mathlib.Data.List.Basic
import Mathlib.Data.List.Forall2

universe u v

namespace Fallible

variable {ε : Type u} {α β γ : Type v}

/-- The call raised. -/
def Raises (x : Except ε α) : Prop := ∃ e, x = .error e

@[simp] theorem raises_error (e : ε) : Raises (.error e : Except ε α) := ⟨e, rfl⟩

@[simp] theorem not_raises_ok (a : α) : ¬ Raises (.ok a : Except ε α) := by
  rintro ⟨e, h⟩
  cases h

theorem ok_or_raises (x : Except ε α) : (∃ a, x = .ok a) ∨ Raises x := by
  rcases x with e | a
  · exact Or.inr ⟨e, rfl⟩
  · exact Or.inl ⟨a, rfl⟩

theorem bind_eq_ok {x : Except ε α} {f : α → Except ε β} {b : β} :
    (x >>= f) = .ok b ↔ ∃ a, x = .ok a ∧ f a = .ok b := by
  rcases x with e | a
  · simp [bind, Except.bind]
  · simp [bind, Except.bind]

theorem raises_bind {x : Except ε α} {f : α → Except ε β} :
    Raises (x >>= f) ↔ Raises x ∨ ∃ a, x = .ok a ∧ Raises (f a) := by
  rcases x with e | a
  · simp [Raises, bind, Except.bind]
  · simp [Raises, bind, Except.bind]

/-- What follows a call without raising does not change whether it raises. -/
theorem raises_bind_pure {x : Except ε α} {f : α → β} :
    Raises (x >>= fun a => pure (f a)) ↔ Raises x := by
  rw [raises_bind]
  constructor
  · rintro (h | ⟨a, -, h⟩)
    · exact h
    · exact absurd h (not_raises_ok _)
  · exact Or.inl

/-! ### Calls on each element -/

theorem mapM_cons_eq (f : α → Except ε β) (x : α) (xs : List α) :
    (x :: xs).mapM f = f x >>= fun y => xs.mapM f >>= fun ys => pure (y :: ys) :=
  List.mapM_cons

theorem mapM_map (f : α → Except ε β) (h : γ → α) (xs : List γ) :
    (xs.map h).mapM f = xs.mapM fun x => f (h x) := by
  induction xs with
  | nil => rfl
  | cons x xs ih => rw [List.map_cons, mapM_cons_eq, mapM_cons_eq, ih]

theorem mapM_bind_pure (f : α → Except ε β) (h : β → γ) (xs : List α) :
    (xs.mapM fun x => f x >>= fun y => pure (h y)) = xs.mapM f >>= fun ys => pure (ys.map h) := by
  induction xs with
  | nil => rfl
  | cons x xs ih =>
    rw [mapM_cons_eq, mapM_cons_eq, ih]
    rcases f x with e | y
    · rfl
    · rcases xs.mapM f with e | ys
      · rfl
      · rfl

/-- The answers of a list of calls are the answers of the calls. -/
theorem mapM_eq_ok {f : α → Except ε β} {xs : List α} {ys : List β} :
    xs.mapM f = .ok ys ↔ List.Forall₂ (fun x y => f x = .ok y) xs ys := by
  induction xs generalizing ys with
  | nil => simp [pure, Except.pure, eq_comm]
  | cons x xs ih =>
    rw [mapM_cons_eq, bind_eq_ok, List.forall₂_cons_left_iff]
    constructor
    · rintro ⟨y, hy, h⟩
      obtain ⟨zs, hzs, h⟩ := bind_eq_ok.mp h
      cases h
      exact ⟨y, zs, hy, ih.mp hzs, rfl⟩
    · rintro ⟨y, zs, hy, hzs, rfl⟩
      exact ⟨y, hy, bind_eq_ok.mpr ⟨zs, ih.mpr hzs, rfl⟩⟩

/-- An answer is the answer to one of the calls. -/
theorem exists_of_mapM_ok {f : α → Except ε β} {xs : List α} {ys : List β}
    (h : xs.mapM f = .ok ys) {y : β} (hy : y ∈ ys) : ∃ x ∈ xs, f x = .ok y := by
  have hall := mapM_eq_ok.mp h
  clear h
  induction hall with
  | nil => cases hy
  | cons hxy _ ih =>
    rcases List.mem_cons.mp hy with rfl | hy
    · exact ⟨_, List.mem_cons_self, hxy⟩
    · obtain ⟨x, hx, hfx⟩ := ih hy
      exact ⟨x, List.mem_cons_of_mem _ hx, hfx⟩

/-- A list of calls raises exactly when one of the calls does. -/
theorem mapM_raises {f : α → Except ε β} {xs : List α} :
    Raises (xs.mapM f) ↔ ∃ x ∈ xs, Raises (f x) := by
  induction xs with
  | nil => simp [pure, Except.pure]
  | cons x xs ih =>
    rw [mapM_cons_eq, raises_bind, List.exists_mem_cons_iff]
    rcases ok_or_raises (f x) with ⟨y, hy⟩ | hraise
    · have hno : ¬ Raises (f x) := by
        rw [hy]
        exact not_raises_ok y
      simp only [hno, false_or, raises_bind_pure, ih]
      constructor
      · rintro ⟨_, -, h⟩
        exact h
      · intro h
        exact ⟨y, hy, h⟩
    · exact ⟨fun _ => Or.inl hraise, fun _ => Or.inl hraise⟩

/-! ### Calls that carry an accumulator -/

/-- What every call that returns preserves holds at the end. -/
theorem foldlM_invariant {f : β → γ → Except ε β} {I : β → Prop} {xs : List γ} {b b' : β}
    (hstep : ∀ b x b', x ∈ xs → I b → f b x = .ok b' → I b') (hb : I b)
    (h : xs.foldlM f b = .ok b') : I b' := by
  induction xs generalizing b with
  | nil =>
    cases h
    exact hb
  | cons x xs ih =>
    rw [List.foldlM_cons] at h
    obtain ⟨c, hc, h⟩ := bind_eq_ok.mp h
    exact ih (fun b y b' hy => hstep b y b' (by simp [hy])) (hstep b x c (by simp) hb hc) h

/-- What each call establishes of its own element, and the later calls keep,
holds of every element at the end. -/
theorem foldlM_forall {f : β → γ → Except ε β} {Q : γ → β → Prop} {xs : List γ} {b b' : β}
    (hset : ∀ b x b', f b x = .ok b' → Q x b')
    (hkeep : ∀ b x b' y, Q y b → f b x = .ok b' → Q y b') (h : xs.foldlM f b = .ok b') :
    ∀ x ∈ xs, Q x b' := by
  induction xs generalizing b with
  | nil => simp
  | cons x xs ih =>
    rw [List.foldlM_cons] at h
    obtain ⟨c, hc, hrest⟩ := bind_eq_ok.mp h
    intro y hy
    rcases List.mem_cons.mp hy with rfl | hy
    · exact foldlM_invariant (fun b x b' _ hb hf => hkeep b x b' y hb hf) (hset b y c hc) hrest
    · exact ih hrest y hy

/-- When it does not depend on the accumulator which calls raise, the loop
raises exactly when one of them does. -/
theorem foldlM_raises {f : β → γ → Except ε β} {P : γ → Prop}
    (hf : ∀ b x, Raises (f b x) ↔ P x) {xs : List γ} {b : β} :
    Raises (xs.foldlM f b) ↔ ∃ x ∈ xs, P x := by
  induction xs generalizing b with
  | nil => simp [pure, Except.pure]
  | cons x xs ih =>
    rw [List.foldlM_cons, raises_bind, List.exists_mem_cons_iff, hf]
    rcases ok_or_raises (f b x) with ⟨c, hc⟩ | hraise
    · have hno : ¬ P x := by
        rw [← hf b, hc]
        exact not_raises_ok c
      simp only [hno, false_or]
      constructor
      · rintro ⟨_, -, h⟩
        exact ih.mp h
      · intro h
        exact ⟨c, hc, ih.mpr h⟩
    · have hP : P x := (hf b x).mp hraise
      exact ⟨fun _ => Or.inl hP, fun _ => Or.inl hP⟩

end Fallible
