/-
AutoTrade/Lib/Effect.lean

Computations over a state that may raise, and a weakest-precondition
calculus for them.

A computation `m : Effect ε σ α` takes a state and gives back either a value
or an exception, *together with the state it left behind*: an exception does
not undo what was done before it.  This is the meaning of straight-line
imperative code whose calls may fail, and it is the reason every rule below
carries two postconditions, one for the value and one for the exception:

    wp m Q R s     "run from `s`, `m` ends in `Q a s'` or in `R e s'`"

Calls that reach outside the process are `commit` and `query`: a `Fate`
decides whether the call returns, and, when it raises, whether its change had
already landed.  Nothing is assumed about fates, so a statement proved for
every fate is proved for every point of failure.
-/
import Mathlib.Logic.Basic
import Mathlib.Data.List.Basic
import Mathlib.Order.Defs.Unbundled
import Mathlib.Tactic.Push

universe u v w

/-- A computation over a state `σ` that may raise an `ε`; what it did to the
state before raising stays done. -/
def Effect (ε : Type u) (σ : Type v) (α : Type w) : Type (max u v w) :=
  σ → Except ε α × σ

namespace Effect

variable {ε : Type u} {σ : Type v} {α β : Type w}

instance : Monad (Effect ε σ) where
  pure a := fun s => (.ok a, s)
  bind m f := fun s =>
    match m s with
    | (.ok a, s') => f a s'
    | (.error e, s') => (.error e, s')

/-- Raise `e`. -/
def raise (e : ε) : Effect ε σ α := fun s => (.error e, s)

/-- A result already known, as a computation. -/
def lift (r : Except ε α) : Effect ε σ α := fun s => (r, s)

/-- What the state shows. -/
def look (q : σ → α) : Effect ε σ α := fun s => (.ok (q s), s)

/-- Change the state. -/
def change (f : σ → σ) : Effect ε σ PUnit := fun s => (.ok ⟨⟩, f s)

/-- How a call to the outside ends: it returns, or it raises, its change
`landed` or not. -/
inductive Fate
  | returns
  | raises (landed : Bool)
  deriving DecidableEq, Repr

/-- A call that makes the change `f` as one transaction. -/
def commit (fate : Fate) (e : ε) (f : σ → σ) : Effect ε σ PUnit := fun s =>
  match fate with
  | .returns => (.ok ⟨⟩, f s)
  | .raises true => (.error e, f s)
  | .raises false => (.error e, s)

/-- A call that only reads. -/
def query (fate : Fate) (e : ε) (q : σ → α) : Effect ε σ α := fun s =>
  match fate with
  | .returns => (.ok (q s), s)
  | .raises _ => (.error e, s)

/-- An `if` without an `else`. -/
def when (c : Prop) [Decidable c] (m : Effect ε σ PUnit) : Effect ε σ PUnit :=
  if c then m else pure ⟨⟩

/-- A computation over a part of the state. -/
def zoom {τ : Type v} (get : σ → τ) (put : σ → τ → σ) (m : Effect ε τ α) : Effect ε σ α :=
  fun s => ((m (get s)).1, put s (m (get s)).2)

/-- A `for` loop that carries an accumulator. -/
def foldM {γ : Type*} (f : β → γ → Effect ε σ β) : β → List γ → Effect ε σ β
  | b, [] => pure b
  | b, x :: xs => f b x >>= fun b' => foldM f b' xs

/-! ### Running -/

@[simp] theorem pure_apply (a : α) (s : σ) :
    (pure a : Effect ε σ α) s = (.ok a, s) := rfl

theorem bind_apply (m : Effect ε σ α) (f : α → Effect ε σ β) (s : σ) :
    (m >>= f) s = match m s with
      | (.ok a, s') => f a s'
      | (.error e, s') => (.error e, s') := rfl

/-- What follows a part that returns goes on from its state. -/
theorem bind_ok {m : Effect ε σ α} {f : α → Effect ε σ β} {s s' : σ} {a : α}
    (h : m s = (.ok a, s')) : (m >>= f) s = f a s' := by
  rw [bind_apply, h]

/-- What follows a part that raises is not reached. -/
theorem bind_error {m : Effect ε σ α} {f : α → Effect ε σ β} {s s' : σ} {e : ε}
    (h : m s = (.error e, s')) : (m >>= f) s = (.error e, s') := by
  rw [bind_apply, h]

theorem bind_assoc {γ : Type w} (m : Effect ε σ α) (f : α → Effect ε σ β)
    (g : β → Effect ε σ γ) : m >>= f >>= g = m >>= fun a => f a >>= g := by
  funext s
  simp only [bind_apply]
  rcases m s with ⟨e | a, t⟩
  · rfl
  · rfl

/-- A sequence that returns went through both halves. -/
theorem bind_eq_ok {m : Effect ε σ α} {f : α → Effect ε σ β} {s s' : σ} {b : β} :
    (m >>= f) s = (.ok b, s') ↔
      ∃ a t, m s = (.ok a, t) ∧ f a t = (.ok b, s') := by
  rw [bind_apply]
  rcases m s with ⟨e | a, t⟩
  · simp
  · simp

/-- Sequences that do the same from a state, and then the same, do the same. -/
theorem bind_congr {m m' : Effect ε σ α} {f f' : α → Effect ε σ β} {s : σ} (h : m s = m' s)
    (hf : ∀ a t, m s = (.ok a, t) → f a t = f' a t) : (m >>= f) s = (m' >>= f') s := by
  rw [bind_apply, bind_apply, ← h]
  rcases hm : m s with ⟨e | a, t⟩
  · rfl
  · exact hf a t hm

/-- A call that returns has made its change. -/
theorem commit_eq_ok {fate : Fate} {e : ε} {f : σ → σ} {s s' : σ} {a : PUnit} :
    (commit fate e f : Effect ε σ PUnit) s = (.ok a, s') ↔ fate = .returns ∧ s' = f s := by
  rcases fate with - | - | -
  all_goals simp [commit, eq_comm]

theorem query_eq_ok {fate : Fate} {e : ε} {q : σ → α} {s s' : σ} {a : α} :
    (query fate e q : Effect ε σ α) s = (.ok a, s') ↔ fate = .returns ∧ a = q s ∧ s' = s := by
  rcases fate with - | -
  all_goals simp [query, eq_comm]

@[simp] theorem raise_apply (e : ε) (s : σ) :
    (raise e : Effect ε σ α) s = (.error e, s) := rfl

@[simp] theorem lift_apply (r : Except ε α) (s : σ) :
    (lift r : Effect ε σ α) s = (r, s) := rfl

@[simp] theorem look_apply (q : σ → α) (s : σ) :
    (look q : Effect ε σ α) s = (.ok (q s), s) := rfl

@[simp] theorem change_apply (f : σ → σ) (s : σ) :
    (change f : Effect ε σ PUnit) s = (.ok ⟨⟩, f s) := rfl

theorem foldM_append {γ : Type*} (f : β → γ → Effect ε σ β) (b : β) (xs ys : List γ)
    (s : σ) : foldM f b (xs ++ ys) s = (foldM f b xs >>= fun b' => foldM f b' ys) s := by
  induction xs generalizing b s with
  | nil => rfl
  | cons x xs ih =>
    simp only [List.cons_append, foldM, bind_apply]
    rcases f b x s with ⟨e | b', t⟩
    · rfl
    · exact ih b' t

/-! ### Weakest preconditions -/

/-- Run from `s`, `m` ends with a value and a state in `Q`, or with an
exception and a state in `R`. -/
def wp (m : Effect ε σ α) (Q : α → σ → Prop) (R : ε → σ → Prop) (s : σ) : Prop :=
  match m s with
  | (.ok a, s') => Q a s'
  | (.error e, s') => R e s'

variable {Q Q' : α → σ → Prop} {R R' : ε → σ → Prop} {s : σ}

/-- The two ways to use a `wp` of a run that is known. -/
theorem wp.of_ok {m : Effect ε σ α} (h : wp m Q R s) {a : α} {s' : σ}
    (hm : m s = (.ok a, s')) : Q a s' := by
  unfold wp at h
  rwa [hm] at h

theorem wp.of_error {m : Effect ε σ α} (h : wp m Q R s) {e : ε} {s' : σ}
    (hm : m s = (.error e, s')) : R e s' := by
  unfold wp at h
  rwa [hm] at h

/-- To establish a `wp`, look at the two ways the run can end. -/
theorem wp_of_forall {m : Effect ε σ α}
    (hok : ∀ a s', m s = (.ok a, s') → Q a s')
    (herr : ∀ e s', m s = (.error e, s') → R e s') : wp m Q R s := by
  unfold wp
  rcases h : m s with ⟨e | a, s'⟩
  · exact herr e s' h
  · exact hok a s' h

/-- The conditions may be weakened. -/
theorem wp.mono {m : Effect ε σ α} (h : wp m Q R s)
    (hQ : ∀ a s', Q a s' → Q' a s') (hR : ∀ e s', R e s' → R' e s') :
    wp m Q' R' s :=
  wp_of_forall (fun _ _ hm => hQ _ _ (h.of_ok hm)) (fun _ _ hm => hR _ _ (h.of_error hm))

/-- When both ends give the same fact about the state left behind, it holds of
that state. -/
theorem wp.state {m : Effect ε σ α} {P : σ → Prop}
    (h : wp m (fun _ => P) (fun _ => P) s) : P (m s).2 := by
  unfold wp at h
  rcases e : m s with ⟨e' | a, s'⟩ <;> rw [e] at h <;> exact h

@[simp] theorem wp_pure {a : α} : wp (pure a : Effect ε σ α) Q R s ↔ Q a s := Iff.rfl

@[simp] theorem wp_raise {e : ε} : wp (raise e : Effect ε σ α) Q R s ↔ R e s := Iff.rfl

@[simp] theorem wp_look {q : σ → α} : wp (look q : Effect ε σ α) Q R s ↔ Q (q s) s := Iff.rfl

@[simp] theorem wp_change {f : σ → σ} {Q : PUnit → σ → Prop} :
    wp (change f : Effect ε σ PUnit) Q R s ↔ Q ⟨⟩ (f s) := Iff.rfl

/-- A pure part changes nothing. -/
theorem wp_lift {r : Except ε α} :
    wp (lift r : Effect ε σ α) Q R s ↔
      (∀ a, r = .ok a → Q a s) ∧ ∀ e, r = .error e → R e s := by
  rcases r with e | a <;> simp [wp]

/-- The condition of a sequence is that of its first part, for the condition of the
rest. -/
@[simp] theorem wp_bind {m : Effect ε σ α} {f : α → Effect ε σ β} {Q : β → σ → Prop} :
    wp (m >>= f) Q R s ↔ wp m (fun a s' => wp (f a) Q R s') R s := by
  unfold wp
  rw [bind_apply]
  rcases m s with ⟨e | a, s'⟩ <;> rfl

/-- A write that raises may have been made. -/
theorem wp_commit {fate : Fate} {e : ε} {f : σ → σ} {Q : PUnit → σ → Prop}
    (hQ : fate = .returns → Q ⟨⟩ (f s)) (hdone : fate = .raises true → R e (f s))
    (hundone : fate = .raises false → R e s) :
    wp (commit fate e f : Effect ε σ PUnit) Q R s := by
  rcases fate with - | - | -
  · exact hQ rfl
  · exact hundone rfl
  · exact hdone rfl

/-- A read that raises has changed nothing. -/
theorem wp_query {fate : Fate} {e : ε} {q : σ → α}
    (hQ : fate = .returns → Q (q s) s) (hR : R e s) :
    wp (query fate e q : Effect ε σ α) Q R s := by
  rcases fate with - | -
  · exact hQ rfl
  · exact hR

@[simp] theorem wp_query_returns {e : ε} {q : σ → α} :
    wp (query .returns e q : Effect ε σ α) Q R s ↔ Q (q s) s := Iff.rfl

theorem wp_when {c : Prop} [Decidable c] {m : Effect ε σ PUnit} {Q : PUnit → σ → Prop}
    (h : c → wp m Q R s) (hno : ¬ c → Q ⟨⟩ s) : wp (when c m) Q R s := by
  unfold when
  split
  · next hc => exact h hc
  · next hc => exact hno hc

/-- A part that works on a piece of the state. -/
@[simp] theorem wp_zoom {τ : Type v} {get : σ → τ} {put : σ → τ → σ} {m : Effect ε τ α} :
    wp (zoom get put m) Q R s ↔
      wp m (fun a t => Q a (put s t)) (fun e t => R e (put s t)) (get s) := by
  unfold wp zoom
  rcases m (get s) with ⟨e | a, t⟩ <;> rfl

/-- **Loop rule.**  An invariant of the accumulator and the state that every
round re-establishes holds after the loop. -/
theorem wp_foldM {γ : Type*} {f : β → γ → Effect ε σ β} {I : β → σ → Prop}
    {R : ε → σ → Prop} {xs : List γ} {b : β}
    (hstep : ∀ x ∈ xs, ∀ b s, I b s → wp (f b x) I R s) (h : I b s) :
    wp (foldM f b xs) I R s := by
  induction xs generalizing b s with
  | nil => exact h
  | cons x xs ih =>
    rw [foldM, wp_bind]
    refine (hstep x (by simp) b s h).mono ?_ fun _ _ => id
    intro b' s' h'
    exact ih (fun y hy => hstep y (by simp [hy])) h'

/-- The loop rule for an invariant that speaks of the rounds done so far. -/
theorem wp_foldM_done {γ : Type*} {f : β → γ → Effect ε σ β} {I : List γ → β → σ → Prop}
    {R : ε → σ → Prop} {xs : List γ} {b : β}
    (hstep : ∀ done x rest, xs = done ++ x :: rest → ∀ b s, I done b s →
      wp (f b x) (I (done ++ [x])) R s)
    (h : I [] b s) : wp (foldM f b xs) (I xs) R s := by
  have key : ∀ rest done b s, xs = done ++ rest → I done b s →
      wp (foldM f b rest) (I xs) R s := by
    intro rest
    induction rest with
    | nil =>
      rintro done b s rfl hI
      rwa [List.append_nil]
    | cons x rest ih =>
      intro done b s hxs hI
      rw [foldM, wp_bind]
      refine (hstep done x rest hxs b s hI).mono ?_ fun _ _ => id
      intro b' s' hI'
      exact ih (done ++ [x]) b' s' (by rw [hxs, List.append_assoc, List.singleton_append]) hI'
  exact key xs [] b s rfl h

/-! ### Frames -/

/-- The state that `m` leaves behind, however it ends, is related to the one it
was started in. -/
def Respects (r : σ → σ → Prop) (m : Effect ε σ α) : Prop := ∀ s, r s (m s).2

section Frames

variable {r : σ → σ → Prop} {m : Effect ε σ α}

/-- What a computation respects relates its states. -/
theorem Respects.wp (h : Respects r m) (s : σ) : wp m (fun _ => r s) (fun _ => r s) s := by
  have hs := h s
  refine wp_of_forall ?_ ?_
  · intro a s' hm
    rwa [hm] at hs
  · intro e s' hm
    rwa [hm] at hs

theorem Respects.mono {r' : σ → σ → Prop} (h : Respects r m) (himp : ∀ s s', r s s' → r' s s') :
    Respects r' m := fun s => himp _ _ (h s)

theorem respects_change {f : σ → σ} (h : ∀ s, r s (f s)) :
    Respects r (change f : Effect ε σ PUnit) := h

variable [IsPreorder σ r]

theorem respects_pure (a : α) : Respects r (pure a : Effect ε σ α) := fun s => refl_of r s

theorem respects_lift (x : Except ε α) : Respects r (lift x : Effect ε σ α) :=
  fun s => refl_of r s

theorem respects_look (q : σ → α) : Respects r (look q : Effect ε σ α) := fun s => refl_of r s

theorem respects_query (fate : Fate) (e : ε) (q : σ → α) :
    Respects r (query fate e q : Effect ε σ α) := by
  intro s
  rcases fate with - | -
  all_goals exact refl_of r s

theorem respects_commit {fate : Fate} {e : ε} {f : σ → σ} (h : ∀ s, r s (f s)) :
    Respects r (commit fate e f : Effect ε σ PUnit) := by
  intro s
  rcases fate with - | - | -
  · exact h s
  · exact refl_of r s
  · exact h s

theorem respects_when {c : Prop} [Decidable c] {m : Effect ε σ PUnit} (h : Respects r m) :
    Respects r (when c m) := by
  unfold when
  split
  · exact h
  · exact respects_pure _

/-- A sequence respects what both parts do. -/
theorem Respects.bind {f : α → Effect ε σ β} (hm : Respects r m) (hf : ∀ a, Respects r (f a)) :
    Respects r (m >>= f) := by
  intro s
  have hs := hm s
  rw [bind_apply]
  rcases h : m s with ⟨e | a, s'⟩
  · rwa [h] at hs
  · rw [h] at hs
    exact trans_of r hs (hf a s')

/-- So does a loop. -/
theorem respects_foldM {γ : Type*} {f : β → γ → Effect ε σ β} (hf : ∀ b x, Respects r (f b x))
    (b : β) (xs : List γ) : Respects r (foldM f b xs) := by
  induction xs generalizing b with
  | nil => exact respects_pure b
  | cons x xs ih => exact (hf b x).bind ih

end Frames

end Effect
