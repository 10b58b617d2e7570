/-
AutoTrade/Lib/Coupled.lean

Two computations run side by side.

    Coupled m m' Q R s s'

says that `m`, run from `s`, and `m'`, run from `s'`, end alike: both return,
with values and states that `Q` relates, or both raise, with exceptions and
states that `R` relates.  The rules follow the shape that the two computations
share, so a statement about two runs is proved like a statement about one.
-/
import AutoTrade.Lib.Effect

universe u v w

namespace Effect

variable {ε ε' : Type u} {σ σ' : Type v} {α α' β β' : Type w}

/-- Run from `s` and `s'`, the two computations end alike. -/
def Coupled (m : Effect ε σ α) (m' : Effect ε' σ' α') (Q : α → σ → α' → σ' → Prop)
    (R : ε → σ → ε' → σ' → Prop) (s : σ) (s' : σ') : Prop :=
  match m s, m' s' with
  | (.ok a, t), (.ok a', t') => Q a t a' t'
  | (.error e, t), (.error e', t') => R e t e' t'
  | _, _ => False

variable {Q Q₁ : α → σ → α' → σ' → Prop} {R R₁ : ε → σ → ε' → σ' → Prop} {s : σ} {s' : σ'}

section Rules

variable {m : Effect ε σ α} {m' : Effect ε' σ' α'}

/-- The two ways to use a coupling of a run that is known. -/
theorem Coupled.of_ok (h : Coupled m m' Q R s s') {a : α} {t : σ} (hm : m s = (.ok a, t)) :
    ∃ a' t', m' s' = (.ok a', t') ∧ Q a t a' t' := by
  unfold Coupled at h
  rw [hm] at h
  rcases hm' : m' s' with ⟨e' | a', t'⟩
  · rw [hm'] at h
    exact h.elim
  · rw [hm'] at h
    exact ⟨a', t', rfl, h⟩

theorem Coupled.of_error (h : Coupled m m' Q R s s') {e : ε} {t : σ}
    (hm : m s = (.error e, t)) : ∃ e' t', m' s' = (.error e', t') ∧ R e t e' t' := by
  unfold Coupled at h
  rw [hm] at h
  rcases hm' : m' s' with ⟨e' | a', t'⟩
  · rw [hm'] at h
    exact ⟨e', t', rfl, h⟩
  · rw [hm'] at h
    exact h.elim

theorem coupled_of_ok {a : α} {t : σ} {a' : α'} {t' : σ'} (hm : m s = (.ok a, t))
    (hm' : m' s' = (.ok a', t')) (h : Q a t a' t') : Coupled m m' Q R s s' := by
  unfold Coupled
  rw [hm, hm']
  exact h

theorem coupled_of_error {e : ε} {t : σ} {e' : ε'} {t' : σ'} (hm : m s = (.error e, t))
    (hm' : m' s' = (.error e', t')) (h : R e t e' t') : Coupled m m' Q R s s' := by
  unfold Coupled
  rw [hm, hm']
  exact h

theorem Coupled.mono (h : Coupled m m' Q R s s')
    (hQ : ∀ a t a' t', Q a t a' t' → Q₁ a t a' t')
    (hR : ∀ e t e' t', R e t e' t' → R₁ e t e' t') : Coupled m m' Q₁ R₁ s s' := by
  rcases hm : m s with ⟨e | a, t⟩
  · obtain ⟨e', t', hm', hr⟩ := h.of_error hm
    exact coupled_of_error hm hm' (hR _ _ _ _ hr)
  · obtain ⟨a', t', hm', hq⟩ := h.of_ok hm
    exact coupled_of_ok hm hm' (hQ _ _ _ _ hq)

/-- Facts about the ends of the two runs on their own. -/
theorem Coupled.and_wp {P : α → σ → Prop} {P' : α' → σ' → Prop} (h : Coupled m m' Q R s s')
    (hP : wp m P (fun _ _ => True) s) (hP' : wp m' P' (fun _ _ => True) s') :
    Coupled m m' (fun a t a' t' => Q a t a' t' ∧ P a t ∧ P' a' t') R s s' := by
  rcases hm : m s with ⟨e | a, t⟩
  · obtain ⟨e', t', hm', hr⟩ := h.of_error hm
    exact coupled_of_error hm hm' hr
  · obtain ⟨a', t', hm', hq⟩ := h.of_ok hm
    exact coupled_of_ok hm hm' ⟨hq, hP.of_ok hm, hP'.of_ok hm'⟩

/-- Coupled runs that end with the same value or exception. -/
theorem Coupled.ends {σ' : Type v} {m : Effect ε σ α} {m' : Effect ε σ' α} {s : σ} {s' : σ'}
    {P : σ → σ' → Prop} (h : Coupled m m' (fun a s a' s' => a' = a ∧ P s s')
      (fun e s e' s' => e' = e ∧ P s s') s s') : (m' s').1 = (m s).1 ∧ P (m s).2 (m' s').2 := by
  rcases hm : m s with ⟨e | a, t⟩
  · obtain ⟨e', t', hm', rfl, hP⟩ := h.of_error hm
    rw [hm']
    exact ⟨rfl, hP⟩
  · obtain ⟨a', t', hm', rfl, hP⟩ := h.of_ok hm
    rw [hm']
    exact ⟨rfl, hP⟩

end Rules

theorem coupled_pure {a : α} {a' : α'} (h : Q a s a' s') :
    Coupled (pure a : Effect ε σ α) (pure a' : Effect ε' σ' α') Q R s s' := h

theorem coupled_raise {e : ε} {e' : ε'} (h : R e s e' s') :
    Coupled (raise e : Effect ε σ α) (raise e' : Effect ε' σ' α') Q R s s' := h

theorem coupled_look {q : σ → α} {q' : σ' → α'} (h : Q (q s) s (q' s') s') :
    Coupled (look q : Effect ε σ α) (look q' : Effect ε' σ' α') Q R s s' := h

theorem coupled_change {f : σ → σ} {f' : σ' → σ'} {Q : PUnit → σ → PUnit → σ' → Prop}
    (h : Q ⟨⟩ (f s) ⟨⟩ (f' s')) :
    Coupled (change f : Effect ε σ PUnit) (change f' : Effect ε' σ' PUnit) Q R s s' := h

/-- The same result on both sides. -/
theorem coupled_lift {σ' : Type v} {s' : σ'} {r : Except ε α} {Q : α → σ → α → σ' → Prop}
    {R : ε → σ → ε → σ' → Prop} (hQ : ∀ a, r = .ok a → Q a s a s')
    (hR : ∀ e, r = .error e → R e s e s') :
    Coupled (lift r : Effect ε σ α) (lift r : Effect ε σ' α) Q R s s' := by
  rcases r with e | a
  · exact hR e rfl
  · exact hQ a rfl

/-- **Sequencing.** -/
theorem Coupled.bind {m : Effect ε σ α} {m' : Effect ε' σ' α'} {f : α → Effect ε σ β}
    {f' : α' → Effect ε' σ' β'} {Q₂ : β → σ → β' → σ' → Prop} (h : Coupled m m' Q R s s')
    (hf : ∀ a t a' t', Q a t a' t' → Coupled (f a) (f' a') Q₂ R t t') :
    Coupled (m >>= f) (m' >>= f') Q₂ R s s' := by
  rcases hm : m s with ⟨e | a, t⟩
  · obtain ⟨e', t', hm', hr⟩ := h.of_error hm
    exact coupled_of_error (bind_error hm) (bind_error hm') hr
  · obtain ⟨a', t', hm', hq⟩ := h.of_ok hm
    have hnext := hf a t a' t' hq
    unfold Coupled at hnext ⊢
    rwa [bind_ok hm, bind_ok hm']

theorem Coupled.zoom {τ τ' : Type v} {get : τ → σ} {put : τ → σ → τ} {get' : τ' → σ'}
    {put' : τ' → σ' → τ'} {m : Effect ε σ α} {m' : Effect ε' σ' α'}
    {Q : α → τ → α' → τ' → Prop} {R : ε → τ → ε' → τ' → Prop} {t : τ} {t' : τ'}
    (h : Coupled m m' (fun a s a' s' => Q a (put t s) a' (put' t' s'))
      (fun e s e' s' => R e (put t s) e' (put' t' s')) (get t) (get' t')) :
    Coupled (Effect.zoom get put m) (Effect.zoom get' put' m') Q R t t' := by
  rcases hm : m (get t) with ⟨e | a, s⟩
  · obtain ⟨e', s', hm', hr⟩ := h.of_error hm
    exact coupled_of_error (by rw [Effect.zoom, hm]) (by rw [Effect.zoom, hm']) hr
  · obtain ⟨a', s', hm', hq⟩ := h.of_ok hm
    exact coupled_of_ok (by rw [Effect.zoom, hm]) (by rw [Effect.zoom, hm']) hq

/-- **Loop rule.**  A relation of the accumulators and the states that every pair
of rounds re-establishes holds after the loops; it may speak of the rounds done
so far. -/
theorem coupled_foldM {γ : Type*} {f : β → γ → Effect ε σ β} {f' : β' → γ → Effect ε' σ' β'}
    {J : List γ → β → σ → β' → σ' → Prop} {xs : List γ} {b : β} {b' : β'}
    (hstep : ∀ done x rest, xs = done ++ x :: rest → ∀ b s b' s', J done b s b' s' →
      Coupled (f b x) (f' b' x) (J (done ++ [x])) R s s')
    (h : J [] b s b' s') : Coupled (foldM f b xs) (foldM f' b' xs) (J xs) R s s' := by
  have key : ∀ rest done b s b' s', xs = done ++ rest → J done b s b' s' →
      Coupled (foldM f b rest) (foldM f' b' rest) (J xs) R s s' := by
    intro rest
    induction rest with
    | nil =>
      rintro done b s b' s' rfl hJ
      rw [List.append_nil]
      exact hJ
    | cons x rest ih =>
      intro done b s b' s' hxs hJ
      refine (hstep done x rest hxs b s b' s' hJ).bind ?_
      intro c t c' t' hJ'
      exact ih (done ++ [x]) c t c' t' (by rw [hxs, List.append_assoc, List.singleton_append]) hJ'
  exact key xs [] b s b' s' rfl h

end Effect
