/-
AutoTrade/Lib/Run.lean

Runs of a deterministic machine.  A machine is a step function
`step : σ → ε → σ` on states `σ` and events `ε`; a run is `es.foldl step s`,
and whatever is nondeterministic about the system (its inputs, the failures
it meets, the order of its steps) is in the choice of the events.

`Admits step ok s es` says every event of the run `es` meets the side
condition `ok` in the state it happens in.  The rules:

* `Admits.invariant` — what every admissible step preserves, every
  admissible run preserves;
* `Admits.split` — a run that is admissible is admissible at each point,
  with the state the prefix leads to;
* `forall_prefix_iff_admits` — where a step keeps a property exactly when it is
  admissible, all states of a run have the property exactly when the run is;
* `foldl_related` — two runs that differ by skipped events stay related
  when skipping one keeps the relation.
-/
import Mathlib.Data.List.Basic

namespace Run

variable {σ ε : Type*} {step : σ → ε → σ} {ok ok' : σ → ε → Prop}

/-- Every event of the run meets `ok` in the state it happens in. -/
def Admits (step : σ → ε → σ) (ok : σ → ε → Prop) : σ → List ε → Prop
  | _, [] => True
  | s, e :: es => ok s e ∧ Admits step ok (step s e) es

@[simp] theorem admits_nil {s : σ} : Admits step ok s [] := trivial

@[simp] theorem admits_cons {s : σ} {e : ε} {es : List ε} :
    Admits step ok s (e :: es) ↔ ok s e ∧ Admits step ok (step s e) es := Iff.rfl

instance decidableAdmits [∀ s e, Decidable (ok s e)] :
    ∀ (s : σ) (es : List ε), Decidable (Admits step ok s es)
  | _, [] => .isTrue trivial
  | s, e :: es =>
    haveI := decidableAdmits (step s e) es
    inferInstanceAs (Decidable (ok s e ∧ Admits step ok (step s e) es))

theorem admits_append {s : σ} {es fs : List ε} :
    Admits step ok s (es ++ fs) ↔
      Admits step ok s es ∧ Admits step ok (es.foldl step s) fs := by
  induction es generalizing s with
  | nil => simp
  | cons e es ih => simp [ih, and_assoc]

theorem Admits.mono {s : σ} {es : List ε} (h : Admits step ok s es)
    (himp : ∀ s e, ok s e → ok' s e) : Admits step ok' s es := by
  induction es generalizing s with
  | nil => trivial
  | cons e es ih => exact ⟨himp s e h.1, ih h.2⟩

theorem Admits.and {s : σ} {es : List ε} (h : Admits step ok s es)
    (h' : Admits step ok' s es) : Admits step (fun s e => ok s e ∧ ok' s e) s es := by
  induction es generalizing s with
  | nil => trivial
  | cons e es ih => exact ⟨⟨h.1, h'.1⟩, ih h.2 h'.2⟩

/-- **Invariant rule.** -/
theorem Admits.invariant {I : σ → Prop} (hstep : ∀ s e, I s → ok s e → I (step s e))
    {s : σ} {es : List ε} (h : Admits step ok s es) (hI : I s) : I (es.foldl step s) := by
  induction es generalizing s with
  | nil => exact hI
  | cons e es ih => exact ih h.2 (hstep s e hI h.1)

/-- An admissible run is admissible at each of its points. -/
theorem Admits.split {s : σ} {pre post : List ε} {e : ε}
    (h : Admits step ok s (pre ++ e :: post)) :
    Admits step ok s pre ∧ ok (pre.foldl step s) e ∧
      Admits step ok (step (pre.foldl step s) e) post :=
  admits_append.mp h

/-- A machine without side conditions preserves what its steps preserve. -/
theorem foldl_invariant {I : σ → Prop} (hstep : ∀ s e, I s → I (step s e)) {s : σ}
    (hI : I s) (es : List ε) : I (es.foldl step s) := by
  induction es generalizing s with
  | nil => exact hI
  | cons e es ih => exact ih (hstep s e hI)

/-- **Exactness rule.**  If, under an invariant, a step keeps a property exactly when it
is admissible, then every state that a run reaches has the property exactly when the
run is admissible. -/
theorem forall_prefix_iff_admits {I P : σ → Prop} (hI : ∀ s e, I s → I (step s e))
    (hP : ∀ s e, I s → P s → (P (step s e) ↔ ok s e)) {s : σ} (hs : I s) (hp : P s)
    (es : List ε) :
    (∀ pre, pre <+: es → P (pre.foldl step s)) ↔ Admits step ok s es := by
  induction es generalizing s with
  | nil =>
    refine ⟨fun _ => trivial, fun _ pre hpre => ?_⟩
    rw [List.prefix_nil.mp hpre]
    exact hp
  | cons e es ih =>
    constructor
    · intro h
      have hstep : P (step s e) := h [e] ⟨es, rfl⟩
      refine ⟨(hP s e hs hp).mp hstep, (ih (hI s e hs) hstep).mp fun pre hpre => ?_⟩
      exact h (e :: pre) (List.cons_prefix_cons.mpr ⟨rfl, hpre⟩)
    · rintro ⟨hok, hrest⟩ whole hwhole
      have hstep : P (step s e) := (hP s e hs hp).mpr hok
      rcases List.prefix_cons_iff.mp hwhole with rfl | ⟨pre, rfl, hpre⟩
      · exact hp
      · exact (ih (hI s e hs) hstep).mpr hrest pre hpre

/-- **Skipping rule.**  If a relation survives the same step on both sides and
survives a skipped event on the left alone, the run and the run without the
skipped events end in related states. -/
theorem foldl_related {r : σ → σ → Prop} (skip : ε → Bool)
    (hboth : ∀ s t e, r s t → skip e = false → r (step s e) (step t e))
    (hskip : ∀ s t e, r s t → skip e = true → r (step s e) t)
    {s t : σ} (h : r s t) (es : List ε) :
    r (es.foldl step s) ((es.filter fun e => !skip e).foldl step t) := by
  induction es generalizing s t with
  | nil => exact h
  | cons e es ih =>
    rcases he : skip e with - | -
    · simpa [List.filter_cons, he] using ih (hboth s t e h he)
    · simpa [List.filter_cons, he] using ih (hskip s t e h he)

end Run
