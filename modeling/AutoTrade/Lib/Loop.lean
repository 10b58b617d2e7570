/-
AutoTrade/Lib/Loop.lean

The rounds of a loop that keeps all it has in the state.

`Loop.each f xs` runs `f` on each item, and `Loop.after f xs i s` is the state
that the first `i` rounds leave.  A loop that returns is the sequence of its
rounds (`after_succ`), each from the state that the one before left; so what a
round does can be said of the loop, round by round.
-/
import AutoTrade.Lib.Effect

namespace Loop

open Effect

universe u v w

variable {ε : Type u} {σ : Type v} {γ : Type w} {f : γ → Effect ε σ PUnit} {xs ys : List γ}
  {s s' : σ} {u : PUnit}

/-- `for x in xs: f(x)`. -/
def each (f : γ → Effect ε σ PUnit) (xs : List γ) : Effect ε σ PUnit :=
  foldM (fun _ x => f x) ⟨⟩ xs

/-- The state after the first `i` rounds. -/
def after (f : γ → Effect ε σ PUnit) (xs : List γ) (i : ℕ) (s : σ) : σ := (each f (xs.take i) s).2

@[simp] theorem after_zero : after f xs 0 s = s := rfl

theorem after_length : after f xs xs.length s = (each f xs s).2 := by
  rw [after, List.take_length]

theorem each_append : each f (xs ++ ys) s = (each f xs >>= fun _ => each f ys) s :=
  foldM_append _ _ _ _ _

/-- **A round of a loop that returns.** -/
theorem after_succ (h : each f xs s = (.ok u, s')) {i : ℕ} {x : γ} (hx : xs[i]? = some x) :
    ∃ v, f x (after f xs i s) = (.ok v, after f xs (i + 1) s) := by
  -- the loop is the rounds before, this one, and the rest
  obtain ⟨hi, hget⟩ := List.getElem?_eq_some_iff.mp hx
  have hsplit : xs = xs.take i ++ x :: xs.drop (i + 1) := by
    rw [← hget, ← List.drop_eq_getElem_cons hi, List.take_append_drop]
  rw [hsplit, each_append] at h
  obtain ⟨v, mid, hmid, hrest⟩ := bind_eq_ok.mp h
  have hbefore : after f xs i s = mid := by rw [after, hmid]
  obtain ⟨w, next, hround, -⟩ := bind_eq_ok.mp hrest
  replace hround : f x mid = (.ok w, next) := hround
  have hnext : after f xs (i + 1) s = next := by
    have htake : xs.take (i + 1) = xs.take i ++ [x] := by
      rw [List.take_add_one, hx, Option.toList_some]
    have hone : each f [x] mid = (.ok ⟨⟩, next) := bind_eq_ok.mpr ⟨w, next, hround, rfl⟩
    rw [after, htake, each_append, bind_ok hmid, hone]
  exact ⟨w, by rw [hbefore, hnext, hround]⟩

/-- **Invariant rule**, for what speaks of the rounds done. -/
theorem after_invariant {I : ℕ → σ → Prop} (h : each f xs s = (.ok u, s')) (h0 : I 0 s)
    (hstep : ∀ i x v, xs[i]? = some x → I i (after f xs i s) →
      f x (after f xs i s) = (.ok v, after f xs (i + 1) s) → I (i + 1) (after f xs (i + 1) s))
    {i : ℕ} (hi : i ≤ xs.length) : I i (after f xs i s) := by
  induction i with
  | zero => exact h0
  | succ i ih =>
    obtain ⟨v, hv⟩ := after_succ h (List.getElem?_eq_getElem hi)
    exact hstep i _ v (List.getElem?_eq_getElem hi) (ih (Nat.le_of_succ_le hi)) hv

end Loop
