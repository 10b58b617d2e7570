/-
AutoTrade/Lib/Tenants.lean

Processes that come and go, each with its data in one of several stores.

A process is started on a store, acts on it together with what it keeps to
itself, and ends; the events of all the processes come in any order.  Two
processes can share a store, and one that starts finds what others have left.

Two worlds are `Alike` from a store when they show the same there, but for some
processes that work elsewhere.

* `Alike.step_hidden`, `Alike.step_seen`, `Alike.step_apart` — what those processes
  do, what another does in both worlds, and what it does elsewhere, keeps them so;
* `step_local` — what each start of a process establishes of what it keeps to
  itself, and each act keeps whatever it finds in the store, holds of every
  process after a step.
-/
import Mathlib.Logic.Function.Basic

namespace Tenants

variable {ι κ π σ : Type*}

/-- The stores, and the processes that run, each with the store it works on. -/
structure World (ι κ π σ : Type*) where
  store : κ → σ
  proc : ι → Option (κ × π) := fun _ => none

/-- What happens: a process comes up, does something, or goes. -/
inductive Event (ι κ π σ : Type*)
  /-- a process comes up on a store, in the place of an earlier one, or fails to -/
  | start (i : ι) (k : κ) (init : σ → Option π × σ)
  | act (i : ι) (f : π → σ → π × σ)
  | stop (i : ι)

/-- The process that an event is about. -/
def Event.who : Event ι κ π σ → ι
  | .start i _ _ | .act i _ | .stop i => i

/-- The event starts its process on the store. -/
def Event.StartsOn (k : κ) : Event ι κ π σ → Prop
  | .start _ k' _ => k' = k
  | .act _ _ | .stop _ => False

/-- The event establishes `I` of what its process keeps to itself, or keeps it. -/
def Event.Keeps (I : κ → π → Prop) : Event ι κ π σ → Prop
  | .start _ k init => ∀ s p, (init s).1 = some p → I k p
  | .act _ f => ∀ k p s, I k p → I k (f p s).1
  | .stop _ => True

namespace World

/-- The process as it works on the store, if it does. -/
def on [DecidableEq κ] (w : World ι κ π σ) (k : κ) (i : ι) : Option π :=
  (w.proc i).bind fun p => if p.1 = k then some p.2 else none

theorem on_eq_some [DecidableEq κ] {w : World ι κ π σ} {k : κ} {i : ι} {p : π} :
    w.on k i = some p ↔ w.proc i = some (k, p) := by
  unfold on
  rcases w.proc i with - | ⟨k', p'⟩
  · simp
  · by_cases hk : k' = k
    · simp [hk]
    · simp [hk]

variable [DecidableEq ι]

/-- The place of a process is empty. -/
def remove (w : World ι κ π σ) (i : ι) : World ι κ π σ :=
  { w with proc := Function.update w.proc i none }

@[simp] theorem remove_proc {w : World ι κ π σ} {i : ι} : (w.remove i).proc i = none :=
  Function.update_self _ _ _

theorem remove_proc_of_ne {w : World ι κ π σ} {i j : ι} (h : j ≠ i) :
    (w.remove i).proc j = w.proc j := Function.update_of_ne h _ _

variable [DecidableEq κ]

/-- What a process leaves, of itself and of its store. -/
def put (w : World ι κ π σ) (i : ι) (k : κ) (p : Option π) (s : σ) : World ι κ π σ where
  store := Function.update w.store k s
  proc := Function.update w.proc i (p.map fun p => (k, p))

/-- One event; what no process is there for changes nothing. -/
def step (w : World ι κ π σ) : Event ι κ π σ → World ι κ π σ
  | .start i k init => w.put i k (init (w.store k)).1 (init (w.store k)).2
  | .act i f =>
    match w.proc i with
    | none => w
    | some (k, p) => w.put i k (some (f p (w.store k)).1) (f p (w.store k)).2
  | .stop i => w.remove i

section Put

variable {w : World ι κ π σ} {i j : ι} {k k' : κ} {p : Option π} {s : σ}

@[simp] theorem put_store : (w.put i k p s).store k = s := Function.update_self _ _ _

theorem put_store_of_ne (h : k ≠ k') : (w.put i k' p s).store k = w.store k :=
  Function.update_of_ne h _ _

@[simp] theorem put_proc : (w.put i k p s).proc i = p.map fun p => (k, p) :=
  Function.update_self _ _ _

theorem put_proc_of_ne (h : j ≠ i) : (w.put i k p s).proc j = w.proc j :=
  Function.update_of_ne h _ _

@[simp] theorem put_on : (w.put i k p s).on k i = p := by
  unfold on
  rw [put_proc]
  rcases p with - | p
  · rfl
  · simp

theorem put_on_of_ne_store (h : k ≠ k') : (w.put i k' p s).on k i = none := by
  unfold on
  rw [put_proc]
  rcases p with - | p
  · rfl
  · simpa using h.symm

@[simp] theorem remove_on : (w.remove i).on k i = none := by
  unfold on
  rw [remove_proc]
  rfl

theorem step_act {f : π → σ → π × σ} {p : π} (h : w.proc i = some (k, p)) :
    w.step (.act i f) = w.put i k (some (f p (w.store k)).1) (f p (w.store k)).2 := by
  unfold step
  simp only [h]

theorem step_act_of_none {f : π → σ → π × σ} (h : w.proc i = none) :
    w.step (.act i f) = w := by
  unfold step
  simp only [h]

/-- An event is of one process. -/
theorem step_proc_of_ne {e : Event ι κ π σ} (h : j ≠ e.who) : (w.step e).proc j = w.proc j := by
  cases e with
  | start i k init => exact put_proc_of_ne h
  | act i f =>
    rcases hi : w.proc i with - | ⟨k, p⟩
    · rw [step_act_of_none hi]
    · rw [step_act hi]
      exact put_proc_of_ne h
  | stop i => exact remove_proc_of_ne h

theorem step_on_of_ne {e : Event ι κ π σ} (h : j ≠ e.who) : (w.step e).on k j = w.on k j := by
  unfold on
  rw [step_proc_of_ne h]

end Put

/-! ### What is not seen -/

section Hide

variable {hidden : ι → Prop} {k : κ} {w w' : World ι κ π σ} {e : Event ι κ π σ}

/-- The two worlds look the same from the store, but for the hidden processes. -/
structure Alike (hidden : ι → Prop) (k : κ) (w w' : World ι κ π σ) : Prop where
  store : w.store k = w'.store k
  seen : ∀ i, ¬ hidden i → w.on k i = w'.on k i
  away : ∀ i, hidden i → w.on k i = none

/-- What a process does away from a store. -/
theorem step_away (hstart : ¬ e.StartsOn k) (haway : w.on k e.who = none) :
    (w.step e).store k = w.store k ∧ (w.step e).on k e.who = none := by
  cases e with
  | start i k' init =>
    have hne : k ≠ k' := fun h => hstart h.symm
    exact ⟨put_store_of_ne hne, put_on_of_ne_store hne⟩
  | act i f =>
    rcases hi : w.proc i with - | ⟨k', p⟩
    · rw [step_act_of_none hi]
      exact ⟨rfl, haway⟩
    · have hne : k ≠ k' := by
        rintro rfl
        have hon : w.on k i = some p := on_eq_some.mpr hi
        exact Option.some_ne_none p (hon.symm.trans haway)
      rw [step_act hi]
      exact ⟨put_store_of_ne hne, put_on_of_ne_store hne⟩
  | stop i => exact ⟨rfl, remove_on⟩

/-- A hidden event is not seen. -/
theorem Alike.step_hidden (h : Alike hidden k w w') (hhidden : hidden e.who)
    (hstart : ¬ e.StartsOn k) : Alike hidden k (w.step e) w' := by
  obtain ⟨hstore, hon⟩ := step_away hstart (h.away e.who hhidden)
  refine ⟨hstore.trans h.store, ?_, ?_⟩
  · intro i hi
    have hne : i ≠ e.who := by
      rintro rfl
      exact hi hhidden
    rw [step_on_of_ne hne]
    exact h.seen i hi
  · intro i hi
    by_cases hwho : i = e.who
    · rw [hwho, hon]
    · rw [step_on_of_ne hwho]
      exact h.away i hi

/-- An event does the same to its process and the store in both worlds. -/
theorem step_same (hstore : w.store k = w'.store k) (hon : w.on k e.who = w'.on k e.who) :
    (w.step e).store k = (w'.step e).store k ∧
      (w.step e).on k e.who = (w'.step e).on k e.who := by
  cases e with
  | start i k' init =>
    rcases eq_or_ne k k' with rfl | hne
    · refine ⟨?_, ?_⟩
      · rw [step, step, put_store, put_store, hstore]
      · rw [step, step, Event.who, put_on, put_on, hstore]
    · refine ⟨?_, ?_⟩
      · rw [step, step, put_store_of_ne hne, put_store_of_ne hne, hstore]
      · rw [step, step, Event.who, put_on_of_ne_store hne, put_on_of_ne_store hne]
  | act i f =>
    rcases hw : w.on k i with - | p
    · -- in both worlds the process is elsewhere
      have hw' : w'.on k i = none := hon.symm.trans hw
      obtain ⟨h₁, h₂⟩ := step_away (e := Event.act i f) (w := w) (k := k) not_false hw
      obtain ⟨h₁', h₂'⟩ := step_away (e := Event.act i f) (w := w') (k := k) not_false hw'
      exact ⟨h₁.trans (hstore.trans h₁'.symm), h₂.trans h₂'.symm⟩
    · have hw' : w'.on k i = some p := hon.symm.trans hw
      rw [step_act (on_eq_some.mp hw), step_act (on_eq_some.mp hw'), hstore, Event.who, put_on,
        put_on, put_store, put_store]
      exact ⟨rfl, rfl⟩
  | stop i => exact ⟨hstore, remove_on.trans remove_on.symm⟩

/-- An event that is seen does the same to both. -/
theorem Alike.step_seen (h : Alike hidden k w w') (hseen : ¬ hidden e.who) :
    Alike hidden k (w.step e) (w'.step e) := by
  obtain ⟨hstore, hon⟩ := step_same h.store (h.seen e.who hseen)
  refine ⟨hstore, ?_, ?_⟩
  · intro i hi
    by_cases hwho : i = e.who
    · rw [hwho, hon]
    · rw [step_on_of_ne hwho, step_on_of_ne hwho]
      exact h.seen i hi
  · intro i hi
    have hne : i ≠ e.who := by
      rintro rfl
      exact hseen hi
    rw [step_on_of_ne hne]
    exact h.away i hi

/-- What a process does away from the store, in both worlds, is not seen either: it may
do something else in each. -/
theorem Alike.step_apart {e' : Event ι κ π σ} (h : Alike hidden k w w') (hwho : e'.who = e.who)
    (haway : w.on k e.who = none) (hseen : ¬ hidden e.who) (hstart : ¬ e.StartsOn k)
    (hstart' : ¬ e'.StartsOn k) : Alike hidden k (w.step e) (w'.step e') := by
  have haway' : w'.on k e'.who = none := by rw [hwho, ← h.seen e.who hseen, haway]
  obtain ⟨hstore, hon⟩ := step_away hstart haway
  obtain ⟨hstore', hon'⟩ := step_away hstart' haway'
  rw [hwho] at hon'
  refine ⟨hstore.trans (h.store.trans hstore'.symm), ?_, ?_⟩
  · intro i hi
    by_cases hi' : i = e.who
    · rw [hi', hon, hon']
    · rw [step_on_of_ne hi', step_on_of_ne (by rwa [hwho])]
      exact h.seen i hi
  · intro i hi
    have hne : i ≠ e.who := by
      rintro rfl
      exact hseen hi
    rw [step_on_of_ne hne]
    exact h.away i hi

end Hide

/-! ### What a process keeps to itself -/

/-- **What the starts establish and the acts keep** holds of the processes. -/
theorem step_local {I : κ → π → Prop} {w : World ι κ π σ} {e : Event ι κ π σ} (he : e.Keeps I)
    (h : ∀ i k p, w.proc i = some (k, p) → I k p) :
    ∀ i k p, (w.step e).proc i = some (k, p) → I k p := by
  intro j k p hproc
  rcases eq_or_ne j e.who with rfl | hne
  · cases e with
    | start i k' init =>
      rw [step, Event.who, put_proc] at hproc
      obtain ⟨p', hinit, heq⟩ := Option.map_eq_some_iff.mp hproc
      cases heq
      exact he _ _ hinit
    | act i f =>
      rcases hi : w.proc i with - | ⟨k', p'⟩
      · rw [step_act_of_none hi] at hproc
        exact h i k p hproc
      · rw [step_act hi, Event.who, put_proc] at hproc
        cases hproc
        exact he _ _ _ (h i _ _ hi)
    | stop i =>
      rw [step, Event.who, remove_proc] at hproc
      cases hproc
  · rw [step_proc_of_ne hne] at hproc
    exact h j k p hproc

end World

end Tenants
