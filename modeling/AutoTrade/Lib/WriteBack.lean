/-
AutoTrade/Lib/WriteBack.lean

Writers that share a memory and one saved row.

A writer changes the memory, evaluates what it will save (`dump` of the memory
at that moment), and commits it later; the row keeps what was committed last.
The steps of different writers interleave in any order.

Only the writer that commits last counts: the row ends as the dump it evaluated
(`row_run`).  In a complete schedule, where each writer takes its three steps once
and in order, there is such a writer, found by `Complete.lastCommit`; and when it
evaluates after every change (`ReadsLast`), the row follows the memory
(`ReadsLast.row_eq_dump`).
-/
import Mathlib.Data.List.Induction
import Mathlib.Logic.Function.Basic

universe u v w

namespace WriteBack

/-- The three steps of a writer. -/
inductive Step (ι : Type u)
  | change (i : ι)
  | evaluate (i : ι)
  | commit (i : ι)
  deriving DecidableEq

namespace Step

variable {ι : Type u}

/-- The writer that takes the step. -/
def writer : Step ι → ι
  | change i => i
  | evaluate i => i
  | commit i => i

/-- The step stores a row. -/
def isCommit : Step ι → Bool
  | commit _ => true
  | _ => false

/-- The step changes the memory. -/
def isChange : Step ι → Bool
  | change _ => true
  | _ => false

end Step

/-- The memory, the row, and what each writer has evaluated. -/
structure State (ι : Type u) (μ : Type v) (ρ : Type w) where
  memory : μ
  row : Option ρ
  held : ι → Option ρ

variable {ι : Type u} [DecidableEq ι] {μ : Type v} {ρ : Type w}

section Runs

variable (act : ι → μ → μ) (dump : μ → ρ)

/-- What a step does: a commit stores what its writer has evaluated, not what the memory
is by then. -/
def step (s : State ι μ ρ) : Step ι → State ι μ ρ
  | .change i => { s with memory := act i s.memory }
  | .evaluate i => { s with held := Function.update s.held i (some (dump s.memory)) }
  | .commit i => { s with row := (s.held i).or s.row }

/-- Steps one after another. -/
def run (s : State ι μ ρ) (es : List (Step ι)) : State ι μ ρ := es.foldl (step act dump) s

/-- The memory once the changes among some steps are made. -/
def changed (m : μ) : List (Step ι) → μ
  | [] => m
  | .change i :: es => changed (act i m) es
  | .evaluate _ :: es => changed m es
  | .commit _ :: es => changed m es

variable {act : ι → μ → μ} {dump : μ → ρ} {s : State ι μ ρ} {es : List (Step ι)}

@[simp] theorem run_nil : run act dump s [] = s := rfl

@[simp] theorem run_cons {e : Step ι} :
    run act dump s (e :: es) = run act dump (step act dump s e) es := rfl

theorem run_append {fs : List (Step ι)} :
    run act dump s (es ++ fs) = run act dump (run act dump s es) fs := List.foldl_append

omit [DecidableEq ι] in
theorem changed_append {m : μ} {fs : List (Step ι)} :
    changed act m (es ++ fs) = changed act (changed act m es) fs := by
  induction es generalizing m with
  | nil => rfl
  | cons e es ih =>
    cases e with
    | change i => exact ih
    | evaluate i => exact ih
    | commit i => exact ih

omit [DecidableEq ι] in
/-- Where the updates keep a property of the memory, the changes do. -/
theorem changed_induction {P : μ → Prop} {m : μ} (hm : P m)
    (h : ∀ i, .change i ∈ es → ∀ m, P m → P (act i m)) : P (changed act m es) := by
  induction es generalizing m with
  | nil => exact hm
  | cons e es ih =>
    have hrest : ∀ i, .change i ∈ es → ∀ m, P m → P (act i m) :=
      fun i hi => h i (List.mem_cons_of_mem e hi)
    cases e with
    | change i => exact ih (h i List.mem_cons_self m hm) hrest
    | evaluate i => exact ih hm hrest
    | commit i => exact ih hm hrest

theorem memory_run : (run act dump s es).memory = changed act s.memory es := by
  induction es generalizing s with
  | nil => rfl
  | cons e es ih =>
    rw [run_cons, ih]
    cases e with
    | change i => rfl
    | evaluate i => rfl
    | commit i => rfl

/-- Steps of other writers leave what a writer has evaluated. -/
theorem held_run {i : ι} (h : ∀ e ∈ es, e.writer ≠ i) :
    (run act dump s es).held i = s.held i := by
  induction es generalizing s with
  | nil => rfl
  | cons e es ih =>
    rw [run_cons, ih fun e' he' => h e' (List.mem_cons_of_mem _ he')]
    have hne : e.writer ≠ i := h e List.mem_cons_self
    cases e with
    | change j => rfl
    | evaluate j => exact Function.update_of_ne hne.symm _ _
    | commit j => rfl

/-- Steps that commit nothing leave the row. -/
theorem row_run_of_no_commit (h : ∀ e ∈ es, e.isCommit = false) :
    (run act dump s es).row = s.row := by
  induction es generalizing s with
  | nil => rfl
  | cons e es ih =>
    rw [run_cons, ih fun e' he' => h e' (List.mem_cons_of_mem _ he')]
    have hno := h e List.mem_cons_self
    cases e with
    | change j => rfl
    | evaluate j => rfl
    | commit j => cases hno

end Runs

/-- The last commit of a schedule is that of `i`, which evaluated after `before`:
`before`, its evaluation, `between`, its commit, `after`. -/
structure LastCommit (es before between after : List (Step ι)) (i : ι) : Prop where
  split : es = before ++ .evaluate i :: (between ++ .commit i :: after)
  between : ∀ e ∈ between, e.writer ≠ i
  after : ∀ e ∈ after, e.isCommit = false

section LastCommit

variable {act : ι → μ → μ} {dump : μ → ρ} {s : State ι μ ρ}
  {es before between after : List (Step ι)} {i : ι}

/-- **The last commit decides the row.** -/
theorem row_run (h : LastCommit es before between after i) :
    (run act dump s es).row = some (dump (run act dump s before).memory) := by
  rw [h.split, run_append, run_cons, run_append, run_cons, row_run_of_no_commit h.after]
  have hheld : (run act dump (step act dump (run act dump s before) (.evaluate i)) between).held i =
      some (dump (run act dump s before).memory) := by
    rw [held_run h.between]
    exact Function.update_self _ _ _
  show Option.or ((run act dump _ between).held i) _ = _
  rw [hheld]
  rfl

/-- The memory at the end, from the memory at that evaluation. -/
theorem memory_run_of_lastCommit (h : LastCommit es before between after i) :
    (run act dump s es).memory =
      changed act (run act dump s before).memory (between ++ after) := by
  have hskip : ∀ (fs gs : List (Step ι)) (m : μ),
      changed act m (fs ++ .commit i :: gs) = changed act m (fs ++ gs) := by
    intro fs
    induction fs with
    | nil => exact fun gs m => rfl
    | cons e fs ih =>
      intro gs m
      cases e with
      | change j => exact ih gs _
      | evaluate j => exact ih gs m
      | commit j => exact ih gs m
  rw [h.split, run_append, memory_run]
  exact hskip between after _

end LastCommit

/-! ### Complete schedules -/

/-- Every writer takes its three steps once and in order, or none. -/
def Complete (es : List (Step ι)) : Prop :=
  ∀ i, es.filter (fun e => e.writer = i) = [] ∨
    es.filter (fun e => e.writer = i) = [.change i, .evaluate i, .commit i]

/-- What a list has it has somewhere for the last time. -/
theorem exists_last {α : Type u} {p : α → Bool} {xs : List α} (h : ∃ x ∈ xs, p x = true) :
    ∃ front x after, xs = front ++ x :: after ∧ p x = true ∧ ∀ y ∈ after, p y = false := by
  -- induction from the end of the list
  induction xs using List.reverseRecOn with
  | nil =>
    obtain ⟨x, hx, -⟩ := h
    cases hx
  | append_singleton xs x ih =>
    by_cases hx : p x = true
    · exact ⟨xs, x, [], rfl, hx, by simp⟩
    · have hmem : ∃ y ∈ xs, p y = true := by
        obtain ⟨y, hy, hp⟩ := h
        rcases List.mem_append.mp hy with hy | hy
        · exact ⟨y, hy, hp⟩
        · rw [List.mem_singleton.mp hy] at hp
          exact absurd hp hx
      obtain ⟨front, y, after, rfl, hp, hafter⟩ := ih hmem
      refine ⟨front, y, after ++ [x], by simp, hp, ?_⟩
      intro z hz
      rcases List.mem_append.mp hz with hz | hz
      · exact hafter z hz
      · rw [List.mem_singleton.mp hz]
        simpa using hx

omit [DecidableEq ι] in
/-- A schedule with a commit has a last one. -/
theorem exists_last_commit {es : List (Step ι)} (h : ∃ e ∈ es, e.isCommit = true) :
    ∃ front i after, es = front ++ .commit i :: after ∧ ∀ e ∈ after, e.isCommit = false := by
  obtain ⟨front, e, after, rfl, he, hafter⟩ := exists_last h
  cases e with
  | change i => cases he
  | evaluate i => cases he
  | commit i => exact ⟨front, i, after, rfl, hafter⟩

omit [DecidableEq ι] in
/-- A schedule with a change has a last one. -/
theorem exists_last_change {es : List (Step ι)} (h : ∃ e ∈ es, e.isChange = true) :
    ∃ front i after, es = front ++ .change i :: after ∧ ∀ e ∈ after, e.isChange = false := by
  obtain ⟨front, e, after, rfl, he, hafter⟩ := exists_last h
  cases e with
  | change i => exact ⟨front, i, after, rfl, hafter⟩
  | evaluate i => cases he
  | commit i => cases he

/-- A list in which an element comes once and last is split at it in one way. -/
theorem append_cons_eq_concat {α : Type u} {x : α} {l r m : List α} (h : l ++ x :: r = m ++ [x])
    (hx : x ∉ m) : l = m ∧ r = [] := by
  induction l generalizing m with
  | nil =>
    rcases m with - | ⟨y, m⟩
    · exact ⟨rfl, (List.cons.inj h).2⟩
    · exact absurd ((List.cons.inj h).1 ▸ List.mem_cons_self) hx
  | cons a l ih =>
    rcases m with - | ⟨y, m⟩
    · have hnil : l ++ x :: r = [] := (List.cons.inj h).2
      simp at hnil
    · obtain ⟨rfl, hrest⟩ := List.cons.inj h
      obtain ⟨rfl, hr⟩ := ih hrest fun hmem => hx (List.mem_cons_of_mem _ hmem)
      exact ⟨rfl, hr⟩

/-- A writer of a complete schedule commits. -/
theorem Complete.exists_commit {es : List (Step ι)} (h : Complete es) (hne : es ≠ []) :
    ∃ e ∈ es, e.isCommit = true := by
  obtain ⟨e, he⟩ := List.exists_mem_of_ne_nil es hne
  have hmem : e ∈ es.filter (fun e' => e'.writer = e.writer) :=
    List.mem_filter.mpr ⟨he, decide_eq_true rfl⟩
  rcases h e.writer with hnil | hall
  · rw [hnil] at hmem
    cases hmem
  · have hlast : Step.commit e.writer ∈ es.filter (fun e' => e'.writer = e.writer) := by
      rw [hall]
      simp
    exact ⟨_, (List.mem_filter.mp hlast).1, rfl⟩

/-- **A complete schedule has a writer that commits last.** -/
theorem Complete.lastCommit {es : List (Step ι)} (h : Complete es) (hne : es ≠ []) :
    ∃ before between after i, LastCommit es before between after i := by
  obtain ⟨front, i, after, rfl, hafter⟩ := exists_last_commit (h.exists_commit hne)
  -- before its commit the writer has changed and evaluated, and nothing else
  have hfront : front.filter (fun e => e.writer = i) = [.change i] ++ [.evaluate i] := by
    rcases h i with hnil | hall
    · simp [Step.writer] at hnil
    · rw [List.filter_append, List.filter_cons_of_pos (by simp [Step.writer])] at hall
      exact (append_cons_eq_concat (m := [Step.change i, Step.evaluate i]) hall (by simp)).1
  have hmem : Step.evaluate i ∈ front := by
    have hin : Step.evaluate i ∈ front.filter (fun e => e.writer = i) := by
      rw [hfront]
      simp
    exact (List.mem_filter.mp hin).1
  obtain ⟨before, between, rfl⟩ := List.append_of_mem hmem
  refine ⟨before, between, after, i, ⟨by simp, ?_, hafter⟩⟩
  rw [List.filter_append, List.filter_cons_of_pos (by simp [Step.writer])] at hfront
  have hnone := (append_cons_eq_concat hfront (by simp)).2
  intro e he hwriter
  have hin : e ∈ between.filter (fun e => e.writer = i) :=
    List.mem_filter.mpr ⟨he, decide_eq_true hwriter⟩
  rw [hnone] at hin
  cases hin

/-- A writer of a complete schedule changes once. -/
theorem Complete.count_change {es : List (Step ι)} (h : Complete es) (i : ι) :
    es.count (.change i) ≤ 1 := by
  rw [← List.count_filter (p := fun e => e.writer = i) (decide_eq_true rfl)]
  rcases h i with hnil | hall
  · rw [hnil]
    exact Nat.zero_le _
  · rw [hall]
    simp

/-- **Nothing changes after the evaluation that is committed last.** -/
def ReadsLast (es : List (Step ι)) : Prop :=
  ∃ before between after i, LastCommit es before between after i ∧
    ∀ e ∈ between ++ after, e.isChange = false

section ReadsLast

variable {act : ι → μ → μ} {dump : μ → ρ} {s : State ι μ ρ} {es : List (Step ι)}

/-- **Then the row follows the memory.** -/
theorem ReadsLast.row_eq_dump (h : ReadsLast es) :
    (run act dump s es).row = some (dump (run act dump s es).memory) := by
  obtain ⟨before, between, after, i, hlast, hstays⟩ := h
  have hstill : changed act (run act dump s before).memory (between ++ after) =
      (run act dump s before).memory := by
    refine changed_induction (P := (· = (run act dump s before).memory)) rfl ?_
    intro j hj
    cases hstays _ hj
  rw [row_run hlast, memory_run_of_lastCommit hlast, hstill]

end ReadsLast

end WriteBack
