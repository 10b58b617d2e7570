/-
AutoTrade/TickLock.lean

The two locks of a tick (`api/tick.py`, `db/lock.py`).

`execute_tick` is called in any number of processes that share one database, and
any number of times in each.  A call is a coroutine: what it does between two
suspensions is one event, and the events of all calls come in any order.  So the
look at `lock.locked()` and the `acquire` after it are one event, `enter`: an
acquire of a free lock that nobody waits for does not suspend.

The advisory lock belongs to the session of the connection that a call holds
through its block.  The two statements about it are atomic, and one that raises
has lost its connection: PostgreSQL ends the session and frees its lock.  An
event whose call is somewhere else changes nothing.
-/
import AutoTrade.Lib.Mutex
import AutoTrade.Lib.Run

namespace AutoTrade.TickLock

open Mutex

/-- How a call of `execute_tick` ends. -/
inductive Outcome
  | returned
  | raised
  | skipped
  deriving DecidableEq, Repr

/-- Where a call stands. -/
inductive Phase
  | idle
  /-- suspended in `lock.acquire()` -/
  | waiting
  /-- in `engine.connect()` -/
  | connecting
  /-- in `pg_try_advisory_lock` -/
  | asking
  /-- in `_execute_tick_locked` -/
  | body
  /-- in `pg_advisory_unlock` -/
  | unlocking (o : Outcome)
  /-- out of the block of `pg_tick_lock` -/
  | leaving (o : Outcome)
  | done (o : Outcome)
  deriving DecidableEq, Repr

/-- `asyncio.Lock`. -/
structure AsyncioLock (Call : Type*) where
  locked : Bool := false
  waiters : List Call := []

/-- The calls of `execute_tick` and what they share. -/
structure TickCalls (Proc Call α : Type*) where
  /-- `app.state.tick_lock` of each process -/
  locks : Proc → AsyncioLock Call
  /-- the call whose session has the advisory lock -/
  advisory : Option Call
  phase : Call → Phase
  /-- what the bodies work on -/
  app : α

/-- What a call does up to its next suspension. -/
inductive LockEvent (Call α : Type*)
  | enter (c : Call)
  | resume (c : Call)
  /-- `engine.connect()` returns, or raises -/
  | connect (c : Call) (ok : Bool)
  /-- `pg_try_advisory_lock` returns, or raises -/
  | ask (c : Call) (ok : Bool)
  /-- a step of `_execute_tick_locked` -/
  | work (c : Call) (f : α → α)
  | finish (c : Call) (raises : Bool)
  /-- `pg_advisory_unlock` returns, or raises -/
  | unlock (c : Call) (ok : Bool)
  | leave (c : Call)

variable {Proc Call α : Type*}

/-- The call that an event is of. -/
def LockEvent.call : LockEvent Call α → Call
  | enter c | resume c | connect c _ | ask c _ | work c _ | finish c _ | unlock c _ | leave c => c

/-! ### The locks -/

namespace AsyncioLock

/-- `acquire` up to its first suspension, and whether it has the lock. -/
def acquire (l : AsyncioLock Call) (c : Call) : Bool × AsyncioLock Call :=
  if !l.locked && l.waiters.isEmpty then (true, { l with locked := true })
  else (false, { l with waiters := l.waiters ++ [c] })

/-- The rest of an `acquire` that was suspended. -/
def resume (l : AsyncioLock Call) : AsyncioLock Call where
  locked := true
  waiters := l.waiters.tail

/-- The lock is free; its waiters stay. -/
def release (l : AsyncioLock Call) : AsyncioLock Call := { l with locked := false }

end AsyncioLock

section Step

variable [DecidableEq Proc] [DecidableEq Call]

/-- `pg_try_advisory_lock`, asked by the session of `c`. -/
def pgTryAdvisoryLock (advisory : Option Call) (c : Call) : Bool × Option Call :=
  match advisory with
  | none => (true, some c)
  | some holder => (holder = c, some holder)

/-- `pg_advisory_unlock`, asked by the session of `c`. -/
def pgAdvisoryUnlock (advisory : Option Call) (c : Call) : Option Call :=
  if advisory = some c then none else advisory

namespace TickCalls

/-- A call is elsewhere. -/
def move (s : TickCalls Proc Call α) (c : Call) (x : Phase) : TickCalls Proc Call α :=
  { s with phase := Function.update s.phase c x }

/-- The lock of a process. -/
def setLock (s : TickCalls Proc Call α) (p : Proc) (l : AsyncioLock Call) :
    TickCalls Proc Call α :=
  { s with locks := Function.update s.locks p l }

/-- The first steps of `execute_tick`: the look at the lock, and its `acquire`. -/
def enter (proc : Call → Proc) (s : TickCalls Proc Call α) (c : Call) :
    TickCalls Proc Call α :=
  let lock := s.locks (proc c)
  if lock.locked then s.move c (.done .skipped)
  else
    (s.setLock (proc c) (lock.acquire c).2).move c
      (if (lock.acquire c).1 then .connecting else .waiting)

/-- One event.  Without PostgreSQL (`postgresql = false`) there is no connection,
and `pg_tick_lock` lets every call pass. -/
def step (postgresql : Bool) (proc : Call → Proc) (s : TickCalls Proc Call α) :
    LockEvent Call α → TickCalls Proc Call α
  | .enter c => if s.phase c = .idle then s.enter proc c else s
  | .resume c =>
    if s.phase c = .waiting ∧ !(s.locks (proc c)).locked ∧
        (s.locks (proc c)).waiters.head? = some c then
      (s.setLock (proc c) (s.locks (proc c)).resume).move c .connecting
    else s
  | .connect c ok =>
    if s.phase c = .connecting then
      -- without PostgreSQL there is no lock to ask for
      if !postgresql then s.move c .body
      else s.move c (if ok then .asking else .leaving .raised)
    else s
  | .ask c ok =>
    if s.phase c = .asking then
      if ok then
        { s with advisory := (pgTryAdvisoryLock s.advisory c).2 }.move c
          -- it is not waited for: a tick that does not get it is skipped
          (if (pgTryAdvisoryLock s.advisory c).1 then .body else .leaving .skipped)
      else s.move c (.leaving .raised)
    else s
  | .work c f => if s.phase c = .body then { s with app := f s.app } else s
  | .finish c raises =>
    if s.phase c = .body then
      let o := if raises then .raised else .returned
      -- the unlock is in a `finally`, and comes after a body that raises too
      s.move c (if postgresql then .unlocking o else .leaving o)
    else s
  | .unlock c ok =>
    match s.phase c with
    | .unlocking o =>
      { s with advisory := pgAdvisoryUnlock s.advisory c }.move c
        (.leaving (if ok then o else .raised))
    | _ => s
  | .leave c =>
    match s.phase c with
    | .leaving o => (s.setLock (proc c) (s.locks (proc c)).release).move c (.done o)
    | _ => s

/-- No call yet. -/
def start (app : α) : TickCalls Proc Call α where
  locks := fun _ => {}
  advisory := none
  phase := fun _ => .idle
  app

/-- Events one after another. -/
def run (postgresql : Bool) (proc : Call → Proc) (app : α) (es : List (LockEvent Call α)) :
    TickCalls Proc Call α :=
  es.foldl (step postgresql proc) (start app)

end TickCalls

end Step

/-! ### The moves of a call -/

/-- All the moves of a call. -/
inductive Phase.Next : Phase → Phase → Prop
  | found : Next .idle (.done .skipped)
  | acquired : Next .idle .connecting
  | suspended : Next .idle .waiting
  | resumed : Next .waiting .connecting
  | passed : Next .connecting .body
  | connected : Next .connecting .asking
  | unconnected : Next .connecting (.leaving .raised)
  | got : Next .asking .body
  | refused : Next .asking (.leaving .skipped)
  | unanswered : Next .asking (.leaving .raised)
  | ended {o : Outcome} (ho : o ≠ .skipped) : Next .body (.unlocking o)
  | endedUnlocked {o : Outcome} (ho : o ≠ .skipped) : Next .body (.leaving o)
  | unlocked {o : Outcome} : Next (.unlocking o) (.leaving o)
  | lost {o : Outcome} : Next (.unlocking o) (.leaving .raised)
  | left {o : Outcome} : Next (.leaving o) (.done o)

/-- The body of the call has begun, or it has ended without a skip. -/
def Phase.ran : Phase → Bool
  | .body => true
  | .unlocking o | .leaving o | .done o => o ≠ .skipped
  | _ => false

/-- The call is past the point where a body runs. -/
def Phase.over : Phase → Bool
  | .unlocking _ | .leaving _ | .done _ => true
  | _ => false

theorem Phase.Next.ran {x y : Phase} (h : Phase.Next x y) (hx : x.ran = true) :
    y.ran = true := by
  cases h with
  | ended ho => exact decide_eq_true ho
  | endedUnlocked ho => exact decide_eq_true ho
  | unlocked => exact hx
  | lost => rfl
  | left => exact hx
  | got => rfl
  | passed => rfl
  | _ => cases hx

theorem Phase.Next.over {x y : Phase} (h : Phase.Next x y) (hx : x = .body ∨ x.over = true) :
    y.over = true := by
  cases h with
  | ended ho => rfl
  | endedUnlocked ho => rfl
  | unlocked => rfl
  | lost => rfl
  | left => rfl
  | _ => rcases hx with hx | hx <;> cases hx

/-! ### What the locks guard -/

/-- Between the `acquire` of the process's lock and its release. -/
def Phase.holdsLock : Phase → Bool
  | .connecting | .asking | .body | .unlocking _ | .leaving _ => true
  | .idle | .waiting | .done _ => false

/-- Between `pg_try_advisory_lock` and `pg_advisory_unlock`. -/
def Phase.granted : Phase → Bool
  | .body | .unlocking _ => true
  | _ => false

namespace TickCalls

/-- The lock of a process guards the calls of that process that are past it, and
nobody waits for it. -/
structure ProcessLocks (proc : Call → Proc) (s : TickCalls Proc Call α) : Prop where
  guards : ∀ p, Guards ((s.locks p).locked = true)
    (fun c x => proc c = p ∧ x.holdsLock = true) s.phase
  waiters : ∀ p, (s.locks p).waiters = []
  awake : ∀ c, s.phase c ≠ .waiting

/-- The advisory lock guards the calls that were granted it, and its session is
the one of such a call. -/
structure AdvisoryLock (s : TickCalls Proc Call α) : Prop where
  guards : Guards (s.advisory ≠ none) (fun _ x => x.granted = true) s.phase
  owner : ∀ c, s.advisory = some c → (s.phase c).granted = true

section Rules

variable [DecidableEq Call] {proc : Call → Proc} {s : TickCalls Proc Call α} {c : Call}
  {x : Phase}

@[simp] theorem move_phase_self : (s.move c x).phase c = x := by
  show Function.update s.phase c x c = x
  rw [Function.update_self]

theorem move_phase_of_ne {a : Call} (ha : a ≠ c) : (s.move c x).phase a = s.phase a := by
  show Function.update s.phase c x a = s.phase a
  rw [Function.update_of_ne ha]

/-- A call that does not wait leaves no call waiting. -/
theorem awake_move (h : ∀ a, s.phase a ≠ .waiting) (hx : x ≠ .waiting) (a : Call) :
    (s.move c x).phase a ≠ .waiting := by
  by_cases hac : a = c
  · subst hac
    rwa [move_phase_self]
  · rw [move_phase_of_ne hac]
    exact h a

/-- A call moves and holds the lock of its process, or not, as before. -/
theorem ProcessLocks.move (h : ProcessLocks proc s) (hx : x ≠ .waiting)
    (hside : x.holdsLock = (s.phase c).holdsLock) : ProcessLocks proc (s.move c x) := by
  refine ⟨?_, h.waiters, awake_move h.awake hx⟩
  intro p
  exact (h.guards p).stay (by rw [hside]) Iff.rfl

/-- A call moves and holds the advisory lock, or not, as before. -/
theorem AdvisoryLock.move (h : AdvisoryLock s)
    (hside : x.granted = (s.phase c).granted) : AdvisoryLock (s.move c x) := by
  refine ⟨h.guards.stay (by rw [hside]) Iff.rfl, ?_⟩
  intro a ha
  by_cases hac : a = c
  · subst hac
    rw [move_phase_self, hside]
    exact h.owner a ha
  · rw [move_phase_of_ne hac]
    exact h.owner a ha

/-- A call that is granted the advisory lock. -/
theorem AdvisoryLock.take (h : AdvisoryLock s) (hfree : s.advisory = none)
    (hx : x.granted = true) :
    AdvisoryLock ({ s with advisory := some c }.move c x) := by
  refine ⟨h.guards.acquire (not_not.mpr hfree) hx (Option.some_ne_none c), ?_⟩
  intro a ha
  cases Option.some.inj ha
  rw [move_phase_self]
  exact hx

omit [DecidableEq Call] in
/-- A call that is granted has the session that owns the lock. -/
theorem AdvisoryLock.eq_some (h : AdvisoryLock s) (hc : (s.phase c).granted = true) :
    s.advisory = some c := by
  obtain ⟨a, ha⟩ := Option.ne_none_iff_exists'.mp (h.guards.taken_of_inside hc)
  rw [ha, h.guards.unique a c (h.owner a ha) hc]

/-- A call that gives the advisory lock back. -/
theorem AdvisoryLock.free (h : AdvisoryLock s) (hc : (s.phase c).granted = true)
    (hx : x.granted = false) :
    AdvisoryLock ({ s with advisory := pgAdvisoryUnlock s.advisory c }.move c x) := by
  have hnone : pgAdvisoryUnlock s.advisory c = none := if_pos (h.eq_some hc)
  rw [hnone]
  refine ⟨h.guards.release hc (by simp [hx]) (not_not.mpr rfl), ?_⟩
  intro a ha
  cases ha

variable [DecidableEq Proc]

omit [DecidableEq Call] in
theorem setLock_locks_self {p : Proc} {l : AsyncioLock Call} : (s.setLock p l).locks p = l := by
  show Function.update s.locks p l p = l
  rw [Function.update_self]

omit [DecidableEq Call] in
theorem setLock_locks_of_ne {p p' : Proc} {l : AsyncioLock Call} (h : p' ≠ p) :
    (s.setLock p l).locks p' = s.locks p' := by
  show Function.update s.locks p l p' = s.locks p'
  rw [Function.update_of_ne h]

omit [DecidableEq Call] in
theorem waiters_setLock {p : Proc} {l : AsyncioLock Call} (h : ∀ p, (s.locks p).waiters = [])
    (hl : l.waiters = []) (p' : Proc) : ((s.setLock p l).locks p').waiters = [] := by
  by_cases hp : p' = p
  · subst hp
    rwa [setLock_locks_self]
  · rw [setLock_locks_of_ne hp]
    exact h p'

/-- A call that takes the lock of its process, or gives it back, does nothing to
those of the others. -/
theorem ProcessLocks.others (h : ProcessLocks proc s) {l : AsyncioLock Call} {p : Proc}
    (hp : proc c ≠ p) : Guards ((((s.setLock (proc c) l).move c x).locks p).locked = true)
      (fun c x => proc c = p ∧ x.holdsLock = true) ((s.setLock (proc c) l).move c x).phase := by
  refine (h.guards p).stay (by simp [hp]) ?_
  show ((s.setLock (proc c) l).locks p).locked = true ↔ _
  rw [setLock_locks_of_ne (Ne.symm hp)]

/-- A call that takes the free lock of its process. -/
theorem ProcessLocks.acquire (h : ProcessLocks proc s)
    (hfree : (s.locks (proc c)).locked = false) (hx : x.holdsLock = true) (hw : x ≠ .waiting) :
    ProcessLocks proc
      ((s.setLock (proc c) { s.locks (proc c) with locked := true }).move c x) := by
  refine ⟨?_, waiters_setLock h.waiters (h.waiters (proc c)), awake_move h.awake hw⟩
  intro p
  by_cases hp : proc c = p
  · subst hp
    refine (h.guards (proc c)).acquire (by simp [hfree]) ⟨rfl, hx⟩ ?_
    show ((s.setLock (proc c) _).locks (proc c)).locked = true
    rw [setLock_locks_self]
  · exact h.others hp

/-- A call that gives the lock of its process back. -/
theorem ProcessLocks.release (h : ProcessLocks proc s) (hc : (s.phase c).holdsLock = true)
    (hx : x.holdsLock = false) (hw : x ≠ .waiting) :
    ProcessLocks proc ((s.setLock (proc c) (s.locks (proc c)).release).move c x) := by
  refine ⟨?_, waiters_setLock h.waiters (h.waiters (proc c)), awake_move h.awake hw⟩
  intro p
  by_cases hp : proc c = p
  · subst hp
    refine (h.guards (proc c)).release ⟨rfl, hc⟩ (by simp [hx]) ?_
    show ¬ ((s.setLock (proc c) _).locks (proc c)).locked = true
    rw [setLock_locks_self]
    exact Bool.false_ne_true
  · exact h.others hp

omit [DecidableEq Call] [DecidableEq Proc] in
/-- The `acquire` of a free lock that nobody waits for has it at once. -/
theorem acquire_free {l : AsyncioLock Call} (hfree : l.locked = false) (hw : l.waiters = [])
    (c : Call) : l.acquire c = (true, { l with locked := true }) := by
  unfold AsyncioLock.acquire
  rw [hfree, hw]
  rfl

/-- A call that comes to a free lock of its process has it. -/
theorem ProcessLocks.enter_free (h : ProcessLocks proc s)
    (hfree : (s.locks (proc c)).locked = false) :
    s.enter proc c =
      (s.setLock (proc c) { s.locks (proc c) with locked := true }).move c .connecting := by
  unfold enter
  simp only [hfree, Bool.false_eq_true, if_false, acquire_free hfree (h.waiters (proc c)), if_true]

/-- A tick that finds the lock taken is skipped at once. -/
theorem enter_taken (htaken : (s.locks (proc c)).locked = true) :
    s.enter proc c = s.move c (.done .skipped) := by
  unfold enter
  simp only [htaken, if_true]

end Rules

/-! ### One event -/

section Steps

variable [DecidableEq Proc] [DecidableEq Call] {proc : Call → Proc} {pg : Bool}

omit [DecidableEq Proc] [DecidableEq Call] in
theorem ProcessLocks.setAdvisory {s : TickCalls Proc Call α} (h : ProcessLocks proc s)
    (advisory : Option Call) : ProcessLocks proc { s with advisory } :=
  ⟨h.guards, h.waiters, h.awake⟩

/-- The locks of the processes guard what they guarded, with or without
PostgreSQL. -/
theorem ProcessLocks.step {s : TickCalls Proc Call α} (h : ProcessLocks proc s)
    (e : LockEvent Call α) : ProcessLocks proc (s.step pg proc e) := by
  cases e with
  | enter c =>
    simp only [TickCalls.step]
    split
    · next hc =>
      rcases htaken : (s.locks (proc c)).locked with - | -
      · rw [h.enter_free htaken]
        exact h.acquire htaken rfl (by simp)
      · rw [enter_taken htaken]
        exact h.move (by simp) (by rw [hc]; rfl)
    · exact h
  | resume c =>
    -- nobody waits
    simp only [TickCalls.step, h.waiters, List.head?_nil, reduceCtorEq, and_false, if_false]
    exact h
  | connect c ok =>
    simp only [TickCalls.step]
    split
    · next hc =>
      rcases pg with - | -
      · exact h.move (by simp) (by rw [hc]; rfl)
      · rcases ok with - | -
        · exact h.move (by simp) (by rw [hc]; rfl)
        · exact h.move (by simp) (by rw [hc]; rfl)
    · exact h
  | ask c ok =>
    simp only [TickCalls.step]
    split
    · next hc =>
      rcases ok with - | -
      · exact h.move (by simp) (by rw [hc]; rfl)
      · rcases hgot : (pgTryAdvisoryLock s.advisory c).1 with - | -
        · exact (h.setAdvisory _).move (by simp) (by simp only [hc]; rfl)
        · exact (h.setAdvisory _).move (by simp) (by simp only [hc]; rfl)
    · exact h
  | work c f =>
    simp only [TickCalls.step]
    split
    · exact ⟨h.guards, h.waiters, h.awake⟩
    · exact h
  | finish c raises =>
    simp only [TickCalls.step]
    split
    · next hc =>
      rcases pg with - | -
      · exact h.move (by simp) (by rw [hc]; rfl)
      · exact h.move (by simp) (by rw [hc]; rfl)
    · exact h
  | unlock c ok =>
    simp only [TickCalls.step]
    split
    · next o hc => exact (h.setAdvisory _).move (by simp) (by simp only [hc]; rfl)
    · exact h
  | leave c =>
    simp only [TickCalls.step]
    split
    · next o hc => exact h.release (by rw [hc]; rfl) rfl (by simp)
    · exact h

/-- With PostgreSQL the advisory lock guards what it guarded. -/
theorem AdvisoryLock.step {s : TickCalls Proc Call α} (h : AdvisoryLock s)
    (hp : ProcessLocks proc s) (e : LockEvent Call α) :
    AdvisoryLock (s.step true proc e) := by
  cases e with
  -- the advisory lock is not touched before the connection
  | enter c =>
    simp only [TickCalls.step]
    split
    · next hc =>
      rcases htaken : (s.locks (proc c)).locked with - | -
      · rw [hp.enter_free htaken]
        exact AdvisoryLock.move ⟨h.guards, h.owner⟩ (by simp only [setLock, hc]; rfl)
      · rw [enter_taken htaken]
        exact h.move (by rw [hc]; rfl)
    · exact h
  | resume c =>
    simp only [TickCalls.step, hp.waiters, List.head?_nil, reduceCtorEq, and_false, if_false]
    exact h
  | connect c ok =>
    simp only [TickCalls.step]
    split
    · next hc =>
      rcases ok with - | -
      · exact h.move (by rw [hc]; rfl)
      · exact h.move (by rw [hc]; rfl)
    · exact h
  | ask c ok =>
    simp only [TickCalls.step]
    split
    · next hc =>
      rcases ok with - | -
      · exact h.move (by rw [hc]; rfl)
      · rcases hfree : s.advisory with - | holder
        · exact h.take hfree rfl
        · -- the holder is another call, which is granted
          have hother : holder ≠ c := by
            rintro rfl
            have hgranted := h.owner _ hfree
            rw [hc] at hgranted
            cases hgranted
          have hkept : AdvisoryLock ({ s with advisory := some holder } : TickCalls Proc Call α) :=
            ⟨hfree ▸ h.guards, hfree ▸ h.owner⟩
          simp only [pgTryAdvisoryLock, hother, decide_false, Bool.false_eq_true, if_true, if_false]
          exact hkept.move (by simp only [hc]; rfl)
    · exact h
  | work c f =>
    simp only [TickCalls.step]
    split
    · exact ⟨h.guards, h.owner⟩
    · exact h
  | finish c raises =>
    simp only [TickCalls.step]
    split
    · next hc => exact h.move (by rw [hc]; rfl)
    · exact h
  -- the unlock frees it, also where its answer is lost with the session
  | unlock c ok =>
    simp only [TickCalls.step]
    split
    · next o hc => exact h.free (by rw [hc]; rfl) rfl
    · exact h
  | leave c =>
    simp only [TickCalls.step]
    split
    · next o hc => exact AdvisoryLock.move ⟨h.guards, h.owner⟩ (by simp only [setLock, hc]; rfl)
    · exact h

end Steps

/-! ### Runs -/

section Runs

variable [DecidableEq Proc] [DecidableEq Call] {proc : Call → Proc} {pg : Bool} {app : α}
  {es : List (LockEvent Call α)}

omit [DecidableEq Proc] [DecidableEq Call] in
theorem processLocks_start : ProcessLocks proc (start app : TickCalls Proc Call α) := by
  refine ⟨?_, fun _ => rfl, fun _ => nofun⟩
  intro p
  exact guards_empty Bool.false_ne_true fun c hc => Bool.false_ne_true hc.2

omit [DecidableEq Proc] [DecidableEq Call] in
theorem advisoryLock_start : AdvisoryLock (start app : TickCalls Proc Call α) :=
  ⟨guards_empty (not_not.mpr rfl) fun _ => Bool.false_ne_true, nofun⟩

/-- In each process one call at most is inside, over every run. -/
theorem processLocks_run : ProcessLocks proc (run pg proc app es) :=
  Run.foldl_invariant (fun _ e h => h.step e) processLocks_start es

/-- And over the database one call at most, where it is PostgreSQL. -/
theorem advisoryLock_run : AdvisoryLock (run true proc app es) := by
  have hboth := @Run.foldl_invariant _ _ (step true proc)
    (fun s => ProcessLocks proc s ∧ AdvisoryLock s)
    (fun _ e h => ⟨h.1.step e, h.2.step h.1 e⟩) (start app)
    ⟨processLocks_start, advisoryLock_start⟩ es
  exact hboth.2

theorem run_append (fs : List (LockEvent Call α)) :
    run pg proc app (es ++ fs) = fs.foldl (step pg proc) (run pg proc app es) :=
  List.foldl_append

variable {s : TickCalls Proc Call α} {e : LockEvent Call α} {c : Call}

/-- Only the events of a call move it. -/
theorem step_phase_of_ne (h : c ≠ e.call) : (s.step pg proc e).phase c = s.phase c := by
  cases e
  all_goals simp only [step, enter]
  all_goals repeat' split
  all_goals first | rfl | exact move_phase_of_ne h

/-- An event of a call changes nothing of where it stands, or is one of its moves. -/
theorem step_next : (s.step pg proc e).phase e.call = s.phase e.call ∨
    Phase.Next (s.phase e.call) ((s.step pg proc e).phase e.call) := by
  cases e with
  | enter c =>
    simp only [step, enter, LockEvent.call]
    split_ifs with hc hlocked hgot
    · exact Or.inr (by rw [hc, move_phase_self]; exact .found)
    · exact Or.inr (by rw [hc, move_phase_self]; exact .acquired)
    · exact Or.inr (by rw [hc, move_phase_self]; exact .suspended)
    · exact Or.inl rfl
  | resume c =>
    simp only [step, LockEvent.call]
    split_ifs with hc
    · exact Or.inr (by rw [hc.1, move_phase_self]; exact .resumed)
    · exact Or.inl rfl
  | connect c ok =>
    simp only [step, LockEvent.call]
    split_ifs with hc hpg hok
    · exact Or.inr (by rw [hc, move_phase_self]; exact .passed)
    · exact Or.inr (by rw [hc, move_phase_self]; exact .connected)
    · exact Or.inr (by rw [hc, move_phase_self]; exact .unconnected)
    · exact Or.inl rfl
  | ask c ok =>
    simp only [step, LockEvent.call]
    split_ifs with hc hok hgot
    · exact Or.inr (by rw [hc, move_phase_self]; exact .got)
    · exact Or.inr (by rw [hc, move_phase_self]; exact .refused)
    · exact Or.inr (by rw [hc, move_phase_self]; exact .unanswered)
    · exact Or.inl rfl
  | work c f =>
    simp only [step, LockEvent.call]
    split_ifs
    all_goals exact Or.inl rfl
  -- the body ends in the same phase whether it raises or returns
  | finish c raises =>
    simp only [step, LockEvent.call]
    split_ifs with hc hpg hraises hraises
    · exact Or.inr (by rw [hc, move_phase_self]; exact .ended nofun)
    · exact Or.inr (by rw [hc, move_phase_self]; exact .ended nofun)
    · exact Or.inr (by rw [hc, move_phase_self]; exact .endedUnlocked nofun)
    · exact Or.inr (by rw [hc, move_phase_self]; exact .endedUnlocked nofun)
    · exact Or.inl rfl
  | unlock c ok =>
    simp only [step, LockEvent.call]
    split
    · next o hc =>
      rw [hc, move_phase_self]
      rcases ok with - | -
      · exact Or.inr .lost
      · exact Or.inr .unlocked
    · exact Or.inl rfl
  | leave c =>
    simp only [step, LockEvent.call]
    split
    · next o hc => exact Or.inr (by rw [hc, move_phase_self]; exact .left)
    · exact Or.inl rfl

/-- A region that no move leaves keeps its calls. -/
theorem foldl_phase {R : Phase → Prop} (hR : ∀ x y, Phase.Next x y → R x → R y)
    (h : R (s.phase c)) : R ((es.foldl (step pg proc) s).phase c) := by
  refine Run.foldl_invariant (I := fun s : TickCalls Proc Call α => R (s.phase c)) ?_ h es
  intro s e hs
  by_cases hc : c = e.call
  · subst hc
    rcases @step_next _ _ _ _ _ proc pg s e with hsame | hnext
    · rwa [hsame]
    · exact hR _ _ hnext hs
  · rwa [step_phase_of_ne hc]

/-- Only the steps of a body change what the bodies work on. -/
theorem step_app (h : s.phase e.call ≠ .body) : (s.step pg proc e).app = s.app := by
  cases e with
  | work c f =>
    have hc : s.phase c ≠ .body := h
    simp only [step, if_neg hc]
  | _ =>
    simp only [step, enter]
    repeat' split
    all_goals rfl

/-! ### Exclusion -/

/-- Two bodies at a time are one, in one process, and with PostgreSQL in any. -/
theorem one_body {c c' : Call} (hc : (run pg proc app es).phase c = .body)
    (hc' : (run pg proc app es).phase c' = .body) (hscope : pg = true ∨ proc c = proc c') :
    c = c' := by
  rcases hscope with rfl | hproc
  · exact advisoryLock_run.guards.unique c c' (by rw [hc]; rfl) (by rw [hc']; rfl)
  · exact (processLocks_run.guards (proc c')).unique c c' ⟨hproc, by rw [hc]; rfl⟩
      ⟨rfl, by rw [hc']; rfl⟩

/-- A call that finds the lock of its process taken. -/
theorem step_enter_taken (hc : s.phase c = .idle) (htaken : (s.locks (proc c)).locked = true) :
    s.step pg proc (.enter c) = s.move c (.done .skipped) := by
  rw [step, if_pos hc, enter_taken htaken]

/-- A call that is refused the advisory lock. -/
theorem AdvisoryLock.ask_taken (h : AdvisoryLock s) (hc : s.phase c = .asking)
    (htaken : s.advisory ≠ none) :
    s.step pg proc (.ask c true) = s.move c (.leaving .skipped) := by
  obtain ⟨holder, hholder⟩ := Option.ne_none_iff_exists'.mp htaken
  have hother : holder ≠ c := by
    rintro rfl
    have hgranted := h.owner _ hholder
    rw [hc] at hgranted
    cases hgranted
  have htry : pgTryAdvisoryLock s.advisory c = (false, s.advisory) := by
    rw [hholder, pgTryAdvisoryLock, decide_eq_false hother]
  simp only [TickCalls.step, hc, if_true, htry, Bool.false_eq_true, if_false]

theorem step_connect (hc : s.phase c = .connecting) :
    s.step true proc (.connect c true) = s.move c .asking := by
  rw [step, if_pos hc]
  rfl

theorem step_ask_free (hc : s.phase c = .asking) (hnone : s.advisory = none) :
    s.step pg proc (.ask c true) = { s with advisory := some c }.move c .body := by
  rw [step, if_pos hc, hnone]
  rfl

/-- A call that finds both locks free comes to its body. -/
theorem ProcessLocks.next_runs (h : ProcessLocks proc s) (hc : s.phase c = .idle)
    (hfree : (s.locks (proc c)).locked = false) (hnone : s.advisory = none) :
    ([LockEvent.enter c, .connect c true, .ask c true].foldl (TickCalls.step true proc) s).phase
      c = .body := by
  have henter : s.step true proc (.enter c) =
      (s.setLock (proc c) { s.locks (proc c) with locked := true }).move c .connecting := by
    rw [TickCalls.step, if_pos hc, h.enter_free hfree]
  rw [List.foldl_cons, List.foldl_cons, List.foldl_cons, List.foldl_nil, henter,
    step_connect move_phase_self, step_ask_free, move_phase_self]
  · exact move_phase_self
  · exact hnone

/-- The end of a body gives the advisory lock back, whatever its outcome. -/
theorem AdvisoryLock.unlock {o : Outcome} (h : AdvisoryLock s) (hc : s.phase c = .unlocking o)
    (ok : Bool) : (s.step pg proc (.unlock c ok)).advisory = none ∧
      (s.step pg proc (.unlock c ok)).phase c = .leaving (if ok then o else .raised) := by
  have hown : s.advisory = some c := h.eq_some (by rw [hc]; rfl)
  simp only [TickCalls.step, hc]
  refine ⟨?_, move_phase_self⟩
  show pgAdvisoryUnlock s.advisory c = none
  exact if_pos hown

/-- The end of a call gives the lock of its process back. -/
theorem step_leave {o : Outcome} (hc : s.phase c = .leaving o) :
    ((s.step pg proc (.leave c)).locks (proc c)).locked = false ∧
      (s.step pg proc (.leave c)).phase c = .done o := by
  simp only [step, hc]
  refine ⟨?_, move_phase_self⟩
  show ((s.setLock (proc c) _).locks (proc c)).locked = false
  rw [setLock_locks_self]
  rfl

/-- A call that ends skipped has changed nothing. -/
theorem skipped_unchanged {pre post : List (LockEvent Call α)}
    (h : (run pg proc app (pre ++ e :: post)).phase e.call = .done .skipped) :
    (run pg proc app (pre ++ [e])).app = (run pg proc app pre).app := by
  rw [run_append]
  refine step_app ?_
  intro hbody
  rw [run_append] at h
  have hran := @foldl_phase _ _ _ _ _ proc pg (e :: post) (run pg proc app pre) e.call
    (fun x => x.ran = true) (fun _ _ hnext => hnext.ran) (by rw [hbody]; rfl)
  rw [h] at hran
  cases hran

/-- **The bodies of a run come one after the other.**  Between two points of a
body nothing but its own steps changes what the bodies work on. -/
theorem bodies_serial {mid post : List (LockEvent Call α)}
    (hfirst : (run true proc app es).phase c = .body)
    (hlast : (run true proc app (es ++ (mid ++ e :: post))).phase c = .body)
    (he : e.call ≠ c) :
    (run true proc app (es ++ (mid ++ [e]))).app = (run true proc app (es ++ mid)).app := by
  have hthere : (run true proc app (es ++ mid)).phase c = .body := by
    have hcome := @foldl_phase _ _ _ _ _ proc true mid (run true proc app es) c
      (fun x => x = .body ∨ x.over = true) (fun _ _ hnext hx => Or.inr (hnext.over hx))
      (Or.inl hfirst)
    rw [← run_append] at hcome
    rcases hcome with hbody | hover
    · exact hbody
    · -- a call that is over its body does not come back
      rw [← List.append_assoc, run_append] at hlast
      have hend := @foldl_phase _ _ _ _ _ proc true (e :: post) (run true proc app (es ++ mid)) c
        (fun x => x.over = true) (fun _ _ hnext hx => hnext.over (Or.inr hx)) hover
      rw [hlast] at hend
      cases hend
  rw [← List.append_assoc, run_append]
  refine step_app ?_
  intro hbody
  exact he (one_body hbody hthere (Or.inl rfl))

/-- **Mutual exclusion of the tick.**  After any run of any calls in any
processes: one body at most is running; a call that finds the lock of its process
or the advisory lock taken is skipped, and a skipped call has changed nothing;
the locks are those of the calls inside; a body that ends, however it ends, gives
both back; and a call that finds them free comes to its body. -/
theorem tick_mutual_exclusion (proc : Call → Proc) (app : α) (es : List (LockEvent Call α)) :
    (∀ c c', (run true proc app es).phase c = .body → (run true proc app es).phase c' = .body →
        c = c') ∧
      ((∀ c, (run true proc app es).phase c = .idle →
          ((run true proc app es).locks (proc c)).locked = true →
          run true proc app (es ++ [.enter c]) =
            (run true proc app es).move c (.done .skipped)) ∧
        (∀ c, (run true proc app es).phase c = .asking →
          (run true proc app es).advisory ≠ none →
          run true proc app (es ++ [.ask c true]) =
            (run true proc app es).move c (.leaving .skipped)) ∧
        ∀ pre e post, es = pre ++ e :: post →
          (run true proc app es).phase e.call = .done .skipped →
          (run true proc app (pre ++ [e])).app = (run true proc app pre).app) ∧
      ((∀ p, ((run true proc app es).locks p).locked = true ↔
          ∃ c, proc c = p ∧ ((run true proc app es).phase c).holdsLock = true) ∧
        ∀ c, (run true proc app es).advisory = some c ↔
          ((run true proc app es).phase c).granted = true) ∧
      ((∀ c raises, (run true proc app es).phase c = .body →
          ∃ o, (run true proc app (es ++ [.finish c raises])).phase c = .unlocking o) ∧
        (∀ c o ok, (run true proc app es).phase c = .unlocking o →
          (run true proc app (es ++ [.unlock c ok])).advisory = none ∧
            ∃ o', (run true proc app (es ++ [.unlock c ok])).phase c = .leaving o') ∧
        ∀ c o, (run true proc app es).phase c = .leaving o →
          ((run true proc app (es ++ [.leave c])).locks (proc c)).locked = false ∧
            (run true proc app (es ++ [.leave c])).phase c = .done o) ∧
      ∀ c, (run true proc app es).phase c = .idle →
        ((run true proc app es).locks (proc c)).locked = false →
        (run true proc app es).advisory = none →
        (run true proc app (es ++ [.enter c, .connect c true, .ask c true])).phase c = .body := by
  have hp : ProcessLocks proc (run true proc app es) := processLocks_run
  have ha : AdvisoryLock (run true proc app es) := advisoryLock_run
  refine ⟨?_, ⟨?_, ?_, ?_⟩, ⟨?_, ?_⟩, ⟨?_, ?_, ?_⟩, ?_⟩
  · intro c c' hc hc'
    exact one_body hc hc' (Or.inl rfl)
  · intro c hc htaken
    rw [run_append]
    show step true proc _ (.enter c) = _
    exact step_enter_taken hc htaken
  · intro c hc htaken
    rw [run_append]
    show step true proc _ (.ask c true) = _
    exact ha.ask_taken hc htaken
  · rintro pre e post rfl h
    exact skipped_unchanged h
  · intro p
    exact (hp.guards p).taken_iff
  · intro c
    exact ⟨ha.owner c, ha.eq_some⟩
  · intro c raises hc
    rw [run_append]
    refine ⟨if raises then .raised else .returned, ?_⟩
    show (step true proc _ (.finish c raises)).phase c = _
    rw [step, if_pos hc]
    exact move_phase_self
  · intro c o ok hc
    rw [run_append]
    have hunlock : (step true proc _ (.unlock c ok)).advisory = none ∧
        (step true proc _ (.unlock c ok)).phase c = .leaving (if ok then o else .raised) :=
      ha.unlock hc ok
    exact ⟨hunlock.1, _, hunlock.2⟩
  · intro c o hc
    rw [run_append]
    show ((step true proc _ (.leave c)).locks (proc c)).locked = false ∧
      (step true proc _ (.leave c)).phase c = .done o
    exact step_leave hc
  · intro c hc hfree hnone
    rw [run_append]
    exact hp.next_runs hc hfree hnone

end Runs

end TickCalls

end AutoTrade.TickLock
