/-
AutoTrade/RestartSend.lean

Sending once across restarts.

The first defence against sending an id twice, `seen`, lives in the process;
the second, the unique id of the orders table, is looked at only when the
results are recorded, after the sending.  So across restarts an id is sent once
as long as nothing sent is lost before it is recorded, and no process sends an
id that has a row (`Defended`).  `Safe` is the invariant: each order that was
sent has its row, or waits for it in the process that sent it under an id that
no row has yet.
-/
import AutoTrade.Server

namespace AutoTrade

open Effect (Fate)

/-! ### What a recorded tick adds -/

/-- The status of the answer to an order that the executor was called with. -/
def Placement.status (p : Placement) : OrderStatus :=
  match p.outcome with
  | .ok _ => .submitted
  | .error _ => .failed

theorem OrderService.Settles.called {svc : OrderService} {order : OrderRequest}
    {ctx : GuardrailContext} {createdAt : Datetime} {res : OrderResult}
    {calls : List Placement} (h : Settles svc order ctx createdAt res calls) :
    res.status ≠ .duplicate ∧ ∀ p ∈ calls, p.order = order ∧ res.status = p.status ∧
      runGuardrails order (svc.effectiveContext ctx) svc.config = [] ∧ svc.executor.isSome := by
  cases h with
  | rejected h => exact ⟨by simp [OrderService.result], by simp⟩
  | dryRun h hmode => exact ⟨by simp [OrderService.result], by simp⟩
  | unset h hmode hexec => exact ⟨by simp [OrderService.result], by simp⟩
  | submitted h hmode hexec hplace =>
    refine ⟨by simp [OrderService.result], ?_⟩
    intro p hp
    rw [List.mem_singleton.mp hp]
    exact ⟨rfl, rfl, h, by rw [hexec]; rfl⟩
  | failed h hmode hexec hplace =>
    refine ⟨by simp [OrderService.result], ?_⟩
    intro p hp
    rw [List.mem_singleton.mp hp]
    exact ⟨rfl, rfl, h, by rw [hexec]; rfl⟩

namespace Db

theorem subset_foldl_addOrder (tickId : ℕ) (rows : List OrderRow) (results : List OrderResult) :
    rows ⊆ results.foldl (addOrder tickId) rows := by
  obtain ⟨new, -, heq⟩ := foldl_addOrder tickId rows results
  rw [heq]
  exact List.subset_append_left _ _

/-- A new answer gets its row when its id has none and no other new answer has
it. -/
theorem mem_foldl_addOrder {tickId : ℕ} {rows : List OrderRow} {results : List OrderResult}
    {res : OrderResult} (hres : res ∈ newAnswers results)
    (hnew : res.clientOrderId ∉ rows.map OrderRow.clientOrderId)
    (honce : ∀ r ∈ newAnswers results, r.clientOrderId = res.clientOrderId → r = res) :
    orderRow res tickId ∈ results.foldl (addOrder tickId) rows := by
  induction results generalizing rows with
  | nil => cases hres
  | cons r results ih =>
    rw [List.foldl_cons]
    have hrest : ∀ r' ∈ newAnswers results, r'.clientOrderId = res.clientOrderId → r' = res :=
      fun r' hr' => honce r' (((List.sublist_cons_self r results).filter _).subset hr')
    by_cases hdup : r.status = .duplicate
    · -- an echo is passed over
      have hskip : newAnswers (r :: results) = newAnswers results := by simp [newAnswers, hdup]
      rw [addOrder, if_pos hdup]
      exact ih (hskip ▸ hres) hnew hrest
    · have hcons : newAnswers (r :: results) = r :: newAnswers results := by
        simp [newAnswers, hdup]
      rw [hcons] at hres
      by_cases hsame : r.clientOrderId = res.clientOrderId
      · -- the answer itself
        obtain rfl := honce r (hcons ▸ List.mem_cons_self) hsame
        have hnone : (rows.any fun row => row.clientOrderId = r.clientOrderId) = false := by
          rw [List.any_eq_false]
          intro row hrow heq
          exact hnew (List.mem_map.mpr ⟨row, hrow, of_decide_eq_true heq⟩)
        rw [addOrder, if_neg hdup, hnone, if_neg Bool.false_ne_true]
        exact subset_foldl_addOrder _ _ _ (by simp)
      -- another answer first: its row does not take the id
      · have hres' : res ∈ newAnswers results := by
          rcases List.mem_cons.mp hres with rfl | hres
          · exact absurd rfl hsame
          · exact hres
        refine ih hres' ?_ hrest
        rw [addOrder, if_neg hdup]
        split
        · exact hnew
        · intro hmem
          rw [List.map_append, List.mem_append, List.map_singleton, List.mem_singleton] at hmem
          rcases hmem with hmem | hmem
          · exact hnew hmem
          · exact hsame hmem.symm

end Db

/-! ### The desk -/

/-- A service, its database, and the results that wait to be recorded. -/
structure Desk where
  svc : OrderService
  db : Db
  pending : List OrderResult := []

namespace Desk

/-- What happens at the desk. -/
inductive Event
  | submit (order : OrderRequest) (ctx : GuardrailContext) (createdAt : Datetime)
  /-- record a tick with the results that wait -/
  | record (result : TickResult) (startedAt : Datetime) (fate : Fate)
  | restart

/-- An answer waits until its tick is recorded; a submission that raises leaves none. -/
def submit (d : Desk) (order : OrderRequest) (ctx : GuardrailContext) (createdAt : Datetime) :
    Desk :=
  match OrderService.submit order ctx createdAt d.svc with
  | (.ok res, svc) => { d with svc, pending := d.pending ++ [res] }
  | (.error _, svc) => { d with svc }

/-- `record_tick`; a tick that raises here drops its results. -/
def record (d : Desk) (result : TickResult) (startedAt : Datetime) (fate : Fate) : Desk :=
  let recorded : Effect Exn Desk Unit := Effect.commit fate outage fun d =>
    { d with db := d.db.recordTick { result with orders := d.pending } startedAt }
  { (recorded d).2 with pending := [] }

/-- One event; a restart drops what waits, and the ids that were seen. -/
def step (cfg : Settings) (d : Desk) : Event → Desk
  | .submit order ctx createdAt => d.submit order ctx createdAt
  | .record result startedAt fate => d.record result startedAt fate
  | .restart => { d with svc := (Server.restart cfg ⟨d.svc, d.db⟩).svc, pending := [] }

/-- The first process on a database. -/
def start (cfg : Settings) (db : Db) : Desk := { svc := Server.lifespan cfg db, db }

/-- The order of a call has its row. -/
def HasRow (db : Db) (p : Placement) : Prop :=
  ∃ row ∈ db.orders, row.clientOrderId = p.order.clientOrderId ∧ row.status = p.status

instance (db : Db) (p : Placement) : Decidable (HasRow db p) :=
  inferInstanceAs (Decidable (∃ row ∈ db.orders, _))

/-- The answer of a call waits to be recorded, under an id that no row has. -/
def Waits (d : Desk) (p : Placement) : Prop :=
  p.order.clientOrderId ∉ d.db.orders.map OrderRow.clientOrderId ∧
    ∃ res ∈ newAnswers d.pending, res.clientOrderId = p.order.clientOrderId ∧
      res.status = p.status

/-- The defence holds at a step: an order that the process has not seen and that
goes to the executor has an id without a row, and nothing sent is dropped, by a
record that fails or by a restart, before it has its row. -/
def Defended (d : Desk) : Event → Prop
  | .submit order ctx _ => d.svc.seen.get? order.clientOrderId = none →
      runGuardrails order (d.svc.effectiveContext ctx) d.svc.config = [] →
      d.svc.executor.isSome → order.clientOrderId ∉ d.db.orders.map OrderRow.clientOrderId
  | .record _ _ fate => fate = .raises false → ∀ p ∈ d.svc.placed, HasRow d.db p
  | .restart => ∀ p ∈ d.svc.placed, HasRow d.db p

/-- What a defended run keeps. -/
structure Safe (d : Desk) : Prop where
  quiet : d.svc.audit = none
  agrees : OnceLog.Agrees OrderResult.clientOrderId d.svc.seen d.svc.ledger
  answered : ∀ res ∈ newAnswers d.pending, res ∈ d.svc.ledger
  once : (d.svc.placed.map fun p => p.order.clientOrderId).Nodup
  kept : ∀ p ∈ d.svc.placed, HasRow d.db p ∨ Waits d p

theorem safe_start (cfg : Settings) (db : Db) : Safe (start cfg db) := by
  have hconf := Server.configured_start cfg db
  have hplaced : (start cfg db).svc.placed = [] := by
    rw [start, Server.lifespan_setup]
    rfl
  refine ⟨hconf.audit, hconf.agrees, by simp [newAnswers, start], ?_, ?_⟩
  · rw [hplaced]
    exact List.nodup_nil
  · rw [hplaced]
    simp

section Steps

variable {d : Desk}

/-- A call that waits is for an id that the process has seen. -/
theorem Waits.seen (h : Safe d) {p : Placement} (hp : Waits d p) :
    d.svc.seen.get? p.order.clientOrderId ≠ none := by
  obtain ⟨-, res, hres, hid, -⟩ := hp
  rw [(h.agrees.get?_iff _ res).mpr ⟨h.answered res hres, hid⟩]
  exact Option.some_ne_none res

theorem Safe.submit (h : Safe d) {order : OrderRequest} {ctx : GuardrailContext}
    {createdAt : Datetime} (hdef : Defended d (.submit order ctx createdAt)) :
    Safe (d.submit order ctx createdAt) := by
  have hok : ∀ res, d.svc.answer res = .ok res := by
    intro res
    rw [OrderService.answer, OrderService.sinkRaises, h.quiet]
    rfl
  rcases OrderService.submit_cases d.svc order ctx createdAt with
    ⟨prior, -, hrun⟩ | ⟨hunseen, res, calls, hs, hrun⟩
  · -- an echo changes nothing that counts
    have hecho : newAnswers (d.pending ++ [{ prior with status := .duplicate }]) =
        newAnswers d.pending := by simp [newAnswers]
    rw [hok] at hrun
    rw [Desk.submit, hrun]
    refine ⟨h.quiet, h.agrees, ?_, h.once, ?_⟩
    · rw [hecho]
      exact h.answered
    -- an order that waited goes on to wait, and the one just sent starts to
    · intro p hp
      rcases h.kept p hp with hrow | ⟨hnew, hwait⟩
      · exact Or.inl hrow
      · exact Or.inr ⟨hnew, hecho ▸ hwait⟩
  · obtain ⟨hstatus, hcalled⟩ := hs.called
    have hadd : newAnswers (d.pending ++ [res]) = newAnswers d.pending ++ [res] := by
      simp [newAnswers, hstatus]
    rw [hok] at hrun
    rw [Desk.submit, hrun]
    -- a call of this submission is for an id without a row
    have hfresh : ∀ p ∈ calls, p.order.clientOrderId = order.clientOrderId ∧
        order.clientOrderId ∉ d.db.orders.map OrderRow.clientOrderId := by
      intro p hp
      obtain ⟨rfl, -, hpass, hexec⟩ := hcalled p hp
      exact ⟨rfl, hdef hunseen hpass hexec⟩
    refine ⟨h.quiet, h.agrees.record (hs.answers.1 ▸ hunseen), ?_, ?_, ?_⟩
    · rw [hadd]
      intro r hr
      rcases List.mem_append.mp hr with hr | hr
      · exact List.mem_append_left _ (h.answered r hr)
      · exact List.mem_append_right _ hr
    · show ((d.svc.placed ++ calls).map fun p => p.order.clientOrderId).Nodup
      rcases hs.calls_cases with rfl | ⟨-, -, outcome, rfl⟩
      · rw [List.append_nil]
        exact h.once
      · refine OnceLog.nodup_map_concat h.once ?_
        intro hmem
        obtain ⟨p, hp, heq⟩ := List.mem_map.mp hmem
        rcases h.kept p hp with ⟨row, hrow, hid, -⟩ | hwait
        · exact (hfresh _ List.mem_cons_self).2
            (List.mem_map.mpr ⟨row, hrow, hid.trans heq⟩)
        · exact hwait.seen h (heq ▸ hunseen)
    · intro p hp
      rcases List.mem_append.mp hp with hp | hp
      · rcases h.kept p hp with hrow | ⟨hnew, r, hr, hid, hst⟩
        · exact Or.inl hrow
        · exact Or.inr ⟨hnew, r, hadd ▸ List.mem_append_left _ hr, hid, hst⟩
      · obtain ⟨hid, hnew⟩ := hfresh p hp
        refine Or.inr ⟨hid ▸ hnew, res, hadd ▸ List.mem_append_right _ List.mem_cons_self, ?_,
          (hcalled p hp).2.1⟩
        rw [hid]
        exact hs.answers.1

theorem Safe.record (h : Safe d) {result : TickResult} {startedAt : Datetime} {fate : Fate}
    (hdef : Defended d (.record result startedAt fate)) :
    Safe (d.record result startedAt fate) := by
  have hnone : ∀ res ∈ newAnswers ([] : List OrderResult), res ∈ d.svc.ledger := by
    simp [newAnswers]
  -- a record that lands gives every order that waits its row
  have hlanded : ∀ p ∈ d.svc.placed,
      HasRow (d.db.recordTick { result with orders := d.pending } startedAt) p := by
    intro p hp
    rcases h.kept p hp with ⟨row, hrow, hid, hst⟩ | ⟨hnew, res, hres, hid, hst⟩
    · exact ⟨row, Db.subset_foldl_addOrder _ _ _ hrow, hid, hst⟩
    · refine ⟨_, Db.mem_foldl_addOrder hres (hid ▸ hnew) ?_, hid, hst⟩
      intro r hr heq
      exact List.inj_on_of_nodup_map h.agrees.nodup (h.answered r hr) (h.answered res hres) heq
  -- the results are dropped either way, so a record that does not land must have nothing to add
  rcases fate with - | landed
  · exact ⟨h.quiet, h.agrees, hnone, h.once, fun p hp => Or.inl (hlanded p hp)⟩
  · rcases landed with - | -
    · exact ⟨h.quiet, h.agrees, hnone, h.once, fun p hp => Or.inl (hdef rfl p hp)⟩
    · exact ⟨h.quiet, h.agrees, hnone, h.once, fun p hp => Or.inl (hlanded p hp)⟩

theorem Safe.restart (h : Safe d) (cfg : Settings) (hdef : Defended d .restart) :
    Safe (d.step cfg .restart) := by
  have hconf := Server.configured_restart cfg ⟨d.svc, d.db⟩
  exact ⟨hconf.audit, hconf.agrees, by simp [newAnswers, Desk.step], h.once,
    fun p hp => Or.inl (hdef p hp)⟩

theorem Safe.step (h : Safe d) (cfg : Settings) {e : Event} (hdef : Defended d e) :
    Safe (d.step cfg e) := by
  cases e with
  | submit order ctx createdAt => exact h.submit hdef
  | record result startedAt fate => exact h.record hdef
  | restart => exact h.restart cfg hdef

end Steps

/-- **Sending once across restarts.**  In every run whose steps are all defended,
the executor is called at most once an id, and every order it was called with
has its row, or its answer waits to be recorded in the process that sent it. -/
theorem sent_once (cfg : Settings) (db : Db) (es : List Event)
    (h : Run.Admits (step cfg) Defended (start cfg db) es) :
    ((es.foldl (step cfg) (start cfg db)).svc.placed.map
      fun p => p.order.clientOrderId).Nodup ∧
    ∀ p ∈ (es.foldl (step cfg) (start cfg db)).svc.placed,
      HasRow (es.foldl (step cfg) (start cfg db)).db p ∨
        ∃ res ∈ (es.foldl (step cfg) (start cfg db)).pending,
          res.clientOrderId = p.order.clientOrderId ∧ res.status = p.status := by
  have hsafe : Safe (es.foldl (step cfg) (start cfg db)) :=
    h.invariant (fun d e hd he => hd.step cfg he) (safe_start cfg db)
  refine ⟨hsafe.once, ?_⟩
  intro p hp
  rcases hsafe.kept p hp with hrow | ⟨-, res, hres, hid, hst⟩
  · exact Or.inl hrow
  · exact Or.inr ⟨res, (List.mem_filter.mp hres).1, hid, hst⟩

end Desk

namespace Sample

open Desk

/-- One share bought at 1000 won under the id `id`. -/
def submission (id : ClientOrderId) : Event :=
  .submit (req .buy "005930" 1 1000 id)
    { now := tenOClock, portfolioValueKrw := some 1000000 } tenOClock

/-- A tick that only records. -/
def recording : Event :=
  .record { mode := .live, killSwitch := false, universeSymbols := [], candidates := 0,
            decisions := [], orders := [] } tenOClock .returns

end Sample

namespace Desk

/-- After a restart, another id is sent. -/
theorem sent_once_sample :
    let es := [Sample.submission "a", Sample.recording, .restart, Sample.submission "b"]
    ((es.foldl (step Sample.settings) (start Sample.settings {})).svc.placed.map
        fun p => p.order.clientOrderId) = ["a", "b"] ∧
      ((es.foldl (step Sample.settings) (start Sample.settings {})).svc.placed.map
        fun p => p.order.clientOrderId).Nodup := by
  refine ⟨by decide +kernel, (sent_once Sample.settings {}
    [Sample.submission "a", Sample.recording, .restart, Sample.submission "b"]
    ⟨?_, ?_, ?_, ?_, trivial⟩).1⟩
  · intro _ _ _
    exact List.not_mem_nil
  · rintro ⟨⟩
  · show ∀ p ∈ _, HasRow _ p
    decide +kernel
  · intro _ _ _
    decide +kernel

/-- The same id is sent again after a restart, although it has its row. -/
theorem sent_twice :
    ¬ ∀ (cfg : Settings) (db : Db) (es : List Event), cfg.tradingMode = .live →
      ((es.foldl (step cfg) (start cfg db)).svc.placed.map
        fun p => p.order.clientOrderId).Nodup := by
  intro h
  have hsample := h Sample.settings {}
    [Sample.submission "a", Sample.recording, .restart, Sample.submission "a"] rfl
  exact absurd hsample (by decide +kernel)

end Desk

end AutoTrade
