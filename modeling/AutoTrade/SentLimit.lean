/-
AutoTrade/SentLimit.lean

The daily limit and the orders that were really sent.

The calls of the executor are read as postings too (`sentPostings`), next to
those of the rows.  A tick that reaches its record posts every buy that it sent
(`recorded_sends`), so as long as no tick loses its sends, the rows of a day
cover what was sent on it, the next tick starts from at least that, and the
limit on what a tick adds is a limit on what is sent.
-/
import AutoTrade.DailyCap
import AutoTrade.Server

namespace AutoTrade

/-! ### What was sent, as postings -/

/-- A buy for which `executor.place` has returned. -/
def Placement.sentBuy (p : Placement) : Bool :=
  decide (p.order.side = .buy) && match p.outcome with
    | .ok _ => true
    | .error _ => false

/-- What was sent for buys, by day. -/
def sentPostings (calls : List Placement) : List (Posting Date ℚ) :=
  (calls.filter Placement.sentBuy).map fun p => ⟨tradeDateKst p.time, p.order.notional⟩

theorem sentPostings_append (xs ys : List Placement) :
    sentPostings (xs ++ ys) = sentPostings xs ++ sentPostings ys := by
  simp [sentPostings]

/-- What a submission sends, its answer counts. -/
theorem OrderService.Settles.sent {svc : OrderService} {order : OrderRequest}
    {ctx : GuardrailContext} {createdAt : Datetime} {res : OrderResult}
    {calls : List Placement} (h : Settles svc order ctx createdAt res calls) :
    (sentPostings calls).Sublist (buyPostings [res]) := by
  cases h with
  | rejected h => exact List.nil_sublist _
  | dryRun h hmode => exact List.nil_sublist _
  | unset h hmode hexec => exact List.nil_sublist _
  | submitted h hmode hexec hplace =>
    rcases hside : order.side with - | -
    · simp [sentPostings, buyPostings, Placement.sentBuy, OrderResult.acceptedBuy,
        OrderStatus.accepted, OrderService.result, hside]
    · simp [sentPostings, Placement.sentBuy, hside]
  | failed h hmode hexec hplace =>
    simp [sentPostings, Placement.sentBuy]

theorem Submitted.sent {env : OrderEnv} {used : ℚ} {orders : List OrderResult}
    {svc svc' : OrderService} {d : Decision} {order : OrderRequest} {res : OrderResult}
    (h : Submitted env used orders svc d order res svc') :
    ∃ calls, svc'.placed = svc.placed ++ calls ∧
      (sentPostings calls).Sublist (buyPostings [res]) := by
  cases h with
  | duplicate hctx hgate halloc hseen =>
    exact ⟨[], (List.append_nil _).symm, List.nil_sublist _⟩
  | settled hctx hgate halloc hseen hs => exact ⟨_, rfl, hs.sent⟩

/-- The ids of a tick's new answers are ids that the tick drew. -/
theorem settledIn_ids (args : TickArgs) (svc : OrderService) :
    ∀ o ∈ settledIn args svc, ∃ i, o.clientOrderId = (args.stamps i).clientOrderId := by
  refine settledIn_forall ?_
  intro g decisions hg hd d hmem orders s order res s' hsame hsub hdup
  cases hsub with
  | duplicate hctx hgate halloc hseen => exact absurd rfl hdup
  | settled hctx hgate halloc hseen hs =>
    refine ⟨orders.length, ?_⟩
    rw [hs.answers.1]
    obtain ⟨p, -, ⟨-, -, q, -, -, rfl⟩ | ⟨-, c, -, -, rfl⟩⟩ := allocate_cases halloc
    · rfl
    · rfl

/-- The calls of the executor in a tick. -/
def sentIn (args : TickArgs) (svc : OrderService) : List Placement :=
  (runTick args svc).2.placed.drop svc.placed.length

/-- **What a tick sends**, whether it ends or raises: no more than the buys that
it counts, and these are within the cap. -/
theorem runTick_sends (args : TickArgs) (svc : OrderService) :
    ∃ orders, (∀ r, (runTick args svc).1 = .ok r → r.orders = orders) ∧
      settledIn args svc = newAnswers orders ∧
      (runTick args svc).2.placed = svc.placed ++ sentIn args svc ∧
      (sentPostings (sentIn args svc)).Sublist (buyPostings orders) ∧
      WithinCap args svc.config.dailyBuyCapKrw orders := by
  obtain ⟨orders, hret, hset, ⟨hcap, -⟩, calls, hcalls, hsub⟩ := runTick_rule
    (I := fun orders s => (WithinCap args svc.config.dailyBuyCapKrw orders ∧
        s.config = svc.config) ∧
      ∃ calls, s.placed = svc.placed ++ calls ∧
        (sentPostings calls).Sublist (buyPostings orders))
    ⟨⟨withinCap_nil _ _, rfl⟩, [], (List.append_nil _).symm, List.nil_sublist _⟩
    (fun g _ => ⟨⟨withinCap_nil _ _, rfl⟩, [], (List.append_nil _).symm, List.nil_sublist _⟩) (by
      rintro g decisions - - d - orders s order res s' - ⟨⟨hcap, hconf⟩, calls, hcalls, hsub⟩ hnew
      obtain ⟨more, hmore, hsent⟩ := hnew.sent
      refine ⟨⟨?_, hnew.sameSetup.config.trans hconf⟩, calls ++ more, ?_, ?_⟩
      · rw [← hconf] at hcap ⊢
        exact hcap.submitted hnew
      · rw [hmore, hcalls, List.append_assoc]
      · rw [sentPostings_append, buyPostings_append]
        exact hsub.append hsent)
  have hsentIn : sentIn args svc = calls := by
    rw [sentIn, hcalls, List.drop_left]
  exact ⟨orders, hret, hset, hsentIn ▸ hcalls, hsentIn ▸ hsub, hcap⟩

/-! ### What is recorded -/

/-- The new answers of a tick have ids of their own, and none that has a row if the
tick draws none. -/
theorem newAnswers_ids {args : TickArgs} {svc : OrderService} {rows : List OrderRow}
    {r : TickResult} (hr : (runTick args svc).1 = .ok r)
    (hagrees : OnceLog.Agrees OrderResult.clientOrderId (runTick args svc).2.seen
      (runTick args svc).2.ledger)
    (hids : ∀ i, (args.stamps i).clientOrderId ∉ rows.map OrderRow.clientOrderId) :
    ((newAnswers r.orders).map OrderResult.clientOrderId).Nodup ∧
      ∀ o ∈ newAnswers r.orders, o.clientOrderId ∉ rows.map OrderRow.clientOrderId := by
  have hset : settledIn args svc = newAnswers r.orders := settledIn_eq hr
  constructor
  -- one answer an id in the ledger
  · rw [← hset]
    exact hagrees.nodup.sublist ((List.drop_sublist _ _).map _)
  · intro o ho
    obtain ⟨i, hi⟩ := settledIn_ids args svc o (hset ▸ ho)
    rw [hi]
    exact hids i

/-- A tick whose ids have no rows posts all of its buys when it is recorded. -/
theorem rowPostings_recordTick_of_new {args : TickArgs} {svc : OrderService} {db : Db}
    {r : TickResult} (hr : (runTick args svc).1 = .ok r) (startedAt : Datetime)
    (hagrees : OnceLog.Agrees OrderResult.clientOrderId (runTick args svc).2.seen
      (runTick args svc).2.ledger)
    (hids : ∀ i, (args.stamps i).clientOrderId ∉ db.orders.map OrderRow.clientOrderId) :
    rowPostings (db.recordTick r startedAt).orders =
      rowPostings db.orders ++ buyPostings r.orders := by
  obtain ⟨hnodup, hnew⟩ := newAnswers_ids hr hagrees hids
  show rowPostings (r.orders.foldl (Db.addOrder (db.ticks.length + 1)) db.orders) = _
  rw [Db.foldl_addOrder_of_nodup hnodup hnew, ← buyPostings_newAnswers r.orders,
    ← rowPostings_orderRow (newAnswers r.orders) (db.ticks.length + 1)]
  simp [rowPostings]

/-! ### The machine with a clock -/

/-- A cap of 100000 won. -/
def Sample.capped : Settings :=
  { Sample.settings with guardrails := { perSymbolMaxWeight := 1, dailyBuyCapKrw := 100000 } }

/-- A tick whose record fails. -/
def Sample.unrecorded : Server.Event :=
  .tick (Sample.tickInput "a" (Sample.account 100) (Sample.failing .recordTick))

/-- The server and the clock of its process. -/
structure Clocked where
  server : Server
  clock : Instant

namespace Clocked

/-- A step of the server and the reading of the clock when it is over. -/
def step (cfg : Settings) (c : Clocked) (e : Server.Event × Instant) : Clocked where
  server := c.server.step cfg e.1
  clock := e.2

/-- What the clock and `uuid4` give: the time does not go back, and the ids that
a tick draws have no rows. -/
structure Serial (c : Clocked) (e : Server.Event × Instant) : Prop where
  clock : c.clock ≤ e.2
  during : ∀ t, e.1 = .tick t → c.clock ≤ t.now.instant ∧ t.now.instant ≤ e.2 ∧
    ∀ i, t.now.instant ≤ (t.stamps i).createdAt.instant ∧
      (t.stamps i).createdAt.instant ≤ e.2
  fresh : ∀ t, e.1 = .tick t → ∀ i,
    (t.stamps i).clientOrderId ∉ c.server.db.orders.map OrderRow.clientOrderId

/-- A tick that loses what it sent: it sends a buy, and then `run_tick` raises,
or the message about the breaker is not sent, or the tick is not recorded. -/
def Loses (cfg : Settings) (c : Clocked) (e : Server.Event × Instant) : Prop :=
  ∃ t toss o s, e.1 = .tick t ∧ t.toss = some toss ∧
    openTick cfg t toss c.server = (.ok o, s) ∧ sentPostings (sentIn o.args s.svc) ≠ [] ∧
    ((∀ r, (runTick o.args s.svc).1 ≠ .ok r) ∨ t.fates .sendBreaker ≠ .returns ∨
      t.fates .recordTick = .raises false)

/-- What a run keeps: the limit on what was sent, and its cover by the rows. -/
structure Covered (cfg : Settings) (c : Clocked) : Prop where
  configured : c.server.Configured cfg
  kept : Posting.Kept cfg.guardrails.dailyBuyCapKrw (tradeDateKst (.utc c.clock))
    (sentPostings c.server.svc.placed)
  nonneg : ∀ p ∈ rowPostings c.server.db.orders, 0 ≤ p.amount
  covers : ∀ day, Posting.spent (sentPostings c.server.svc.placed) day ≤
    Posting.spent (rowPostings c.server.db.orders) day

/-- A step that sends nothing and drops no row keeps the cover. -/
theorem Covered.idle {cfg : Settings} {c c' : Clocked} (h : Covered cfg c)
    (hclock : c.clock ≤ c'.clock) (hconf : c'.server.Configured cfg)
    (hplaced : c'.server.svc.placed = c.server.svc.placed)
    (horders : c'.server.db.orders = c.server.db.orders) : Covered cfg c' := by
  refine ⟨hconf, ?_, ?_, ?_⟩
  · rw [hplaced]
    exact h.kept.later (tradeDateKst_mono hclock)
  · rw [horders]
    exact h.nonneg
  · rw [hplaced, horders]
    exact h.covers

/-- What a recorded tick adds to the rows covers what it has sent, unless it
loses it. -/
theorem covers_tick {cfg : Settings} {t : TickInput} {o : Opened} {s' s'' : Server}
    {orders : List OrderResult} {ps : List (Posting Date ℚ)} {cap : ℚ}
    (hpersisted : cfg.persisted) (hclose : Closes cfg t o s' s'')
    (hagrees : OnceLog.Agrees OrderResult.clientOrderId s''.svc.seen s''.svc.ledger)
    (hids : ∀ i, (o.args.stamps i).clientOrderId ∉ s'.db.orders.map OrderRow.clientOrderId)
    (hret : ∀ r, (runTick o.args s'.svc).1 = .ok r → r.orders = orders)
    (hsub : (sentPostings (sentIn o.args s'.svc)).Sublist (buyPostings orders))
    (hcap : WithinCap o.args cap orders)
    (hkeep : sentPostings (sentIn o.args s'.svc) ≠ [] →
      (∃ r, (runTick o.args s'.svc).1 = .ok r) ∧ t.fates .sendBreaker = .returns ∧
        t.fates .recordTick ≠ .raises false)
    (hps : ∀ day, Posting.spent ps day ≤ Posting.spent (rowPostings s'.db.orders) day)
    (hrows : ∀ p ∈ rowPostings s'.db.orders, 0 ≤ p.amount) :
    (∀ p ∈ rowPostings s''.db.orders, 0 ≤ p.amount) ∧
      ∀ day, Posting.spent (ps ++ sentPostings (sentIn o.args s'.svc)) day ≤
        Posting.spent (rowPostings s''.db.orders) day := by
  by_cases hsent : sentPostings (sentIn o.args s'.svc) = []
  · -- nothing was sent: the rows only grow
    have hgrow : ∃ gs, gs.Sublist (buyPostings orders) ∧
        rowPostings s''.db.orders = rowPostings s'.db.orders ++ gs := by
      rcases hclose.orders with hsame | ⟨r, hr, hrec⟩
      · exact ⟨[], List.nil_sublist _, by rw [hsame, List.append_nil]⟩
      · obtain ⟨gs, hgs, heq⟩ := SerialTick.rowPostings_recordTick s'.db r t.now
        exact ⟨gs, hret r hr ▸ hgs, hrec ▸ heq⟩
    obtain ⟨gs, hgs, heq⟩ := hgrow
    have hgs0 : ∀ p ∈ gs, 0 ≤ p.amount := fun p hp => hcap.nonneg p (hgs.subset hp)
    rw [heq, hsent, List.append_nil]
    refine ⟨?_, ?_⟩
    · intro p hp
      rcases List.mem_append.mp hp with hp | hp
      · exact hrows p hp
      · exact hgs0 p hp
    · intro day
      rw [Posting.spent_append]
      exact (hps day).trans (le_add_of_nonneg_right (Posting.spent_nonneg hgs0))
  · -- something was sent, so the tick was recorded
    obtain ⟨⟨r, hr⟩, hbreaker, hrecord⟩ := hkeep hsent
    have hrec := hclose.recorded r hpersisted hr hbreaker hrecord
    rw [hclose.svc] at hagrees
    have heq : rowPostings s''.db.orders = rowPostings s'.db.orders ++ buyPostings orders := by
      rw [hrec, rowPostings_recordTick_of_new hr t.now hagrees hids, hret r hr]
    rw [heq]
    refine ⟨?_, ?_⟩
    · intro p hp
      rcases List.mem_append.mp hp with hp | hp
      · exact hrows p hp
      · exact hcap.nonneg p hp
    · intro day
      rw [Posting.spent_append, Posting.spent_append]
      exact add_le_add (hps day) (Posting.spent_le_of_sublist hsub hcap.nonneg)

/-- The day's buys that a tick passes on are at least what was sent. -/
theorem Covered.used {cfg : Settings} {c : Clocked} (h : Covered cfg c)
    (hlive : cfg.tradingMode = .live) {t : TickInput} {o : Opened} {s : Server}
    (hopens : Opens cfg t c.server o s) :
    Posting.spent (sentPostings c.server.svc.placed) (tradeDateKst t.now) ≤
      o.args.dailyBuyUsedKrw := by
  rw [hopens.used (Settings.persisted_of_live hlive), buyNotionalToday_eq]
  exact h.covers _

/-- A tick that came to its orders and keeps what it sent keeps the cover. -/
theorem Covered.traded {cfg : Settings} {c c' : Clocked} {t : TickInput} {o : Opened}
    {s : Server} (h : Covered cfg c) (hlive : cfg.tradingMode = .live)
    (hconf : c'.server.Configured cfg) (hopens : Opens cfg t c.server o s)
    (hclose : Closes cfg t o s c'.server)
    (hnow : c.clock ≤ t.now.instant ∧ t.now.instant ≤ c'.clock)
    (hduring : ∀ i, t.now.instant ≤ (t.stamps i).createdAt.instant ∧
      (t.stamps i).createdAt.instant ≤ c'.clock)
    (hfresh : ∀ i, (t.stamps i).clientOrderId ∉
      c.server.db.orders.map OrderRow.clientOrderId)
    (hkeep : sentPostings (sentIn o.args s.svc) ≠ [] →
      (∃ r, (runTick o.args s.svc).1 = .ok r) ∧ t.fates .sendBreaker = .returns ∧
        t.fates .recordTick ≠ .raises false) : Covered cfg c' := by
  have hpersisted := Settings.persisted_of_live hlive
  have hplaced : s.svc.placed = c.server.svc.placed := by rw [hopens.untraded.svc]
  have hconfig : s.svc.config = cfg.guardrails := by
    rw [hopens.untraded.svc]
    exact h.configured.config
  have hrows : s.db.orders = c.server.db.orders := hopens.untraded.orders
  obtain ⟨orders, hret, -, hcalls, hsub, hcap⟩ := runTick_sends o.args s.svc
  rw [hconfig] at hcap
  -- what was sent by now is what was sent before and what the tick sends
  have hsent : sentPostings c'.server.svc.placed =
      sentPostings c.server.svc.placed ++ sentPostings (sentIn o.args s.svc) := by
    rw [hclose.svc, hcalls, sentPostings_append, hplaced]
  have hcovers := covers_tick hpersisted hclose hconf.agrees
    (by rw [hopens.stamps, hrows]; exact hfresh) hret hsub hcap hkeep
    (by rw [hrows]; exact h.covers) (by rw [hrows]; exact h.nonneg)
  rw [← hsent] at hcovers
  refine ⟨hconf, ?_, hcovers.1, hcovers.2⟩
  rw [hsent]
  -- the session of this tick, from the day's buys that it was given
  refine Posting.Kept.session h.kept (tradeDateKst_mono hnow.1) (h.used hlive hopens) ?_ ?_ ?_
    (tradeDateKst_mono hnow.2) ?_
  · rw [hopens.used hpersisted, buyNotionalToday_eq]
    exact Posting.spent_nonneg h.nonneg
  · exact fun p hp => hcap.nonneg p (hsub.subset hp)
  · intro p hp
    obtain ⟨i, hi⟩ := hcap.dated p (hsub.subset hp)
    rw [hopens.stamps] at hi
    rw [hi]
    exact ⟨tradeDateKst_mono (hduring i).1, tradeDateKst_mono (hduring i).2⟩
  · intro hne
    have hsome : buyPostings orders ≠ [] := by
      intro hnil
      rw [hnil] at hsub
      exact hne (List.sublist_nil.mp hsub)
    calc o.args.dailyBuyUsedKrw + Posting.total (sentPostings (sentIn o.args s.svc))
        ≤ o.args.dailyBuyUsedKrw + Posting.total (buyPostings orders) := by
          gcongr
          exact Posting.total_le_of_sublist hsub hcap.nonneg
      _ ≤ cfg.guardrails.dailyBuyCapKrw := hcap.granted hsome

/-- **A step keeps the cover**, unless it is a tick that loses what it sent. -/
theorem Covered.step {cfg : Settings} {c : Clocked} {e : Server.Event × Instant}
    (h : Covered cfg c) (hlive : cfg.tradingMode = .live) (hserial : Serial c e)
    (hkeep : ¬ Loses cfg c e) : Covered cfg (c.step cfg e) := by
  have hconf : (c.step cfg e).server.Configured cfg := h.configured.step e.1
  rcases Server.step_cases cfg c.server e.1 with ⟨t, het, hends⟩ | ⟨-, hrestart⟩ | ⟨-, -, hrouted⟩
  · have hends : TickEnds cfg t c.server (c.step cfg e).server := hends
    rcases hstep : (c.step cfg e).server with ⟨svc, db⟩
    rw [hstep] at hends
    cases hends with
    | unopened hsame =>
      refine h.idle hserial.clock hconf ?_ ?_
      · rw [hstep, hsame.svc]
      · rw [hstep, hsame.orders]
    | @closed toss o s' _ htoss hopen hopens hclose =>
      rw [← hstep] at hclose
      obtain ⟨hlow, hhigh, hduring⟩ := hserial.during t het
      refine h.traded hlive hconf hopens hclose ⟨hlow, hhigh⟩ hduring (hserial.fresh t het) ?_
      intro hne
      by_contra hlost
      refine hkeep ⟨t, toss, o, s', het, htoss, hopen, hne, ?_⟩
      by_contra hno
      push Not at hno
      exact hlost hno
  · refine h.idle hserial.clock hconf ?_ ?_
    · show (c.server.step cfg e.1).svc.placed = _
      rw [hrestart]
      rfl
    · show (c.server.step cfg e.1).db.orders = _
      rw [hrestart]
      rfl
  · refine h.idle hserial.clock hconf ?_ ?_
    · show (c.server.step cfg e.1).svc.placed = _
      rw [hrouted.svc]
    · exact hrouted.orders

/-- **A sent order is not forgotten by the daily limit, unless its tick loses
it.**  In every live run whose ticks all keep what they sent, every tick starts
from a day's use that covers what was sent on its day, and what is sent on a day
is within the cap. -/
theorem sent_within_cap (cfg : Settings) (db : Db) (clock : Instant)
    (es : List (Server.Event × Instant)) (hlive : cfg.tradingMode = .live)
    (hcap : 0 ≤ cfg.guardrails.dailyBuyCapKrw) (hdb : ∀ row ∈ db.orders, 0 ≤ row.cost)
    (hserial : Run.Admits (step cfg) Serial ⟨.start cfg db, clock⟩ es)
    (hkeep : Run.Admits (step cfg) (fun c e => ¬ Loses cfg c e) ⟨.start cfg db, clock⟩ es) :
    (∀ pre e post t toss o s, es = pre ++ e :: post → e.1 = .tick t → t.toss = some toss →
      openTick cfg t toss (pre.foldl (step cfg) ⟨.start cfg db, clock⟩).server = (.ok o, s) →
      Posting.spent (sentPostings
          (pre.foldl (step cfg) ⟨.start cfg db, clock⟩).server.svc.placed)
        (tradeDateKst t.now) ≤ o.args.dailyBuyUsedKrw) ∧
    ∀ day, Posting.spent (sentPostings
        (es.foldl (step cfg) ⟨.start cfg db, clock⟩).server.svc.placed) day ≤
      cfg.guardrails.dailyBuyCapKrw := by
  have hplaced : (Server.start cfg db).svc.placed = [] := by
    rw [Server.start, Server.lifespan_setup]
    rfl
  -- a new process has sent nothing
  have hstart : Covered cfg ⟨.start cfg db, clock⟩ := by
    have hrows : ∀ p ∈ rowPostings db.orders, 0 ≤ p.amount := by
      intro p hp
      obtain ⟨row, hrow, rfl⟩ := List.mem_map.mp hp
      exact hdb row (List.mem_of_mem_filter hrow)
    refine ⟨Server.configured_start cfg db, ?_, hrows, ?_⟩
    · rw [hplaced]
      exact Posting.kept_nil hcap _
    · intro day
      rw [hplaced]
      exact Posting.spent_nonneg hrows
  have hstep : ∀ c e, Covered cfg c → Serial c e ∧ ¬ Loses cfg c e → Covered cfg (c.step cfg e) :=
    fun c e hc he => hc.step hlive he.1 he.2
  have hes := hserial.and hkeep
  refine ⟨?_, (hes.invariant hstep hstart).kept.within⟩
  rintro pre e post t toss o s rfl - - hopen
  have hpre : Covered cfg (pre.foldl (step cfg) ⟨.start cfg db, clock⟩) :=
    hes.split.1.invariant hstep hstart
  exact hpre.used hlive ((openTick_spec toss _).of_ok hopen)

end Clocked

namespace Sample

/-- Two ticks that each buy for 100000 won, and are recorded. -/
def liveTicks : List (Server.Event × Instant) :=
  [(.tick (tickInput "a" (account 100) returning), tenOClock.instant),
    (.tick (tickInput "b" (account 100) returning), tenOClock.instant)]

/-- The server after the first of them. -/
def oneSent : Clocked :=
  Clocked.step settings ⟨.start settings {}, 0⟩
    (.tick (tickInput "a" (account 100) returning), tenOClock.instant)

end Sample

namespace Clocked

/-- A tick whose `run_tick` returns, and that is recorded, loses nothing. -/
theorem not_loses_of_ok {cfg : Settings} {c : Clocked} {id : ClientOrderId}
    {holdings : Holdings} {at' : Instant}
    (hruns : (match openTick cfg (Sample.tickInput id holdings Sample.returning)
        (Sample.flatToss 1000000 holdings) c.server with
      | (.ok o, s) => (runTick o.args s.svc).1.isOk
      | (.error _, _) => false) = true) :
    ¬ Loses cfg c (.tick (Sample.tickInput id holdings Sample.returning), at') := by
  rintro ⟨t, toss, o, s, ⟨⟩, ⟨⟩, hopen, -, hlost⟩
  rw [hopen] at hruns
  have hruns : (runTick o.args s.svc).1.isOk = true := hruns
  rcases hlost with hraises | hfate | hfate
  · rcases hrun : (runTick o.args s.svc).1 with e | r
    · rw [hrun] at hruns
      cases hruns
    · exact hraises r hrun
  · exact hfate rfl
  · cases hfate

/-- What the first tick sent is used when the second opens, and together they are within
the cap. -/
theorem sent_within_cap_sample :
    Posting.spent (sentPostings Sample.oneSent.server.svc.placed)
        (tradeDateKst Sample.tenOClock) = 100000 ∧
      (∀ o s, openTick Sample.settings
          (Sample.tickInput "b" (Sample.account 100) Sample.returning)
          (Sample.flatToss 1000000 (Sample.account 100)) Sample.oneSent.server = (.ok o, s) →
        Posting.spent (sentPostings Sample.oneSent.server.svc.placed)
          (tradeDateKst Sample.tenOClock) ≤ o.args.dailyBuyUsedKrw) ∧
      Posting.spent (sentPostings (Sample.liveTicks.foldl (step Sample.settings)
          ⟨.start Sample.settings {}, 0⟩).server.svc.placed)
        (tradeDateKst Sample.tenOClock) = 200000 ∧
      ∀ day, Posting.spent (sentPostings (Sample.liveTicks.foldl (step Sample.settings)
        ⟨.start Sample.settings {}, 0⟩).server.svc.placed) day ≤ 500000 := by
  have hids : Sample.oneSent.server.db.orders.map OrderRow.clientOrderId = ["a0"] := by
    decide +kernel
  have hserial : Run.Admits (step Sample.settings) Serial ⟨.start Sample.settings {}, 0⟩
      Sample.liveTicks := by
    refine ⟨⟨by decide, ?_, ?_⟩, ⟨le_refl _, ?_, ?_⟩, trivial⟩
    · rintro t ⟨⟩
      exact ⟨by decide, le_refl _, fun i => ⟨le_refl _, le_refl _⟩⟩
    · rintro t ⟨⟩ i
      exact List.not_mem_nil
    · rintro t ⟨⟩
      exact ⟨le_refl _, le_refl _, fun i => ⟨le_refl _, le_refl _⟩⟩
    · rintro t ⟨⟩ i hid
      -- an id of the second tick starts with another letter
      replace hid : "b" ++ toString i ∈
          Sample.oneSent.server.db.orders.map OrderRow.clientOrderId := hid
      rw [hids, List.mem_singleton] at hid
      have hfirst := congrArg (fun id : String => id.toList.head?) hid
      simp at hfirst
  have hkeep : Run.Admits (step Sample.settings) (fun c e => ¬ Loses Sample.settings c e)
      ⟨.start Sample.settings {}, 0⟩ Sample.liveTicks :=
    ⟨not_loses_of_ok (by decide +kernel), not_loses_of_ok (by decide +kernel), trivial⟩
  obtain ⟨hused, hwithin⟩ := sent_within_cap Sample.settings {} 0 Sample.liveTicks rfl
    (by decide) (by simp) hserial hkeep
  have hfirst : (Sample.liveTicks.take 1).foldl (step Sample.settings)
      ⟨.start Sample.settings {}, 0⟩ = Sample.oneSent := rfl
  refine ⟨by decide +kernel, ?_, by decide +kernel, hwithin⟩
  intro o s hopen
  have hcovers := hused (Sample.liveTicks.take 1) _ [] _ _ o s rfl rfl rfl
  rw [hfirst] at hcovers
  exact hcovers hopen

/-- A tick sends a buy of 100000 won and is not recorded; the next one sends
another. -/
theorem sent_over_cap :
    ¬ ∀ (cfg : Settings) (db : Db) (clock : Instant) (es : List (Server.Event × Instant)),
      cfg.tradingMode = .live → 0 ≤ cfg.guardrails.dailyBuyCapKrw →
      (∀ row ∈ db.orders, 0 ≤ row.cost) →
      Run.Admits (step cfg) Serial ⟨.start cfg db, clock⟩ es →
      ∀ day, Posting.spent (sentPostings
          (es.foldl (step cfg) ⟨.start cfg db, clock⟩).server.svc.placed) day ≤
        cfg.guardrails.dailyBuyCapKrw := by
  intro h
  have hnone : ((Server.start Sample.capped {}).step Sample.capped Sample.unrecorded).db.orders =
      [] := List.isEmpty_iff.mp (by decide +kernel)
  have hsample := h Sample.capped {} 0
    [(Sample.unrecorded, Sample.tenOClock.instant),
      (.tick (Sample.tickInput "b" (Sample.account 100) Sample.returning),
        Sample.tenOClock.instant)] rfl (by decide) (by simp)
    ⟨⟨by decide, ?_, ?_⟩, ⟨le_refl _, ?_, ?_⟩, trivial⟩ (tradeDateKst Sample.tenOClock)
  · exact absurd hsample (by decide +kernel)
  · rintro t ⟨⟩
    exact ⟨by decide, le_refl _, fun i => ⟨le_refl _, le_refl _⟩⟩
  · rintro t ⟨⟩ i
    exact List.not_mem_nil
  · rintro t ⟨⟩
    exact ⟨le_refl _, le_refl _, fun i => ⟨le_refl _, le_refl _⟩⟩
  · rintro t ⟨⟩ i
    show _ ∉ List.map _ ((Server.start Sample.capped {}).step _ Sample.unrecorded).db.orders
    rw [hnone]
    exact List.not_mem_nil

end Clocked

end AutoTrade
