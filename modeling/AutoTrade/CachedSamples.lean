/-
AutoTrade/CachedSamples.lean

The candle cache that the ticks fill, and the samples that a calibration report reads
from it.

An answer of the broker goes back some days, and its last bar is the one of the day it is
asked for, which still moves (`toss/caching.py`).  So of a cached answer the bars before
that day are a part of the symbol's history (`Answers`), and the rest may change with the
next answer.

`samples_settled` is about two reports of one run.  Each sample of a report is the return
of the history, counted on by the bars after the decision that the answer has lost, or it
is the return at a bar that was not finished.  And the samples of the first kind whose
answers have lost no bar are in every later report, whatever was decided and cached in
between: decisions are only added, and an answer is only replaced by one that is as far
along.
-/
import AutoTrade.Caching
import AutoTrade.Calibration
import AutoTrade.LlmCap

namespace AutoTrade

open ReadThrough

/-! ### The run -/

/-- A step of the server, with the calls of `get_candles` that it makes. -/
structure Turn (Bar : Type) where
  event : Server.Event
  calls : List (CandleCall Bar)

/-- The server, and the candle cache of its database. -/
structure Trading (Bar Payload : Type) where
  server : Server
  cache : CandleCache Bar Payload

section Run

variable {Bar Payload : Type} (codec : CandleCodec Bar Payload) (ttlMinutes : ℤ)

/-- Calls one after the other: what each gives, and the cache after them. -/
def getAll : List (CandleCall Bar) → CandleCache Bar Payload →
    List (Symbol × Except Exn (List Bar)) × CandleCache Bar Payload
  | [], cache => ([], cache)
  | c :: calls, cache =>
    let (bars, cache) := getCandles codec ttlMinutes c cache
    let (given, cache) := getAll calls cache
    ((c.symbol, bars) :: given, cache)

variable (view : Bar → Candle)

/-- `CachingToss` around the broker of a tick.  The proxy is asked for after the screen. -/
def Toss.caching (given : List (Symbol × Except Exn (List Bar))) (toss : Toss) : Toss :=
  { toss with
    getCandles := fun symbol => match given.lookup symbol with
      | some bars => bars.map (List.map view)
      | none => toss.getCandles symbol
    getProxyCandles := fun symbol => match given.reverse.lookup symbol with
      | some bars => bars.map (List.map view)
      | none => toss.getProxyCandles symbol }

/-- The event, with the candles that its calls give. -/
def Server.Event.caching (given : List (Symbol × Except Exn (List Bar))) :
    Server.Event → Server.Event
  | .tick t => .tick { t with toss := t.toss.map (Toss.caching view given) }
  | e => e

namespace Trading

/-- A turn: the calls for candles, and the event of the server that was given them. -/
def step (cfg : Settings) (s : Trading Bar Payload) (turn : Turn Bar) : Trading Bar Payload :=
  let (given, cache) := getAll codec ttlMinutes turn.calls s.cache
  { server := Server.step cfg s.server (turn.event.caching view given), cache }

/-- A run that begins with an empty cache. -/
def run (cfg : Settings) (s : Server) (turns : List (Turn Bar)) : Trading Bar Payload :=
  turns.foldl (step codec ttlMinutes view cfg) ⟨s, ⟨∅, []⟩⟩

end Trading

/-- The calls of a run. -/
def callsOf (turns : List (Turn Bar)) : List (CandleCall Bar) := turns.flatMap Turn.calls

variable {codec ttlMinutes view} {cfg : Settings}

theorem getAll_cache (calls : List (CandleCall Bar)) (cache : CandleCache Bar Payload) :
    (getAll codec ttlMinutes calls cache).2 =
      ReadThrough.run (cachingToss codec) cache (calls.map (CandleCall.read ttlMinutes)) := by
  induction calls generalizing cache with
  | nil => rfl
  | cons c calls ih => exact ih _

theorem foldl_cache (turns : List (Turn Bar)) (s : Trading Bar Payload) :
    (turns.foldl (Trading.step codec ttlMinutes view cfg) s).cache =
      ReadThrough.run (cachingToss codec) s.cache
        ((callsOf turns).map (CandleCall.read ttlMinutes)) := by
  induction turns generalizing s with
  | nil => rfl
  | cons turn turns ih =>
    have hcalls : callsOf (turn :: turns) = turn.calls ++ callsOf turns := List.flatMap_cons
    have hstep : (Trading.step codec ttlMinutes view cfg s turn).cache =
        ReadThrough.run (cachingToss codec) s.cache
          (turn.calls.map (CandleCall.read ttlMinutes)) := getAll_cache turn.calls s.cache
    rw [List.foldl_cons, ih, hcalls, hstep, List.map_append]
    exact List.foldl_append.symm

/-- The cache of a run is the one of its calls. -/
theorem Trading.run_cache (s : Server) (turns : List (Turn Bar)) :
    (Trading.run codec ttlMinutes view cfg s turns).cache =
      candleCache codec ttlMinutes (callsOf turns) :=
  foldl_cache turns _

theorem foldl_grows (turns : List (Turn Bar)) (s : Trading Bar Payload) :
    Server.Grows s.server (turns.foldl (Trading.step codec ttlMinutes view cfg) s).server :=
  Run.foldl_invariant (I := fun s' : Trading Bar Payload => Server.Grows s.server s'.server)
    (fun s' _ h => trans_of _ h (Server.step_grows s'.server _)) (refl_of _ s.server) turns

end Run

/-! ### The caches of a report -/

section Report

variable {Bar Payload : Type}

/-- `{r.symbol: json.loads(r.payload_json) ..}`, with the day and the close of each candle. -/
def cachesOf (point : Payload → Date × ℚ) (cache : CandleCache Bar Payload) : Caches :=
  (Dict.ofList (cache.rows.entries.map fun e => (e.1.1, e.2.value.map point))).get?

/-- With one interval a symbol has one row. -/
theorem cachesOf_eq {point : Payload → Date × ℚ} {cache : CandleCache Bar Payload}
    (hdaily : ∀ k ∈ cache.rows.keys, k.2 = "1d") (s : Symbol) :
    cachesOf point cache s =
      (cache.rows.get? (s, "1d")).map fun row => row.value.map point := by
  have hnodup : ((cache.rows.entries.map fun e => (e.1.1, e.2.value.map point)).map
      Prod.fst).Nodup := by
    have hkeys : (cache.rows.entries.map fun e => (e.1.1, e.2.value.map point)).map Prod.fst =
        cache.rows.keys.map Prod.fst := by
      rw [List.map_map, Dict.keys, List.map_map]
      rfl
    rw [hkeys]
    refine List.Nodup.map_on ?_ cache.rows.keys_nodup
    intro k hk k' hk' heq
    exact Prod.ext heq ((hdaily k hk).trans (hdaily k' hk').symm)
  apply Option.ext
  intro payload
  rw [cachesOf, Dict.get?_ofList hnodup, List.mem_map, Option.map_eq_some_iff]
  constructor
  · rintro ⟨⟨k, row⟩, hmem, heq⟩
    obtain ⟨rfl, rfl⟩ := Prod.mk.inj heq
    have hk : k = (k.1, "1d") :=
      Prod.ext rfl (hdaily k (List.mem_map_of_mem (f := Prod.fst) hmem))
    exact ⟨row, Dict.get?_eq_some.mpr (hk ▸ hmem), rfl⟩
  · rintro ⟨row, hrow, rfl⟩
    exact ⟨((s, "1d"), row), Dict.get?_eq_some.mp hrow, rfl⟩

/-! ### What the broker answers -/

/-- The bars of an answer, split where the history ends: it has lost `old`, it has
`window`, and `live` is what is not settled on the day that it is asked for. -/
structure AnswerSplit (hist : List (Date × ℚ)) (today : Date)
    (bars old window live new : List (Date × ℚ)) : Prop where
  split : hist = old ++ window ++ new
  past : ∀ b ∈ old ++ window, b.1 < today
  future : ∀ b ∈ new, today ≤ b.1
  unsettled : ∀ b ∈ live, today ≤ b.1
  perm : bars.Perm (window ++ live)

/-- The answer is the end of what is settled of the history, and what is not settled. -/
def Answers (hist : List (Date × ℚ)) (today : Date) (bars : List (Date × ℚ)) : Prop :=
  ∃ old window live new, AnswerSplit hist today bars old window live new

/-- The bars of an answer that are settled on a day. -/
def settledBars (today : Date) (bars : List (Date × ℚ)) : List (Date × ℚ) :=
  bars.filter fun b => b.1 < today

/-- The bars between a decision and a day that an answer has lost. -/
def lostBars (hist : List (Date × ℚ)) (date today : Date) (bars : List (Date × ℚ)) :
    List (Date × ℚ) :=
  hist.filter fun b => date < b.1 ∧ b.1 < today ∧ b ∉ bars

/-- The bars of a list that are after a day. -/
def later (date : Date) (bars : List (Date × ℚ)) : ℕ := bars.countP fun b => date < b.1

variable {hist bars old window live new : List (Date × ℚ)} {date today : Date} {price r : ℚ}
  {h : ℤ}

theorem later_append (bars bars' : List (Date × ℚ)) :
    later date (bars ++ bars') = later date bars + later date bars' := List.countP_append

theorem length_closes (bars : List (Date × ℚ)) :
    ((bars.filter fun b => date < b.1).map Prod.snd).length = later date bars := by
  rw [List.length_map, later, List.countP_eq_length_filter]

/-- The bars before a list only count on. -/
theorem forwardReturn_skip (hh : 1 ≤ h) :
    forwardReturn (old ++ bars) date price (h + later date old) =
      forwardReturn bars date price h := by
  have hskip : (h + later date old - 1).toNat = later date old + (h - 1).toNat := by omega
  have hbad : (price ≤ 0 ∨ h + later date old < 1) ↔ (price ≤ 0 ∨ h < 1) :=
    or_congr Iff.rfl (by omega)
  unfold forwardReturn
  rw [if_congr hbad rfl rfl]
  simp only
  rw [List.filter_append, List.map_append, hskip, ← length_closes old,
    List.getElem?_append_right (Nat.le_add_right _ _), Nat.add_sub_cancel_left]

/-- The bars after those that are counted do not matter. -/
theorem forwardReturn_append (hh : 1 ≤ h) (hlen : h ≤ later date window) :
    forwardReturn (window ++ bars) date price h = forwardReturn window date price h := by
  have hlt : (h - 1).toNat < ((window.filter fun b => date < b.1).map Prod.snd).length := by
    rw [length_closes]
    omega
  unfold forwardReturn
  simp only
  rw [List.filter_append, List.map_append, List.getElem?_append_left hlt]

/-- A return that is counted past a list is one of a bar after it. -/
theorem forwardReturn_past (hlen : later date window < h)
    (hr : forwardReturn (window ++ bars) date price h = some r) :
    ∃ b ∈ bars, r = b.2 / price - 1 := by
  have hle : ((window.filter fun b => date < b.1).map Prod.snd).length ≤ (h - 1).toNat := by
    rw [length_closes]
    omega
  unfold forwardReturn at hr
  split_ifs at hr
  simp only at hr
  rw [List.filter_append, List.map_append, List.getElem?_append_right hle] at hr
  obtain ⟨close, hclose, rfl⟩ := Option.map_eq_some_iff.mp hr
  obtain ⟨b, hb, rfl⟩ := List.mem_map.mp (List.mem_of_getElem? hclose)
  exact ⟨b, (List.mem_filter.mp hb).1, rfl⟩

namespace AnswerSplit

variable (hsplit : AnswerSplit hist today bars old window live new)

include hsplit

/-- What is settled comes first, in the order of the history. -/
theorem sorted (hhist : hist.Pairwise fun a b => a.1 < b.1) :
    sortedCloses bars = window ++ sortedCloses live := by
  have hwindow : window.Pairwise fun a b => a.1 < b.1 := by
    rw [hsplit.split] at hhist
    exact (List.pairwise_append.mp (List.pairwise_append.mp hhist).1).2.1
  refine ((List.perm_insertionSort _ _).trans (hsplit.perm.trans
    ((List.perm_insertionSort _ live).symm.append_left window))).eq_of_pairwise
      (fun a b _ _ hab hba => toLex.injective (le_antisymm hab hba))
      (List.pairwise_insertionSort _ _) ?_
  refine List.pairwise_append.mpr ⟨?_, List.pairwise_insertionSort _ _, ?_⟩
  · exact hwindow.imp fun {a b} hab => (Prod.Lex.toLex_lt_toLex.mpr (Or.inl hab)).le
  · intro a ha b hb
    have hlt : a.1 < b.1 := (hsplit.past a (List.mem_append_right _ ha)).trans_le
      (hsplit.unsettled b ((List.perm_insertionSort _ _).subset hb))
    exact (Prod.Lex.toLex_lt_toLex.mpr (Or.inl hlt)).le

theorem later_settled : later date (settledBars today bars) = later date window := by
  have hperm : (settledBars today bars).Perm window := by
    refine (hsplit.perm.filter _).trans ?_
    rw [List.filter_append, List.filter_eq_self.mpr, List.filter_eq_nil_iff.mpr, List.append_nil]
    · intro b hb hlt
      exact absurd (of_decide_eq_true hlt) (not_lt.mpr (hsplit.unsettled b hb))
    · exact fun b hb => decide_eq_true (hsplit.past b (List.mem_append_right _ hb))
  exact hperm.countP_eq _

/-- What an answer has lost, of the days after a decision. -/
theorem length_lost (hhist : hist.Pairwise fun a b => a.1 < b.1) :
    (lostBars hist date today bars).length = later date old := by
  have hmem : ∀ b, b ∈ bars ↔ b ∈ window ∨ b ∈ live := fun b => by
    rw [hsplit.perm.mem_iff, List.mem_append]
  have hdisjoint : ∀ b ∈ old, b ∉ window := by
    rw [hsplit.split] at hhist
    intro b hb hb'
    exact lt_irrefl _ ((List.pairwise_append.mp (List.pairwise_append.mp hhist).1).2.2 b hb b hb')
  have hold : ∀ b ∈ old, b ∉ bars := by
    intro b hb hin
    rcases (hmem b).mp hin with hin | hin
    · exact hdisjoint b hb hin
    · exact absurd (hsplit.past b (List.mem_append_left _ hb))
        (not_lt.mpr (hsplit.unsettled b hin))
  have hcount : ∀ b ∈ old, (date < b.1 ∧ b.1 < today ∧ b ∉ bars ↔ date < b.1) := by
    intro b hb
    exact and_iff_left ⟨hsplit.past b (List.mem_append_left _ hb), hold b hb⟩
  have hkept : window.countP (fun b => date < b.1 ∧ b.1 < today ∧ b ∉ bars) = 0 := by
    refine List.countP_eq_zero.mpr fun b hb hlost => ?_
    exact (of_decide_eq_true hlost).2.2 ((hmem b).mpr (.inl hb))
  have hnew : new.countP (fun b => date < b.1 ∧ b.1 < today ∧ b ∉ bars) = 0 := by
    refine List.countP_eq_zero.mpr fun b hb hlost => ?_
    exact absurd (of_decide_eq_true hlost).2.1 (not_lt.mpr (hsplit.future b hb))
  rw [lostBars, ← List.countP_eq_length_filter, hsplit.split, List.countP_append,
    List.countP_append, hkept, hnew, Nat.add_zero, later]
  refine List.countP_congr fun b hb => ?_
  rw [decide_eq_true_iff, decide_eq_true_iff]
  exact hcount b hb

/-- The settled days after a decision: those that the answer has, and those that it has
lost. -/
theorem count :
    hist.countP (fun b => date < b.1 ∧ b.1 < today) = later date old + later date window := by
  have hnew : new.countP (fun b => date < b.1 ∧ b.1 < today) = 0 := by
    refine List.countP_eq_zero.mpr fun b hb hin => ?_
    exact absurd (of_decide_eq_true hin).2 (not_lt.mpr (hsplit.future b hb))
  rw [← later_append, hsplit.split, List.countP_append, hnew, Nat.add_zero]
  refine List.countP_congr fun b hb => ?_
  rw [decide_eq_true_iff, decide_eq_true_iff]
  exact and_iff_left (hsplit.past b hb)

/-- **A return that is counted in what is settled** is the one of the history, counted on
by what the answer has lost. -/
theorem forwardReturn_eq (hhist : hist.Pairwise fun a b => a.1 < b.1) (hh : 1 ≤ h)
    (hlen : h ≤ later date window) :
    forwardReturn (sortedCloses bars) date price h =
      forwardReturn hist date price (h + later date old) := by
  rw [hsplit.sorted hhist, forwardReturn_append hh hlen, hsplit.split, List.append_assoc,
    forwardReturn_skip hh, forwardReturn_append hh hlen]

end AnswerSplit

/-! ### The samples of a report -/

variable {caches caches' : Caches} {row : BuyRow} {x : FloatValue × ℚ}

theorem sample_eq_some_iff :
    sample caches h row = some x ↔
      ∃ payload, caches row.symbol = some payload ∧ x.1 = row.confidence ∧
        forwardReturn (sortedCloses payload) row.tradeDate row.decisionPrice h = some x.2 := by
  unfold sample
  rcases caches row.symbol with - | payload
  · exact iff_of_false (fun h => nomatch h) fun ⟨_, hnone, _⟩ => nomatch hnone
  · show (if payload.isEmpty then none else _) = some x ↔ _
    have hiff : (forwardReturn (sortedCloses payload) row.tradeDate row.decisionPrice h).map
        (row.confidence, ·) = some x ↔ x.1 = row.confidence ∧
          forwardReturn (sortedCloses payload) row.tradeDate row.decisionPrice h = some x.2 := by
      rw [Option.map_eq_some_iff]
      constructor
      · rintro ⟨r, hr, rfl⟩
        exact ⟨rfl, hr⟩
      · rintro ⟨hconf, hr⟩
        exact ⟨x.2, hr, Prod.ext hconf.symm rfl⟩
    rcases payload with - | ⟨b, payload⟩
    -- an empty payload has no return either
    · refine iff_of_false (fun h => nomatch h) ?_
      rintro ⟨payload, hsome, -, hr⟩
      cases hsome
      have hnil : forwardReturn (sortedCloses []) row.tradeDate row.decisionPrice h = none := by
        unfold forwardReturn
        split_ifs <;> rfl
      rw [hnil] at hr
      cases hr
    · refine hiff.trans ⟨fun hx => ⟨_, rfl, hx⟩, ?_⟩
      rintro ⟨payload', hsome, hx⟩
      cases hsome
      exact hx

theorem buyRow_prefix {ticks ticks' : List TickRow} (hticks : ticks <+: ticks') {d : DecisionRow}
    (hrow : buyRow ticks d = some row) : buyRow ticks' d = some row := by
  unfold buyRow at hrow ⊢
  split_ifs at hrow ⊢ with hbuy
  obtain ⟨price, hprice, hrest⟩ := Option.bind_eq_some_iff.mp hrow
  obtain ⟨tick, htick, hpure⟩ := Option.bind_eq_some_iff.mp hrest
  obtain ⟨hi, rfl⟩ := List.getElem?_eq_some_iff.mp htick
  refine Option.bind_eq_some_iff.mpr ⟨price, hprice, ?_⟩
  exact Option.bind_eq_some_iff.mpr ⟨_, List.prefix_iff_getElem?.mp hticks _ hi, hpure⟩

theorem filterMap_sublist {α β : Type} {f g : α → Option β} {xs ys : List α}
    (hxs : xs.Sublist ys) (hfg : ∀ x ∈ xs, ∀ y, f x = some y → g x = some y) :
    (xs.filterMap f).Sublist (ys.filterMap g) := by
  refine List.Sublist.trans ?_ (hxs.filterMap g)
  clear hxs
  induction xs with
  | nil => exact List.Sublist.refl _
  | cons x xs ih =>
    have hrest := ih fun y hy => hfg y (List.mem_cons_of_mem _ hy)
    rcases hf : f x with - | y
    · rw [List.filterMap_cons_none hf]
      rcases hg : g x with - | y
      · rwa [List.filterMap_cons_none hg]
      · rw [List.filterMap_cons_some hg]
        exact hrest.cons y
    · rw [List.filterMap_cons_some hf, List.filterMap_cons_some (hfg x List.mem_cons_self y hf)]
      exact hrest.cons_cons y

/-- The rows of a report are rows of the next. -/
theorem Server.Grows.buyRows {s s' : Server} (hgrows : Server.Grows s s') :
    (buyRows s.db).Sublist (AutoTrade.buyRows s'.db) :=
  filterMap_sublist hgrows.decisions.sublist fun _ _ _ hrow => buyRow_prefix hgrows.ticks hrow

/-! ### Where a cached answer comes from -/

variable {codec : CandleCodec Bar Payload} {point : Payload → Date × ℚ} {ttlMinutes : ℤ}
  {view : Bar → Candle} {hists : Symbol → List (Date × ℚ)} {calls calls' : List (CandleCall Bar)}
  {s : Symbol} {c : CandleCall Bar}

/-- The day a call is made on. -/
def CandleCall.day (c : CandleCall Bar) : Date := tradeDateKst (.utc c.now)

/-- What the report reads of an answer. -/
def CandleCodec.points (codec : CandleCodec Bar Payload) (point : Payload → Date × ℚ)
    (answer : List Bar) : List (Date × ℚ) :=
  answer.map fun b => point (codec.dump b)

/-- The broker answers the calls, all for days, from the histories. -/
structure Daily (codec : CandleCodec Bar Payload) (point : Payload → Date × ℚ)
    (hists : Symbol → List (Date × ℚ)) (calls : List (CandleCall Bar)) : Prop where
  interval : ∀ c ∈ calls, c.interval = "1d"
  answers : ∀ c ∈ calls, ∀ answer, c.answer = .ok answer →
    Answers (hists c.symbol) c.day (codec.points point answer)

/-- A cached answer, and the call that it answered. -/
structure Fetched (codec : CandleCodec Bar Payload) (point : Payload → Date × ℚ)
    (calls : List (CandleCall Bar)) (caches : Caches) (s : Symbol) (c : CandleCall Bar)
    (bars : List (Date × ℚ)) : Prop where
  mem : c ∈ calls
  symbol : c.symbol = s
  cached : caches s = some bars
  answered : ∃ answer, c.answer = .ok answer ∧ bars = codec.points point answer

theorem Daily.left (h : Daily codec point hists (calls ++ calls')) :
    Daily codec point hists calls where
  interval := fun c hc => h.interval c (List.mem_append_left _ hc)
  answers := fun c hc => h.answers c (List.mem_append_left _ hc)

theorem Fetched.answers (hdaily : Daily codec point hists calls)
    (h : Fetched codec point calls caches s c bars) : Answers (hists s) c.day bars := by
  obtain ⟨answer, ha, rfl⟩ := h.answered
  rw [← h.symbol]
  exact hdaily.answers c h.mem answer ha

theorem candleCache_backed (calls : List (CandleCall Bar)) :
    Backed (cachingToss codec) (candleCache codec ttlMinutes calls) := backed_run backed_empty

theorem candleCache_append (calls calls' : List (CandleCall Bar)) :
    candleCache codec ttlMinutes (calls ++ calls') =
      ReadThrough.run (cachingToss codec) (candleCache codec ttlMinutes calls)
        (calls'.map (CandleCall.read ttlMinutes)) := by
  rw [candleCache, List.map_append]
  exact List.foldl_append

/-- The rows of days, as the report has them. -/
theorem cachesOf_candleCache (codec : CandleCodec Bar Payload) (point : Payload → Date × ℚ)
    (ttlMinutes : ℤ) (hdaily : ∀ c ∈ calls, c.interval = "1d") (s : Symbol) :
    cachesOf point (candleCache codec ttlMinutes calls) s =
      ((candleCache codec ttlMinutes calls).rows.get? (s, "1d")).map
        fun row => row.value.map point := by
  refine cachesOf_eq ?_ s
  intro k hk
  obtain ⟨row, hrow⟩ := Dict.exists_get?_of_mem hk
  rcases rows_run (p := cachingToss codec) backed_empty
    (calls.map (CandleCall.read ttlMinutes)) k with hnone | ⟨r, hr, rfl, -⟩
  · rw [candleCache, hnone] at hrow
    cases hrow
  · obtain ⟨c, hc, rfl⟩ := List.mem_map.mp hr
    exact hdaily c hc

/-- After more calls a symbol has what it had, or an answer to one of those calls. -/
theorem fetched_append (codec : CandleCodec Bar Payload) (point : Payload → Date × ℚ)
    (ttlMinutes : ℤ) (calls calls' : List (CandleCall Bar))
    (hdaily : ∀ c ∈ calls ++ calls', c.interval = "1d") (s : Symbol) :
    cachesOf point (candleCache codec ttlMinutes (calls ++ calls')) s =
        cachesOf point (candleCache codec ttlMinutes calls) s ∨
      ∃ c ∈ calls', ∃ bars, Fetched codec point (calls ++ calls')
        (cachesOf point (candleCache codec ttlMinutes (calls ++ calls'))) s c bars := by
  have hafter := cachesOf_candleCache codec point ttlMinutes hdaily s
  rw [candleCache_append] at hafter
  rcases rows_run (candleCache_backed calls) (calls'.map (CandleCall.read ttlMinutes))
    (s, "1d") with hsame | ⟨r, hr, hkey, answer, ha, hput⟩
  · left
    rw [candleCache_append, hafter, hsame,
      cachesOf_candleCache codec point ttlMinutes fun c hc => hdaily c (List.mem_append_left _ hc)]
  · right
    rw [hput] at hafter
    obtain ⟨c, hc, rfl⟩ := List.mem_map.mp hr
    refine ⟨c, hc, codec.points point answer, List.mem_append_right _ hc, (Prod.mk.inj hkey).1,
      ?_, answer, ha, rfl⟩
    rw [candleCache_append, hafter]
    exact congrArg some List.map_map

/-- A cached answer was given to a call. -/
theorem exists_fetched (hdaily : ∀ c ∈ calls, c.interval = "1d")
    (hcached : cachesOf point (candleCache codec ttlMinutes calls) s = some bars) :
    ∃ c, Fetched codec point calls (cachesOf point (candleCache codec ttlMinutes calls)) s c
      bars := by
  rcases fetched_append codec point ttlMinutes [] calls hdaily s with
    hnone | ⟨c, -, bars', hfetched⟩
  · rw [List.nil_append, hcached] at hnone
    cases hnone
  · rw [List.nil_append] at hfetched
    have hsame := hfetched.cached.symm.trans hcached
    cases hsame
    exact ⟨c, hfetched⟩

/-- **What a sample is**: the return of the history, counted on by the bars that the
answer has lost, or the return at a bar that was not settled when it was asked for. -/
theorem Fetched.counted (hdaily : Daily codec point hists calls)
    (hhist : ∀ s, (hists s).Pairwise fun a b => a.1 < b.1) (hh : 1 ≤ h)
    (hfetched : Fetched codec point calls caches row.symbol c bars)
    (hx : sample caches h row = some x) :
    h ≤ later row.tradeDate (settledBars c.day bars) ∧
        forwardReturn (hists row.symbol) row.tradeDate row.decisionPrice
          (h + (lostBars (hists row.symbol) row.tradeDate c.day bars).length) = some x.2 ∨
      later row.tradeDate (settledBars c.day bars) < h ∧
        ∃ b ∈ bars, c.day ≤ b.1 ∧ x.2 = b.2 / row.decisionPrice - 1 := by
  obtain ⟨payload, hpayload, -, hr⟩ := sample_eq_some_iff.mp hx
  rw [hfetched.cached] at hpayload
  cases hpayload
  obtain ⟨old, window, live, new, hsplit⟩ := hfetched.answers hdaily
  rw [hsplit.later_settled, hsplit.length_lost (hhist _)]
  rcases le_or_gt h (later row.tradeDate window) with hle | hlt
  · left
    rw [hsplit.forwardReturn_eq (hhist _) hh hle] at hr
    exact ⟨hle, hr⟩
  · right
    rw [hsplit.sorted (hhist _)] at hr
    obtain ⟨b, hb, hret⟩ := forwardReturn_past (by exact_mod_cast hlt) hr
    have hlive : b ∈ live := (List.perm_insertionSort _ _).subset hb
    exact ⟨hlt, b, hsplit.perm.mem_iff.mpr (List.mem_append_right _ hlive),
      hsplit.unsettled b hlive, hret⟩

/-- **A settled sample stays** while the answers go back to its decision. -/
theorem Fetched.settled {c' : CandleCall Bar} {bars' : List (Date × ℚ)}
    (hdaily : Daily codec point hists calls) (hdaily' : Daily codec point hists calls')
    (hhist : ∀ s, (hists s).Pairwise fun a b => a.1 < b.1) (hh : 1 ≤ h)
    (hfetched : Fetched codec point calls caches row.symbol c bars)
    (hfetched' : Fetched codec point calls' caches' row.symbol c' bars')
    (hday : c.day ≤ c'.day) (hmature : h ≤ later row.tradeDate (settledBars c.day bars))
    (hlost : lostBars (hists row.symbol) row.tradeDate c.day bars = [])
    (hlost' : lostBars (hists row.symbol) row.tradeDate c'.day bars' = [])
    (hx : sample caches h row = some x) : sample caches' h row = some x := by
  obtain ⟨payload, hpayload, hconf, hr⟩ := sample_eq_some_iff.mp hx
  rw [hfetched.cached] at hpayload
  cases hpayload
  obtain ⟨old, window, live, new, hsplit⟩ := hfetched.answers hdaily
  obtain ⟨old', window', live', new', hsplit'⟩ := hfetched'.answers hdaily'
  have hold : later row.tradeDate old = 0 := by
    rw [← hsplit.length_lost (hhist _), hlost, List.length_nil]
  have hold' : later row.tradeDate old' = 0 := by
    rw [← hsplit'.length_lost (hhist _), hlost', List.length_nil]
  rw [hsplit.later_settled] at hmature
  -- the settled days of the first answer are settled days of the second
  have hmore : later row.tradeDate window ≤ later row.tradeDate window' := by
    calc later row.tradeDate window
        = (hists row.symbol).countP fun b => row.tradeDate < b.1 ∧ b.1 < c.day := by
          rw [hsplit.count, hold, Nat.zero_add]
      _ ≤ (hists row.symbol).countP fun b => row.tradeDate < b.1 ∧ b.1 < c'.day := by
          refine List.countP_mono_left fun b _ hb => decide_eq_true ?_
          exact ⟨(of_decide_eq_true hb).1, (of_decide_eq_true hb).2.trans_le hday⟩
      _ = later row.tradeDate window' := by rw [hsplit'.count, hold', Nat.zero_add]
  refine sample_eq_some_iff.mpr ⟨bars', hfetched'.cached, hconf, ?_⟩
  rw [hsplit'.forwardReturn_eq (hhist _) hh (hmature.trans (Int.ofNat_le.mpr hmore)), hold']
  rwa [hsplit.forwardReturn_eq (hhist _) hh hmature, hold] at hr

/-- It stays over more calls, whichever of them is cached. -/
theorem Fetched.kept (hdaily : Daily codec point hists (calls ++ calls'))
    (hclock : Clocked ((calls ++ calls').map (CandleCall.read ttlMinutes)))
    (hhist : ∀ s, (hists s).Pairwise fun a b => a.1 < b.1) (hh : 1 ≤ h)
    (hfetched : Fetched codec point calls (cachesOf point (candleCache codec ttlMinutes calls))
      row.symbol c bars)
    (hmature : h ≤ later row.tradeDate (settledBars c.day bars))
    (hlost : lostBars (hists row.symbol) row.tradeDate c.day bars = [])
    (hwhole : ∀ c' bars', Fetched codec point (calls ++ calls')
      (cachesOf point (candleCache codec ttlMinutes (calls ++ calls'))) row.symbol c' bars' →
        lostBars (hists row.symbol) row.tradeDate c'.day bars' = [])
    (hx : sample (cachesOf point (candleCache codec ttlMinutes calls)) h row = some x) :
    sample (cachesOf point (candleCache codec ttlMinutes (calls ++ calls'))) h row = some x := by
  rcases fetched_append codec point ttlMinutes calls calls' hdaily.interval row.symbol with
    hsame | ⟨c', hc', bars', hfetched'⟩
  -- the answer is still the one it was
  · obtain ⟨payload, hpayload, hrest⟩ := sample_eq_some_iff.mp hx
    exact sample_eq_some_iff.mpr ⟨payload, hsame.trans hpayload, hrest⟩
  -- or it is one of a later call
  · have hday : c.day ≤ c'.day := by
      refine tradeDateKst_mono ?_
      rw [List.map_append] at hclock
      have hnow := hclock.spent (c.read ttlMinutes)
        (List.mem_append_left _ (List.mem_map_of_mem hfetched.mem))
      exact hnow.trans ((List.pairwise_append.mp hclock.forward).2.2 _
        (List.mem_map_of_mem hfetched.mem) _ (List.mem_map_of_mem hc'))
    exact hfetched.settled hdaily.left hdaily hhist hh hfetched' hday hmature hlost
      (hwhole c' bars' hfetched') hx

/-- **Two calibration reports of one run.**  Each sample is the return of the history at
the horizon, counted on by the bars after the decision that the cached answer has lost, or
the return at a bar that was not settled on the day of the answer.  And of any rows of the
first report whose samples are settled, and for which neither answer has lost a bar, every
sample is in the second report, in the same order. -/
theorem samples_settled (cfg : Settings) (server : Server) (turns turns' : List (Turn Bar))
    (hists : Symbol → List (Date × ℚ))
    (hhist : ∀ s, (hists s).Pairwise fun a b => a.1 < b.1)
    (hdaily : Daily codec point hists (callsOf (turns ++ turns')))
    (hclock : Clocked ((callsOf (turns ++ turns')).map (CandleCall.read ttlMinutes)))
    (hh : 1 ≤ h) :
    let s := Trading.run codec ttlMinutes view cfg server turns
    let s' := Trading.run codec ttlMinutes view cfg server (turns ++ turns')
    let caches := cachesOf point s.cache
    let caches' := cachesOf point s'.cache
    (∀ (row : BuyRow) x, sample caches h row = some x → x.1 = row.confidence ∧
      ∃ c bars, Fetched codec point (callsOf turns) caches row.symbol c bars ∧
        (h ≤ later row.tradeDate (settledBars c.day bars) ∧
            forwardReturn (hists row.symbol) row.tradeDate row.decisionPrice
              (h + (lostBars (hists row.symbol) row.tradeDate c.day bars).length) = some x.2 ∨
          later row.tradeDate (settledBars c.day bars) < h ∧
            ∃ b ∈ bars, c.day ≤ b.1 ∧ x.2 = b.2 / row.decisionPrice - 1)) ∧
      ∀ rows : List BuyRow, rows.Sublist (buyRows s.server.db) →
        (∀ row ∈ rows, (∃ c bars, Fetched codec point (callsOf turns) caches row.symbol c bars ∧
            h ≤ later row.tradeDate (settledBars c.day bars) ∧
            lostBars (hists row.symbol) row.tradeDate c.day bars = []) ∧
          ∀ c bars, Fetched codec point (callsOf (turns ++ turns')) caches' row.symbol c bars →
            lostBars (hists row.symbol) row.tradeDate c.day bars = []) →
        (rows.filterMap (sample caches h)).Sublist (samples s'.server.db caches' h) := by
  have hcalls : callsOf (turns ++ turns') = callsOf turns ++ callsOf turns' :=
    List.flatMap_append
  intro s s' caches caches'
  have hcaches : caches = cachesOf point (candleCache codec ttlMinutes (callsOf turns)) := by
    show cachesOf point s.cache = _
    rw [Trading.run_cache]
  have hcaches' : caches' = cachesOf point
      (candleCache codec ttlMinutes (callsOf turns ++ callsOf turns')) := by
    show cachesOf point s'.cache = _
    rw [Trading.run_cache, hcalls]
  rw [hcalls] at hdaily hclock
  refine ⟨?_, ?_⟩
  · intro row x hx
    obtain ⟨bars, hbars, hconf, -⟩ := sample_eq_some_iff.mp hx
    rw [hcaches] at hbars
    obtain ⟨c, hfetched⟩ := exists_fetched hdaily.left.interval hbars
    rw [← hcaches] at hfetched
    exact ⟨hconf, c, bars, hfetched, hfetched.counted hdaily.left hhist hh hx⟩
  · intro rows hrows hsettled
    have hgrows : Server.Grows s.server s'.server := by
      have happend : s' = turns'.foldl (Trading.step codec ttlMinutes view cfg) s :=
        List.foldl_append
      rw [happend]
      exact foldl_grows turns' s
    refine filterMap_sublist (hrows.trans hgrows.buyRows) fun row hrow x hx => ?_
    obtain ⟨⟨c, bars, hfetched, hmature, hlost⟩, hwhole⟩ := hsettled row hrow
    rw [hcaches] at hfetched hx
    rw [hcaches', hcalls] at hwhole
    rw [hcaches']
    exact hfetched.kept hdaily hclock hhist hh hmature hlost hwhole hx

end Report

namespace Sample

/-- A tick of the first day. -/
def firstRow : TickRow where
  startedAt := .utc 0
  tradeDate := 1
  mode := .dryRun
  killSwitch := false
  circuitBreaker := false
  circuitBreakerReason := []
  universeCount := 1
  candidates := 1
  note := []
  costGated := []
  regime := none

/-- A buy of the first day, at 100 won. -/
def boughtRow : DecisionRow where
  tickId := 1
  symbol := "005930"
  action := .buy
  confidence := .num (4 / 5)
  rationale := []
  decisionPrice := some 100

/-- A tick that bought. -/
def boughtDb : Db where
  ticks := [firstRow]
  decisions := [boughtRow]

/-- Four days of a stock. -/
def fourDays : List (Date × ℚ) := [(1, 100), (2, 110), (3, 121), (4, 120)]

/-- A call in the morning of a day. -/
def morningCall (day : Date) (bars : List (Date × ℚ)) : CandleCall (Date × ℚ) where
  symbol := "005930"
  now := (day - 1) * usPerDay
  lookup := .returns
  answer := .ok bars
  save := .returns
  savedAt := (day - 1) * usPerDay + 1

/-- On the third day its bar is not settled. -/
def thirdDay : CandleCall (Date × ℚ) := morningCall 3 [(1, 100), (2, 110), (3, 115)]

/-- On the fourth the third is, and the first is lost. -/
def fourthDay : CandleCall (Date × ℚ) := morningCall 4 [(2, 110), (3, 121), (4, 130)]

/-- A report after a restart with the calls. -/
def afterCalls (calls : List (CandleCall (Date × ℚ))) :
    Trading (Date × ℚ) (Date × ℚ) :=
  Trading.run ⟨id, .ok⟩ 60 (fun b => ⟨b.2, 0⟩) settings (.start settings boughtDb)
    (calls.map fun c => ⟨.restart, [c]⟩)

end Sample

open Sample in
/-- The sample of the second day is in both reports. -/
theorem samples_settled_four :
    (buyRows (afterCalls [thirdDay]).server.db).filterMap
        (sample (cachesOf id (afterCalls [thirdDay]).cache) 1) = [(.num (4 / 5), 1 / 10)] ∧
      [(FloatValue.num (4 / 5), (1 / 10 : ℚ))].Sublist
        (samples (afterCalls [thirdDay, fourthDay]).server.db
          (cachesOf id (afterCalls [thirdDay, fourthDay]).cache) 1) := by
  have hfirst : (buyRows (afterCalls [thirdDay]).server.db).filterMap
      (sample (cachesOf id (afterCalls [thirdDay]).cache) 1) = [(.num (4 / 5), 1 / 10)] := by
    decide +kernel
  have hrows : buyRows (afterCalls [thirdDay]).server.db =
      [⟨1, "005930", .num (4 / 5), 100⟩] := rfl
  have hcached : cachesOf id (afterCalls [thirdDay]).cache "005930" =
      some [(1, 100), (2, 110), (3, 115)] := by decide +kernel
  have hcached' : cachesOf id (afterCalls [thirdDay, fourthDay]).cache "005930" =
      some [(2, 110), (3, 121), (4, 130)] := by decide +kernel
  refine ⟨hfirst, ?_⟩
  rw [← hfirst]
  refine (samples_settled settings (.start settings boughtDb) [⟨.restart, [thirdDay]⟩]
    [⟨.restart, [fourthDay]⟩] (fun _ => fourDays) ?_ ?_ ?_ le_rfl).2 _
      (List.Sublist.refl _) ?_
  · intro s
    decide
  · refine ⟨by decide, ?_⟩
    intro c hc answer ha
    rcases List.mem_pair.mp hc with rfl | rfl
    · cases ha
      exact ⟨[], [(1, 100), (2, 110)], [(3, 115)], [(3, 121), (4, 120)], rfl, by decide, by decide,
        by decide, .refl _⟩
    · cases ha
      exact ⟨[(1, 100)], [(2, 110), (3, 121)], [(4, 130)], [(4, 120)], rfl, by decide, by decide,
        by decide, .refl _⟩
  · exact ⟨by decide, by decide⟩
  · intro row hrow
    rw [hrows, List.mem_singleton] at hrow
    subst hrow
    refine ⟨⟨thirdDay, _, ⟨List.mem_singleton_self _, rfl, hcached, _, rfl, rfl⟩, by decide,
      by decide +kernel⟩, ?_⟩
    intro c bars hfetched
    have hsame := hfetched.cached.symm.trans hcached'
    cases hsame
    rcases List.mem_pair.mp hfetched.mem with rfl | rfl
    · decide +kernel
    · decide +kernel

end AutoTrade
