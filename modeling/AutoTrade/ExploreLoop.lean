/-
AutoTrade/ExploreLoop.lean

The universe of a tick and the statistics that the tick leaves (`api/tick.py`,
`db/repo.py`), as a loop.

A tick looks at the seed symbols without a recent measurement, a block of them,
and the count of the ticks says which.  It records the turnover of what it has
seen, so that the next tick has fewer of them left.  `measured` is what one tick
does, and it makes a run of ticks a sweep (`sweeps`): in the end every symbol
that can be measured has been (`universe_explored`), whatever the others do to
the blocks.
-/
import AutoTrade.Candidates
import AutoTrade.DbFrame
import AutoTrade.Exploration
import AutoTrade.Lib.Sweep

namespace AutoTrade

open Effect

/-! ### The universe of a tick -/

/-- The settings of the universe. -/
structure UniverseSettings where
  /-- `watchlist`, split and stripped -/
  watchlist : List String := []
  /-- what the file of `symbol_source_path` gives -/
  symbolSource : Option (Except Exn (List SymbolEntry)) := none
  universeMaxSymbols : ℕ := 40
  advPoolSize : ℕ := 300
  universeExploreRatio : ℚ := 1 / 5

/-- Fourteen days before: what was measured then is stale. -/
def cutoffDate (now : Datetime) : Date :=
  tradeDateKst { now with instant := now.instant - 14 * usPerDay }

/-- The first part of `_execute_tick_locked`: the watchlist, or what
`resolve_universe` makes of the seed and the statistics. -/
def UniverseSettings.watch (u : UniverseSettings) (persisted : Bool) (db : Db) (now : Datetime) :
    Except Exn (List Symbol) :=
  match u.symbolSource with
  | none => .ok u.watchlist
  | some source => do
    let seedCodes := (← source).map SymbolEntry.code
    pure (if persisted then
      resolveUniverse seedCodes u.universeMaxSymbols u.watchlist db.countTicks
        (some (db.loadAdvPool u.advPoolSize)) (db.loadFreshSymbols (cutoffDate now))
        u.universeExploreRatio
    else
      resolveUniverse seedCodes u.universeMaxSymbols u.watchlist 0 (some []) ∅
        u.universeExploreRatio)

/-- How many stale symbols a tick looks at. -/
def UniverseSettings.block (u : UniverseSettings) : ℕ :=
  nExplore u.universeMaxSymbols u.universeExploreRatio

/-- A tick on the universe of its database. -/
def TickInput.on (t : TickInput) (u : UniverseSettings) (cfg : Settings) (s : Server) :
    TickInput :=
  { t with watch := u.watch cfg.persisted s.db t.now }

/-! ### What a tick measures -/

/-- A symbol that the broker has as an ordinary stock with candles. -/
structure Measurable (toss : Toss) (c : Symbol) : Prop where
  stock : ∀ symbols master, toss.getStocks symbols = .ok master → c ∈ symbols →
    ∃ stock, (stocksBy master).get? c = some stock ∧ stock.symbol = c ∧
      (evaluateStock stock).eligible
  candles : ∃ candles, toss.getCandles c = .ok candles ∧ candles ≠ []

section Tick

variable {args : TickArgs} {svc : OrderService} {c : Symbol}

theorem adv_isSome {candles : List Candle} (h : candles ≠ []) : ∃ a, adv candles = some a := by
  have htail : sliceLast 20 candles ≠ [] := by
    intro hnil
    rw [sliceLast, List.drop_eq_nil_iff] at hnil
    have := List.length_pos_of_ne_nil h
    omega
  exact ⟨_, by rw [adv, List.isEmpty_eq_false_iff.mpr htail]; rfl⟩

/-- The candle loop takes the turnover of every symbol with candles. -/
theorem screenLoop_adv20 {holdings : Holdings} {stocks : Dict Symbol Stock}
    {screening : Screening} (h : screenLoop args holdings stocks = .ok screening)
    (hc : c ∈ (tickSymbols args holdings).filter
      (· ∈ eligibleSymbols stocks (tickSymbols args holdings) (heldSymbols holdings)))
    (hcandles : ∃ candles, args.toss.getCandles c = .ok candles ∧ candles ≠ []) :
    c ∈ screening.adv20.keys := by
  have hall := Fallible.foldlM_forall (Q := fun sym (acc : Screening) =>
    (∃ candles, args.toss.getCandles sym = .ok candles ∧ candles ≠ []) → sym ∈ acc.adv20.keys)
    ?_ ?_ h
  · exact hall c hc hcandles
  · rintro acc sym acc' hx ⟨candles, hget, hne⟩
    obtain ⟨candles', hget', rfl⟩ := screenStep_ok hx
    rw [hget] at hget'
    cases hget'
    obtain ⟨a, ha⟩ := adv_isSome hne
    simp only [screened, ha]
    exact Dict.mem_keys_set.mpr (Or.inl rfl)
  · intro acc sym acc' other hkept hx hcan
    obtain ⟨candles, -, rfl⟩ := screenStep_ok hx
    have hmem := hkept hcan
    unfold screened
    rcases adv candles with - | a
    · exact hmem
    · exact Dict.mem_keys_set.mpr (Or.inr hmem)

/-- **A tick measures the symbols of its universe** that can be measured. -/
theorem runTick_adv20 {r : TickResult} {svc' : OrderService}
    (h : runTick args svc = (.ok r, svc')) (hc : c ∈ args.watchlist)
    (hcan : Measurable args.toss c) : c ∈ r.adv20.keys := by
  have hscreened : ∀ g, gather args = .ok (some g) → c ∈ g.screening.adv20.keys := by
    intro g hg
    obtain ⟨holdings, master, screening, -, hm, hs, rfl⟩ := gather_eq_some hg
    have hsymbol : c ∈ tickSymbols args holdings := by
      rw [tickSymbols, List.mem_unique]
      exact List.mem_append_left _ hc
    obtain ⟨stock, hstock, hname, heligible⟩ := hcan.stock _ _ hm hsymbol
    refine screenLoop_adv20 hs (List.mem_filter.mpr ⟨hsymbol, decide_eq_true ?_⟩) hcan.candles
    rw [eligibleSymbols, List.mem_unique]
    refine List.mem_append_left _ (List.mem_map.mpr ⟨stock, ?_, hname⟩)
    exact mem_partitionUniverse.mpr ⟨List.mem_filterMap.mpr ⟨c, hsymbol, hstock⟩, heligible⟩
  cases ticks_of_run h with
  | nothing hg =>
    -- there is a symbol to look at
    rcases hh : tickHoldings args with e | holdings
    · unfold gather at hg
      rw [hh] at hg
      cases hg
    · refine absurd hg (gather_eq_none hh (List.ne_nil_of_mem (a := c) ?_))
      rw [tickSymbols, List.mem_unique]
      exact List.mem_append_left _ hc
  | unmatched hg hnone => exact hscreened _ hg
  | traded hg hsome hd hl => exact hscreened _ hg

end Tick

/-! ### What a tick leaves -/

section Database

variable {db : Db} {stats : Dict Symbol ℚ} {date cutoff : Date} {c : Symbol}

theorem mem_loadFreshSymbols :
    c ∈ db.loadFreshSymbols cutoff ↔
      ∃ a d, db.symbolStats.get? c = some (a, d) ∧ cutoff < d := by
  rw [Db.loadFreshSymbols, List.mem_toFinset, List.mem_map]
  constructor
  · rintro ⟨⟨c, a, d⟩, hmem, rfl⟩
    obtain ⟨hentry, hd⟩ := List.mem_filter.mp hmem
    exact ⟨a, d, Dict.get?_eq_some.mpr hentry, of_decide_eq_true hd⟩
  · rintro ⟨a, d, hget, hd⟩
    exact ⟨(c, a, d), List.mem_filter.mpr ⟨Dict.get?_eq_some.mp hget, decide_eq_true hd⟩, rfl⟩

/-- What is measured gets the date, and the rest keeps its row. -/
theorem get?_upsertSymbolStats (db : Db) (stats : Dict Symbol ℚ) (date : Date) (c : Symbol) :
    (c ∈ stats.keys →
        ∃ a, (db.upsertSymbolStats stats date).symbolStats.get? c = some (a, date)) ∧
      (c ∉ stats.keys →
        (db.upsertSymbolStats stats date).symbolStats.get? c = db.symbolStats.get? c) := by
  unfold Db.upsertSymbolStats Dict.keys
  simp only
  induction stats.entries using List.reverseRecOn with
  | nil => simp
  | append_singleton l p ih =>
    rw [List.foldl_append, List.map_append]
    simp only [List.foldl_cons, List.foldl_nil, Dict.get?_set, List.map_cons, List.map_nil,
      List.mem_append, List.mem_singleton]
    by_cases hp : p.1 = c
    · simp [hp]
    · simpa [hp, Ne.symm hp] using ih

/-- **After a tick** the fresh symbols are those it has measured, and those before. -/
theorem loadFreshSymbols_upsert (hdate : cutoff < date) :
    (db.upsertSymbolStats stats date).loadFreshSymbols cutoff =
      stats.keys.toFinset ∪ db.loadFreshSymbols cutoff := by
  ext c
  rw [Finset.mem_union, List.mem_toFinset, mem_loadFreshSymbols, mem_loadFreshSymbols]
  obtain ⟨hnew, hold⟩ := get?_upsertSymbolStats db stats date c
  by_cases hc : c ∈ stats.keys
  · obtain ⟨a, ha⟩ := hnew hc
    simp [hc, ha, hdate]
  · simp [hc, hold hc]

end Database

namespace Server

variable {cfg : Settings} {t : TickInput} {s s' : Server}

/-- The tables that the universe is made from. -/
def statsView (db : Db) : List TickRow × Dict Symbol (ℚ × Date) := (db.ticks, db.symbolStats)

theorem statsView_quiet : Quiet statsView := ⟨fun _ _ _ _ => rfl, fun _ _ _ => rfl⟩

theorem openTick_statsView (t : TickInput) (toss : Toss) :
    Respects (Keeps statsView) (openTick cfg t toss) :=
  openTick_keeps statsView_quiet (openDay_keeps fun holdings =>
    reconcileAndEnforce_keeps statsView_quiet (fun _ _ _ => rfl) _ holdings _ _) fun _ _ => rfl

theorem settlePaper_statsView (t : TickInput) (run : PaperRun) (orders : List OrderResult) :
    Respects (Keeps statsView) (settlePaper cfg t run orders) := by
  have hsave : Respects (Keeps statsView) (write t.fates .savePaper
      (·.savePaper (orders.foldl (fillStep cfg.entryGate.cost t.now) (run, [])).1.book)) :=
    write_keeps fun _ => rfl
  have hpoint : ∀ equity cash positions realized bench, Respects (Keeps statsView)
      (write t.fates .appendPaperEquity
        (·.appendPaperEquity t.now equity cash positions realized bench)) := by
    intro equity cash positions realized bench
    exact write_keeps fun _ => rfl
  refine hsave.bind fun _ => ?_
  exact (hpoint _ _ _ _ _).bind fun _ => respects_pure _

/-- The tick asks its broker about its watchlist. -/
theorem openTick_args {toss : Toss} {watch : List Symbol} {o : Opened}
    (hwatch : t.watch = .ok watch) (h : openTick cfg t toss s = (.ok o, s')) :
    o.args.toss = toss ∧ o.args.watchlist = watch := by
  unfold openTick at h
  obtain ⟨watchlist, s₁, hlist, h⟩ := bind_eq_ok.mp h
  obtain ⟨⟨judge, research, engine⟩, s₂, -, h⟩ := bind_eq_ok.mp h
  obtain ⟨⟨used, holdings, report⟩, s₃, -, h⟩ := bind_eq_ok.mp h
  obtain ⟨paper, s₄, -, h⟩ := bind_eq_ok.mp h
  obtain ⟨forced, s₅, -, h⟩ := bind_eq_ok.mp h
  cases h
  rw [hwatch] at hlist
  cases hlist
  exact ⟨rfl, rfl⟩

/-- What a tick that returns has recorded for the universe. -/
structure Measured (t : TickInput) (s s' : Server) : Prop where
  ticks : s'.db.countTicks = s.db.countTicks + 1
  stats : ∃ stats : Dict Symbol ℚ,
    s'.db.symbolStats = (s.db.upsertSymbolStats stats (tradeDateKst t.now)).symbolStats ∧
      ∀ toss watch c, t.toss = some toss → t.watch = .ok watch → c ∈ watch →
        Measurable toss c → c ∈ stats.keys

/-- The writes after `run_tick` count the tick and record its turnovers. -/
theorem recordAll_stats (hpersisted : cfg.persisted) {paper : Option PaperRun}
    {result : TickResult} {reply : Option ℕ × Option PaperSummary}
    (h : recordAll cfg t paper result s = (.ok reply, s')) :
    s'.db.countTicks = s.db.countTicks + 1 ∧ s'.db.symbolStats =
      (s.db.upsertSymbolStats result.adv20 (tradeDateKst t.now)).symbolStats := by
  unfold recordAll at h
  rw [if_pos hpersisted] at h
  obtain ⟨⟨⟩, s₁, htick, h⟩ := bind_eq_ok.mp h
  obtain ⟨id, s₂, hlook, h⟩ := bind_eq_ok.mp h
  obtain ⟨⟨⟩, s₃, hengine, h⟩ := bind_eq_ok.mp h
  obtain ⟨⟨⟩, s₄, hupsert, hpaper⟩ := bind_eq_ok.mp h
  obtain ⟨-, rfl⟩ := commit_eq_ok.mp htick
  obtain ⟨-, rfl⟩ := Prod.mk.inj hlook
  obtain ⟨-, rfl⟩ := commit_eq_ok.mp hengine
  obtain ⟨-, hs₄⟩ := commit_eq_ok.mp hupsert
  have hlast : s₄.db.countTicks = s.db.countTicks + 1 ∧ s₄.db.symbolStats =
      (s.db.upsertSymbolStats result.adv20 (tradeDateKst t.now)).symbolStats := by
    rw [hs₄]
    refine ⟨?_, rfl⟩
    simp [Db.countTicks, Db.recordTick, Db.upsertSymbolStats, Db.saveEngineState]
  rcases paper with - | run
  · cases hpaper
    exact hlast
  · obtain ⟨summary, s₅, hsettle, hreply⟩ := bind_eq_ok.mp hpaper
    cases hreply
    have hview : Keeps statsView s₄ (settlePaper cfg t run result.orders s₄).2 :=
      settlePaper_statsView t run result.orders s₄
    rw [hsettle] at hview
    obtain ⟨hticks, hstats⟩ := Prod.mk.inj hview
    exact ⟨(congrArg List.length hticks).trans hlast.1, hstats.trans hlast.2⟩

/-- **A tick that returns has measured its universe.** -/
theorem measured (hpersisted : cfg.persisted) {tickId : Option ℕ} {engine : Text}
    {result : TickResult} {report : Option ReconcileReport} {summary : Option PaperSummary}
    (h : executeTick cfg t s = (.ok (.done tickId engine result report summary), s')) :
    Measured t s s' := by
  unfold executeTick at h
  rcases htoss : t.toss with - | toss
  all_goals rw [htoss] at h
  · cases h
  obtain ⟨o, s₁, hopen, h⟩ := bind_eq_ok.mp h
  obtain ⟨r, s₂, hrun, h⟩ := bind_eq_ok.mp h
  obtain ⟨⟨⟩, s₃, hsend, h⟩ := bind_eq_ok.mp h
  obtain ⟨⟨tickId', summary'⟩, s₄, hrecord, hreply⟩ := bind_eq_ok.mp h
  cases hreply
  have hview : Keeps statsView s (openTick cfg t toss s).2 := openTick_statsView t toss s
  rw [hopen] at hview
  obtain ⟨hticks, hstats⟩ := Prod.mk.inj hview
  obtain ⟨-, rfl⟩ := commit_eq_ok.mp hsend
  obtain ⟨hr, rfl⟩ := Prod.mk.inj hrun
  obtain ⟨hcount, hupsert⟩ := recordAll_stats hpersisted hrecord
  refine ⟨hcount.trans (congrArg (·.length + 1) hticks), result.adv20, ?_, ?_⟩
  · rw [hupsert]
    unfold Db.upsertSymbolStats
    rw [show s₁.db.symbolStats = s.db.symbolStats from hstats]
  · rintro toss' watch c htoss' hwatch hc hcan
    obtain rfl := Option.some.inj (htoss.symm.trans htoss')
    obtain ⟨rfl, rfl⟩ := openTick_args hwatch hopen
    exact runTick_adv20 (Prod.ext hr rfl) hc hcan

/-! ### A run of ticks -/

/-- A step of the server, with the ticks on the universe of its database. -/
def exploreStep (cfg : Settings) (u : UniverseSettings) (s : Server) : Event → Server
  | .tick t => step cfg s (.tick (t.on u cfg s))
  | e => step cfg s e

/-- The tick returns. -/
def Returns (cfg : Settings) (t : TickInput) (s : Server) : Prop :=
  ∃ tickId engine result report summary s',
    executeTick cfg t s = (.ok (.done tickId engine result report summary), s')

instance (t : TickInput) (s : Server) : Decidable (Returns cfg t s) :=
  match h : executeTick cfg t s with
  | (.ok (.done tickId engine result report summary), s') =>
    .isTrue ⟨tickId, engine, result, report, summary, s', h⟩
  | (.ok (.unconfigured error), _) => .isFalse fun ⟨_, _, _, _, _, _, h'⟩ => by simp [h] at h'
  | (.error e, _) => .isFalse fun ⟨_, _, _, _, _, _, h'⟩ => by simp [h] at h'

/-- What is asked of an event: a tick returns, its cutoff is between `C` and `C'`,
its day is after `C'`, and its broker has the symbols of `can`. -/
def Explores (cfg : Settings) (u : UniverseSettings) (C C' : Date) (can : Symbol → Prop)
    (s : Server) : Event → Prop
  | .tick t => Returns cfg (t.on u cfg s) s ∧ C ≤ cutoffDate t.now ∧ cutoffDate t.now ≤ C' ∧
      C' < tradeDateKst t.now ∧ ∃ toss, t.toss = some toss ∧ ∀ c, can c → Measurable toss c
  | _ => True

/-- No row gets stale between the two days. -/
def Settled (C C' : Date) (db : Db) : Prop :=
  ∀ c a d, db.symbolStats.get? c = some (a, d) → C < d → C' < d

/-- The event is a tick. -/
def isTick : Event → Bool
  | .tick _ => true
  | _ => false

/-- The universe of a server with a database, a seed file and no watchlist. -/
structure Seeded (cfg : Settings) (u : UniverseSettings) (codes : List Symbol) : Prop where
  persisted : cfg.persisted
  source : ∃ entries, u.symbolSource = some (.ok entries) ∧ entries.map SymbolEntry.code = codes
  nodup : codes.Nodup
  unwatched : includeCodes u.watchlist = []
  limit : 1 ≤ u.universeMaxSymbols
  ratio : u.universeExploreRatio ≤ 1

section Run

variable {u : UniverseSettings} {codes : List Symbol} {C C' : Date} {can : Symbol → Prop}
  {es : List Event}

/-- What a tick does to the stale symbols. -/
structure Round (u : UniverseSettings) (codes : List Symbol) (C C' : Date) (can : Symbol → Prop)
    (s s' : Server) : Prop where
  settled : Settled C C' s'.db
  ticks : s'.db.countTicks = s.db.countTicks + 1
  mono : s.db.loadFreshSymbols C ⊆ s'.db.loadFreshSymbols C
  turn : ∀ c ∈ ((staleOf codes (s.db.loadFreshSymbols C)).rotate
      (s.db.countTicks * u.block)).take u.block, can c → c ∈ s'.db.loadFreshSymbols C

/-- Between the two days every cutoff finds the same symbols fresh. -/
theorem Settled.fresh {db : Db} (h : Settled C C' db) {cutoff : Date} (hC : C ≤ cutoff)
    (hC' : cutoff ≤ C') : db.loadFreshSymbols cutoff = db.loadFreshSymbols C := by
  ext c
  rw [mem_loadFreshSymbols, mem_loadFreshSymbols]
  constructor
  · rintro ⟨a, d, hget, hd⟩
    exact ⟨a, d, hget, hC.trans_lt hd⟩
  · rintro ⟨a, d, hget, hd⟩
    exact ⟨a, d, hget, hC'.trans_lt (h c a d hget hd)⟩

theorem Settled.upsert {db : Db} (h : Settled C C' db) (stats : Dict Symbol ℚ) {date : Date}
    (hdate : C' < date) : Settled C C' (db.upsertSymbolStats stats date) := by
  intro c a d hget hd
  obtain ⟨hnew, hold⟩ := get?_upsertSymbolStats db stats date c
  by_cases hc : c ∈ stats.keys
  · obtain ⟨b, hb⟩ := hnew hc
    rw [hb] at hget
    cases hget
    exact hdate
  · rw [hold hc] at hget
    exact h c a d hget hd

theorem Seeded.watch (hu : Seeded cfg u codes) (db : Db) (now : Datetime) :
    u.watch cfg.persisted db now = .ok (resolveUniverse codes u.universeMaxSymbols u.watchlist
      db.countTicks (some (db.loadAdvPool u.advPoolSize)) (db.loadFreshSymbols (cutoffDate now))
      u.universeExploreRatio) := by
  obtain ⟨entries, hentries, rfl⟩ := hu.source
  unfold UniverseSettings.watch
  rw [hentries, hu.persisted]
  rfl

/-- **A tick measures the block whose turn it is.** -/
theorem round_of_tick (hu : Seeded cfg u codes) (hs : Settled C C' s.db)
    (h : Explores cfg u C C' can s (.tick t)) :
    Round u codes C C' can s (exploreStep cfg u s (.tick t)) := by
  obtain ⟨⟨tickId, engine, result, report, summary, s', hrun⟩, hlow, hhigh, hday, toss, htoss,
    hcan⟩ := h
  have hs' : exploreStep cfg u s (.tick t) = s' := congrArg Prod.snd hrun
  obtain ⟨hticks, stats, hstats, hmeasured⟩ := measured hu.persisted hrun
  rw [hs']
  have hupsert : ∀ cutoff, s'.db.loadFreshSymbols cutoff =
      (s.db.upsertSymbolStats stats (tradeDateKst t.now)).loadFreshSymbols cutoff := by
    intro cutoff
    unfold Db.loadFreshSymbols
    rw [hstats]
    rfl
  have hfresh : s'.db.loadFreshSymbols C =
      stats.keys.toFinset ∪ s.db.loadFreshSymbols C := by
    rw [hupsert, loadFreshSymbols_upsert ((hlow.trans hhigh).trans_lt hday)]
  refine ⟨?_, hticks, ?_, ?_⟩
  · have hsettled := hs.upsert stats hday
    unfold Settled at hsettled ⊢
    rw [hstats]
    exact hsettled
  · rw [hfresh]
    exact Finset.subset_union_right
  · intro c hturn hc
    rw [hfresh, Finset.mem_union, List.mem_toFinset]
    left
    -- the universe of the tick, at its own cutoff
    refine hmeasured toss _ c htoss (hu.watch s.db t.now) ?_ (hcan c hc)
    rw [hs.fresh hlow hhigh]
    exact mem_resolveUniverse_turn (hu.nodup.filter _)
      (exploreFits_of_unwatched hu.limit hu.ratio hu.unwatched) hturn

/-- The other events leave the tables of the universe alone. -/
theorem exploreStep_statsView {e : Event} (he : isTick e = false) :
    Keeps statsView s (exploreStep cfg u s e) := by
  cases e with
  | tick t => cases he
  | restart => rfl
  | killSwitch engaged fates => exact killSwitchRoute_keeps statsView_quiet cfg engaged fates s
  | resetBreaker fates => exact circuitBreakerReset_keeps statsView_quiet cfg fates s
  | reconcileCheck holdings now fates =>
    have hcheck : Respects (Keeps statsView) (Server.reconcileCheck cfg holdings now fates) :=
      respects_when ((respects_lift _).bind fun h =>
        (reconcileAndEnforce_keeps statsView_quiet (fun _ _ _ => rfl) _ _ _ _).bind
          fun _ => respects_pure _)
    exact hcheck s

/-- What is fresh before the `k`-th tick of a run, or after the last. -/
def freshAt (cfg : Settings) (u : UniverseSettings) (C : Date) :
    Server → List Event → ℕ → Finset Symbol
  | s, [], _ => s.db.loadFreshSymbols C
  | s, e :: es, 0 =>
    if isTick e then s.db.loadFreshSymbols C else freshAt cfg u C (exploreStep cfg u s e) es 0
  | s, e :: es, k + 1 => freshAt cfg u C (exploreStep cfg u s e) es (if isTick e then k else k + 1)

theorem freshAt_other {e : Event} (he : isTick e = false) (k : ℕ) :
    freshAt cfg u C s (e :: es) k = freshAt cfg u C (exploreStep cfg u s e) es k := by
  cases k with
  | zero => simp [freshAt, he]
  | succ k => simp [freshAt, he]

theorem loadFreshSymbols_other {e : Event} (he : isTick e = false) (cutoff : Date) :
    (exploreStep cfg u s e).db.loadFreshSymbols cutoff = s.db.loadFreshSymbols cutoff := by
  have hview : Keeps statsView s (exploreStep cfg u s e) := exploreStep_statsView he
  unfold Db.loadFreshSymbols
  rw [(Prod.mk.inj hview).2]

theorem freshAt_zero (s : Server) (es : List Event) :
    freshAt cfg u C s es 0 = s.db.loadFreshSymbols C := by
  induction es generalizing s with
  | nil => rfl
  | cons e es ih =>
    by_cases he : isTick e
    · rw [freshAt, if_pos he]
    · have he : isTick e = false := Bool.eq_false_iff.mpr he
      rw [freshAt_other he, ih, loadFreshSymbols_other he]

theorem freshAt_end (s : Server) (es : List Event) :
    freshAt cfg u C s es (es.countP isTick) =
      (es.foldl (exploreStep cfg u) s).db.loadFreshSymbols C := by
  induction es generalizing s with
  | nil => rfl
  | cons e es ih =>
    rw [List.foldl_cons, ← ih]
    by_cases he : isTick e
    · rw [List.countP_cons_of_pos he, freshAt, if_pos he]
    · rw [List.countP_cons_of_neg he, freshAt_other (Bool.eq_false_iff.mpr he)]

/-- **The ticks of a run are rounds**, one after another, whatever else happens
between them. -/
theorem round_of_run (hu : Seeded cfg u codes) (hs : Settled C C' s.db)
    (h : Run.Admits (exploreStep cfg u) (Explores cfg u C C' can) s es) {k : ℕ}
    (hk : k < es.countP isTick) : ∃ s₁ s₂, Round u codes C C' can s₁ s₂ ∧
      s₁.db.countTicks = s.db.countTicks + k ∧
      s₁.db.loadFreshSymbols C = freshAt cfg u C s es k ∧
      s₂.db.loadFreshSymbols C = freshAt cfg u C s es (k + 1) := by
  induction es generalizing s k with
  | nil => cases hk
  | cons e es ih =>
    obtain ⟨hfirst, hrest⟩ := h
    by_cases he : isTick e
    · obtain ⟨t, rfl⟩ : ∃ t, e = .tick t := by
        cases e with
        | tick t => exact ⟨t, rfl⟩
        | restart => cases he
        | killSwitch engaged fates => cases he
        | resetBreaker fates => cases he
        | reconcileCheck holdings now fates => cases he
      have hround := round_of_tick hu hs hfirst
      rw [List.countP_cons_of_pos he] at hk
      -- the first tick of the run, or one of the rest
      cases k with
      | zero =>
        refine ⟨s, _, hround, rfl, (freshAt_zero s _).symm, ?_⟩
        rw [freshAt, if_pos he, freshAt_zero]
      | succ k =>
        obtain ⟨s₁, s₂, hrun, hticks, h₁, h₂⟩ := ih hround.settled hrest (Nat.lt_of_succ_lt_succ hk)
        refine ⟨s₁, s₂, hrun, ?_, ?_, ?_⟩
        · rw [hticks, hround.ticks]
          omega
        · rw [h₁, freshAt, if_pos he]
        · rw [h₂, freshAt, if_pos he]
    -- an event between two ticks leaves the statistics and the count
    · rw [List.countP_cons_of_neg he] at hk
      have he : isTick e = false := Bool.eq_false_iff.mpr he
      have hview : Keeps statsView s (exploreStep cfg u s e) := exploreStep_statsView he
      obtain ⟨hcount, hstats⟩ := Prod.mk.inj hview
      have hs' : Settled C C' (exploreStep cfg u s e).db := by
        unfold Settled at hs ⊢
        rw [hstats]
        exact hs
      obtain ⟨s₁, s₂, hrun, hticks, h₁, h₂⟩ := ih hs' hrest hk
      refine ⟨s₁, s₂, hrun, ?_, ?_, ?_⟩
      · exact hticks.trans (congrArg (·.length + k) hcount)
      · rw [h₁, freshAt_other he]
      · rw [h₂, freshAt_other he]

/-- **A run of ticks is a sweep of the seed.** -/
theorem sweeps (hu : Seeded cfg u codes) (hs : Settled C C' s.db)
    (h : Run.Admits (exploreStep cfg u) (Explores cfg u C C' can) s es) :
    Sweep.Sweeps codes (freshAt cfg u C s es) can u.block s.db.countTicks (es.countP isTick) := by
  refine ⟨nExplore_pos _ _, ?_, ?_⟩
  · intro k hk
    obtain ⟨s₁, s₂, hround, -, h₁, h₂⟩ := round_of_run hu hs h hk
    rw [← h₁, ← h₂]
    exact hround.mono
  · intro k hk c hturn hc
    obtain ⟨s₁, s₂, hround, hticks, h₁, h₂⟩ := round_of_run hu hs h hk
    rw [← h₂]
    refine hround.turn c ?_ hc
    rw [hticks, h₁]
    exact hturn

/-- **The whole seed gets measured.**  As long as nothing gets stale, every seed
symbol that the broker has is fresh after as many windows of `⌈stale / block⌉`
ticks as there were stale symbols, whichever of the others it does not have; and
when it has them all, one such window is enough. -/
theorem universe_explored (hu : Seeded cfg u codes) (hs : Settled C C' s.db)
    (h : Run.Admits (exploreStep cfg u) (Explores cfg u C C' can) s es) :
    let stale := (staleOf codes (s.db.loadFreshSymbols C)).length
    let fresh := (es.foldl (exploreStep cfg u) s).db.loadFreshSymbols C
    (stale * Sweep.window u.block stale ≤ es.countP isTick → ∀ c ∈ codes, can c → c ∈ fresh) ∧
      (stale ≤ es.countP isTick * u.block → (∀ c ∈ codes, can c) → ∀ c ∈ codes, c ∈ fresh) := by
  intro stale fresh
  have hsweep := sweeps hu hs h
  have hstart : Sweep.left codes (freshAt cfg u C s es) 0 =
      staleOf codes (s.db.loadFreshSymbols C) := by
    rw [Sweep.left, freshAt_zero, staleOf]
  have hend : freshAt cfg u C s es (es.countP isTick) = fresh := freshAt_end s es
  constructor
  · intro hticks c hc hcan
    rw [← hend]
    refine hsweep.swept ?_ c hc hcan
    rw [hstart]
    exact hticks
  · intro hticks hall c hc
    rw [← hend]
    refine hsweep.swept_all hall ?_ c hc
    rw [hstart]
    exact hticks

end Run

end Server

namespace Sample

/-- Two seed symbols, of which a tick looks at one. -/
def seed : UniverseSettings where
  symbolSource := some (.ok [{ code := "005930" }, { code := "000660" }])
  universeMaxSymbols := 1
  universeExploreRatio := 1

/-- A tick on an empty account. -/
def emptyTick : TickInput := tickInput "a" noHoldings returning

theorem seeded : Server.Seeded settings seed ["005930", "000660"] where
  persisted := rfl
  source := ⟨_, rfl, rfl⟩
  nodup := by decide
  unwatched := rfl
  limit := le_rfl
  ratio := le_rfl

/-- The broker of the samples has the two symbols. -/
theorem measurable {c : Symbol} (h : c ∈ ["005930", "000660"]) :
    Measurable (flatToss 1000000 noHoldings) c where
  stock := by
    rintro symbols master ⟨⟩ hc
    -- the name that the broker has for a symbol is the symbol
    have hkey : c ∈ (stocksBy (symbols.map fun s =>
        { symbol := s, name := s, isCommonShare := some true, status := some "ACTIVE" })).keys :=
      Dict.mem_keys_ofList.mpr (by simpa using hc)
    obtain ⟨stock, hstock⟩ := Dict.exists_get?_of_mem hkey
    refine ⟨stock, hstock, ?_⟩
    have hmem := Dict.mem_of_ofList_get? hstock
    simp only [List.map_map, List.mem_map, Function.comp_apply, Prod.mk.injEq] at hmem
    obtain ⟨s, -, rfl, rfl⟩ := hmem
    refine ⟨rfl, ?_⟩
    simp only [List.mem_cons, List.not_mem_nil, or_false] at h
    rcases h with rfl | rfl
    · decide +kernel
    · decide +kernel
  candles := ⟨_, rfl, by decide⟩

end Sample

namespace Server

/-- Two ticks with a restart between them measure both. -/
theorem universe_explored_restart :
    let es := [Event.tick Sample.emptyTick, .restart, .tick Sample.emptyTick]
    let s := es.foldl (exploreStep Sample.settings Sample.seed) (start Sample.settings {})
    ∀ c ∈ ["005930", "000660"],
      c ∈ s.db.loadFreshSymbols (cutoffDate Sample.emptyTick.now) := by
  intro es s
  let s₀ := start Sample.settings {}
  let s₁ := exploreStep Sample.settings Sample.seed s₀ (.tick Sample.emptyTick)
  let s₂ := exploreStep Sample.settings Sample.seed s₁ .restart
  have hfirst :
      Returns Sample.settings (Sample.emptyTick.on Sample.seed Sample.settings s₀) s₀ := by
    decide +kernel
  have hsecond : Returns Sample.settings (Sample.emptyTick.on Sample.seed Sample.settings s₂)
      s₂ := by
    decide +kernel
  have hexplores : ∀ s, Returns Sample.settings
      (Sample.emptyTick.on Sample.seed Sample.settings s) s →
      Explores Sample.settings Sample.seed (cutoffDate Sample.emptyTick.now)
        (cutoffDate Sample.emptyTick.now) (· ∈ ["005930", "000660"]) s
        (.tick Sample.emptyTick) := fun s hreturns =>
    ⟨hreturns, le_rfl, le_rfl, by decide, _, rfl, fun c => Sample.measurable⟩
  have hs : Settled (cutoffDate Sample.emptyTick.now) (cutoffDate Sample.emptyTick.now)
      s₀.db := by
    rintro c a d ⟨⟩
  have h : Run.Admits (exploreStep Sample.settings Sample.seed)
      (Explores Sample.settings Sample.seed (cutoffDate Sample.emptyTick.now)
        (cutoffDate Sample.emptyTick.now) (· ∈ ["005930", "000660"])) s₀ es :=
    ⟨hexplores s₀ hfirst, trivial, hexplores s₂ hsecond, trivial⟩
  exact (universe_explored Sample.seeded hs h).2 (by decide +kernel) fun c hc => hc

end Server

end AutoTrade
