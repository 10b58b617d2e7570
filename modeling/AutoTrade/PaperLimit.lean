/-
AutoTrade/PaperLimit.lean

The limit of positions over runs of paper ticks.

A tick in `DRY_RUN` trades on the account that the paper book shows, and fills
its orders in the book.  A fill adds no symbol that was not bought
(`fillOrders_subset`), so the symbols of the book are within those held and
bought in the tick, and what `positions_within` says of the tick carries to the
book and from there to the run.
-/
import AutoTrade.TickLimits
import AutoTrade.Server

namespace AutoTrade

/-! ### What a fill adds -/

/-- The symbols of a book. -/
def PaperPortfolio.symbols (book : PaperPortfolio) : Finset Symbol := book.positions.keys.toFinset

@[simp] theorem PaperPortfolio.stored_symbols (book : PaperPortfolio) :
    book.stored.symbols = book.symbols := by
  rw [symbols, stored_keys]
  rfl

theorem PaperPortfolio.card_symbols (book : PaperPortfolio) :
    book.symbols.card = book.positions.keys.length :=
  List.toFinset_card_of_nodup book.positions.keys_nodup

theorem fillBuy_symbols (book : PaperPortfolio) (symbol : Symbol) (qty price : ℚ)
    (cost : CostConfig) (now : Option Datetime) :
    (book.fillBuy symbol qty price cost now).2.symbols ⊆ insert symbol book.symbols := by
  unfold PaperPortfolio.fillBuy
  simp only
  split
  · exact Finset.subset_insert _ _
  · intro k hk
    rw [PaperPortfolio.symbols, List.mem_toFinset, Dict.mem_keys_set] at hk
    rw [Finset.mem_insert, PaperPortfolio.symbols, List.mem_toFinset]
    exact hk

/-- A sale is of a symbol that the book has. -/
theorem fillSell_symbols (book : PaperPortfolio) (symbol : Symbol) (qty price : ℚ)
    (cost : CostConfig) : (book.fillSell symbol qty price cost).2.symbols ⊆ book.symbols := by
  unfold PaperPortfolio.fillSell
  rcases hpos : book.positions.get? symbol with - | pos
  · exact Finset.Subset.refl _
  · have hmem : symbol ∈ book.positions.keys := Dict.mem_keys_of_get? hpos
    simp only
    split
    · exact Finset.Subset.refl _
    · intro k hk
      rw [PaperPortfolio.symbols, List.mem_toFinset] at hk ⊢
      split at hk
      · exact (Dict.mem_keys_erase.mp hk).2
      · rcases Dict.mem_keys_set.mp hk with rfl | hk
        · exact hmem
        · exact hk

/-- A fill adds at most the symbol of a buy. -/
theorem applyFill_symbols (book : PaperPortfolio) (req : OrderRequest) (cost : CostConfig)
    (now : Option Datetime) :
    (book.applyFill req cost now).2.symbols ⊆
      if req.side = .buy then insert req.symbol book.symbols else book.symbols := by
  have hsame : book.symbols ⊆
      if req.side = .buy then insert req.symbol book.symbols else book.symbols := by
    split
    · exact Finset.subset_insert _ _
    · exact Finset.Subset.refl _
  unfold PaperPortfolio.applyFill
  rcases req.price with - | price
  · exact hsame
  · rcases req.quantity with - | qty
    · exact hsame
    · simp only
      split
      · exact hsame
      · rcases hside : req.side with - | -
        · exact fillBuy_symbols book req.symbol qty price cost now
        · exact fillSell_symbols book req.symbol qty price cost

section Fills

variable (cost : CostConfig) (now : Datetime)

/-- An order fills a symbol into the book only as an accepted buy. -/
theorem fillStep_symbols (acc : PaperRun × List PaperFill) (o : OrderResult) :
    (fillStep cost now acc o).1.book.symbols ⊆
      if o.acceptedBuy then insert o.request.symbol acc.1.book.symbols
      else acc.1.book.symbols := by
  obtain ⟨run, fills⟩ := acc
  have hsame : run.book.symbols ⊆
      if o.acceptedBuy then insert o.request.symbol run.book.symbols else run.book.symbols := by
    split
    · exact Finset.subset_insert _ _
    · exact Finset.Subset.refl _
  unfold fillStep
  simp only
  split
  · exact hsame
  -- only intended orders are filled, and of these only buys add a symbol
  · next hstatus =>
    have hbuy : o.acceptedBuy = decide (o.request.side = .buy) := by
      rw [ne_eq, not_not] at hstatus
      simp [OrderResult.acceptedBuy, OrderStatus.accepted, hstatus]
    have hfill := applyFill_symbols run.book o.request cost (some now)
    rcases happly : run.book.applyFill o.request cost (some now) with ⟨fill, book⟩
    rw [happly] at hfill
    rcases fill with - | fill
    · exact hsame
    · rw [hbuy]
      simpa using hfill

/-- **The fills of a tick add no symbol that was not bought.** -/
theorem fillOrders_subset (orders : List OrderResult) (run : PaperRun) (fills : List PaperFill) :
    (orders.foldl (fillStep cost now) (run, fills)).1.book.symbols ⊆
      positions run.book.positions.keys orders := by
  -- induction on the orders from the last one
  induction orders using List.reverseRecOn with
  | nil =>
    intro k hk
    simpa [positions, boughtSymbols, PaperPortfolio.symbols] using hk
  | append_singleton orders o ih =>
    rw [List.foldl_append, positions_concat]
    refine (fillStep_symbols cost now _ o).trans ?_
    split
    · exact Finset.insert_subset_insert _ ih
    · exact ih

end Fills

/-! ### The paper ledger over a run -/

/-- The symbols that the paper ledger holds. -/
def Db.paperSymbols (db : Db) : List Symbol :=
  match db.paper with
  | none => []
  | some book => book.positions.keys

/-- The number of symbols that the paper ledger holds. -/
def Db.paperCount (db : Db) : ℕ := db.paperSymbols.length

theorem Db.paperSymbols_of_paper {db : Db} {book : PaperPortfolio} (h : db.paper = some book) :
    db.paperSymbols = book.positions.keys := by
  rw [Db.paperSymbols, h]

theorem Db.paperCount_of_paper {db : Db} {book : PaperPortfolio} (h : db.paper = some book) :
    db.paperCount = book.symbols.card := by
  rw [Db.paperCount, Db.paperSymbols_of_paper h, book.card_symbols]

theorem Db.KeepsBook.paperSymbols {db db' : Db} (h : db.KeepsBook db') :
    db'.paperSymbols = db.paperSymbols := by
  rcases h with hsame | ⟨hnone, cash, hseed⟩
  · rw [Db.paperSymbols, Db.paperSymbols, hsame]
  · rw [Db.paperSymbols, Db.paperSymbols, hnone, hseed]
    rfl

theorem Db.KeepsBook.paperCount {db db' : Db} (h : db.KeepsBook db') :
    db'.paperCount = db.paperCount := by
  rw [Db.paperCount, Db.paperCount, h.paperSymbols]

namespace Server

/-- The paper ledger is at its limit, or the symbols that a tick may buy anew fit in the
room that it leaves. -/
def StaysWithin (cfg : Settings) (s : Server) (e : Event) : Prop :=
  ∀ t toss watchlist, e = .tick t → t.toss = some toss → t.watch = .ok watchlist →
    FitsRoom toss {} (s.tickJudge cfg t) watchlist s.db.paperSymbols cfg.guardrails.maxPositions

/-- The account that a book shows has the symbols of the book. -/
theorem synthetic_symbols (book : PaperPortfolio) (marks : Dict Symbol ℚ) :
    (heldSymbols (book.toSyntheticHoldings marks)).toFinset = book.symbols :=
  List.toFinset_eq_of_perm _ _ (book.toSyntheticHoldings_symbols marks)

/-- A book that is filled with the orders of a tick within its limit holds at most
that many symbols. -/
theorem filled_within {args : TickArgs} {svc : OrderService} {run : PaperRun} {r : TickResult}
    (hholdings : args.holdings = some (run.book.toSyntheticHoldings run.marks))
    (hr : (runTick args svc).1 = .ok r)
    (hroom : FitsRoom args.toss args.screenConfig args.judge args.watchlist
      run.book.positions.keys svc.config.maxPositions)
    (cost : CostConfig) (now : Datetime) :
    (((r.orders.foldl (fillStep cost now) (run, [])).1.book.symbols.card : ℕ) : ℤ) ≤
      max svc.config.maxPositions run.book.symbols.card := by
  -- the account of the tick shows the symbols of the book
  have hheld := synthetic_symbols run.book run.marks
  have htick : tickHoldings args = .ok (run.book.toSyntheticHoldings run.marks) := by
    rw [tickHoldings, hholdings]
  have hlimit := positions_within htick (hroom.of_mem_iff hheld)
  rw [settledIn_eq hr, positions_newAnswers, hheld] at hlimit
  refine le_trans ?_ hlimit
  have hsub := fillOrders_subset cost now r.orders run []
  have hsame : positions run.book.positions.keys r.orders =
      positions (heldSymbols (run.book.toSyntheticHoldings run.marks)) r.orders := by
    rw [positions, positions, List.toFinset_append, List.toFinset_append, hheld]
    rfl
  rw [hsame] at hsub
  exact_mod_cast Finset.card_le_card hsub

/-- A tick within its limit leaves at most that many symbols in the ledger. -/
theorem paperCount_step {cfg : Settings} {s : Server} {e : Event} (h : Configured cfg s)
    (he : StaysWithin cfg s e) :
    ((s.step cfg e).db.paperCount : ℤ) ≤ max cfg.guardrails.maxPositions s.db.paperCount := by
  rcases step_cases cfg s e with ⟨t, rfl, hends⟩ | ⟨-, hrestart⟩ | ⟨-, -, hrouted⟩
  · cases hends with
    | unopened hsame =>
      rw [hsame.book.paperCount]
      exact le_max_right _ _
    | @closed toss o s' _ htoss hopen hopens hclose =>
      have hopened : s'.db.paperCount = s.db.paperCount := hopens.untraded.book.paperCount
      rcases hclose.paper with hsame | ⟨run, r, hrun, hr, hfill⟩
      · rw [Db.paperCount, Db.paperSymbols, hsame, ← Db.paperSymbols, ← Db.paperCount, hopened]
        exact le_max_right _ _
      · obtain ⟨hbook, hholdings⟩ := hopens.book run hrun
        have hcount : s.db.paperCount = run.book.symbols.card := by
          rw [← hopened, Db.paperCount_of_paper hbook]
        have hconfig : s'.svc.config = cfg.guardrails := by
          rw [hopens.untraded.svc]
          exact h.config
        -- the tick judges its watchlist in the state before it
        obtain ⟨hargs, hscreen, hwatch, hjudge, -⟩ := openTick_asked hopen
        have hroom := he t toss o.args.watchlist rfl htoss hwatch
        rw [← hopens.untraded.book.paperSymbols, Db.paperSymbols_of_paper hbook, ← hargs,
          ← hscreen, ← hjudge, ← hconfig] at hroom
        rw [Db.paperCount_of_paper hfill, PaperPortfolio.stored_symbols, hcount, ← hconfig]
        exact filled_within hholdings hr hroom _ _
  · rw [hrestart]
    exact le_max_right _ _
  · rw [hrouted.book.paperCount]
    exact le_max_right _ _

/-- **The limit of positions.**  Where there is no room left, or the symbols that may be
bought anew fit in it, the symbols held and those bought in a tick stay within the limit,
or within what was held before; and in a run whose ticks all meet this in the state they
come in, the paper ledger never holds more symbols than the limit, or than it held at
first. -/
theorem max_positions (args : TickArgs) (svc : OrderService) (cfg : Settings) (s : Server)
    (es : List Event) :
    (∀ holdings, tickHoldings args = .ok holdings →
      FitsRoom args.toss args.screenConfig args.judge args.watchlist (heldSymbols holdings)
        svc.config.maxPositions →
      ((positions (heldSymbols holdings) (settledIn args svc)).card : ℤ) ≤
        max svc.config.maxPositions (heldSymbols holdings).toFinset.card) ∧
    (Configured cfg s → Run.Admits (step cfg) (StaysWithin cfg) s es →
      ((s.run cfg es).db.paperCount : ℤ) ≤
        max cfg.guardrails.maxPositions s.db.paperCount) := by
  refine ⟨fun holdings hh hroom => positions_within hh hroom, ?_⟩
  intro h hes
  -- the bound is an invariant because `max` absorbs what a step adds
  have hrun : Configured cfg (s.run cfg es) ∧ ((s.run cfg es).db.paperCount : ℤ) ≤
      max cfg.guardrails.maxPositions s.db.paperCount := by
    refine hes.invariant (I := fun s' => Configured cfg s' ∧
      (s'.db.paperCount : ℤ) ≤ max cfg.guardrails.maxPositions s.db.paperCount) ?_
      ⟨h, le_max_right _ _⟩
    rintro s' e ⟨hconf, hle⟩ he
    refine ⟨hconf.step e, (paperCount_step hconf he).trans ?_⟩
    exact max_le (le_max_left _ _) hle
  exact hrun.2

end Server

namespace Sample

open Server

/-- A paper book with 100 shares of one symbol. -/
def paperDb : Db where
  paper := some
    { cash := 1000000, positions := Dict.ofList [("005930", { quantity := 100, avgCost := 1000 })] }

/-- The settings of the paper mode. -/
def paperSettings : Settings := { settings with mode := .dryRun }

/-- The same with a limit of three positions. -/
def threePositions : Settings :=
  { paperSettings with guardrails := { paperSettings.guardrails with maxPositions := 3 } }

/-- A market that goes up three won and down two, day after day. -/
def upMarket : Toss :=
  { flatToss 1000000 noHoldings with
    getCandles := fun _ => .ok ((List.range 30).map fun i =>
      ⟨((1000 + i / 2 + 3 * (i % 2) : ℕ) : ℚ), 1000000⟩) }

/-- A tick that watches one symbol of it. -/
def watching (id : ClientOrderId) (symbol : Symbol) (fates : Fates) : TickInput :=
  { tickInput id noHoldings fates with toss := some upMarket, watch := .ok [symbol] }

/-- Where the symbol it watches fits in, a tick stays within the limit. -/
theorem staysWithin_watching {s : Server} {id : ClientOrderId} {symbol : Symbol} {fates : Fates}
    (h : ((s.db.paperSymbols.toFinset ∪ {symbol}).card : ℤ) ≤
      threePositions.guardrails.maxPositions) :
    StaysWithin threePositions s (.tick (watching id symbol fates)) := by
  rintro t toss watchlist ⟨⟩ - ⟨⟩
  refine .inr ⟨{symbol}, ?_, h⟩
  rintro sym ⟨hwatched, -⟩
  exact Finset.mem_singleton.mpr (List.mem_singleton.mp hwatched)

end Sample

namespace Server

/-- A tick that buys its one candidate, and two paper ticks that each buy a new symbol,
up to the limit. -/
theorem max_positions_sample :
    let s := start Sample.threePositions Sample.paperDb
    let es := [Event.tick (Sample.watching "a" "000660" Sample.returning),
      .tick (Sample.watching "b" "035720" Sample.returning)]
    ((positions [] (settledIn (Sample.args 1000000 Sample.noHoldings ["000660"]) {})).card : ℤ) ≤
        max 10 0 ∧
      (s.run Sample.threePositions es).db.paperCount = 3 ∧
      ((s.run Sample.threePositions es).db.paperCount : ℤ) ≤ max 3 s.db.paperCount := by
  intro s es
  obtain ⟨htick, hrun⟩ := max_positions (Sample.args 1000000 Sample.noHoldings ["000660"]) {}
    Sample.threePositions s es
  refine ⟨?_, by decide +kernel, ?_⟩
  · refine htick Sample.noHoldings rfl (.inr ⟨{"000660"}, ?_, by decide⟩)
    rintro sym ⟨hwatched, -⟩
    exact Finset.mem_singleton.mpr (List.mem_singleton.mp hwatched)
  · refine hrun (configured_start _ _) ⟨?_, ?_, trivial⟩
    · exact Sample.staysWithin_watching (by decide +kernel)
    · exact Sample.staysWithin_watching (by decide +kernel)

end Server

/-- Two new symbols are bought where one position is the limit. -/
theorem positions_exceeded :
    ¬ ∀ (args : TickArgs) (svc : OrderService) (holdings : Holdings),
      tickHoldings args = .ok holdings →
      ((positions (heldSymbols holdings) (settledIn args svc)).card : ℤ) ≤
        max svc.config.maxPositions (heldSymbols holdings).toFinset.card := by
  intro h
  have hsample := h (Sample.args 1000000 Sample.noHoldings ["000660", "005930"])
    { config := { maxPositions := 1 } } Sample.noHoldings rfl
  exact absurd hsample (by decide +kernel)

end AutoTrade
