/-
AutoTrade/NewsCoverage.lean

Whether the collector may stop at a page that brought nothing new.

Its reason is that the results are in the order of their dates, so that what comes
after news that is known is known as well.  A page can bring nothing new for two
other reasons: none of its items maps to a row, or an earlier run stored this page
and failed before the next.  `collectTarget_complete_iff` says when the early stop
loses nothing, and `run_complete_iff` says it of every collection of a run.
-/
import AutoTrade.News

namespace AutoTrade

open KeepFirst

variable {lib : Parsers} {feed : List NewsItem} {args : CollectArgs} {fates : ℕ → PageFate}
  {t t' : NewsTable}

/-! ### One collection -/

theorem insertNews_eq_ok {fate : Effect.Fate} {rows : List NewsRow} {new : ℕ} :
    insertNews fate rows t = (.ok new, t') ↔
      fate = .returns ∧ new = (t.insertNews rows).2 ∧ t' = (t.insertNews rows).1 := by
  unfold insertNews
  simp only [Effect.bind_eq_ok, Effect.commit_eq_ok, Effect.look_apply, Effect.pure_apply,
    Prod.mk.injEq, Except.ok.injEq]
  constructor
  · rintro ⟨_, _, ⟨rfl, rfl⟩, _, _, ⟨hfate, rfl⟩, rfl, rfl⟩
    exact ⟨hfate, rfl, rfl⟩
  · rintro ⟨hfate, rfl, rfl⟩
    exact ⟨_, _, ⟨rfl, rfl⟩, ⟨⟩, _, ⟨hfate, rfl⟩, rfl, rfl⟩

/-- Nothing new is a table that did not grow. -/
theorem insertNews_eq_zero_iff {rows : List NewsRow} :
    (t.insertNews rows).2 = 0 ↔
      (offerAll NewsRow.key t.rows rows).length = t.rows.length := by
  have hcount := NewsTable.insertNews_count t rows
  rw [NewsTable.insertNews_rows] at hcount
  omega

/-- **A collection that returns has read its pages until one was stale.** -/
theorem collectPages_rows {left page : ℕ} {counts r : ℕ × ℕ}
    (h : collectPages lib feed args fates left page counts t = (.ok r, t')) :
    t'.rows = readUntilStale NewsRow.key t.rows
      ((List.range' page left).map (args.pageRows lib feed)) := by
  induction left generalizing page counts t with
  | zero =>
    obtain ⟨-, rfl⟩ := Prod.mk.inj h
    rfl
  | succ left ih =>
    obtain ⟨mapped, inserted⟩ := counts
    obtain ⟨items, t₁, hsearch, hpage⟩ := Effect.bind_eq_ok.mp h
    obtain ⟨-, rfl, rfl⟩ := Effect.query_eq_ok.mp hsearch
    obtain ⟨new, t₂, hinsert, hrest⟩ := Effect.bind_eq_ok.mp hpage
    obtain ⟨-, rfl, rfl⟩ := insertNews_eq_ok.mp hinsert
    change (if (args.pageItems feed page).isEmpty ∨
      (t₁.insertNews (args.pageRows lib feed page)).2 = 0 then pure _
        else collectPages lib feed args fates left (page + 1) _)
          (t₁.insertNews (args.pageRows lib feed page)).1 = _ at hrest
    rw [List.range'_succ, List.map_cons, readUntilStale]
    -- an empty page has no rows, so it brings nothing new either
    have hempty : (args.pageItems feed page).isEmpty →
        (t₁.insertNews (args.pageRows lib feed page)).2 = 0 := by
      intro hnil
      rw [CollectArgs.pageRows, List.isEmpty_iff.mp hnil]
      rfl
    by_cases hstale : (t₁.insertNews (args.pageRows lib feed page)).2 = 0
    · have hlen := insertNews_eq_zero_iff.mp hstale
      rw [if_pos (Or.inr hstale)] at hrest
      obtain ⟨-, rfl⟩ := Prod.mk.inj hrest
      rw [if_pos hlen]
      exact (NewsTable.insertNews_rows _ _).trans ((offerAll_length_iff NewsRow.key).mp hlen)
    · rw [if_neg (not_or.mpr ⟨mt hempty hstale, hstale⟩)] at hrest
      rw [if_neg (mt insertNews_eq_zero_iff.mpr hstale), ih hrest]
      exact congrArg (readUntilStale NewsRow.key · _) (NewsTable.insertNews_rows _ _)

/-- The table after all pages have been read, without the early stop. -/
def readEveryPage (lib : Parsers) (feed : List NewsItem) (args : CollectArgs) (t : NewsTable) :
    NewsTable :=
  t.insertBatches ((List.range args.maxPages).map (args.pageRows lib feed))

/-- The row is in the table, or on a page before `i`. -/
def Stored (lib : Parsers) (feed : List NewsItem) (args : CollectArgs) (t : NewsTable) (i : ℕ)
    (row : NewsRow) : Prop :=
  row.key ∈ t.rows.map NewsRow.key ∨
    ∃ m < i, row.key ∈ (args.pageRows lib feed m).map NewsRow.key

/-- No page whose rows are all stored stands before a page with a row that is not. -/
def Unbroken (lib : Parsers) (feed : List NewsItem) (args : CollectArgs) (t : NewsTable) : Prop :=
  ∀ i j, i < j → j < args.maxPages →
    (∀ row ∈ args.pageRows lib feed i, Stored lib feed args t i row) →
      ∀ row ∈ args.pageRows lib feed j, Stored lib feed args t i row

/-- **A collection that returns loses nothing** exactly when no page with nothing new
stands before one with something new. -/
theorem collectTarget_complete_iff {r : ℕ × ℕ}
    (h : collectTarget lib feed args fates t = (.ok r, t')) :
    t' = readEveryPage lib feed args t ↔ Unbroken lib feed args t := by
  rw [NewsTable.ext_iff, collectPages_rows h, readEveryPage, NewsTable.insertBatches_rows,
    ← List.range_eq_range', readUntilStale_range_iff]
  rfl

/-- The table is that of the full read exactly when it has the key of each row. -/
theorem eq_readEveryPage_iff_stored {r : ℕ × ℕ}
    (h : collectTarget lib feed args fates t = (.ok r, t')) :
    t' = readEveryPage lib feed args t ↔
      ∀ i < args.maxPages, ∀ row ∈ args.pageRows lib feed i,
        row.key ∈ t'.rows.map NewsRow.key := by
  rw [NewsTable.ext_iff, collectPages_rows h, readEveryPage, NewsTable.insertBatches_rows,
    ← List.range_eq_range', readUntilStale_eq_iff_subset]
  simp only [List.mem_flatten, List.mem_map, List.mem_range]
  constructor
  · intro hall i hi row hrow
    exact hall row ⟨_, ⟨i, hi, rfl⟩, hrow⟩
  · rintro hall row ⟨_, ⟨i, hi, rfl⟩, hrow⟩
    exact hall i hi row hrow

/-! ### Every collection of a run -/

/-- What the search lists for each query, and the table. -/
structure Newsroom where
  feed : String → List NewsItem
  table : NewsTable

/-- What happens to the newsroom: the search gets new results, or a collection runs. -/
inductive NewsEvent
  /-- new results come in front -/
  | publish (query : String) (items : List NewsItem)
  | collect (args : CollectArgs) (fates : ℕ → PageFate)

namespace Newsroom

/-- One event. -/
def step (lib : Parsers) (s : Newsroom) : NewsEvent → Newsroom
  | .publish query items =>
    { s with feed := Function.update s.feed query (items ++ s.feed query) }
  | .collect args fates =>
    { s with table := (collectTarget lib (s.feed args.target.name) args fates s.table).2 }

/-- `collect_all` is one collection after another, and those that fail stay as far as
they got. -/
theorem collectAll_table (lib : Parsers) (s : Newsroom) (now : Datetime)
    (targets : List (NewsTarget × (ℕ → PageFate))) :
    (collectAll lib s.feed now targets s.table).1 =
      ((targets.map fun p => NewsEvent.collect { target := p.1, now } p.2).foldl
        (step lib) s).table := by
  unfold collectAll
  generalize ({ targets := targets.length } : CollectCounts) = counts
  induction targets generalizing s counts with
  | nil => rfl
  | cons p targets ih =>
    rw [List.foldl_cons, List.map_cons, List.foldl_cons]
    let e := NewsEvent.collect { target := p.1, now } p.2
    obtain ⟨counts', hone⟩ : ∃ counts', collectOne lib s.feed now (s.table, counts) p =
        ((s.step lib e).table, counts') := by
      unfold collectOne
      dsimp only [e, step]
      rcases collectTarget lib (s.feed p.1.name) { target := p.1, now } p.2 s.table with
        ⟨- | r, t'⟩
      · exact ⟨_, rfl⟩
      · exact ⟨_, rfl⟩
    rw [hone]
    exact ih (s.step lib e) counts'

/-- A collection that returns leaves the rows of all its pages. -/
def Complete (lib : Parsers) (s : Newsroom) : NewsEvent → Prop
  | .publish _ _ => True
  | .collect args fates =>
    let feed := s.feed args.target.name
    ∀ r t', collectTarget lib feed args fates s.table = (.ok r, t') →
      t' = readEveryPage lib feed args s.table ∧
        ∀ i < args.maxPages, ∀ row ∈ args.pageRows lib feed i,
          row.key ∈ t'.rows.map NewsRow.key

/-- A collection that returns meets no page with nothing new before one with something
new. -/
def MeetsNoGap (lib : Parsers) (s : Newsroom) : NewsEvent → Prop
  | .publish _ _ => True
  | .collect args fates =>
    let feed := s.feed args.target.name
    (∃ r t', collectTarget lib feed args fates s.table = (.ok r, t')) →
      Unbroken lib feed args s.table

theorem complete_iff_meetsNoGap (lib : Parsers) (s : Newsroom) (e : NewsEvent) :
    s.Complete lib e ↔ s.MeetsNoGap lib e := by
  cases e with
  | publish query items => rfl
  | collect args fates =>
    constructor
    · rintro h ⟨r, t', heq⟩
      exact (collectTarget_complete_iff heq).mp (h r t' heq).1
    · intro h r t' heq
      have hall := (collectTarget_complete_iff heq).mpr (h ⟨r, t', heq⟩)
      exact ⟨hall, (eq_readEveryPage_iff_stored heq).mp hall⟩

/-- **The early stop loses nothing** in a run exactly when no collection that returns
meets a page with nothing new before one with something new. -/
theorem run_complete_iff (lib : Parsers) (s : Newsroom) (es : List NewsEvent) :
    Run.Admits (step lib) (Complete lib) s es ↔ Run.Admits (step lib) (MeetsNoGap lib) s es :=
  ⟨fun h => h.mono fun s e => (complete_iff_meetsNoGap lib s e).mp,
    fun h => h.mono fun s e => (complete_iff_meetsNoGap lib s e).mpr⟩

/-! ### News that is lost -/

/-- Parsers of plain text. -/
def plain : Parsers where
  unescape := id
  parsedateToDatetime _ := some (some ⟨0, KST⟩)
  netloc := some

/-- An item of the search with a title. -/
def named (url title : String) : NewsItem :=
  { title := some title, link := some url, pubDate := some "" }

/-- A collection for one target, a result a page. -/
def samsung : CollectArgs := { target := ⟨"005930", "삼성전자"⟩, now := ⟨0, 0⟩, pageSize := 1 }

/-- The row that such an item becomes. -/
def samsungRow (url headline : String) : NewsRow where
  symbol := "005930"
  headline
  press := url
  url
  publishedAt := ⟨0, 0⟩
  collectedAt := ⟨0, 0⟩
  source := SOURCE
  mappingMethod := MAPPING_TITLE

/-- No news yet, and nothing stored. -/
def start : Newsroom := ⟨fun _ => [], .empty⟩

/-- News of the whole market stands in front of news of the target; or a run fails after
its first page, and the next one finds that page known. -/
theorem run_not_complete :
    ¬ Run.Admits (step plain) (Complete plain) start
        [.publish "삼성전자" [named "u2" "코스피 상승", named "u1" "삼성전자 실적"],
          .collect samsung fun _ => {}] ∧
      ¬ Run.Admits (step plain) (Complete plain) start
        [.publish "삼성전자" [named "u2" "삼성전자 신제품", named "u1" "삼성전자 실적"],
          .collect samsung fun page => { search := if page = 1 then .raises false else .returns },
          .collect samsung fun _ => {}] := by
  refine ⟨fun h => ?_, fun h => ?_⟩
  · obtain ⟨-, hcollect, -⟩ := h
    have hstop := (hcollect (0, 0) .empty (by decide +kernel)).2 1 (by decide)
    exact absurd hstop (by decide +kernel)
  · obtain ⟨-, -, hcollect, -⟩ := h
    have hstop := (hcollect (1, 0) ⟨[samsungRow "u2" "삼성전자 신제품"], by decide⟩
      (by decide +kernel)).2 1 (by decide)
    exact absurd hstop (by decide +kernel)

end Newsroom

end AutoTrade
