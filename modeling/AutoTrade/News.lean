/-
AutoTrade/News.lean

The news collector (`news/collector.py`) and the table it fills (`insert_news` of
`db/repo.py`).

`parseItem` makes a row of a search result that names the target, and
`NewsTable.insertNews` keeps the first row under each article and symbol
(`insertNews_keeps_first`).  `collectTarget` reads the results page after page, the
newest first, and stops at a page that brought nothing new.  The calls to the search
and to the database may fail at any page.

The parsers of the standard library, for HTML entities, dates and locations, are
parameters.
-/
import AutoTrade.Lib.Effect
import AutoTrade.Lib.KeepFirst
import AutoTrade.Lib.Run
import AutoTrade.Symbols
import Mathlib.Data.List.Infix

namespace AutoTrade

/-! ### The table -/

/-- A row of `news`. -/
structure NewsRow where
  symbol : Symbol
  headline : String
  press : String
  url : String
  publishedAt : Datetime
  collectedAt : Datetime
  source : String
  mappingMethod : String
  category : Option String := none
  clusterId : Option String := none
  body : Option String := none
  deriving DecidableEq

/-- `(url, symbol)`. -/
def NewsRow.key (r : NewsRow) : String × Symbol := (r.url, r.symbol)

/-- The table with its constraint `uq_news_url_symbol`. -/
@[ext] structure NewsTable where
  rows : List NewsRow
  unique : (rows.map NewsRow.key).Nodup
  deriving DecidableEq

namespace NewsTable

/-- The table before the first row. -/
def empty : NewsTable := ⟨[], List.nodup_nil⟩

/-- The row that `insert_news` looks for before it adds one. -/
def dup (t : NewsTable) (it : NewsRow) : Bool :=
  t.rows.any fun r => r.url = it.url ∧ r.symbol = it.symbol

theorem dup_iff {t : NewsTable} {it : NewsRow} : t.dup it ↔ it.key ∈ t.rows.map NewsRow.key := by
  rw [dup, List.any_eq_true, List.mem_map]
  simp only [decide_eq_true_eq, NewsRow.key, Prod.mk.injEq]

theorem nodup_of_not_dup {t : NewsTable} {it : NewsRow} (h : ¬ t.dup it) :
    ((t.rows ++ [it]).map NewsRow.key).Nodup := by
  rw [dup_iff] at h
  rw [List.map_append, List.nodup_append]
  refine ⟨t.unique, List.nodup_singleton _, ?_⟩
  intro k hk k' hk' heq
  rw [List.map_singleton, List.mem_singleton] at hk'
  exact h (hk' ▸ heq ▸ hk)

/-- One item, with the count of what was inserted. -/
def insertItem : NewsTable × ℕ → NewsRow → NewsTable × ℕ
  | (t, inserted), it =>
    if h : t.dup it then (t, inserted)
    else (⟨t.rows ++ [it], nodup_of_not_dup h⟩, inserted + 1)

/-- `insert_news`: the rows that are new go in, and it counts them. -/
def insertNews (t : NewsTable) (items : List NewsRow) : NewsTable × ℕ :=
  items.foldl insertItem (t, 0)

/-- The loop offers the items one after another and counts the rows it adds. -/
theorem foldl_insertItem (items : List NewsRow) (t : NewsTable) (inserted : ℕ) :
    (items.foldl insertItem (t, inserted)).1.rows = KeepFirst.offerAll NewsRow.key t.rows items ∧
      (items.foldl insertItem (t, inserted)).1.rows.length + inserted =
        t.rows.length + (items.foldl insertItem (t, inserted)).2 := by
  induction items generalizing t inserted with
  | nil => exact ⟨rfl, rfl⟩
  | cons it items ih =>
    rw [List.foldl_cons, KeepFirst.offerAll, List.foldl_cons, ← KeepFirst.offerAll, insertItem,
      KeepFirst.offer]
    by_cases hdup : t.dup it
    · rw [dif_pos hdup, if_pos (dup_iff.mp hdup)]
      exact ih t inserted
    · rw [dif_neg hdup, if_neg (mt dup_iff.mpr hdup)]
      obtain ⟨hrows, hcount⟩ := ih ⟨t.rows ++ [it], nodup_of_not_dup hdup⟩ (inserted + 1)
      refine ⟨hrows, ?_⟩
      rw [List.length_append, List.length_singleton] at hcount
      omega

theorem insertNews_rows (t : NewsTable) (items : List NewsRow) :
    (t.insertNews items).1.rows = KeepFirst.offerAll NewsRow.key t.rows items :=
  (foldl_insertItem items t 0).1

/-- What is returned is the growth of the table. -/
theorem insertNews_count (t : NewsTable) (items : List NewsRow) :
    (t.insertNews items).1.rows.length = t.rows.length + (t.insertNews items).2 :=
  (foldl_insertItem items t 0).2

/-- The table after some calls of `insert_news`. -/
def insertBatches (t : NewsTable) (batches : List (List NewsRow)) : NewsTable :=
  batches.foldl (fun t items => (t.insertNews items).1) t

theorem insertBatches_rows (t : NewsTable) (batches : List (List NewsRow)) :
    (t.insertBatches batches).rows = KeepFirst.readAll NewsRow.key t.rows batches := by
  induction batches generalizing t with
  | nil => rfl
  | cons items batches ih =>
    rw [insertBatches, List.foldl_cons, ← insertBatches, ih, insertNews_rows]
    rfl

/-- **The first version of a row is kept**: under each article and symbol there is what
was offered first, however the offers were batched; later calls change and remove
nothing; and each call returns the growth of the table. -/
theorem insertNews_keeps_first (batches : List (List NewsRow)) :
    (∀ k, (empty.insertBatches batches).rows.filter (fun r => r.key = k) =
        (batches.flatten.find? fun it => it.key = k).toList) ∧
      (∀ later, (empty.insertBatches batches).rows <+:
        (empty.insertBatches (batches ++ later)).rows) ∧
      ∀ items, ((empty.insertBatches batches).insertNews items).1.rows.length =
        (empty.insertBatches batches).rows.length +
          ((empty.insertBatches batches).insertNews items).2 := by
  refine ⟨fun k => ?_, fun later => ?_, fun items => insertNews_count _ items⟩
  · rw [insertBatches_rows, KeepFirst.readAll_eq, empty, KeepFirst.offerAll_nil]
    exact KeepFirst.filter_key_firsts NewsRow.key batches.flatten k
  · rw [insertBatches_rows, insertBatches_rows, KeepFirst.readAll, KeepFirst.readAll,
      List.foldl_append, ← KeepFirst.readAll, ← KeepFirst.readAll, KeepFirst.readAll_eq _ _ later]
    exact KeepFirst.prefix_offerAll NewsRow.key _ _

end NewsTable

/-! ### Reading an item -/

/-- What the standard library parses. -/
structure Parsers where
  /-- `html.unescape` -/
  unescape : List Char → List Char
  /-- `parsedate_to_datetime`: it may raise, and a date may be without a zone -/
  parsedateToDatetime : String → Option (Option Datetime)
  /-- `urlparse(url).netloc`, which may raise -/
  netloc : String → Option String

/-- A result of the search, with the fields it may lack. -/
structure NewsItem where
  title : Option String := none
  description : Option String := none
  originallink : Option String := none
  link : Option String := none
  pubDate : Option String := none

/-- A stock that news is looked for. -/
structure NewsTarget where
  symbol : Symbol
  name : String

/-- Where the rows come from. -/
def SOURCE : String := "naver_api_hub"

/-- The name of the stock is in the title. -/
def MAPPING_TITLE : String := "naver_query+title_match"

/-- The name of the stock is in the description only. -/
def MAPPING_DESC : String := "naver_query+desc_match"

/-- The length of a match of `[^>]+>` at the start of a text. -/
def tagLength (cs : List Char) : Option ℕ :=
  let body := (cs.takeWhile (· ≠ '>')).length
  if 0 < body ∧ body < cs.length then some (body + 1) else none

/-- `_TAG_RE.sub("", raw)`, where `skip` characters still belong to a tag. -/
def removeTags : ℕ → List Char → List Char
  | _, [] => []
  | skip + 1, _ :: cs => removeTags skip cs
  | 0, c :: cs =>
    if c = '<' then
      match tagLength cs with
      | some n => removeTags n cs
      | none => c :: removeTags 0 cs
    else c :: removeTags 0 cs

example : removeTags 0 "<b>삼성</b> a<b, 1>0 <>".toList = "삼성 a0 <>".toList := by decide +kernel

namespace Parsers

variable (lib : Parsers)

/-- `clean_text`: without tags and entities, and stripped. -/
def cleanText (raw : Option String) : List Char :=
  strip (lib.unescape (removeTags 0 (raw.getD "").toList))

/-- `press_from_url`: the host of the link. -/
def pressFromUrl (url : String) : String :=
  match lib.netloc url with
  | none => "unknown"
  | some netloc => if netloc = "" then "unknown" else netloc

/-- `a or b or ""` of two fields. -/
def firstUrl (item : NewsItem) : String :=
  match item.originallink with
  | some url => if url = "" then item.link.getD "" else url
  | none => item.link.getD ""

/-- `parse_item`: a row where the item names the target, has a link and a date that can
be read. -/
def parseItem (target : NewsTarget) (now : Datetime) (item : NewsItem) : Option NewsRow :=
  let title := lib.cleanText item.title
  let desc := lib.cleanText item.description
  let mapping :=
    -- the title counts before the description
    if target.name.toList <:+: title then some MAPPING_TITLE
    else if target.name.toList <:+: desc then some MAPPING_DESC
    else none
  match mapping with
  | none => none
  | some mapping =>
    let url := firstUrl item
    if title = [] ∨ url = "" then none
    else
      -- a date that cannot be read leaves the item out
      match item.pubDate.bind lib.parsedateToDatetime with
      | some (some published) =>
        some {
          symbol := target.symbol
          headline := String.ofList title
          press := lib.pressFromUrl url
          url
          publishedAt := published.astimezone 0
          collectedAt := now
          source := SOURCE
          mappingMethod := mapping }
      | _ => none

end Parsers

/-! ### The collector -/

/-- `client.search`: a page of the results, the newest first. -/
def search (feed : List NewsItem) (start display : ℕ) : List NewsItem :=
  (feed.drop (start - 1)).take display

/-- How the two calls for a page end. -/
structure PageFate where
  search : Effect.Fate := .returns
  insert : Effect.Fate := .returns

/-- The arguments of `collect_target`. -/
structure CollectArgs where
  target : NewsTarget
  now : Datetime
  maxPages : ℕ := 2
  pageSize : ℕ := 100

namespace CollectArgs

variable (lib : Parsers) (feed : List NewsItem) (args : CollectArgs)

/-- The items of a page. -/
def pageItems (page : ℕ) : List NewsItem := search feed (1 + page * args.pageSize) args.pageSize

/-- The rows that the items of a page map to. -/
def pageRows (page : ℕ) : List NewsRow :=
  (args.pageItems feed page).filterMap (lib.parseItem args.target args.now)

end CollectArgs

/-- `repo.insert_news` is one transaction. -/
def insertNews (fate : Effect.Fate) (rows : List NewsRow) : Effect Exn NewsTable ℕ := do
  let new ← Effect.look fun t => (t.insertNews rows).2
  Effect.commit fate "insert_news" fun t => (t.insertNews rows).1
  pure new

/-- The loop of `collect_target` from a page on, with the pages that are left. -/
def collectPages (lib : Parsers) (feed : List NewsItem) (args : CollectArgs)
    (fates : ℕ → PageFate) : ℕ → ℕ → ℕ × ℕ → Effect Exn NewsTable (ℕ × ℕ)
  | 0, _, counts => pure counts
  | left + 1, page, (mapped, inserted) => do
    let items ← Effect.query (fates page).search "search" fun _ => args.pageItems feed page
    let rows := items.filterMap (lib.parseItem args.target args.now)
    -- each page is stored before the next one is asked for
    let new ← insertNews (fates page).insert rows
    -- a page without a new row ends the run, also one whose items name no target
    if items.isEmpty ∨ new = 0 then pure (mapped + rows.length, inserted + new)
    else collectPages lib feed args fates left (page + 1) (mapped + rows.length, inserted + new)

/-- The observations that were mapped, and those that were inserted. -/
def collectTarget (lib : Parsers) (feed : List NewsItem) (args : CollectArgs)
    (fates : ℕ → PageFate) : Effect Exn NewsTable (ℕ × ℕ) :=
  collectPages lib feed args fates args.maxPages 0 (0, 0)

/-- What `collect_all` counts. -/
structure CollectCounts where
  targets : ℕ
  mapped : ℕ := 0
  inserted : ℕ := 0
  errors : ℕ := 0

/-- One target of `collect_all`, whose failure is only counted. -/
def collectOne (lib : Parsers) (feed : String → List NewsItem) (now : Datetime) :
    NewsTable × CollectCounts → NewsTarget × (ℕ → PageFate) → NewsTable × CollectCounts
  | (t, counts), (target, fates) =>
    match collectTarget lib (feed target.name) { target, now } fates t with
    | (.ok (m, i), t') =>
      (t', { counts with mapped := counts.mapped + m, inserted := counts.inserted + i })
    | (.error _, t') => (t', { counts with errors := counts.errors + 1 })

/-- `collect_all`: the targets one after another; one that fails does not stop the
next. -/
def collectAll (lib : Parsers) (feed : String → List NewsItem) (now : Datetime)
    (targets : List (NewsTarget × (ℕ → PageFate))) (t : NewsTable) : NewsTable × CollectCounts :=
  targets.foldl (collectOne lib feed now) (t, { targets := targets.length })

end AutoTrade
