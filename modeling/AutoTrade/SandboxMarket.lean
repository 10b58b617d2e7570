/-
AutoTrade/SandboxMarket.lean

What the sandbox answers (`get_candles` and `get_prices` of `toss/sandbox.py`).

The candles of a symbol are the last days of its walk, each with a spread and a volume
that its place in the answer draws.  A price is read off the walk with a second look at
the clock, and a day that begins between the two looks is not there yet.

`market_sound` is about every run of requests whose clock does not go back: there is one
walk of each symbol that all answers are read off, whatever was asked before them.  A
request only makes walks longer (`Grows`), so it is enough that an answer is sound of
the walks right after it (`Priced.serve`), and that being sound passes on to longer ones
(`AnswerSound.mono`).
-/
import AutoTrade.Sandbox
import AutoTrade.TossModels
import Mathlib.Algebra.Order.Floor.Ring
import Mathlib.Tactic.Positivity

namespace AutoTrade

namespace SandboxToss

/-! ### The answers -/

/-- A candle, with the fields that only a chart reads. -/
structure Bar extends Candle where
  date : Date
  openPrice : ℚ
  highPrice : ℚ
  lowPrice : ℚ
  deriving DecidableEq

variable (rng : Random) (digest : Symbol → ℕ)

/-- The volume at a place of the answer, `s` being the seed of the symbol. -/
def volumeAt (s : ℤ) (i : ℕ) : ℚ := ⌊80000 + rng.uniform (s + i) 1 * 2000000⌋

/-- The candle at a place of the answer, from its date and its close. -/
def bar (s : ℤ) (i : ℕ) (b : Date × ℚ) : Bar :=
  let spread := b.2 * (2 / 1000 + rng.uniform (s + i) 0 * (1 / 100))
  { date := b.1
    openPrice := b.2 - spread / 2
    highPrice := b.2 + spread
    lowPrice := b.2 - spread
    closePrice := b.2
    volume := volumeAt rng s i }

/-- `get_candles`. -/
def getCandles (t : SandboxToss) (symbol : Symbol) (now today : Instant) :
    List Bar × SandboxToss :=
  let (bars, t) := t.bars rng digest symbol now today
  (bars.mapIdx (bar rng (stableSeed digest symbol t.seed)), t)

/-- A symbol of `get_prices`, with the two looks at the clock. -/
structure Asked where
  symbol : Symbol
  now : Instant
  later : Instant

/-- `get_prices`: none when a walk is not long enough, and an `IndexError` is raised. -/
def getPrices (t : SandboxToss) : List Asked → Option (List (Symbol × ℚ)) × SandboxToss
  | [] => (some [], t)
  | a :: asked =>
    match t.lastPrice rng digest a.symbol a.now a.later with
    | (none, t) => (none, t)
    | (some p, t) =>
      let (ps, t) := getPrices t asked
      (ps.map ((a.symbol, p) :: ·), t)

/-- A call of the sandbox, with the readings of the clock that it makes. -/
inductive Request
  | candles (symbol : Symbol) (now today : Instant)
  | prices (asked : List Asked)

/-- What it answers; `none` where the call raises. -/
inductive Answer
  | candles (bars : List Bar)
  | prices (ps : Option (List (Symbol × ℚ)))

/-- An answer, and the paths as they have grown. -/
def serve (t : SandboxToss) : Request → Answer × SandboxToss
  | .candles symbol now today =>
    let (bars, t) := t.getCandles rng digest symbol now today
    (.candles bars, t)
  | .prices asked =>
    let (ps, t) := t.getPrices rng digest asked
    (.prices ps, t)

/-- Some requests after another, with their answers. -/
def serveAll (t : SandboxToss) : List Request → List (Request × Answer) × SandboxToss
  | [] => ([], t)
  | q :: qs =>
    let (a, t) := t.serve rng digest q
    let (log, t) := serveAll t qs
    ((q, a) :: log, t)

/-- The looks at the clock that a request takes its day from, in their order. -/
def Request.looks : Request → List Instant
  | .candles _ now _ => [now]
  | .prices asked => asked.flatMap fun a => [a.now, a.later]

variable {rng digest} {t t' t'' : SandboxToss} {symbol : Symbol} {upto D : ℤ}

/-! ### Walks get longer -/

/-- Only the walks change, and they get longer. -/
structure Grows (t t' : SandboxToss) : Prop where
  setup : ∃ paths drift, t' = { t with paths := paths, drift := drift }
  front : ∀ s, t.walk s <+: t'.walk s

theorem Grows.refl (t : SandboxToss) : Grows t t where
  setup := ⟨t.paths, t.drift, rfl⟩
  front := fun _ => List.prefix_rfl

/-- Paths that have grown go on growing. -/
theorem Grows.trans (h : Grows t t') (h' : Grows t' t'') : Grows t t'' := by
  obtain ⟨paths, drift, rfl⟩ := h.setup
  obtain ⟨paths', drift', rfl⟩ := h'.setup
  exact ⟨⟨paths', drift', rfl⟩, fun s => (h.front s).trans (h'.front s)⟩

theorem Grows.day (h : Grows t t') : t'.day = t.day := by
  obtain ⟨paths, drift, rfl⟩ := h.setup
  rfl

theorem Grows.seed (h : Grows t t') : t'.seed = t.seed := by
  obtain ⟨paths, drift, rfl⟩ := h.setup
  rfl

theorem Grows.history (h : Grows t t') : t'.history = t.history := by
  obtain ⟨paths, drift, rfl⟩ := h.setup
  rfl

/-- Every walk has a price, and none that is under the lowest; none goes past day `D`. -/
structure Priced (D : ℤ) (t : SandboxToss) : Prop where
  ne_nil : ∀ s path, t.paths.get? s = some path → path ≠ []
  le : ∀ s, ∀ p ∈ t.walk s, 100 ≤ p
  upto : ∀ s, ((t.walk s).length : ℤ) ≤ D + 1

theorem Priced.mono {D' : ℤ} (h : Priced D t) (hle : D ≤ D') : Priced D' t :=
  ⟨h.ne_nil, h.le, fun s => (h.upto s).trans (Int.add_le_add_right hle 1)⟩

/-- A new sandbox has no walk yet. -/
theorem IsNew.priced (h : t.IsNew) (hD : 0 ≤ D) : Priced D t := by
  have hnone : ∀ s, t.paths.get? s = none := fun s => by rw [h.1, Dict.get?_empty]
  refine ⟨fun s path hs => ?_, fun s p hp => ?_, fun s => ?_⟩
  · rw [hnone s] at hs
    cases hs
  · rw [walk, hnone s] at hp
    cases hp
  · rw [walk, hnone s, Option.getD_none, List.length_nil]
    omega

/-- A walk that is opened has a price, and no more than it had or one. -/
theorem Priced.opened (h : Priced D t) (hD : 0 ≤ D)
    (hrng : 0 ≤ rng.uniform (stableSeed digest symbol t.seed) 0) :
    Priced D (t.opened rng digest symbol) ∧ Grows t (t.opened rng digest symbol) ∧
      (t.opened rng digest symbol).walk symbol ≠ [] := by
  rcases hget : t.paths.get? symbol with - | path
  · have hsame : t.opened rng digest symbol =
        { t with
          drift := t.drift.set symbol
            (gauss (rng.normalAfter (stableSeed digest symbol t.seed)) t.trend (3 / 1000))
          paths := t.paths.set symbol [firstPrice rng digest symbol t.seed] } := by
      unfold SandboxToss.opened
      rw [hget]
      rfl
    have hwalk : ∀ s, (t.opened rng digest symbol).walk s =
        if symbol = s then [firstPrice rng digest symbol t.seed] else t.walk s := by
      intro s
      rw [hsame, walk, Dict.get?_set]
      split_ifs <;> rfl
    refine ⟨⟨?_, ?_, ?_⟩, ⟨⟨_, _, hsame⟩, ?_⟩, ?_⟩
    · intro s path hs
      rw [hsame, Dict.get?_set] at hs
      split_ifs at hs with heq
      · cases hs
        exact List.cons_ne_nil _ _
      · exact h.ne_nil s path hs
    · intro s p hp
      rw [hwalk] at hp
      split_ifs at hp with heq
      · rw [List.mem_singleton.mp hp, firstPrice]
        linarith
      · exact h.le s p hp
    · intro s
      rw [hwalk]
      split_ifs
      · rw [List.length_singleton]
        omega
      · exact h.upto s
    · intro s
      rw [hwalk]
      split_ifs with heq
      · subst heq
        rw [walk, hget]
        exact List.nil_prefix
      · exact List.prefix_rfl
    · rw [hwalk, if_pos rfl]
      exact List.cons_ne_nil _ _
  -- a walk that is there is left alone
  · have hsame : t.opened rng digest symbol = t := by
      unfold SandboxToss.opened
      rw [hget]
    rw [hsame, walk, hget]
    exact ⟨h, Grows.refl t, h.ne_nil symbol path hget⟩

/-- **What `_path` gives** is the walk it leaves, and it goes as far as it was asked to. -/
theorem Priced.path (h : Priced D t) (hD : 0 ≤ D)
    (hrng : 0 ≤ rng.uniform (stableSeed digest symbol t.seed) 0) (hupto : upto ≤ D) :
    Priced D (t.path rng digest symbol upto).2 ∧ Grows t (t.path rng digest symbol upto).2 ∧
      (t.path rng digest symbol upto).1 = (t.path rng digest symbol upto).2.walk symbol ∧
      upto < ((t.path rng digest symbol upto).1.length : ℤ) := by
  obtain ⟨hopened, hgrows, hne⟩ := h.opened hD hrng
  set o := t.opened rng digest symbol with ho
  set f : ℕ → ℕ → ℚ → ℚ := fun start k =>
    nextPrice ((o.drift.get? symbol).getD 0) o.vol
      (rng.normal (stableSeed digest symbol t.seed + start) k) with hf
  have hpath : t.path rng digest symbol upto =
      (Regrow.reach f (o.walk symbol) upto,
        { o with paths := o.paths.set symbol (Regrow.reach f (o.walk symbol) upto) }) := by
    rw [SandboxToss.path, hf, ← hgrows.seed]
    rfl
  rw [hpath]
  dsimp only
  obtain ⟨hfront, hlen⟩ := Regrow.reach_spec f hne upto
  -- each new price is kept at the lowest one or above
  have hle : ∀ p ∈ Regrow.reach f (o.walk symbol) upto, 100 ≤ p :=
    Regrow.reach_forall (fun _ _ _ _ => le_max_left _ _) (hopened.le symbol) upto
  generalize Regrow.reach f (o.walk symbol) upto = path at hfront hlen hle ⊢
  -- only the walk of the symbol grows
  have hwalk : ∀ s, walk { o with paths := o.paths.set symbol path } s =
      if symbol = s then path else o.walk s := by
    intro s
    rw [walk, Dict.get?_set]
    split_ifs <;> rfl
  have hupto' := hopened.upto symbol
  refine ⟨⟨?_, ?_, ?_⟩, hgrows.trans ⟨⟨_, _, rfl⟩, ?_⟩, ?_, ?_⟩
  · intro s path' hs
    rw [Dict.get?_set] at hs
    split_ifs at hs with heq
    · cases hs
      exact fun hnil => hne (List.prefix_nil.mp (hnil ▸ hfront))
    · exact hopened.ne_nil s path' hs
  · intro s p hp
    rw [hwalk] at hp
    split_ifs at hp
    · exact hle p hp
    · exact hopened.le s p hp
  · intro s
    rw [hwalk]
    split_ifs
    · omega
    · exact hopened.upto s
  · intro s
    rw [hwalk]
    split_ifs with heq
    · exact heq ▸ hfront
    · exact List.prefix_rfl
  · rw [hwalk, if_pos rfl]
  · omega

/-! ### One answer -/

/-- Candles that are the last days of a walk `w`, in order and each well formed. -/
structure BarsSound (rng : Random) (s : ℤ) (w : List ℚ) (day history : ℤ) (today : Date)
    (bars : List Bar) : Prop where
  length_eq : (bars.length : ℤ) = max 0 (min history (day + 1))
  place : ∀ (i : ℕ) (b : Bar), bars[i]? = some b →
    w[(day + 1 - bars.length + i).toNat]? = some b.closePrice ∧
      b.date = today - (bars.length - 1 - i) ∧ b.volume = volumeAt rng s i
  shape : ∀ b ∈ bars, 100 ≤ b.closePrice ∧ 0 < b.lowPrice ∧ b.lowPrice < b.openPrice ∧
    b.openPrice < b.closePrice ∧ b.closePrice < b.highPrice ∧ 80000 ≤ b.volume

/-- Prices that are read off the walks `w`, unless a day begins while one is looked up. -/
structure PricesSound (w : Symbol → List ℚ) (day : Instant → ℤ) (asked : List Asked)
    (ps : Option (List (Symbol × ℚ))) : Prop where
  none_iff : ps = none ↔ ∃ a ∈ asked, day a.now < day a.later
  prices : ∀ out, ps = some out → List.Forall₂ (fun a p => p.1 = a.symbol ∧
    ∃ x, (w a.symbol)[(day a.later).toNat]? = some x ∧ 100 ≤ p.2 ∧ |p.2 - x| ≤ 1 / 20) asked out

/-- What an answer is, `w` being the walks and `t` the settings. -/
def AnswerSound (rng : Random) (digest : Symbol → ℕ) (w : Symbol → List ℚ)
    (t : SandboxToss) : Request → Answer → Prop
  | .candles symbol now today, .candles bars =>
    BarsSound rng (stableSeed digest symbol t.seed) (w symbol) (t.day now) t.history
      (tradeDateKst (.utc today)) bars
  | .prices asked, .prices ps => PricesSound w t.day asked ps
  | _, _ => False

/-- Bars of a walk are bars of each walk that goes on from it. -/
theorem BarsSound.mono {s : ℤ} {w w' : List ℚ} {day history : ℤ} {today : Date} {bars : List Bar}
    (h : BarsSound rng s w day history today bars) (hw : w <+: w') :
    BarsSound rng s w' day history today bars where
  length_eq := h.length_eq
  place := fun i b hb => by
    obtain ⟨hclose, hrest⟩ := h.place i b hb
    obtain ⟨hlt, -⟩ := List.getElem?_eq_some_iff.mp hclose
    exact ⟨(Regrow.getElem?_of_front hw hlt).trans hclose, hrest⟩
  shape := h.shape

/-- The same for prices. -/
theorem PricesSound.mono {w w' : Symbol → List ℚ} {day : Instant → ℤ} {asked : List Asked}
    {ps : Option (List (Symbol × ℚ))} (h : PricesSound w day asked ps)
    (hw : ∀ s, w s <+: w' s) : PricesSound w' day asked ps where
  none_iff := h.none_iff
  prices := fun out hout => (h.prices out hout).imp fun a p hp => by
    obtain ⟨hname, x, hx, hrest⟩ := hp
    obtain ⟨hlt, -⟩ := List.getElem?_eq_some_iff.mp hx
    exact ⟨hname, x, (Regrow.getElem?_of_front (hw a.symbol) hlt).trans hx, hrest⟩

/-- And so for every answer. -/
theorem AnswerSound.mono {w w' : Symbol → List ℚ} {q : Request} {a : Answer}
    (h : AnswerSound rng digest w t q a) (hw : ∀ s, w s <+: w' s) :
    AnswerSound rng digest w' t q a := by
  cases q <;> cases a
  · exact BarsSound.mono h (hw _)
  · exact h
  · exact h
  · exact PricesSound.mono h hw

/-- An answer is judged by what its sandbox was set up with. -/
theorem AnswerSound.of_grows {w : Symbol → List ℚ} {q : Request} {a : Answer}
    (h : AnswerSound rng digest w t' q a) (hgrows : Grows t t') :
    AnswerSound rng digest w t q a := by
  obtain ⟨paths, drift, rfl⟩ := hgrows.setup
  exact h

/-- The draws of `random()`. -/
def Uniform (rng : Random) : Prop := ∀ k i, 0 ≤ rng.uniform k i ∧ rng.uniform k i < 1

/-- A bar opens below its close and between its low and high. -/
theorem bar_shape (huniform : Uniform rng) (s : ℤ) (i : ℕ) {b : Date × ℚ} (hb : 100 ≤ b.2) :
    100 ≤ (bar rng s i b).closePrice ∧ 0 < (bar rng s i b).lowPrice ∧
      (bar rng s i b).lowPrice < (bar rng s i b).openPrice ∧
      (bar rng s i b).openPrice < (bar rng s i b).closePrice ∧
      (bar rng s i b).closePrice < (bar rng s i b).highPrice ∧
      80000 ≤ (bar rng s i b).volume := by
  obtain ⟨hlow, hhigh⟩ := huniform (s + i) 0
  obtain ⟨hvol, -⟩ := huniform (s + i) 1
  set r := 2 / 1000 + rng.uniform (s + i) 0 * (1 / 100) with hr
  have hpos : 0 < b.2 * r := mul_pos (by linarith) (by linarith)
  -- the spread is less than the close
  have hless : b.2 * r < b.2 * 1 := mul_lt_mul_of_pos_left (by linarith) (by linarith)
  refine ⟨hb, ?_, ?_, ?_, ?_, ?_⟩
  · show 0 < b.2 - b.2 * r
    linarith
  · show b.2 - b.2 * r < b.2 - b.2 * r / 2
    linarith
  · show b.2 - b.2 * r / 2 < b.2
    linarith
  · show b.2 < b.2 + b.2 * r
    linarith
  · show (80000 : ℚ) ≤ (⌊80000 + rng.uniform (s + i) 1 * 2000000⌋ : ℤ)
    have : (80000 : ℤ) ≤ ⌊80000 + rng.uniform (s + i) 1 * 2000000⌋ := by
      rw [Int.le_floor]
      push_cast
      linarith
    exact_mod_cast this

/-- The bars are the last days of a walk that is long enough. -/
theorem bars_spec {now : Instant} (today : Instant)
    (hgrows : Grows t (t.path rng digest symbol (t.day now)).2)
    (hlong : t.day now < ((t.path rng digest symbol (t.day now)).1.length : ℤ)) :
    ((t.bars rng digest symbol now today).1.length : ℤ) =
        max 0 (min t.history (t.day now + 1)) ∧
      ∀ (i : ℕ) (b : Date × ℚ), (t.bars rng digest symbol now today).1[i]? = some b →
        (t.path rng digest symbol (t.day now)).1[
            (t.day now + 1 - (t.bars rng digest symbol now today).1.length + i).toNat]? =
          some b.2 ∧
        b.1 = tradeDateKst (.utc today) -
          ((t.bars rng digest symbol now today).1.length - 1 - i) := by
  simp only [SandboxToss.bars, hgrows.history]
  set day := t.day now with hday
  set path := (t.path rng digest symbol day).1 with hpath
  set lo := max 0 (day - t.history + 1) with hlo
  set n := (day + 1 - lo).toNat with hn
  set date : ℕ → Date := fun i => tradeDateKst (.utc today) - (day - (lo + i)) with hdate
  have hlt : ∀ i < n, lo.toNat + i < path.length := fun i hi => by omega
  have hbars : (List.range n).filterMap
      (fun i => (path[lo.toNat + i]?).map fun p => (date i, p)) =
      (List.range n).map fun i => (date i, path.getD (lo.toNat + i) 0) := by
    rw [← List.filterMap_eq_map]
    refine List.filterMap_congr fun i hi => ?_
    have hi' := hlt i (List.mem_range.mp hi)
    show (path[lo.toNat + i]?).map _ = some (date i, path.getD (lo.toNat + i) 0)
    rw [List.getElem?_eq_getElem hi', List.getD_eq_getElem _ _ hi']
    rfl
  rw [hbars, List.length_map, List.length_range]
  refine ⟨by omega, fun i b hb => ?_⟩
  rw [List.getElem?_map, Option.map_eq_some_iff] at hb
  obtain ⟨j, hj, rfl⟩ := hb
  obtain ⟨hin, hji⟩ := List.getElem?_eq_some_iff.mp hj
  rw [List.length_range] at hin
  rw [List.getElem_range] at hji
  subst hji
  have hplace : (day + 1 - (n : ℤ) + i).toNat = lo.toNat + i := by omega
  refine ⟨?_, ?_⟩
  · rw [hplace, List.getElem?_eq_getElem (hlt i hin), List.getD_eq_getElem _ _ (hlt i hin)]
  · have hago : day - (lo + i) = n - 1 - i := by omega
    show tradeDateKst (.utc today) - (day - (lo + i)) = _
    rw [hago]

/-- **The candles** are sound of the walks they leave. -/
theorem Priced.getCandles (h : Priced D t) (hD : 0 ≤ D) (huniform : Uniform rng)
    (hrng : 0 ≤ rng.uniform (stableSeed digest symbol t.seed) 0) {now : Instant} (today : Instant)
    (hday : t.day now ≤ D) :
    Priced D (t.getCandles rng digest symbol now today).2 ∧
      Grows t (t.getCandles rng digest symbol now today).2 ∧
      BarsSound rng (stableSeed digest symbol t.seed)
        ((t.getCandles rng digest symbol now today).2.walk symbol) (t.day now) t.history
        (tradeDateKst (.utc today)) (t.getCandles rng digest symbol now today).1 := by
  obtain ⟨hpriced, hgrows, hwalk, hlong⟩ := h.path hD hrng hday
  obtain ⟨hlen, hbars⟩ := bars_spec today hgrows hlong
  have hseed := hgrows.seed
  have hcandles : (t.getCandles rng digest symbol now today).1 =
      (t.bars rng digest symbol now today).1.mapIdx
        (bar rng (stableSeed digest symbol t.seed)) := by
    rw [← hseed]
    rfl
  have hstate : (t.getCandles rng digest symbol now today).2 =
      (t.path rng digest symbol (t.day now)).2 := rfl
  -- the candle at a place, and what is known of its bar
  have hat : ∀ (i : ℕ) (c : Bar), (t.getCandles rng digest symbol now today).1[i]? = some c →
      ∃ b, (t.bars rng digest symbol now today).1[i]? = some b ∧
        c = bar rng (stableSeed digest symbol t.seed) i b := by
    intro i c hc
    rw [hcandles, List.getElem?_mapIdx, Option.map_eq_some_iff] at hc
    obtain ⟨b, hb, rfl⟩ := hc
    exact ⟨b, hb, rfl⟩
  rw [hstate, ← hwalk]
  refine ⟨hpriced, hgrows, ?_, ?_, ?_⟩
  · rw [hcandles, List.length_mapIdx, hlen]
  · intro i c hc
    obtain ⟨b, hb, rfl⟩ := hat i c hc
    rw [hcandles, List.length_mapIdx]
    exact ⟨(hbars i b hb).1, (hbars i b hb).2, rfl⟩
  · intro c hc
    obtain ⟨i, hi⟩ := List.mem_iff_getElem?.mp hc
    obtain ⟨b, hb, rfl⟩ := hat i c hi
    have hclose := List.mem_of_getElem? (hbars i b hb).1
    rw [hwalk] at hclose
    exact bar_shape huniform _ i (hpriced.le symbol b.2 hclose)

/-- Rounding to a tenth moves a price by half of one at most. -/
theorem round1_spec {x : ℚ} (hx : 100 ≤ x) : 100 ≤ round1 x ∧ |round1 x - x| ≤ 1 / 20 := by
  have hfloor : (⌊x * 10⌋ : ℚ) ≤ x * 10 := Int.floor_le _
  have hlt : x * 10 < ⌊x * 10⌋ + 1 := Int.lt_floor_add_one _
  have hlow : (1000 : ℚ) ≤ ⌊x * 10⌋ := by
    have : (1000 : ℤ) ≤ ⌊x * 10⌋ := by
      rw [Int.le_floor]
      push_cast
      linarith
    exact_mod_cast this
  rw [round1]
  -- down from under the middle, up from above it, and either way from the middle
  split_ifs with h
  · have hle : x * 10 - ⌊x * 10⌋ ≤ 1 / 2 := h.elim le_of_lt fun h => h.1.le
    exact ⟨by linarith, abs_le.mpr ⟨by linarith, by linarith⟩⟩
  · have hge : 1 / 2 ≤ x * 10 - ⌊x * 10⌋ := not_lt.mp fun hlt => h (Or.inl hlt)
    push_cast
    exact ⟨by linarith, abs_le.mpr ⟨by linarith, by linarith⟩⟩

/-- **One price**: there is none exactly when a day begins between the two looks. -/
theorem Priced.lastPrice {now later : Instant} (h : Priced (t.day now) t) (hD : 0 ≤ t.day now)
    (hrng : 0 ≤ rng.uniform (stableSeed digest symbol t.seed) 0) (hle : t.day now ≤ t.day later) :
    Priced (t.day now) (t.lastPrice rng digest symbol now later).2 ∧
      Grows t (t.lastPrice rng digest symbol now later).2 ∧
      ((t.lastPrice rng digest symbol now later).1 = none ↔ t.day now < t.day later) ∧
      ∀ p, (t.lastPrice rng digest symbol now later).1 = some p →
        ∃ x, ((t.lastPrice rng digest symbol now later).2.walk symbol)[(t.day later).toNat]? =
          some x ∧ 100 ≤ p ∧ |p - x| ≤ 1 / 20 := by
  obtain ⟨hpriced, hgrows, hwalk, hlong⟩ := h.path hD hrng le_rfl
  have hprice : (t.lastPrice rng digest symbol now later).1 =
      (((t.path rng digest symbol (t.day now)).1)[(t.day later).toNat]?).map round1 := by
    show ((t.path rng digest symbol (t.day now)).1[
      ((t.path rng digest symbol (t.day now)).2.day later).toNat]?).map round1 = _
    rw [hgrows.day]
  have hstate : (t.lastPrice rng digest symbol now later).2 =
      (t.path rng digest symbol (t.day now)).2 := rfl
  have hupto := hpriced.upto symbol
  rw [← hwalk] at hupto
  rw [hstate, hprice, ← hwalk]
  refine ⟨hpriced, hgrows, ?_, fun p hp => ?_⟩
  · rw [Option.map_eq_none_iff, List.getElem?_eq_none_iff]
    omega
  · obtain ⟨x, hx, rfl⟩ := Option.map_eq_some_iff.mp hp
    have hmem := List.mem_of_getElem? hx
    rw [hwalk] at hmem
    exact ⟨x, hx, round1_spec (hpriced.le symbol x hmem)⟩

/-! ### Every answer -/

/-- Looks at the clock from day `D` on, that do not go back. -/
structure Clocked (t : SandboxToss) (D : ℤ) (looks : List Instant) : Prop where
  le : ∀ r ∈ looks, D ≤ t.day r
  mono : looks.Pairwise fun a b => t.day a ≤ t.day b

theorem Clocked.of_append {looks looks' : List Instant} (h : Clocked t D (looks ++ looks')) :
    Clocked t D looks ∧ ∀ r ∈ looks, Clocked t (t.day r) looks' := by
  obtain ⟨hfirst, hrest, hcross⟩ := List.pairwise_append.mp h.mono
  refine ⟨⟨fun r hr => h.le r (List.mem_append_left _ hr), hfirst⟩, fun r hr => ⟨?_, hrest⟩⟩
  exact fun r' hr' => hcross r hr r' hr'

theorem Clocked.right {looks looks' : List Instant} (h : Clocked t D (looks ++ looks')) :
    Clocked t D looks' where
  le := fun r hr => h.le r (List.mem_append_right _ hr)
  mono := (List.pairwise_append.mp h.mono).2.1

theorem Clocked.of_grows {looks : List Instant} (h : Clocked t D looks) (hgrows : Grows t t') :
    Clocked t' D looks := by
  obtain ⟨paths, drift, rfl⟩ := hgrows.setup
  exact ⟨h.le, h.mono⟩

theorem PricesSound.nil (w : Symbol → List ℚ) (day : Instant → ℤ) :
    PricesSound w day [] (some []) where
  none_iff := iff_of_false (fun h => nomatch h) (by simp)
  prices := fun out hout => by
    cases hout
    exact .nil

/-- A day that begins between the two readings makes the call raise. -/
theorem PricesSound.cons_none {w : Symbol → List ℚ} {day : Instant → ℤ} {a : Asked}
    (asked : List Asked) (ha : day a.now < day a.later) : PricesSound w day (a :: asked) none where
  none_iff := iff_of_true rfl ⟨a, List.mem_cons_self, ha⟩
  prices := fun _ hout => nomatch hout

/-- A price within its day is the walk's. -/
theorem PricesSound.cons_some {w : Symbol → List ℚ} {day : Instant → ℤ} {a : Asked}
    {asked : List Asked} {ps : Option (List (Symbol × ℚ))} {p : ℚ}
    (h : PricesSound w day asked ps) (ha : ¬ day a.now < day a.later)
    (hp : ∃ x, (w a.symbol)[(day a.later).toNat]? = some x ∧ 100 ≤ p ∧ |p - x| ≤ 1 / 20) :
    PricesSound w day (a :: asked) (ps.map ((a.symbol, p) :: ·)) where
  none_iff := by
    rw [Option.map_eq_none_iff, h.none_iff]
    simp only [List.exists_mem_cons_iff, ha, false_or]
  prices := fun out hout => by
    obtain ⟨out', hout', rfl⟩ := Option.map_eq_some_iff.mp hout
    exact .cons ⟨rfl, hp⟩ (h.prices out' hout')

/-- What a request leaves for the ones after it, whose looks at the clock are `rest`. -/
structure Served (rng : Random) (digest : Symbol → ℕ) (t t' : SandboxToss) (q : Request)
    (a : Answer) (rest : List Instant) : Prop where
  grows : Grows t t'
  sound : AnswerSound rng digest t'.walk t q a
  next : ∃ D, 0 ≤ D ∧ Priced D t' ∧ Clocked t' D rest

/-- **The prices** are sound of the walks they leave: induction on the symbols. -/
theorem Priced.getPrices {rest : List Instant} (h : Priced D t) (hD : 0 ≤ D)
    (hrng : ∀ s, 0 ≤ rng.uniform (stableSeed digest s t.seed) 0) (asked : List Asked)
    (hclock : Clocked t D ((Request.prices asked).looks ++ rest)) :
    Served rng digest t (t.getPrices rng digest asked).2 (.prices asked)
      (.prices (t.getPrices rng digest asked).1) rest := by
  induction asked generalizing t D with
  | nil => exact ⟨Grows.refl t, PricesSound.nil _ _, D, hD, h, hclock⟩
  | cons a asked ih =>
    have hlooks : (Request.prices (a :: asked)).looks ++ rest =
        [a.now, a.later] ++ ((Request.prices asked).looks ++ rest) := by
      simp [Request.looks]
    rw [hlooks] at hclock
    obtain ⟨htwo, hrest⟩ := hclock.of_append
    have hnow : D ≤ t.day a.now := htwo.le _ List.mem_cons_self
    have hlater : t.day a.now ≤ t.day a.later :=
      List.rel_of_pairwise_cons htwo.mono List.mem_cons_self
    have hday : 0 ≤ t.day a.now := hD.trans hnow
    have hnext := hrest a.now List.mem_cons_self
    obtain ⟨hpriced, hgrows, hnone, hsome⟩ :=
      (h.mono hnow).lastPrice hday (hrng a.symbol) hlater
    rcases hlp : t.lastPrice rng digest a.symbol a.now a.later with ⟨_ | p, t₁⟩
    · rw [hlp] at hpriced hgrows hnone
      simp only [SandboxToss.getPrices, hlp]
      exact ⟨hgrows, PricesSound.cons_none asked (hnone.mp rfl), _, hday, hpriced,
        hnext.right.of_grows hgrows⟩
    · rw [hlp] at hpriced hgrows hnone hsome
      simp only [SandboxToss.getPrices, hlp]
      have hnot : ¬ t.day a.now < t.day a.later := fun hlt => nomatch hnone.mpr hlt
      obtain ⟨x, hx, hshape⟩ := hsome p rfl
      have hserved := ih hpriced hday (by rwa [hgrows.seed]) (hnext.of_grows hgrows)
      refine ⟨hgrows.trans hserved.grows, ?_, hserved.next⟩
      have hsound : PricesSound _ t.day asked _ := hserved.sound.of_grows hgrows
      refine hsound.cons_some hnot ⟨x, ?_, hshape⟩
      obtain ⟨hlt, -⟩ := List.getElem?_eq_some_iff.mp hx
      exact (Regrow.getElem?_of_front (hserved.grows.front a.symbol) hlt).trans hx

/-- **A request** is answered from the walks it leaves. -/
theorem Priced.serve {rest : List Instant} (h : Priced D t) (hD : 0 ≤ D)
    (huniform : Uniform rng) (hrng : ∀ s, 0 ≤ rng.uniform (stableSeed digest s t.seed) 0)
    (q : Request) (hclock : Clocked t D (q.looks ++ rest)) :
    Served rng digest t (t.serve rng digest q).2 q
      (t.serve rng digest q).1 rest := by
  cases q with
  | prices asked => exact h.getPrices hD hrng asked hclock
  | candles symbol now today =>
    obtain ⟨hone, hrest⟩ := hclock.of_append
    have hnow : D ≤ t.day now := hone.le _ List.mem_cons_self
    obtain ⟨hpriced, hgrows, hbars⟩ :=
      (h.mono hnow).getCandles (hD.trans hnow) huniform (hrng symbol) today le_rfl
    exact ⟨hgrows, hbars, _, hD.trans hnow, hpriced,
      (hrest now List.mem_cons_self).of_grows hgrows⟩

/-- The walks after a run are those that all its answers are read off. -/
theorem Priced.serveAll (h : Priced D t) (hD : 0 ≤ D) (huniform : Uniform rng)
    (hrng : ∀ s, 0 ≤ rng.uniform (stableSeed digest s t.seed) 0) (qs : List Request)
    (hclock : Clocked t D (qs.flatMap Request.looks)) :
    Grows t (t.serveAll rng digest qs).2 ∧
      ∀ qa ∈ (t.serveAll rng digest qs).1,
        AnswerSound rng digest (t.serveAll rng digest qs).2.walk t qa.1 qa.2 := by
  induction qs generalizing t D with
  | nil => exact ⟨Grows.refl t, fun qa hqa => nomatch hqa⟩
  | cons q qs ih =>
    obtain ⟨hgrows, hsound, D', hD', hpriced, hrest⟩ := h.serve hD huniform hrng q hclock
    obtain ⟨hgrows', hall⟩ := ih hpriced hD' (by rwa [hgrows.seed]) hrest
    refine ⟨hgrows.trans hgrows', fun qa hqa => ?_⟩
    rcases List.mem_cons.mp hqa with rfl | hqa
    · exact hsound.mono hgrows'.front
    · exact (hall qa hqa).of_grows hgrows

/-- The clock of the process: it does not go back, and is not before the start. -/
theorem Clocked.of_looks {looks : List Instant} (hwarm : 0 ≤ t.warmupDays)
    (hstart : ∀ r ∈ looks, t.started ≤ r) (hclock : looks.Pairwise (· ≤ ·)) :
    Clocked t 0 looks := by
  have hpos : 0 < 1000000 * max 1 t.daySeconds := by
    have := le_max_left 1 t.daySeconds
    omega
  refine ⟨fun r hr => ?_, hclock.imp fun {a b} hab => ?_⟩
  · exact add_nonneg hwarm (Int.ediv_nonneg (sub_nonneg.mpr (hstart r hr)) hpos.le)
  · exact add_le_add_right (Int.ediv_le_ediv hpos (sub_le_sub_right hab _)) _

end SandboxToss

namespace Sample

/-- Generators that always draw the same. -/
def constantDraws : Random where
  uniform := fun _ _ => 1 / 2
  normal := fun _ _ => 0
  normalAfter := fun _ => 0

/-- The candles of a stock, its price, and its price when a day begins meanwhile. -/
def aroundMidnight : List SandboxToss.Request :=
  [.candles "005930" 0 0, .prices [⟨"005930", 1, 2⟩], .prices [⟨"005930", 59999999, 60000000⟩]]

end Sample

namespace SandboxToss

end SandboxToss

end AutoTrade
