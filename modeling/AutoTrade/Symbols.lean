/-
AutoTrade/Symbols.lean

Which symbols a tick looks at (`engine/symbols.py`).

The watchlist comes first.  `resolveUniverse` then fills the rest in two
stages, from the symbols of the highest turnover and from those without a
recent measurement, and last from the whole seed list; `resolveSymbols` is the
plain rotation.  All streams start at an offset that grows with the ticks.

The first stage is capped relative to the watchlist and the others by `limit`,
so the watchlist is counted once too few (`resolveUniverse_sound_iff`), and the
second stage advances by its own slots and not by `limit`
(`coldStart_eq_rotation_iff`).
-/
import AutoTrade.Lib.Fill
import AutoTrade.OrderModels
import Mathlib.Algebra.Order.Floor.Semiring

namespace AutoTrade

open Fill

/-! ### Codes -/

/-- `str.isspace` of one character. -/
def isSpace (c : Char) : Bool :=
  [0x9, 0xa, 0xb, 0xc, 0xd, 0x1c, 0x1d, 0x1e, 0x1f, 0x20, 0x85, 0xa0, 0x1680, 0x2028, 0x2029,
    0x202f, 0x205f, 0x3000].contains c.toNat || (0x2000 ≤ c.toNat && c.toNat ≤ 0x200a)

/-- `str.strip()`. -/
def strip (s : List Char) : List Char :=
  ((s.dropWhile isSpace).reverse.dropWhile isSpace).reverse

/-- `str.upper()` of one character.  Besides `a` to `z` only the characters
listed become letters from `A` to `Z`; any other one stays outside of them. -/
def upper (c : Char) : List Char :=
  match c.toNat with
  | 0xdf => ['S', 'S']
  | 0x131 => ['I']
  | 0x17f => ['S']
  | 0xfb00 => ['F', 'F']
  | 0xfb01 => ['F', 'I']
  | 0xfb02 => ['F', 'L']
  | 0xfb03 => ['F', 'F', 'I']
  | 0xfb04 => ['F', 'F', 'L']
  | 0xfb05 => ['S', 'T']
  | 0xfb06 => ['S', 'T']
  | _ => [c.toUpper]

/-- `str.zfill(width)` of digits. -/
def zfill (width : ℕ) (s : List Char) : List Char :=
  List.replicate (width - s.length) '0' ++ s

/-- `_CODE_RE.match(s)`. -/
def codeRe (s : List Char) : Bool := s.length = 6 && s.all fun c => c.isDigit || c.isUpper

/-- `normalize_symbol`.  Digits of other scripts never match `_CODE_RE`, so it
does not matter that they would be padded too. -/
def normalizeSymbol (raw : String) : Option Symbol :=
  let s := (strip raw.toList).flatMap upper
  if s = [] then none
  else
    let s := if s.all Char.isDigit then zfill 6 s else s
    if codeRe s then some (String.ofList s) else none

example : normalizeSymbol " 5930" = some "005930" := by decide +kernel

/-- A listed stock. -/
structure SymbolEntry where
  code : Symbol
  name : String := ""
  market : Option String := none

/-! ### Selection -/

/-- `_rotate`. -/
def rotate (items : List Symbol) (offset : ℕ) : List Symbol :=
  if items = [] then items
  else
    let k := offset % items.length
    items.drop k ++ items.take k

@[simp] theorem rotate_eq (items : List Symbol) (offset : ℕ) :
    rotate items offset = items.rotate offset := by
  unfold rotate
  split_ifs with h
  · rw [h, List.rotate_nil]
  · rw [List.rotate_eq_drop_append_take_mod]

/-- The loop over `include` that both selections start with.  What `seen`
holds are the elements of `result`. -/
def addInclude : List Symbol → List String → List Symbol
  | result, [] => result
  | result, raw :: incl =>
    match normalizeSymbol raw with
    | none => addInclude result incl
    | some code =>
      if code ∈ result then addInclude result incl
      else addInclude (result ++ [code]) incl

/-- `n_explore`: the slots of `explore_ratio`, rounded up, at least one.  The ratio is read
as an exact rational number; the source multiplies floats, whose rounding can add one. -/
def nExplore (limit : ℕ) (exploreRatio : ℚ) : ℕ := max 1 ⌈limit * exploreRatio⌉.toNat

/-- `n_exploit`. -/
def nExploit (limit : ℕ) (exploreRatio : ℚ) : ℕ := limit - nExplore limit exploreRatio

/-- The seed symbols without a recent measurement. -/
def staleOf (seedCodes : List Symbol) (fresh : Finset Symbol) : List Symbol :=
  seedCodes.filter (· ∉ fresh)

/-- `resolve_universe`; its `take(stream, cap)` is `upTo cap`. -/
def resolveUniverse (seedCodes : List Symbol) (limit : ℕ) (incl : List String := [])
    (tickCount : ℕ := 0) (advPool : Option (List Symbol) := none) (fresh : Finset Symbol := ∅)
    (exploreRatio : ℚ := 1 / 5) : List Symbol :=
  let result := addInclude [] incl
  let nexplore := nExplore limit exploreRatio
  let nexploit := nExploit limit exploreRatio
  let base := result.length
  -- the cap counts from the watchlist, not to the limit
  let result := upTo (base + nexploit) result
    (rotate (advPool.getD []) (tickCount * max nexploit 1))
  let stale := staleOf seedCodes fresh
  -- the symbols without fresh statistics, in turn
  let result := upTo limit result (rotate stale (tickCount * nexplore))
  -- and what is left of the seed
  upTo limit result (rotate seedCodes (tickCount * limit))

/-- The loop over the entries, with `limit` when there is one. -/
def addEntries (limit : Option ℕ) : List Symbol → List SymbolEntry → List Symbol
  | result, [] => result
  | result, entry :: entries =>
    if limit.any (· ≤ result.length) then result
    else if entry.code ∈ result then addEntries limit result entries
    else addEntries limit (result ++ [entry.code]) entries

/-- `resolve_symbols`, from the entries its source gives. -/
def resolveSymbols (entries : List SymbolEntry) (limit : Option ℕ := none)
    (incl : List String := []) (offset : ℕ := 0) : List Symbol :=
  let result := addInclude [] incl
  let entries :=
    -- rotated before the watchlist is taken out
    if offset ≠ 0 ∧ entries ≠ [] then
      let k := offset % entries.length
      entries.drop k ++ entries.take k
    else entries
  addEntries limit result entries

/-- The watchlist, normalized, each code once. -/
def includeCodes (incl : List String) : List Symbol := unseen [] (incl.filterMap normalizeSymbol)

/-- The watchlist adds the codes that are new, in its order. -/
theorem addInclude_eq (result : List Symbol) (incl : List String) :
    addInclude result incl = result ++ unseen result (incl.filterMap normalizeSymbol) := by
  induction incl generalizing result with
  | nil => simp [addInclude, unseen]
  | cons raw incl ih =>
    rcases h : normalizeSymbol raw with - | code
    · rw [addInclude, List.filterMap_cons, h]
      exact ih result
    · rw [addInclude, List.filterMap_cons, h]
      dsimp only
      by_cases hc : code ∈ result
      · rw [if_pos hc, ih, unseen, if_pos hc]
      · rw [if_neg hc, ih, unseen, if_neg hc, List.append_assoc, List.singleton_append]

@[simp] theorem addInclude_nil (incl : List String) :
    addInclude [] incl = includeCodes incl := addInclude_eq [] incl

theorem nodup_includeCodes (incl : List String) : (includeCodes incl).Nodup := nodup_unseen _ _

/-! ### The three streams of a universe -/

section Universe

variable (seedCodes : List Symbol) (limit : ℕ) (incl : List String) (tickCount : ℕ)
  (advPool : Option (List Symbol)) (fresh : Finset Symbol) (exploreRatio : ℚ)

/-- The watchlist and the picks from the pool. -/
def exploited : List Symbol :=
  upTo ((includeCodes incl).length + nExploit limit exploreRatio) (includeCodes incl)
    ((advPool.getD []).rotate (tickCount * max (nExploit limit exploreRatio) 1))

/-- And the picks among the symbols without a recent measurement. -/
def explored : List Symbol :=
  upTo limit (exploited limit incl tickCount advPool exploreRatio)
    ((staleOf seedCodes fresh).rotate (tickCount * nExplore limit exploreRatio))

/-- The universe is filled up from three streams, one after another. -/
theorem resolveUniverse_eq :
    resolveUniverse seedCodes limit incl tickCount advPool fresh exploreRatio =
      upTo limit (explored seedCodes limit incl tickCount advPool fresh exploreRatio)
        (seedCodes.rotate (tickCount * limit)) := by
  simp only [resolveUniverse, explored, exploited, addInclude_nil, rotate_eq]

theorem nodup_exploited : (exploited limit incl tickCount advPool exploreRatio).Nodup :=
  nodup_upTo _ _ (nodup_includeCodes incl)

/-- The watchlist comes first. -/
theorem prefix_exploited :
    includeCodes incl <+: exploited limit incl tickCount advPool exploreRatio :=
  prefix_upTo _ _ _

/-- A pick of the first stage is watched or of the pool. -/
theorem mem_of_mem_exploited {c : Symbol}
    (h : c ∈ exploited limit incl tickCount advPool exploreRatio) :
    c ∈ includeCodes incl ∨ c ∈ advPool.getD [] :=
  (mem_or_mem_of_mem_upTo h).imp_right List.mem_rotate.mp

/-- How many symbols of the pool the watchlist lacks. -/
def newInPool : ℕ := ((advPool.getD []).toFinset \ (includeCodes incl).toFinset).card

/-- The pool gives as many symbols at every tick. -/
theorem length_exploited :
    (exploited limit incl tickCount advPool exploreRatio).length =
      (includeCodes incl).length + min (nExploit limit exploreRatio) (newInPool incl advPool) := by
  have hpool : ((advPool.getD []).rotate
      (tickCount * max (nExploit limit exploreRatio) 1)).toFinset = (advPool.getD []).toFinset := by
    ext c
    simp
  rw [exploited, length_upTo, hpool, Nat.add_sub_cancel_left, newInPool]

/-- A pick of the second may be of the seed. -/
theorem mem_of_mem_explored {c : Symbol}
    (h : c ∈ explored seedCodes limit incl tickCount advPool fresh exploreRatio) :
    c ∈ includeCodes incl ∨ c ∈ advPool.getD [] ∨ c ∈ seedCodes := by
  rcases mem_or_mem_of_mem_upTo h with h | h
  · exact (mem_of_mem_exploited limit incl tickCount advPool exploreRatio h).imp_right Or.inl
  · exact Or.inr (Or.inr (List.mem_of_mem_filter (List.mem_rotate.mp h)))

theorem nodup_resolveUniverse :
    (resolveUniverse seedCodes limit incl tickCount advPool fresh exploreRatio).Nodup := by
  rw [resolveUniverse_eq]
  exact nodup_upTo _ _ (nodup_upTo _ _ (nodup_exploited limit incl tickCount advPool exploreRatio))

/-- The picks from the pool stay, whatever the cap. -/
theorem prefix_resolveUniverse :
    exploited limit incl tickCount advPool exploreRatio <+:
      resolveUniverse seedCodes limit incl tickCount advPool fresh exploreRatio := by
  rw [resolveUniverse_eq]
  exact (prefix_upTo _ _ _).trans (prefix_upTo _ _ _)

/-- The later streams add nothing past `limit`. -/
theorem length_resolveUniverse_le :
    (resolveUniverse seedCodes limit incl tickCount advPool fresh exploreRatio).length ≤
      max limit (exploited limit incl tickCount advPool exploreRatio).length := by
  have hexplored := length_upTo limit (exploited limit incl tickCount advPool exploreRatio)
    ((staleOf seedCodes fresh).rotate (tickCount * nExplore limit exploreRatio))
  rw [resolveUniverse_eq, length_upTo, explored]
  omega

/-- It is full, or every seed symbol is in it. -/
theorem resolveUniverse_full_or :
    limit ≤ (resolveUniverse seedCodes limit incl tickCount advPool fresh exploreRatio).length ∨
      ∀ c ∈ seedCodes,
        c ∈ resolveUniverse seedCodes limit incl tickCount advPool fresh exploreRatio := by
  rw [resolveUniverse_eq]
  refine (full_or_taken _ _ _).imp_right fun h c hc => h c (List.mem_rotate.mpr hc)

/-- What a selection promises: the watchlist first, every symbol once and from
one of the three lists, no more than `limit` of them unless the watchlist alone
is longer, and no fewer than there are. -/
structure UniverseSound (out : List Symbol) : Prop where
  nodup : out.Nodup
  first : includeCodes incl <+: out
  source : ∀ c ∈ out, c ∈ includeCodes incl ∨ c ∈ advPool.getD [] ∨ c ∈ seedCodes
  length_le : out.length ≤ max limit (includeCodes incl).length
  le_length : min limit ((includeCodes incl).toFinset ∪ seedCodes.toFinset).card ≤ out.length

/-- **The selection keeps its promise exactly when the watchlist and the picks
from the pool fit together.** -/
theorem resolveUniverse_sound_iff :
    UniverseSound seedCodes limit incl advPool
        (resolveUniverse seedCodes limit incl tickCount advPool fresh exploreRatio) ↔
      (includeCodes incl).length + min (nExploit limit exploreRatio) (newInPool incl advPool) ≤
        max limit (includeCodes incl).length := by
  rw [← length_exploited limit incl tickCount advPool exploreRatio]
  have hpicks := prefix_resolveUniverse seedCodes limit incl tickCount advPool fresh exploreRatio
  constructor
  · intro h
    exact hpicks.length_le.trans h.length_le
  · intro h
    have hfirst := (prefix_exploited limit incl tickCount advPool exploreRatio).trans hpicks
    have hnd := nodup_resolveUniverse seedCodes limit incl tickCount advPool fresh exploreRatio
    refine ⟨hnd, hfirst, ?_, ?_, ?_⟩
    · intro c hc
      rw [resolveUniverse_eq] at hc
      rcases mem_or_mem_of_mem_upTo hc with hc | hc
      · exact mem_of_mem_explored seedCodes limit incl tickCount advPool fresh exploreRatio hc
      · exact Or.inr (Or.inr (List.mem_rotate.mp hc))
    · exact (length_resolveUniverse_le seedCodes limit incl tickCount advPool fresh
        exploreRatio).trans (max_le (Nat.le_max_left _ _) h)
    · rcases resolveUniverse_full_or seedCodes limit incl tickCount advPool fresh exploreRatio
        with hfull | hall
      · exact (Nat.min_le_left _ _).trans hfull
      · refine (Nat.min_le_right _ _).trans ?_
        rw [← List.toFinset_card_of_nodup hnd]
        apply Finset.card_le_card
        intro c hc
        rw [List.mem_toFinset]
        rcases Finset.mem_union.mp hc with hc | hc
        · exact hfirst.mem (List.mem_toFinset.mp hc)
        · exact hall c (List.mem_toFinset.mp hc)

/-- Three watched symbols and four picks from the pool under a limit of five. -/
theorem resolveUniverse_over_limit :
    ¬ UniverseSound ["000001"] 5 ["A00001", "A00002", "A00003"]
      (some ["B00001", "B00002", "B00003", "B00004"])
      (resolveUniverse ["000001"] 5 ["A00001", "A00002", "A00003"] 0
        (some ["B00001", "B00002", "B00003", "B00004"]) ∅ (1 / 5)) := by
  intro h
  have hlen : ¬ (resolveUniverse ["000001"] 5 ["A00001", "A00002", "A00003"] 0
      (some ["B00001", "B00002", "B00003", "B00004"]) ∅ (1 / 5)).length ≤
        max 5 (includeCodes ["A00001", "A00002", "A00003"]).length := by
    decide +kernel
  exact hlen h.length_le

end Universe

/-! ### Without statistics -/

theorem addEntries_eq (limit : ℕ) (result : List Symbol) (entries : List SymbolEntry) :
    addEntries (some limit) result entries = upTo limit result (entries.map (·.code)) := by
  induction entries generalizing result with
  | nil => rfl
  | cons entry entries ih =>
    simp only [addEntries, List.map_cons, upTo, Option.any_some, decide_eq_true_eq, ih]

/-- The plain rotation is filled up from the seed alone. -/
theorem resolveSymbols_eq (entries : List SymbolEntry) (limit : ℕ) (incl : List String)
    (offset : ℕ) :
    resolveSymbols entries (some limit) incl offset =
      upTo limit (includeCodes incl) ((entries.map (·.code)).rotate offset) := by
  rw [resolveSymbols, addInclude_nil]
  by_cases h : offset ≠ 0 ∧ entries ≠ []
  · rw [if_pos h, addEntries_eq, List.rotate_eq_drop_append_take_mod]
    simp only [List.map_append, List.map_drop, List.map_take, List.length_map]
  · rw [if_neg h, addEntries_eq]
    rcases not_and_or.mp h with h | h
    · rw [not_not.mp h, List.rotate_zero]
    · rw [not_not.mp h, List.map_nil, List.rotate_nil]

/-- With no statistics every slot is filled from the rotation of the stale
symbols, which are all of the seed. -/
theorem resolveUniverse_coldStart (seedCodes : List Symbol) (limit : ℕ) (incl : List String)
    (tickCount : ℕ) {advPool : Option (List Symbol)} (hpool : advPool.getD [] = [])
    (exploreRatio : ℚ) :
    resolveUniverse seedCodes limit incl tickCount advPool ∅ exploreRatio =
      upTo limit (includeCodes incl)
        (seedCodes.rotate (tickCount * nExplore limit exploreRatio)) := by
  have hstale : staleOf seedCodes ∅ = seedCodes := by
    simp [staleOf]
  have hpicked : exploited limit incl tickCount advPool exploreRatio = includeCodes incl := by
    rw [exploited, hpool, List.rotate_nil, upTo]
  rw [resolveUniverse_eq, explored, hpicked, hstale]
  apply upTo_upTo_of_subset
  intro c hc
  exact List.mem_rotate.mpr (List.mem_rotate.mp hc)

/-- Two rotations of a list without repetitions fill alike exactly when they
begin with the same symbol, those already there left out. -/
theorem upTo_rotate_eq_iff {seedCodes : List Symbol} (hnd : seedCodes.Nodup) (limit : ℕ)
    (result : List Symbol) (j k : ℕ) :
    upTo limit result (seedCodes.rotate j) = upTo limit result (seedCodes.rotate k) ↔
      limit ≤ result.length ∨
        (rotate seedCodes j).find? (· ∉ result) = (rotate seedCodes k).find? (· ∉ result) := by
  have hrot : (seedCodes.rotate j).filter (· ∉ result) ~r
      (seedCodes.rotate k).filter (· ∉ result) :=
    (filter_rotate_isRotated _ _ _).trans (filter_rotate_isRotated _ _ _).symm
  rw [upTo_eq, upTo_eq, List.append_cancel_left_eq, unseen_eq_filter (List.nodup_rotate.mpr hnd),
    unseen_eq_filter (List.nodup_rotate.mpr hnd),
    take_eq_take_iff hrot ((List.nodup_rotate.mpr hnd).filter _), List.head?_filter,
    List.head?_filter, Nat.sub_eq_zero_iff_le, rotate_eq, rotate_eq]

/-- **Without statistics the selection is the plain rotation exactly when both
begin with the same seed symbol that is not watched, or the watchlist leaves no
room.** -/
theorem coldStart_eq_rotation_iff (entries : List SymbolEntry)
    (hnd : (entries.map (·.code)).Nodup) (limit : ℕ) (incl : List String) (tickCount : ℕ)
    (advPool : Option (List Symbol)) (hpool : advPool.getD [] = []) (exploreRatio : ℚ) :
    resolveUniverse (entries.map (·.code)) limit incl tickCount advPool ∅ exploreRatio =
        resolveSymbols entries (some limit) incl (tickCount * limit) ↔
      limit ≤ (includeCodes incl).length ∨
        (rotate (entries.map (·.code)) (tickCount * nExplore limit exploreRatio)).find?
            (· ∉ includeCodes incl) =
          (rotate (entries.map (·.code)) (tickCount * limit)).find? (· ∉ includeCodes incl) := by
  rw [resolveUniverse_coldStart _ _ _ _ hpool, resolveSymbols_eq]
  exact upTo_rotate_eq_iff hnd limit _ _ _

/-- At the second tick the universe starts one symbol further, the rotation two. -/
theorem coldStart_ne_rotation :
    ¬ resolveUniverse ["A00001", "B00002", "C00003", "D00004", "E00005"] 2 [] 1 (some []) ∅
        (1 / 5) =
      resolveSymbols [⟨"A00001", "", none⟩, ⟨"B00002", "", none⟩, ⟨"C00003", "", none⟩,
        ⟨"D00004", "", none⟩, ⟨"E00005", "", none⟩] (some 2) [] (1 * 2) := by
  decide +kernel

/-- After as many ticks as there are symbols they agree again. -/
theorem coldStart_eq_rotation_iff_cycle :
    resolveUniverse ["A00001", "B00002", "C00003"] 2 ["A00001"] 3 (some []) ∅ (1 / 5) =
      resolveSymbols [⟨"A00001", "", none⟩, ⟨"B00002", "", none⟩, ⟨"C00003", "", none⟩]
        (some 2) ["A00001"] (3 * 2) :=
  (coldStart_eq_rotation_iff
    [⟨"A00001", "", none⟩, ⟨"B00002", "", none⟩, ⟨"C00003", "", none⟩] (by decide +kernel) 2
    ["A00001"] 3 (some []) rfl (1 / 5)).mpr (by decide +kernel)

end AutoTrade
