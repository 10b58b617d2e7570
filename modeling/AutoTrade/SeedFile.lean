/-
AutoTrade/SeedFile.lean

The file of the listed symbols, from the script that writes it
(`scripts/fetch_krx_symbols.py`) to the source that reads it (`FileSymbolSource` of
`engine/symbols.py`).

Both sides keep the first row of each code.  So what is read is the `firsts` of the rows
that have a code of the form and a market that is asked for (`symbols_eq`), entries with codes
and names that read as they stand are read again (`symbols_written`), and the reader drops
nothing of what the script wrote (`seed_round_trip`).
-/
import AutoTrade.Lib.KeepFirst
import AutoTrade.Symbols
import AutoTrade.Values
import Mathlib.Data.List.DropRight
import Mathlib.Data.List.Sort
import Mathlib.Data.String.Basic

namespace AutoTrade

open KeepFirst

/-! ### `FileSymbolSource` -/

/-- A row of the file: a code, or an object whose fields may be missing or null. -/
inductive SeedRow
  | bare (code : String)
  | object (code name market : Option String)

/-- The file: an object that may have the rows under `symbols`, or a list of rows. -/
inductive SeedFile
  | object (symbols : Option (List SeedRow))
  | list (rows : List SeedRow)

/-- The rows, whatever shape the file has. -/
def SeedFile.rows : SeedFile → List SeedRow
  | .object symbols => symbols.getD []
  | .list rows => rows

/-- The entry of a row with a code of the form. -/
def entryOf : SeedRow → Option SymbolEntry
  | .bare code => (normalizeSymbol code).map fun code => { code }
  | .object code name market => (normalizeSymbol (code.getD "")).map fun code =>
    { code
      name := String.ofList (strip (name.getD "").toList)
      market := if market = some "" then none else market }

/-- `FileSymbolSource`: a file, and the markets that are asked for. -/
structure FileSymbolSource where
  /-- what is at `path`, if it is a file -/
  file : Option SeedFile
  markets : List String := []

/-- The entry is of the markets asked for, or there are none.  Letters outside ASCII stay as
they are here, where `upper` of the source changes them too. -/
def inMarkets (markets : List String) (e : SymbolEntry) : Bool :=
  markets.isEmpty || (e.market.getD "").toUpper ∈ markets.map String.toUpper

/-- The loop body of `symbols`; what `seen` holds are the codes of `out`. -/
def addRow (markets : List String) (out : List SymbolEntry) (row : SeedRow) : List SymbolEntry :=
  match entryOf row with
  | none => out
  | some e =>
    if e.code ∈ out.map SymbolEntry.code then out
    else if inMarkets markets e then out ++ [e]
    else out

/-- `symbols`: what the file lists, read row after row. -/
def FileSymbolSource.symbols (source : FileSymbolSource) : Except Exn (List SymbolEntry) :=
  match source.file with
  | none => .error "FileNotFoundError"
  | some file => .ok (file.rows.foldl (addRow source.markets) [])

/-! ### `fetch_krx_symbols.py` -/

/-- A row of the downloaded table with three cells or more, one of them a code: the text
of that cell, and of the first one without its tags and unescaped. -/
structure Cells where
  code : String
  name : String

/-- The code of a row. -/
def parseCode (text : String) : Option Symbol :=
  let code := (strip text.toList).flatMap upper
  let code := if code ≠ [] ∧ code.all Char.isDigit then zfill 6 code else code
  if codeRe code then some (String.ofList code) else none

/-- `parse`. -/
def parse (rows : List Cells) (market : String) : List SymbolEntry :=
  rows.filterMap fun row => (parseCode row.code).map fun code =>
    { code, name := String.ofList (strip row.name.toList), market := some market }

/-- The pages of the script and the market each is of, in the order they are fetched. -/
def MARKETS : List (String × String) := [("stockMkt", "KOSPI"), ("kosdaqMkt", "KOSDAQ")]

/-- `all_rows` of `main`, sorted; `fetch` gives the rows of a market's table. -/
def allRows (fetch : String → List Cells) : List SymbolEntry :=
  (MARKETS.foldl (fun rows m => offerAll SymbolEntry.code rows (parse (fetch m.1) m.2)) [])
    |>.insertionSort fun a b => a.code ≤ b.code

/-- An entry as an object of the file. -/
def SymbolEntry.row (e : SymbolEntry) : SeedRow := .object (some e.code) (some e.name) e.market

/-- The file that `main` writes. -/
def seedFile (fetch : String → List Cells) : SeedFile :=
  .object (some ((allRows fetch).map SymbolEntry.row))

/-! ### Codes and names that are read again -/

variable {raw : String} {c : Symbol} {s : List Char} {e : SymbolEntry}

/-- What does not begin or end with a space is stripped already. -/
theorem strip_of_ends (hfirst : ∀ a ∈ s.head?, isSpace a = false)
    (hlast : ∀ a ∈ s.getLast?, isSpace a = false) : strip s = s := by
  have hleft : ∀ s : List Char, (∀ a ∈ s.head?, isSpace a = false) →
      s.dropWhile isSpace = s := by
    intro s hs
    cases s with
    | nil => rfl
    | cons a s => exact List.dropWhile_cons_of_neg (by simp [hs a rfl])
  rw [strip, hleft s hfirst, hleft s.reverse (by rwa [List.head?_reverse]), List.reverse_reverse]

theorem head?_dropWhile (s : List Char) : ∀ a ∈ (s.dropWhile isSpace).head?, isSpace a = false := by
  induction s with
  | nil => exact fun a ha => nomatch ha
  | cons b s ih =>
    by_cases hb : isSpace b
    · rwa [List.dropWhile_cons_of_pos hb]
    · rw [List.dropWhile_cons_of_neg hb]
      rintro a ha
      obtain rfl := Option.some.inj ha
      exact Bool.eq_false_iff.mpr hb

/-- What is stripped has no space at its ends. -/
theorem strip_strip (s : List Char) : strip (strip s) = strip s := by
  refine strip_of_ends (fun a ha => ?_) (fun a ha => ?_)
  · -- it begins as the list does without the spaces in front
    obtain ⟨rest, hrest⟩ := List.rdropWhile_prefix isSpace (s.dropWhile isSpace)
    refine head?_dropWhile s a ?_
    rw [← hrest]
    exact List.mem_head?_append_of_mem_head? ha
  · rw [strip, List.getLast?_reverse] at ha
    exact head?_dropWhile _ a ha

/-- A character of a code. -/
def CodeChar (c : Char) : Prop := c.isDigit ∨ c.isUpper

theorem CodeChar.toNat {c : Char} (h : CodeChar c) :
    48 ≤ c.toNat ∧ c.toNat ≤ 57 ∨ 65 ≤ c.toNat ∧ c.toNat ≤ 90 := by
  rcases h with h | h
  · simp only [Char.isDigit, Bool.and_eq_true, decide_eq_true_eq] at h
    exact Or.inl h
  · exact Or.inr (of_decide_eq_true h)

theorem CodeChar.isSpace {c : Char} (h : CodeChar c) : isSpace c = false := by
  have := h.toNat
  refine Bool.eq_false_iff.mpr fun hspace => ?_
  simp [AutoTrade.isSpace] at hspace
  omega

/-- A character of a code is a capital or a digit. -/
theorem CodeChar.upper {c : Char} (h : CodeChar c) : upper c = [c] := by
  have hnat := h.toNat
  have htoUpper : c.toUpper = c := by
    refine dif_neg fun hlower => ?_
    have : 97 ≤ c.toNat := UInt32.le_iff_toNat_le.mp hlower.1
    omega
  unfold AutoTrade.upper
  split <;> first | omega | rw [htoUpper]

/-- A code has six characters, each a digit or a capital. -/
theorem codeRe_iff : codeRe s ↔ s.length = 6 ∧ ∀ c ∈ s, CodeChar c := by
  simp [codeRe, CodeChar]

theorem flatMap_upper (h : ∀ c ∈ s, CodeChar c) : s.flatMap upper = s := by
  induction s with
  | nil => rfl
  | cons c s ih =>
    rw [List.flatMap_cons, (h c List.mem_cons_self).upper,
      ih fun d hd => h d (List.mem_cons_of_mem c hd), List.singleton_append]

/-- A code of the form is read as it stands. -/
theorem normalizeSymbol_of_codeRe (h : codeRe c.toList) : normalizeSymbol c = some c := by
  obtain ⟨hlen, hchars⟩ := codeRe_iff.mp h
  have hstrip : strip c.toList = c.toList :=
    strip_of_ends (fun a ha => (hchars a (List.mem_of_head? ha)).isSpace)
      fun a ha => (hchars a (List.mem_of_getLast? ha)).isSpace
  have hpad : zfill 6 c.toList = c.toList := by
    rw [zfill, hlen]
    rfl
  have hne : c.toList ≠ [] := fun hnil => by simp [hnil] at hlen
  rw [normalizeSymbol, hstrip, flatMap_upper hchars, if_neg hne, hpad, ite_self, if_pos h,
    String.ofList_toList]

/-- What is read as a code has the form of one. -/
theorem codeRe_of_normalizeSymbol (h : normalizeSymbol raw = some c) : codeRe c.toList := by
  rw [normalizeSymbol] at h
  generalize (strip raw.toList).flatMap upper = s at h
  by_cases hnil : s = []
  · rw [if_pos hnil] at h
    cases h
  · rw [if_neg hnil] at h
    dsimp only at h
    generalize (if s.all Char.isDigit then zfill 6 s else s) = code at h
    by_cases hcode : codeRe code
    · rw [if_pos hcode] at h
      rw [← Option.some.inj h, String.toList_ofList]
      exact hcode
    · rw [if_neg hcode] at h
      cases h

/-- **The script and the source read a code alike.** -/
theorem parseCode_eq (text : String) : parseCode text = normalizeSymbol text := by
  rw [parseCode, normalizeSymbol]
  by_cases hnil : (strip text.toList).flatMap upper = []
  · rw [hnil]
    rfl
  · rw [if_neg hnil]
    simp only [hnil, ne_eq, not_false_eq_true, true_and]

/-- An entry that the file can say. -/
structure Normal (e : SymbolEntry) : Prop where
  code : codeRe e.code.toList
  name : strip e.name.toList = e.name.toList
  market : e.market ≠ some ""

/-- A normal entry is read from its row as it is. -/
theorem Normal.entryOf_row (h : Normal e) : entryOf e.row = some e := by
  show (normalizeSymbol e.code).map _ = some e
  rw [normalizeSymbol_of_codeRe h.code, Option.map_some, Option.getD_some, h.name,
    String.ofList_toList, if_neg h.market]

/-- What is read is normal. -/
theorem entryOf_normal {row : SeedRow} (h : entryOf row = some e) : Normal e := by
  cases row with
  | bare code =>
    obtain ⟨c, hc, rfl⟩ := Option.map_eq_some_iff.mp h
    exact ⟨codeRe_of_normalizeSymbol hc, rfl, fun h => (nomatch h)⟩
  | object code name market =>
    obtain ⟨c, hc, rfl⟩ := Option.map_eq_some_iff.mp h
    refine ⟨codeRe_of_normalizeSymbol hc, ?_, ?_⟩
    · rw [String.toList_ofList, strip_strip]
    · dsimp only
      split_ifs with hmarket
      · exact fun h => (nomatch h)
      · exact hmarket

/-- So is what the script parses. -/
theorem parse_normal {rows : List Cells} {market : String} (hmarket : market ≠ "")
    (h : e ∈ parse rows market) : Normal e := by
  obtain ⟨row, -, hrow⟩ := List.mem_filterMap.mp h
  obtain ⟨c, hc, rfl⟩ := Option.map_eq_some_iff.mp hrow
  rw [parseCode_eq] at hc
  refine ⟨codeRe_of_normalizeSymbol hc, ?_, fun h => hmarket (Option.some.inj h)⟩
  rw [String.toList_ofList, strip_strip]

/-! ### What is read -/

variable {source : FileSymbolSource} {markets : List String} {entries : List SymbolEntry}

/-- Reading keeps the first row of a code, of the markets that are asked for. -/
theorem foldl_addRow (markets : List String) (out : List SymbolEntry) (rows : List SeedRow) :
    rows.foldl (addRow markets) out =
      offerAll SymbolEntry.code out ((rows.filterMap entryOf).filter (inMarkets markets)) := by
  induction rows generalizing out with
  | nil => rfl
  | cons row rows ih =>
    rw [List.foldl_cons, ih, addRow]
    rcases hrow : entryOf row with - | e
    · rw [List.filterMap_cons_none hrow]
    · rw [List.filterMap_cons_some hrow, List.filter_cons]
      by_cases hin : inMarkets markets e
      · simp only [if_pos hin]
        rfl
      · simp only [if_neg hin, ite_self]

/-- **What is read** are the first rows of the codes, of the markets that are asked for. -/
theorem symbols_eq {file : SeedFile} (h : source.file = some file) :
    source.symbols = .ok (firsts SymbolEntry.code
      ((file.rows.filterMap entryOf).filter (inMarkets source.markets))) := by
  rw [FileSymbolSource.symbols, h]
  show Except.ok (file.rows.foldl (addRow source.markets) []) = _
  rw [foldl_addRow, offerAll_nil]

/-- What is read has each code once, and can be written. -/
theorem symbols_ok (h : source.symbols = .ok entries) :
    (entries.map SymbolEntry.code).Nodup ∧ ∀ e ∈ entries, Normal e := by
  rcases hfile : source.file with - | file
  · rw [FileSymbolSource.symbols, hfile] at h
    cases h
  · rw [symbols_eq hfile] at h
    cases h
    refine ⟨nodup_firsts _ _, fun e he => ?_⟩
    have hmem := List.mem_of_mem_filter ((firsts_sublist _ _).subset he)
    obtain ⟨row, -, hrow⟩ := List.mem_filterMap.mp hmem
    exact entryOf_normal hrow

/-- Normal entries are read from their rows as they are. -/
theorem filterMap_entryOf (h : ∀ e ∈ entries, Normal e) :
    (entries.map SymbolEntry.row).filterMap entryOf = entries := by
  rw [List.filterMap_map]
  conv_rhs => rw [← List.filterMap_some (l := entries)]
  exact List.filterMap_congr fun e he => (h e he).entryOf_row

/-- Entries that can be written are read again, but for those of other markets. -/
theorem symbols_written (hnodup : (entries.map SymbolEntry.code).Nodup)
    (hnormal : ∀ e ∈ entries, Normal e) :
    FileSymbolSource.symbols ⟨some (.object (some (entries.map SymbolEntry.row))), markets⟩ =
      .ok (entries.filter (inMarkets markets)) := by
  rw [symbols_eq rfl]
  show Except.ok (firsts _ (((entries.map SymbolEntry.row).filterMap entryOf).filter _)) = _
  rw [filterMap_entryOf hnormal, firsts_of_nodup]
  exact hnodup.sublist (List.filter_sublist.map _)

/-! ### What is written -/

variable {fetch : String → List Cells}

/-- The rows of all the markets, one table after another. -/
def fetched (fetch : String → List Cells) : List SymbolEntry :=
  MARKETS.flatMap fun m => parse (fetch m.1) m.2

/-- The script keeps the first row of a code, and sorts. -/
theorem allRows_eq (fetch : String → List Cells) :
    allRows fetch =
      (firsts SymbolEntry.code (fetched fetch)).insertionSort fun a b => a.code ≤ b.code := by
  rw [← offerAll_nil]
  simp only [allRows, MARKETS, fetched, List.foldl_cons, List.foldl_nil, List.flatMap_cons,
    List.flatMap_nil, List.append_nil, offerAll_append]

theorem mem_allRows : e ∈ allRows fetch ↔ e ∈ firsts SymbolEntry.code (fetched fetch) := by
  rw [allRows_eq, List.mem_insertionSort]

theorem fetched_normal (h : e ∈ fetched fetch) : Normal e := by
  obtain ⟨m, hm, he⟩ := List.mem_flatMap.mp h
  refine parse_normal ?_ he
  rcases List.mem_cons.mp hm with rfl | hm
  · decide
  · rw [List.mem_singleton.mp hm]
    decide

/-- The codes of the file, in order and each once. -/
theorem allRows_sorted : (allRows fetch).Pairwise fun a b => a.code < b.code := by
  have hle : (allRows fetch).Pairwise fun a b => a.code ≤ b.code := by
    rw [allRows_eq]
    exact List.pairwise_insertionSort _ _
  have hne : (allRows fetch).Pairwise fun a b => a.code ≠ b.code := by
    rw [← List.pairwise_map (R := (· ≠ ·)), ← List.Nodup, allRows_eq]
    exact ((List.perm_insertionSort _ _).map _).nodup_iff.mpr (nodup_firsts _ _)
  exact (hle.and hne).imp fun h => lt_of_le_of_ne h.1 h.2

/-- Each code has the row that was fetched first for it. -/
theorem find?_allRows (fetch : String → List Cells) (c : Symbol) :
    (allRows fetch).find? (fun e => e.code = c) = (fetched fetch).find? fun e => e.code = c := by
  have hperm : ((allRows fetch).filter fun e => e.code = c).Perm
      ((fetched fetch).find? fun e => e.code = c).toList := by
    rw [← filter_key_firsts SymbolEntry.code, allRows_eq]
    exact (List.perm_insertionSort _ _).filter _
  rw [← List.head?_filter]
  rcases hfind : (fetched fetch).find? fun e => e.code = c with - | e
  · rw [hfind] at hperm
    rw [hperm.eq_nil, hfind]
    rfl
  · rw [hfind] at hperm
    rw [List.perm_singleton.mp hperm, hfind]
    rfl

/-- **The file of the script is read back whole.**  Of any tables, each code comes back once,
in order, with its name and market as they were fetched first; the reader leaves out only
what is of other markets.  And whatever was read once, from any file, reads the same when
it is written. -/
theorem seed_round_trip (fetch : String → List Cells) (markets : List String) :
    FileSymbolSource.symbols ⟨some (seedFile fetch), markets⟩ =
        .ok ((allRows fetch).filter (inMarkets markets)) ∧
      ((allRows fetch).Pairwise fun a b => a.code < b.code) ∧
      (∀ c, (allRows fetch).find? (fun e => e.code = c) =
        (fetched fetch).find? fun e => e.code = c) ∧
      ∀ (source : FileSymbolSource) (entries : List SymbolEntry), source.symbols = .ok entries →
        FileSymbolSource.symbols ⟨some (.object (some (entries.map SymbolEntry.row))), []⟩ =
          .ok entries := by
  refine ⟨?_, allRows_sorted, find?_allRows fetch, fun source entries h => ?_⟩
  · refine symbols_written ?_ fun e he => ?_
    · exact List.pairwise_map.mpr (allRows_sorted.imp fun h => h.ne)
    · exact fetched_normal ((firsts_sublist _ _).subset (mem_allRows.mp he))
  · obtain ⟨hnodup, hnormal⟩ := symbols_ok h
    rw [symbols_written hnodup hnormal]
    exact congrArg Except.ok (List.filter_eq_self.mpr fun e _ => rfl)

end AutoTrade
