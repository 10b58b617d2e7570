/-
AutoTrade/Reconcile.lean

The reconciliation (`orders/reconcile.py`): the last recorded quantities with
the orders sent since, against the quantities that the broker reports.  Only
quantities are compared.

`reconcile_ok` is what the comparison decides: the report is without
discrepancy exactly when every symbol is held in the quantity expected.
-/
import AutoTrade.TossModels
import Mathlib.Data.List.Sort

namespace AutoTrade

/-- How an account can differ from what was expected. -/
inductive DiscrepancyKind
  | newSymbol
  | missingSymbol
  | quantityMismatch
  deriving DecidableEq, Repr

/-- One symbol of a snapshot, as it is stored. -/
structure PositionSnapshot where
  symbol : Symbol
  quantity : ℚ
  avgPrice : Option ℚ := none
  currency : Option String := none
  deriving DecidableEq

/-- A symbol whose quantity is not the expected one. -/
structure Discrepancy where
  kind : DiscrepancyKind
  symbol : Symbol
  expected : ℚ
  actual : ℚ
  detail : Text
  deriving DecidableEq

/-- What a comparison came to. -/
structure ReconcileReport where
  /-- no snapshot before this one -/
  baseline : Bool := false
  discrepancies : List Discrepancy := []
  deriving DecidableEq

/-- The report in a word (`status`). -/
inductive ReconcileStatus
  | baseline
  | ok
  | mismatch
  deriving DecidableEq, Repr

namespace ReconcileReport

/-- Nothing differs; a first snapshot has nothing to differ from. -/
def ok (report : ReconcileReport) : Bool := report.discrepancies.isEmpty

/-- The word for a report. -/
def status (report : ReconcileReport) : ReconcileStatus :=
  if report.baseline then .baseline else if report.ok then .ok else .mismatch

end ReconcileReport

/-- `snapshot_from_holdings`. -/
def snapshotFromHoldings (holdings : Holdings) : List PositionSnapshot :=
  holdings.items.map fun i =>
    { symbol := i.symbol, quantity := i.quantity, avgPrice := some i.averagePurchasePrice,
      currency := some i.currency }

/-- `{i.symbol: i.quantity for i in items}`. -/
def quantities (items : List PositionSnapshot) : Dict Symbol ℚ :=
  Dict.ofList (items.map fun i => (i.symbol, i.quantity))

/-- `d.get(symbol, Decimal(0))`. -/
def quantityOf (d : Dict Symbol ℚ) (symbol : Symbol) : ℚ := (d.get? symbol).getD 0

/-- The kind of a difference and its text: a symbol nothing knew of, one that is
gone, or one held in another quantity. -/
def classify (previous current delta : Dict Symbol ℚ) (symbol : Symbol) (expected : ℚ) :
    DiscrepancyKind × Text :=
  if symbol ∉ previous.keys ∧ symbol ∉ delta.keys then
    (.newSymbol, [.lit "시스템 미인지 신규 보유(외부 매수/입고?)"])
  else if symbol ∉ current.keys ∧ expected ≠ 0 then
    (.missingSymbol, [.lit "시스템 미인지 보유 소멸(외부 매도/출고?)"])
  else
    (.quantityMismatch,
      [.lit "수량 불일치(전송분 반영 기대 ", .dec expected, .lit ")"] ++
        match delta.get? symbol with
        | none => []
        | some change => [.lit " · 전송 순증감 ", .dec change])

/-- What the baseline and the orders sent since say of a symbol. -/
def expectedQuantity (previous delta : Dict Symbol ℚ) (symbol : Symbol) : ℚ :=
  quantityOf previous symbol + quantityOf delta symbol

/-- One symbol of the comparison. -/
def compareSymbol (previous current delta : Dict Symbol ℚ) (symbol : Symbol) :
    Option Discrepancy :=
  if quantityOf current symbol = expectedQuantity previous delta symbol then none
  else
    let expected := expectedQuantity previous delta symbol
    let (kind, detail) := classify previous current delta symbol expected
    some { kind, symbol, expected, actual := quantityOf current symbol, detail }

/-- The first run, with nothing recorded, makes the baseline. -/
def reconcile (previous : Option (Dict Symbol ℚ)) (current : Dict Symbol ℚ)
    (submittedDelta : Option (Dict Symbol ℚ) := none) : ReconcileReport :=
  match previous with
  | none => { baseline := true }
  | some previous =>
    let delta := submittedDelta.getD ∅
    -- in the order of their names, over all that any side knows
    let symbols := (previous.keys ++ current.keys ++ delta.keys).unique
    { discrepancies := (symbols.insertionSort (· ≤ ·)).filterMap
        (compareSymbol previous current delta) }

/-! ### What the comparison decides -/

theorem quantityOf_eq_zero {d : Dict Symbol ℚ} {symbol : Symbol} (h : symbol ∉ d.keys) :
    quantityOf d symbol = 0 := by
  unfold quantityOf
  rw [Dict.get?_eq_none.mpr h, Option.getD_none]

/-- A symbol is passed over exactly when it is held as expected. -/
theorem compareSymbol_eq_none {previous current delta : Dict Symbol ℚ} {symbol : Symbol} :
    compareSymbol previous current delta symbol = none ↔
      quantityOf current symbol = expectedQuantity previous delta symbol := by
  unfold compareSymbol
  by_cases heq : quantityOf current symbol = expectedQuantity previous delta symbol
  · simp [heq]
  · simp [heq]

/-- **The report has no discrepancy exactly when every symbol is held in the
quantity expected**, whether or not the comparison looks at it. -/
theorem reconcile_ok {previous current delta : Dict Symbol ℚ} :
    (reconcile (some previous) current (some delta)).ok ↔
      ∀ symbol, quantityOf current symbol = expectedQuantity previous delta symbol := by
  have hnone : (reconcile (some previous) current (some delta)).ok ↔
      ∀ symbol ∈ previous.keys ++ current.keys ++ delta.keys,
        compareSymbol previous current delta symbol = none := by
    simp [reconcile, ReconcileReport.ok, List.isEmpty_iff, List.filterMap_eq_nil_iff]
  rw [hnone]
  constructor
  · intro h symbol
    by_cases hmem : symbol ∈ previous.keys ++ current.keys ++ delta.keys
    · exact compareSymbol_eq_none.mp (h symbol hmem)
    · -- a symbol that no dictionary names is held and expected in quantity zero
      rw [List.mem_append, List.mem_append, not_or, not_or] at hmem
      obtain ⟨⟨hprev, hcur⟩, hdelta⟩ := hmem
      rw [expectedQuantity, quantityOf_eq_zero hprev, quantityOf_eq_zero hcur,
        quantityOf_eq_zero hdelta, add_zero]
  · intro h symbol _
    exact compareSymbol_eq_none.mpr (h symbol)

/-- A discrepancy names a symbol that is not held in the quantity expected,
with both quantities. -/
theorem mem_reconcile_discrepancies {previous current delta : Dict Symbol ℚ} {d : Discrepancy}
    (h : d ∈ (reconcile (some previous) current (some delta)).discrepancies) :
    d.actual = quantityOf current d.symbol ∧
      d.expected = expectedQuantity previous delta d.symbol ∧ d.actual ≠ d.expected := by
  obtain ⟨symbol, -, hd⟩ := List.mem_filterMap.mp h
  rw [Option.getD_some, compareSymbol] at hd
  by_cases heq : quantityOf current symbol = expectedQuantity previous delta symbol
  · rw [if_pos heq] at hd
    cases hd
  · rw [if_neg heq] at hd
    cases hd
    exact ⟨rfl, rfl, heq⟩

end AutoTrade
