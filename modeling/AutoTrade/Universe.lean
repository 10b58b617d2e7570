/-
AutoTrade/Universe.lean

The conservative exclusion of stocks (`engine/universe.py`).  The flags of the
stock master come first; the name patterns are read only where the flag is
missing.

The three patterns are fixed strings but for `우[0-9]*[A-Z]?$`, which is read
from the end of the name (`$` also stands before a final newline).
-/
import AutoTrade.TossModels

namespace AutoTrade

/-- Why a stock is left out. -/
inductive UniverseExclusion
  | preferredShare
  | preferredShareByName
  | leveragedOrInverse
  | inactive
  | liquidationTrading
  | tradingSuspended
  | excludedSecurityType
  | spacByName
  | etnByName
  deriving DecidableEq, Repr

/-! ### Name patterns -/

/-- `pattern in name`. -/
def hasInfix (pattern : List Char) (name : List Char) : Bool :=
  name.tails.any fun t => pattern.isPrefixOf t

/-- `우[0-9]*` at the end, read backwards. -/
def endsWoo (backwards : List Char) : Bool :=
  (backwards.dropWhile fun c => '0' ≤ c ∧ c ≤ '9').head? = some '우'

/-- `우[0-9]*[A-Z]?` at the end. -/
def endsPreferred (name : List Char) : Bool :=
  match name.reverse with
  | [] => false
  | c :: rest => if 'A' ≤ c ∧ c ≤ 'Z' then endsWoo rest else endsWoo (c :: rest)

/-- `_PREFERRED_NAME.search(name)`. -/
def preferredName (name : String) : Bool :=
  endsPreferred name.toList ||
    (name.toList.getLast? = some '\n' && endsPreferred name.toList.dropLast)

/-- `_SPAC_NAME.search(name)`. -/
def spacName (name : String) : Bool :=
  hasInfix "스팩".toList name.toList || hasInfix "기업인수목적".toList name.toList

/-- `_ETN_NAME.search(name)`. -/
def etnName (name : String) : Bool := hasInfix "ETN".toList name.toList

/-! ### Evaluation -/

/-- The types left out, and whether names are looked at. -/
structure UniverseConfig where
  excludedSecurityTypes : List String := ["ETN", "SPAC"]
  enableNameFallback : Bool := true

/-- One reason, with its detail. -/
structure Exclusion where
  code : UniverseExclusion
  detail : Text
  deriving DecidableEq

/-- The verdict on a stock; it is eligible when nothing excludes it. -/
structure UniverseDecision where
  symbol : Symbol
  eligible : Bool
  exclusions : List Exclusion := []
  deriving DecidableEq

/-- An exclusion that applies when `p` does. -/
def excludeIf (p : Bool) (code : UniverseExclusion) (detail : Text) : List Exclusion :=
  if p then [⟨code, detail⟩] else []

/-- `f"{x}"` of a field that may be missing. -/
def optStr : Option String → String
  | none => "None"
  | some s => s

/-- Why a stock is not traded, if it is not.  Its type is read in capitals: of ASCII here,
where `upper` of the source is Unicode's. -/
def evaluateStock (stock : Stock) (cfg : UniverseConfig := {}) : UniverseDecision :=
  let secType := (stock.securityType.getD "").toUpper
  let leverage : List Exclusion := match stock.leverageFactor with
    | none => []
    | some f => [⟨.leveragedOrInverse, [.lit "leverageFactor=", .dec f]⟩]
  let detail := stock.koreanMarketDetail
  -- the flags of the stock master are each a reason of their own
  let flags :=
    excludeIf (stock.isCommonShare = some false) .preferredShare [.lit "isCommonShare=false"] ++
    leverage ++
    excludeIf (stock.status ≠ none ∧ stock.status ≠ some "ACTIVE") .inactive
      [.lit "status=", .str (optStr stock.status)] ++
    excludeIf (detail.any KoreanMarketDetail.liquidationTrading) .liquidationTrading
      [.lit "정리매매"] ++
    excludeIf (detail.any KoreanMarketDetail.krxTradingSuspended) .tradingSuspended
      [.lit "거래정지"] ++
    excludeIf (secType ≠ "" ∧ secType ∈ cfg.excludedSecurityTypes) .excludedSecurityType
      [.lit "securityType=", .str (optStr stock.securityType)]
  -- the name decides only where the flag or the type is missing
  let names :=
    if cfg.enableNameFallback then
      excludeIf (stock.isCommonShare = none ∧ preferredName stock.name) .preferredShareByName
        [.lit "name~우: ", .str stock.name] ++
      excludeIf (secType ≠ "SPAC" ∧ spacName stock.name) .spacByName
        [.lit "name~스팩: ", .str stock.name] ++
      excludeIf (secType ≠ "ETN" ∧ etnName stock.name) .etnByName
        [.lit "name~ETN: ", .str stock.name]
    else []
  let ex := flags ++ names
  { symbol := stock.symbol, eligible := ex.isEmpty, exclusions := ex }

/-- Eligible stocks, and the decisions about the others. -/
def partitionUniverse (stocks : List Stock) (cfg : UniverseConfig := {}) :
    List Stock × List UniverseDecision :=
  (stocks.filter fun s => (evaluateStock s cfg).eligible,
    (stocks.map fun s => evaluateStock s cfg).filter fun d => !d.eligible)

theorem mem_partitionUniverse {stocks : List Stock} {cfg : UniverseConfig} {s : Stock} :
    s ∈ (partitionUniverse stocks cfg).1 ↔ s ∈ stocks ∧ (evaluateStock s cfg).eligible := by
  simp [partitionUniverse]

end AutoTrade
