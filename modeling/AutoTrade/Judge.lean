/-
AutoTrade/Judge.lean

The judgement stage (`engine/llm.py`) and the research before it
(`engine/research.py`): the contexts of the candidates, the judge that decides
on each and the provider that looks each up.

A judge answers or raises.  Within a tick it is asked about each symbol once,
so a function of the context is any behaviour it can have there.
-/
import AutoTrade.Screener

namespace AutoTrade

/-- The direction of an answer. -/
inductive Action
  | buy
  | sell
  | hold
  deriving DecidableEq, Repr

/-- An answer of a judge; the confidence is a float, and may be NaN. -/
structure Decision where
  action : Action
  symbol : Symbol
  confidence : FloatValue
  rationale : Text
  /-- the close at the time of the decision, filled in by the tick -/
  decisionPrice : Option ℚ := none
  deriving DecidableEq

/-- What the research found on a symbol, with its sources. -/
structure ResearchNote where
  symbol : Symbol
  summary : String
  sources : List String := []
  deriving DecidableEq

/-- All that a judge is told of a candidate. -/
structure CandidateContext where
  symbol : Symbol
  name : String
  market : Option String
  currency : Option String
  /-- none for a held symbol that was not screened -/
  indicators : Option ScreenIndicators
  score : ℚ
  alreadyHeld : Bool
  heldQuantity : Option ℚ := none
  avgPurchasePrice : Option ℚ := none
  plRate : Option ℚ := none
  recentCloses : Option (List ℚ) := none
  portfolioValueKrw : Option ℚ := none
  cashBuyingPowerKrw : Option ℚ := none
  research : Option ResearchNote := none
  marketRegime : Option Text := none
  deriving DecidableEq

/-! ### The judges -/

/-- `DecisionProvider.decide`. -/
abbrev Judge := CandidateContext → Except Exn Decision

/-- `_normalize`: the symbol of the candidate, a confidence clamped to `[0, 1]`,
which leaves NaN as it is, and no sale of what is not held. -/
def normalize (decision : Decision) (ctx : CandidateContext) : Decision :=
  { decision with
    action := if decision.action = .sell ∧ !ctx.alreadyHeld then .hold else decision.action
    symbol := ctx.symbol
    confidence := (decision.confidence.max 0).min 1 }

/-- What the model's client gives back for a candidate. -/
structure LlmResponse where
  stopReason : Option String
  /-- the texts of its text blocks -/
  texts : List String
  deriving DecidableEq

/-- `ClaudeJudge.decide`, over a client and the parser of its answers
(`Decision.model_validate(json.loads(text))`). -/
def claudeJudge (client : CandidateContext → Except Exn LlmResponse)
    (parse : String → Except Exn Decision) : Judge := fun ctx => do
  let resp ← client ctx
  if resp.stopReason = some "refusal" then
    throw (ctx.symbol ++ ": 모델이 판단을 거부했습니다")
  match resp.texts with
  | [] => throw "응답에 text 블록이 없습니다"
  | text :: _ => do
    let decision ← parse text
    pure (normalize decision ctx)

/-- `DeterministicJudge.decide`: buy what passed the screen, hold what is held. -/
def deterministicJudge : Judge := fun ctx =>
  if !ctx.alreadyHeld ∧ ctx.indicators.isSome then
    let conf := min (max (ctx.score * 10) 0) 1
    .ok { action := if 0 < conf then .buy else .hold, symbol := ctx.symbol,
          confidence := .num conf,
          rationale := [.lit "결정적 폴백: 스크리너 통과 매수후보"] }
  else
    .ok { action := .hold, symbol := ctx.symbol, confidence := .num (3 / 10),
          rationale := [.lit "결정적 폴백: 보유 유지"] }

/-- `candidates[:top_n] if top_n is not None else candidates`. -/
def targets {α : Type*} (topN : Option ℤ) (candidates : List α) : List α :=
  match topN with
  | none => candidates
  | some n => slicePrefix n candidates

/-- `decide_candidates`: the candidates in turn; an exception ends it. -/
def decideCandidates (candidates : List CandidateContext) (judge : Judge)
    (topN : Option ℤ := none) : Except Exn (List Decision) :=
  (targets topN candidates).mapM judge

/-! ### Research -/

/-- `ResearchProvider.research`. -/
abbrev Research := CandidateContext → Except Exn ResearchNote

/-- `research_candidates`: a note for each target, the others as they are. -/
def researchCandidates (candidates : List CandidateContext) (provider : Research)
    (topN : Option ℤ := none) : Except Exn (List CandidateContext) := do
  let noted ← (targets topN candidates).mapM fun ctx => do
    let note ← provider ctx
    pure { ctx with research := some note }
  pure (noted ++ candidates.drop noted.length)

/-! ### The contexts -/

/-- `candidate_contexts`: the screened candidates, then what is held besides. -/
def candidateContexts (results : List ScreenResult) (stocks : Dict Symbol Stock)
    (holdings : Holdings) (holdingIndicators : Dict Symbol ScreenIndicators)
    (recentCloses : Dict Symbol (List ℚ)) (cashBuyingPowerKrw : Option ℚ) :
    List CandidateContext :=
  let bySymbol := Dict.ofList (results.map fun r => (r.symbol, (r.indicators, r.score)))
  let held := Dict.ofList (holdings.items.map fun i => (i.symbol, i))
  (bySymbol.keys ++ held.keys).unique.map fun sym =>
    let s := stocks.get? sym
    let item := held.get? sym
    { symbol := sym
      name := match s, item with
        | some s, _ => s.name
        | none, some i => i.name
        | none, none => sym
      market := s.bind Stock.market
      currency := match s, item with
        | some s, _ => s.currency
        | none, some i => some i.currency
        | none, none => none
      indicators := match bySymbol.get? sym with
        | some (ind, _) => some ind
        | none => holdingIndicators.get? sym
      score := match bySymbol.get? sym with
        | some (_, sc) => sc
        | none => 0
      alreadyHeld := item.isSome
      heldQuantity := item.map HoldingItem.quantity
      avgPurchasePrice := item.map HoldingItem.averagePurchasePrice
      plRate := item.map HoldingItem.profitLossRate
      recentCloses := recentCloses.get? sym
      portfolioValueKrw := some holdings.marketValue.krw
      cashBuyingPowerKrw }

section Contexts

variable {results : List ScreenResult} {stocks : Dict Symbol Stock} {holdings : Holdings}
  {holdingIndicators : Dict Symbol ScreenIndicators} {recentCloses : Dict Symbol (List ℚ)}
  {cash : Option ℚ}

/-- One context a symbol. -/
theorem candidateContexts_symbols :
    (candidateContexts results stocks holdings holdingIndicators recentCloses cash).map
        CandidateContext.symbol =
      ((Dict.ofList (results.map fun r => (r.symbol, (r.indicators, r.score)))).keys ++
        (Dict.ofList (holdings.items.map fun i => (i.symbol, i))).keys).unique := by
  unfold candidateContexts
  rw [List.map_map]
  exact List.map_id _

theorem candidateContexts_nodup :
    ((candidateContexts results stocks holdings holdingIndicators recentCloses cash).map
      CandidateContext.symbol).Nodup := by
  rw [candidateContexts_symbols]
  exact List.nodup_unique

/-- The candidates are the screened symbols and the held ones. -/
theorem mem_candidateContexts_symbols {sym : Symbol} :
    sym ∈ (candidateContexts results stocks holdings holdingIndicators recentCloses cash).map
        CandidateContext.symbol ↔
      sym ∈ results.map ScreenResult.symbol ∨ sym ∈ holdings.items.map HoldingItem.symbol := by
  rw [candidateContexts_symbols, List.mem_unique, List.mem_append, Dict.mem_keys_ofList,
    Dict.mem_keys_ofList, List.map_map, List.map_map]
  rfl

end Contexts

end AutoTrade
