/-
AutoTrade/Exits.lean

The deterministic exits (`engine/exits.py`): stop loss and time stop, decided
on the paper book without the judge.
-/
import AutoTrade.Paper

namespace AutoTrade

/-- `ExitConfig`: the stop loss as a fraction, and the time stop. -/
structure ExitConfig where
  stopLossRate : ℚ := 8 / 100
  /-- trading days held above which a position is closed -/
  timeStopDays : ℕ := 20
  enabled : Bool := true
  deriving DecidableEq

/-- A position that is to be closed, whatever the judge thinks of it. -/
structure ForcedExit where
  symbol : Symbol
  reason : Text
  deriving DecidableEq

/-- The exit of one position: the stop loss first, then the time stop, which
reads no price. -/
def exitOf (cfg : ExitConfig) (symbol : Symbol) (pos : PaperPosition) (mark : Option ℚ)
    (held : Option ℕ) : Option ForcedExit :=
  if pos.quantity ≤ 0 ∨ pos.avgCost ≤ 0 then none
  else
    let timeStop : Option ForcedExit := match held with
      | none => none
      | some days =>
        if cfg.timeStopDays < days then
          some ⟨symbol, [.lit "타임스톱 ", .int days, .lit "거래일 > ", .int cfg.timeStopDays]⟩
        else none
    match mark with
    | none => timeStop
    | some mark =>
      let loss := (mark - pos.avgCost) / pos.avgCost
      if loss ≤ -cfg.stopLossRate then
        some ⟨symbol, [.lit "손절 ", .fixed 1 (loss * 100), .lit "% ≤ -",
          .fixed 1 (cfg.stopLossRate * 100), .lit "%"]⟩
      else timeStop

/-- `evaluate_exits`: the positions in the order of their symbols. -/
def evaluateExits (positions : Dict Symbol PaperPosition) (marks : Dict Symbol ℚ)
    (daysHeld : Dict Symbol ℕ) (cfg : ExitConfig := {}) : List ForcedExit :=
  if !cfg.enabled then []
  else (sortedItems positions).filterMap fun p =>
    exitOf cfg p.1 p.2 (marks.get? p.1) (daysHeld.get? p.1)

theorem exitOf_symbol {cfg : ExitConfig} {symbol : Symbol} {pos : PaperPosition}
    {mark : Option ℚ} {held : Option ℕ} {f : ForcedExit}
    (h : exitOf cfg symbol pos mark held = some f) : f.symbol = symbol ∧ 0 < pos.quantity := by
  unfold exitOf at h
  by_cases hpos : pos.quantity ≤ 0 ∨ pos.avgCost ≤ 0
  · simp [hpos] at h
  · refine ⟨?_, not_le.mp fun hq => hpos (Or.inl hq)⟩
    simp only [hpos, if_false] at h
    rcases mark with - | mark <;> rcases held with - | days <;> simp only at h <;> grind

end AutoTrade
