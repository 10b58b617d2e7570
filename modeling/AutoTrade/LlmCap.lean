/-
AutoTrade/LlmCap.lean

The daily cap on what is asked of the language model (`api/tick.py`).

A tick asks the model only if `selectJudge` takes it (`TakesModel`); any other tick is
the same tick whatever the model would answer (`executeTick_answered`), and once the day
has enough decisions no tick takes it.  The recorded decisions are only added to
(`Grows`), so that the day stays capped: by induction on the run, nothing the
model could answer changes the rest of the day (`llm_capped_run`), and what the
ticks that take it have recorded is the cap and one tick at most
(`llm_spent_le`).  A cap of zero is none, and neither holds then.
-/
import AutoTrade.DbFrame

namespace AutoTrade

open Effect

/-- The tick with other answers of the model. -/
def TickInput.answered (t : TickInput) (llm : Judge) (webSearch : Research) : TickInput :=
  { t with llm, webSearch }

namespace Server

variable {cfg : Settings}

/-- What the cap of a day counts. -/
def decidedOn (s : Server) (d : Date) : ℕ := s.db.countDecisionsToday d

/-- The day is at its cap. -/
def Capped (cfg : Settings) (d : Date) (s : Server) : Prop :=
  cfg.dailyLlmDecisionCap ≤ s.decidedOn d

instance (d : Date) (s : Server) : Decidable (Capped cfg d s) :=
  inferInstanceAs (Decidable (_ ≤ _))

/-! ### A tick that asks the model nothing -/

/-- The tick takes the model for its judge, with the web search. -/
def TakesModel (cfg : Settings) (t : TickInput) (s : Server) : Prop :=
  ((selectJudge cfg t s).1.toOption.bind fun chosen => chosen.2.1).isSome

instance (t : TickInput) (s : Server) : Decidable (TakesModel cfg t s) :=
  inferInstanceAs (Decidable (_ = true))

theorem takesModel_iff {t : TickInput} {s : Server} :
    TakesModel cfg t s ↔ ∃ chosen s', selectJudge cfg t s = (.ok chosen, s') ∧
      chosen.2.1.isSome := by
  unfold TakesModel
  constructor
  · intro h
    rcases hrun : selectJudge cfg t s with ⟨_ | chosen, s'⟩
    · rw [hrun] at h
      cases h
    · rw [hrun] at h
      exact ⟨chosen, s', rfl, h⟩
  · rintro ⟨chosen, s', hrun, hsome⟩
    rw [hrun]
    exact hsome

/-- The model is not taken once the day has enough decisions. -/
theorem not_takesModel {t : TickInput} {s : Server} (hpersisted : cfg.persisted)
    (hcap : 0 < cfg.dailyLlmDecisionCap) (h : Capped cfg (tradeDateKst t.now) s) :
    ¬ TakesModel cfg t s := by
  intro htakes
  obtain ⟨chosen, s', hrun, hsome⟩ := takesModel_iff.mp htakes
  obtain ⟨-, -, hresearch⟩ := (selectJudge_spec s).of_ok hrun
  have hno : ¬ s.AsksModel cfg t := fun hasks => hasks.2 ⟨hpersisted, hcap, h⟩
  rw [hresearch, if_neg hno] at hsome
  cases hsome

/-- The choice of the judge looks at the answers of the model only to take it. -/
theorem selectJudge_answered {t : TickInput} {s : Server} (h : ¬ TakesModel cfg t s)
    (llm : Judge) (webSearch : Research) :
    selectJudge cfg (t.answered llm webSearch) s = selectJudge cfg t s := by
  have hsame : llmCapped cfg (t.answered llm webSearch) s = llmCapped cfg t s := rfl
  unfold selectJudge
  by_cases hkey : cfg.anthropicApiKey
  · rw [if_pos hkey, if_pos hkey]
    refine bind_congr hsame fun capped s' hrun => ?_
    cases capped with
    | true => rfl
    | false =>
      -- with a key and below the cap the model is taken
      refine absurd (takesModel_iff.mpr ?_) h
      unfold selectJudge
      rw [if_pos hkey, bind_ok (hsame ▸ hrun)]
      exact ⟨_, _, rfl, rfl⟩
  · rw [if_neg hkey, if_neg hkey]

/-- **A tick that does not take the model asks it nothing.** -/
theorem executeTick_answered {t : TickInput} {s : Server} (h : ¬ TakesModel cfg t s)
    (llm : Judge) (webSearch : Research) :
    executeTick cfg (t.answered llm webSearch) s = executeTick cfg t s := by
  have hopen : ∀ toss, openTick cfg (t.answered llm webSearch) toss s = openTick cfg t toss s := by
    intro toss
    refine bind_congr rfl fun watchlist s' hwatch => ?_
    obtain rfl : s = s' := (Prod.mk.inj hwatch).2
    exact bind_congr (selectJudge_answered h llm webSearch) fun _ _ _ => rfl
  unfold executeTick
  rcases htoss : t.toss with - | toss
  · have htoss' : (t.answered llm webSearch).toss = none := htoss
    simp only [htoss']
  · have htoss' : (t.answered llm webSearch).toss = some toss := htoss
    simp only [htoss']
    exact bind_congr (hopen toss) fun _ _ _ => rfl

/-! ### What is recorded stays -/

/-- The recorded ticks and decisions are only added to. -/
structure Grows (s s' : Server) : Prop where
  ticks : s.db.ticks <+: s'.db.ticks
  decisions : s.db.decisions <+: s'.db.decisions

instance : IsPreorder Server Grows where
  refl _ := ⟨List.prefix_refl _, List.prefix_refl _⟩
  trans _ _ _ h h' := ⟨h.ticks.trans h'.ticks, h.decisions.trans h'.decisions⟩

/-- The two tables that the cap reads. -/
def decidedView (db : Db) : List TickRow × List DecisionRow := (db.ticks, db.decisions)

theorem decidedView_quiet : Quiet decidedView := ⟨fun _ _ _ _ => rfl, fun _ _ _ => rfl⟩

theorem Keeps.grows {s s' : Server} (h : Keeps decidedView s s') : Grows s s' := by
  obtain ⟨hticks, hdecisions⟩ := Prod.mk.inj h
  refine ⟨?_, ?_⟩
  · simp [hticks]
  · simp [hdecisions]

theorem reconcileAndEnforce_grows (fates : Fates) (holdings : Holdings) (now : Datetime)
    (advanceBaseline : Bool) :
    Respects Grows (reconcileAndEnforce fates holdings now advanceBaseline) :=
  (reconcileAndEnforce_keeps decidedView_quiet (fun _ _ _ => rfl) _ _ _ _).mono
    fun _ _ => Keeps.grows

theorem openTick_grows (t : TickInput) (toss : Toss) : Respects Grows (openTick cfg t toss) :=
  (openTick_keeps decidedView_quiet (openDay_keeps fun holdings =>
    reconcileAndEnforce_keeps decidedView_quiet (fun _ _ _ => rfl) _ holdings _ _)
      fun _ _ => rfl).mono fun _ _ => Keeps.grows

theorem recordAll_grows (t : TickInput) (paper : Option PaperRun) (result : TickResult) :
    Respects Grows (recordAll cfg t paper result) := by
  have hkeep : ∀ a (f : Db → Db), (∀ db, decidedView (f db) = decidedView db) →
      Respects Grows (write t.fates a f) := fun a f h =>
    (write_keeps h).mono fun _ _ => Keeps.grows
  have hrecord : Respects Grows (write t.fates .recordTick (·.recordTick result t.now)) :=
    respects_commit fun s => ⟨List.prefix_append _ _, List.prefix_append _ _⟩
  have hpaper : ∀ run, Respects Grows (settlePaper cfg t run result.orders) := by
    intro run
    refine (hkeep .savePaper (·.savePaper _) fun _ => rfl).bind fun _ => ?_
    exact (hkeep .appendPaperEquity (·.appendPaperEquity _ _ _ _ _ _) fun _ => rfl).bind
      fun _ => respects_pure _
  unfold recordAll
  split
  · refine hrecord.bind fun _ => (respects_look _).bind fun tickId => ?_
    refine (decidedView_quiet.save.mono fun _ _ => Keeps.grows).bind fun _ => ?_
    refine (hkeep .upsertSymbolStats
      (·.upsertSymbolStats result.adv20 (tradeDateKst t.now)) fun _ => rfl).bind fun _ => ?_
    rcases paper with - | run
    · exact respects_pure _
    · exact (hpaper run).bind fun _ => respects_pure _
  · exact respects_pure _

theorem closeTick_grows (t : TickInput) (o : Opened) : Respects Grows (closeTick cfg t o) := by
  have hrun : Respects Grows (zoom Server.svc (fun s svc => { s with svc }) (runTick o.args)) :=
    fun s => ⟨List.prefix_refl _, List.prefix_refl _⟩
  refine hrun.bind fun result => ?_
  refine (send_keeps.mono fun _ _ => Keeps.grows).bind fun _ => ?_
  exact (recordAll_grows t o.paper result).bind fun _ => respects_pure _

theorem step_grows (s : Server) (e : Event) : Grows s (step cfg s e) := by
  cases e with
  | tick t =>
    have htick : Respects Grows (executeTick cfg t) := by
      unfold executeTick
      rcases t.toss with - | toss
      · exact respects_pure _
      · exact (openTick_grows t toss).bind fun o => closeTick_grows t o
    exact htick s
  | restart => exact ⟨List.prefix_refl _, List.prefix_refl _⟩
  | killSwitch engaged fates =>
    exact (killSwitchRoute_keeps decidedView_quiet cfg engaged fates s).grows
  | resetBreaker fates =>
    exact (circuitBreakerReset_keeps decidedView_quiet cfg fates s).grows
  | reconcileCheck holdings now fates =>
    have hcheck : Respects Grows (Server.reconcileCheck cfg holdings now fates) :=
      respects_when ((respects_lift _).bind fun h =>
        (reconcileAndEnforce_grows _ _ _ _).bind fun _ => respects_pure _)
    exact hcheck s

/-- The count of a day does not go down. -/
theorem Grows.decidedOn_le {s s' : Server} (h : Grows s s') (d : Date) :
    s.decidedOn d ≤ s'.decidedOn d := by
  obtain ⟨ticks, hticks⟩ := h.ticks
  obtain ⟨decisions, hdecisions⟩ := h.decisions
  unfold decidedOn Db.countDecisionsToday
  rw [← hdecisions, List.filter_append, List.length_append]
  refine (List.Sublist.length_le ?_).trans (Nat.le_add_right _ _)
  -- a decision on a recorded tick is on the same tick later
  apply List.monotone_filter_right
  intro row hrow
  rcases hget : s.db.ticks[row.tickId - 1]? with - | tick
  · simp [hget] at hrow
  · have hlater : s'.db.ticks[row.tickId - 1]? = some tick := by
      obtain ⟨hlt, -⟩ := List.getElem?_eq_some_iff.mp hget
      rw [← hticks, List.getElem?_append_left hlt, hget]
    simpa [hget, hlater] using hrow

theorem decidedOn_le_step (cfg : Settings) (s : Server) (e : Event) (d : Date) :
    s.decidedOn d ≤ (step cfg s e).decidedOn d := (step_grows s e).decidedOn_le d

theorem Capped.step {d : Date} {s : Server} (h : Capped cfg d s) (e : Event) :
    Capped cfg d (step cfg s e) := by
  have hle := decidedOn_le_step cfg s e d
  unfold Capped at *
  omega

/-! ### The rest of a capped day -/

/-- The same event, but for what the model answers in a tick of the day. -/
inductive Alike (d : Date) : Event → Event → Prop
  | same (e : Event) : Alike d e e
  | tick (t : TickInput) (llm : Judge) (webSearch : Research) (h : tradeDateKst t.now = d) :
      Alike d (.tick t) (.tick (t.answered llm webSearch))

/-- **Nothing the model could answer changes the rest of a capped day**: two runs
that differ in its answers end the same. -/
theorem llm_capped_run (hpersisted : cfg.persisted) (hcap : 0 < cfg.dailyLlmDecisionCap)
    {d : Date} {s : Server} (hs : Capped cfg d s) {es es' : List Event}
    (h : List.Forall₂ (Alike d) es es') : run cfg s es' = run cfg s es := by
  induction h generalizing s with
  | nil => rfl
  | @cons e e' es es' he _ ih =>
    have hstep : step cfg s e' = step cfg s e := by
      cases he with
      | same => rfl
      | tick t llm webSearch hday =>
        show (executeTick cfg (t.answered llm webSearch) s).2 = (executeTick cfg t s).2
        rw [executeTick_answered (not_takesModel hpersisted hcap (hday ▸ hs))]
    show run cfg (step cfg s e') es' = run cfg (step cfg s e) es
    rw [hstep]
    exact ih (hs.step e)

/-! ### What the model costs in a day -/

/-- The event is a tick of the day that takes the model. -/
def Asks (cfg : Settings) (d : Date) (s : Server) : Event → Prop
  | .tick t => tradeDateKst t.now = d ∧ TakesModel cfg t s
  | _ => False

instance (d : Date) (s : Server) : DecidablePred (Asks cfg d s)
  | .tick _ => inferInstanceAs (Decidable (_ ∧ _))
  | .restart => inferInstanceAs (Decidable False)
  | .killSwitch _ _ => inferInstanceAs (Decidable False)
  | .resetBreaker _ => inferInstanceAs (Decidable False)
  | .reconcileCheck _ _ _ => inferInstanceAs (Decidable False)

/-- What an event adds to the count of the day. -/
def added (cfg : Settings) (d : Date) (s : Server) (e : Event) : ℕ :=
  (step cfg s e).decidedOn d - s.decidedOn d

/-- What the ticks that take the model add to the count of the day, in a run. -/
def spent (cfg : Settings) (d : Date) : Server → List Event → ℕ
  | _, [] => 0
  | s, e :: es =>
    (if Asks cfg d s e then added cfg d s e else 0) + spent cfg d (step cfg s e) es

theorem asks_lt {d : Date} {s : Server} {e : Event} (hpersisted : cfg.persisted)
    (hcap : 0 < cfg.dailyLlmDecisionCap) (h : Asks cfg d s e) :
    (s.decidedOn d : ℤ) < cfg.dailyLlmDecisionCap := by
  cases e with
  | tick t =>
    obtain ⟨rfl, htakes⟩ := h
    exact not_le.mp fun hcapped => not_takesModel hpersisted hcap hcapped htakes
  | restart => cases h
  | killSwitch engaged fates => cases h
  | resetBreaker fates => cases h
  | reconcileCheck holdings now fates => cases h

/-- What the ticks that take the model spend, by induction on the run: the last of them
starts below the cap. -/
theorem spent_le (hpersisted : cfg.persisted) (hcap : 0 < cfg.dailyLlmDecisionCap) {d : Date}
    {m : ℕ} {s : Server} {es : List Event}
    (hsize : Run.Admits (step cfg) (fun s e => added cfg d s e ≤ m) s es) :
    spent cfg d s es = 0 ∨
      (s.decidedOn d + spent cfg d s es : ℤ) ≤ cfg.dailyLlmDecisionCap - 1 + m := by
  induction es generalizing s with
  | nil => exact Or.inl rfl
  | cons e es ih =>
    obtain ⟨hfirst, hrest⟩ := hsize
    have hle := decidedOn_le_step cfg s e d
    rw [spent]
    by_cases hasks : Asks cfg d s e
    · have hlt := asks_lt hpersisted hcap hasks
      rw [if_pos hasks]
      unfold added at hfirst ⊢
      rcases ih hrest with hzero | hbound
      · rw [hzero]
        right
        push_cast [Nat.cast_sub hle]
        omega
      · right
        push_cast [Nat.cast_sub hle]
        omega
    · rw [if_neg hasks, zero_add]
      refine (ih hrest).imp_right fun hbound => ?_
      omega

/-- **A day of the model costs less than the cap and one tick.**  With a cap above zero,
when no tick records more than `m` decisions, the ticks that take the model record, over
any run, at most `m` more than one below the cap.  No other tick asks it: whatever it
would answer, the tick replies the same and leaves the same. -/
theorem llm_spent_le (hpersisted : cfg.persisted) (hcap : 0 < cfg.dailyLlmDecisionCap) :
    (∀ t s, ¬ TakesModel cfg t s → ∀ llm webSearch,
        executeTick cfg (t.answered llm webSearch) s = executeTick cfg t s) ∧
      ∀ d m s es, Run.Admits (step cfg) (fun s e => added cfg d s e ≤ m) s es →
        spent cfg d s es = 0 ∨
          (s.decidedOn d + spent cfg d s es : ℤ) ≤ cfg.dailyLlmDecisionCap - 1 + m := by
  refine ⟨?_, ?_⟩
  · intro t s h llm webSearch
    exact executeTick_answered h llm webSearch
  · intro d m s es hsize
    exact spent_le hpersisted hcap hsize

end Server

namespace Sample

/-- One decision a day for the model. -/
def cappedSettings : Settings := { settings with dailyLlmDecisionCap := 1 }

/-- Two ticks on an account with one stock: each takes one decision. -/
def firstTick : TickInput := tickInput "a" (account 1) returning

/-- The second of them. -/
def secondTick : TickInput := tickInput "b" (account 1) returning

end Sample

namespace Server

/-- The second tick of the day is the same if the model would answer otherwise. -/
theorem llm_capped_second :
    let s := step Sample.cappedSettings (start Sample.cappedSettings {}) (.tick Sample.firstTick)
    run Sample.cappedSettings s
        [.tick (Sample.secondTick.answered deterministicJudge Sample.secondTick.webSearch)] =
      run Sample.cappedSettings s [.tick Sample.secondTick] := by
  intro s
  have hcapped : Capped Sample.cappedSettings (tradeDateKst Sample.secondTick.now) s := by
    decide +kernel
  exact llm_capped_run rfl (by decide) hcapped (.cons (.tick _ _ _ rfl) .nil)

/-- Of the two ticks the first takes the model, and the second does not. -/
theorem llm_spent_second :
    let day := tradeDateKst Sample.firstTick.now
    let s := start Sample.cappedSettings {}
    let es := [Event.tick Sample.firstTick, .tick Sample.secondTick]
    spent Sample.cappedSettings day s es = 1 ∧
      (spent Sample.cappedSettings day s es = 0 ∨
        (s.decidedOn day + spent Sample.cappedSettings day s es : ℤ) ≤ 1 - 1 + 1) := by
  intro day s es
  have hsize : Run.Admits (step Sample.cappedSettings)
      (fun s e => added Sample.cappedSettings day s e ≤ 1) s es := by
    decide +kernel
  refine ⟨by decide +kernel, ?_⟩
  exact (@llm_spent_le Sample.cappedSettings rfl (by decide)).2 day 1 s es hsize

end Server

end AutoTrade
