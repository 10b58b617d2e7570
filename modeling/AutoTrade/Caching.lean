/-
AutoTrade/Caching.lean

The two caches of a tick, in front of the broker's candles (`toss/caching.py`) and of
the research notes (`CachingResearch` of `engine/research.py`), each with its table
(`db/repo.py`).

A row is written once the answer is there, with the time of the write; a later read
serves it while it is younger than the time to live.  Any of the calls may fail, and a
write that raises may have landed.
-/
import AutoTrade.Judge
import AutoTrade.Lib.ReadThrough
import Mathlib.Algebra.Order.Ring.Int

namespace AutoTrade

open ReadThrough Effect

/-- `timedelta(minutes=n)`. -/
def minutes (n : ℤ) : ℤ := n * 60000000

/-! ### Candles -/

/-- `Candle.model_dump(mode="json")` and `Candle.model_validate`. -/
structure CandleCodec (Bar Payload : Type) where
  dump : Bar → Payload
  validate : Payload → Except Exn Bar

/-- A call of `get_candles`: when it comes, what the broker would answer, and how the
calls to the database end. -/
structure CandleCall (Bar : Type) where
  symbol : Symbol
  interval : String := "1d"
  now : Instant
  lookup : Fate
  answer : Except Exn (List Bar)
  save : Fate
  savedAt : Instant

section Candles

variable {Bar Payload : Type}

/-- The table `candle_cache`, by symbol and interval. -/
abbrev CandleCache (Bar Payload : Type) :=
  Store (Symbol × String) Instant (List Bar) (List Payload)

/-- `CachingToss`: every answer is saved, and a row is read back as it was written. -/
def cachingToss (codec : CandleCodec Bar Payload) :
    Policy (Symbol × String) Instant (List Bar) (List Payload) Exn (List Bar) where
  keep := fun _ => true
  dump := List.map codec.dump
  serve := fun _ row => row.value.mapM codec.validate
  give := id
  lost := "SQLAlchemyError"

/-- A call for candles as a read of the store. -/
def CandleCall.read (ttlMinutes : ℤ) (c : CandleCall Bar) :
    Read (Symbol × String) Instant (List Bar) Exn where
  key := (c.symbol, c.interval)
  now := c.now
  ttl := minutes ttlMinutes
  lookup := c.lookup
  answer := c.answer
  save := c.save
  savedAt := c.savedAt

/-- `CachingToss.get_candles`. -/
def getCandles (codec : CandleCodec Bar Payload) (ttlMinutes : ℤ) (c : CandleCall Bar) :
    Effect Exn (CandleCache Bar Payload) (List Bar) :=
  ReadThrough.read (cachingToss codec) (c.read ttlMinutes)

/-- The cache after some calls. -/
def candleCache (codec : CandleCodec Bar Payload) (ttlMinutes : ℤ)
    (calls : List (CandleCall Bar)) : CandleCache Bar Payload :=
  ReadThrough.run (cachingToss codec) ⟨∅, []⟩ (calls.map (CandleCall.read ttlMinutes))

theorem mapM_validate (codec : CandleCodec Bar Payload)
    (hcodec : ∀ b, codec.validate (codec.dump b) = .ok b) (bars : List Bar) :
    (bars.map codec.dump).mapM codec.validate = .ok bars := by
  induction bars with
  | nil => rfl
  | cons b bars ih =>
    rw [List.map_cons, List.mapM_cons, hcodec, ih]
    rfl

/-- **The candle cache.**  A list of candles that a call gives is what the broker
answers to it, or what it answered to an earlier call for the same symbol and interval
less than the time to live ago; in the latter case the broker is not asked; and with a
clock that does not go back, each answer that was saved for a symbol is at least the
time to live after the one before it. -/
theorem candle_cache_sound (codec : CandleCodec Bar Payload)
    (hcodec : ∀ b, codec.validate (codec.dump b) = .ok b) (ttlMinutes : ℤ)
    (calls : List (CandleCall Bar)) :
    (∀ c bars, (getCandles codec ttlMinutes c (candleCache codec ttlMinutes calls)).1 = .ok bars →
        c.answer = .ok bars ∨ ∃ r ∈ calls, r.symbol = c.symbol ∧ r.interval = c.interval ∧
          r.answer = .ok bars ∧ c.now - r.savedAt < minutes ttlMinutes) ∧
      (∀ c t, Gate.lastOf (c.symbol, c.interval) (stamps (candleCache codec ttlMinutes calls)) =
          some t → c.now - t < minutes ttlMinutes → c.lookup = .returns →
        ∀ answer save, getCandles codec ttlMinutes { c with answer, save }
            (candleCache codec ttlMinutes calls) =
          getCandles codec ttlMinutes c (candleCache codec ttlMinutes calls)) ∧
      (Clocked (calls.map (CandleCall.read ttlMinutes)) → ∀ key,
        Gate.Spaced (minutes ttlMinutes)
          (Gate.stampsOf key (stamps (candleCache codec ttlMinutes calls)))) := by
  have hbacked : Backed (cachingToss codec) (candleCache codec ttlMinutes calls) :=
    backed_run backed_empty
  refine ⟨?_, ?_, ?_⟩
  · intro c bars hok
    rcases served_or_given hbacked hok with ⟨t, v, hsave, -, hyoung, hserve, -⟩ | ⟨v, ha, hv, -⟩
    · have hbars : v = bars := by
        have hsame : (v.map codec.dump).mapM codec.validate = .ok bars := hserve
        rw [mapM_validate codec hcodec] at hsame
        exact Except.ok.inj hsame
      rcases saves_run backed_empty hsave with hnone | ⟨r, hr, hkey, hstamp, ha⟩
      · cases hnone
      · obtain ⟨call, hcall, rfl⟩ := List.mem_map.mp hr
        obtain ⟨hsymbol, hinterval⟩ := Prod.ext_iff.mp hkey
        have hstamp' : call.savedAt = t := hstamp
        subst hbars hstamp'
        exact .inr ⟨call, hcall, hsymbol, hinterval, ha, hyoung⟩
    · rw [hv]
      exact .inl ha
  · intro c t hlast hyoung hl answer save
    obtain ⟨row, hrow, hread⟩ := @read_young _ _ _ _ _ _ _ _ _ _ _ (c.read ttlMinutes) _
      hbacked hlast hyoung hl
    obtain ⟨row', hrow', hread'⟩ := @read_young _ _ _ _ _ _ _ _ _ _ _
      ({ c with answer, save }.read ttlMinutes) _ hbacked hlast hyoung hl
    have hsame : row' = row := Option.some.inj (hrow'.symm.trans hrow)
    subst hsame
    exact hread'.trans hread.symm
  · intro hclock key
    refine spaced_run backed_empty hclock nofun ?_ Gate.spaced_nil
    intro r hr _
    obtain ⟨c, -, rfl⟩ := List.mem_map.mp hr
    exact le_rfl

/-- Asked at noon and again half an hour later, while the broker would answer something
else: the second call is served what the first one saved. -/
theorem candle_cache_sound_served :
    let noon : CandleCall ℕ := {
      symbol := "005930", now := minutes 720, lookup := .returns, answer := .ok [70000]
      save := .returns, savedAt := minutes 721 }
    let later : CandleCall ℕ := { noon with now := minutes 750, answer := .ok [70500] }
    ∃ r ∈ [noon], r.symbol = later.symbol ∧ r.interval = later.interval ∧
      r.answer = .ok [70000] ∧ later.now - r.savedAt < minutes 60 := by
  intro noon later
  rcases (candle_cache_sound (⟨id, .ok⟩ : CandleCodec ℕ ℕ) (fun _ => rfl) 60 [noon]).1
    later [70000] (by decide) with hfresh | hserved
  · cases hfresh
  · exact hserved

end Candles

/-! ### Research -/

/-- A call of `research`: the candidate, when it comes, what the provider would answer,
and how the calls to the database end. -/
structure ResearchCall where
  ctx : CandidateContext
  now : Instant
  lookup : Fate
  answer : Except Exn ResearchNote
  save : Fate
  savedAt : Instant

/-- The summary of a note from the cache, marked with the time it was fetched:
`strftime` is `%m-%d %H:%M` in Seoul. -/
def cachedSummary (strftime : Instant → String) (fetchedAt : Instant) (summary : String) : String :=
  "[캐시된 조사 — " ++ strftime fetchedAt ++ " KST 수집] " ++ summary

/-- The table `research_cache`, by symbol. -/
abbrev ResearchCache := Store Symbol Instant ResearchNote (String × List String)

/-- `CachingResearch`: a note without a summary is not saved. -/
def cachingResearch (strftime : Instant → String) :
    Policy Symbol Instant ResearchNote (String × List String) Exn ResearchNote where
  keep := fun note => note.summary ≠ ""
  dump := fun note => (note.summary, note.sources)
  serve := fun symbol row => .ok {
    symbol, sources := row.value.2
    -- marked with its time when it is served, not when it is stored
    summary := cachedSummary strftime row.stamp row.value.1 }
  give := id
  lost := "SQLAlchemyError"

/-- The time to live: a shorter one for what is held. -/
def ResearchCall.ttl (ttlMinutes heldTtlMinutes : ℤ) (c : ResearchCall) : ℤ :=
  if c.ctx.alreadyHeld then minutes heldTtlMinutes else minutes ttlMinutes

/-- A call for research as a read of the store. -/
def ResearchCall.read (ttlMinutes heldTtlMinutes : ℤ) (c : ResearchCall) :
    Read Symbol Instant ResearchNote Exn where
  key := c.ctx.symbol
  now := c.now
  ttl := c.ttl ttlMinutes heldTtlMinutes
  lookup := c.lookup
  answer := c.answer
  save := c.save
  savedAt := c.savedAt

/-- `CachingResearch.research`. -/
def research (strftime : Instant → String) (ttlMinutes heldTtlMinutes : ℤ) (c : ResearchCall) :
    Effect Exn ResearchCache ResearchNote :=
  ReadThrough.read (cachingResearch strftime) (c.read ttlMinutes heldTtlMinutes)

/-- The cache after some calls. -/
def researchCache (strftime : Instant → String) (ttlMinutes heldTtlMinutes : ℤ)
    (calls : List ResearchCall) : ResearchCache :=
  ReadThrough.run (cachingResearch strftime) ⟨∅, []⟩
    (calls.map (ResearchCall.read ttlMinutes heldTtlMinutes))

/-- **The research cache.**  A note that a call gives is what the provider answers to
it, unmarked, or a note with a summary that it answered to an earlier call for the
symbol, younger than the time to live for this call, and marked once with its time.
With a clock that does not go back, each note saved for a symbol is at least the
shorter of the two times to live after the one before it. -/
theorem research_cache_sound (strftime : Instant → String) (ttlMinutes heldTtlMinutes : ℤ)
    (calls : List ResearchCall) :
    (∀ c note, (research strftime ttlMinutes heldTtlMinutes c
        (researchCache strftime ttlMinutes heldTtlMinutes calls)).1 = .ok note →
        c.answer = .ok note ∨ ∃ r ∈ calls, ∃ fetched, r.ctx.symbol = c.ctx.symbol ∧
          r.answer = .ok fetched ∧ fetched.summary ≠ "" ∧
          c.now - r.savedAt < c.ttl ttlMinutes heldTtlMinutes ∧
          note = { symbol := c.ctx.symbol, sources := fetched.sources
                   summary := cachedSummary strftime r.savedAt fetched.summary }) ∧
      (Clocked (calls.map (ResearchCall.read ttlMinutes heldTtlMinutes)) →
        ∀ symbol, Gate.Spaced (minutes (min ttlMinutes heldTtlMinutes)) (Gate.stampsOf symbol
          (stamps (researchCache strftime ttlMinutes heldTtlMinutes calls)))) := by
  have hbacked : Backed (cachingResearch strftime)
      (researchCache strftime ttlMinutes heldTtlMinutes calls) := backed_run backed_empty
  refine ⟨?_, ?_⟩
  · intro c note hok
    rcases served_or_given hbacked hok with ⟨t, v, hsave, hkeep, hyoung, hserve, -⟩ | ⟨v, ha, hv, -⟩
    · rcases saves_run backed_empty hsave with hnone | ⟨r, hr, hkey, hstamp, ha⟩
      · cases hnone
      · obtain ⟨call, hcall, rfl⟩ := List.mem_map.mp hr
        have hstamp' : call.savedAt = t := hstamp
        subst hstamp'
        exact .inr ⟨call, hcall, v, hkey, ha, of_decide_eq_true hkeep, hyoung,
          (Except.ok.inj hserve).symm⟩
    · rw [hv]
      exact .inl ha
  · intro hclock symbol
    refine spaced_run backed_empty hclock nofun ?_ Gate.spaced_nil
    intro r hr _
    obtain ⟨c, -, rfl⟩ := List.mem_map.mp hr
    show minutes _ ≤ c.ttl _ _
    unfold ResearchCall.ttl minutes
    split
    · exact Int.mul_le_mul_of_nonneg_right (min_le_right _ _) (by decide)
    · exact Int.mul_le_mul_of_nonneg_right (min_le_left _ _) (by decide)

end AutoTrade
