/-
AutoTrade/WebSearch.lean

The research of a candidate by a model that searches (`engine/research.py`).

A search can pause, and is then asked for again with all that was said so far, a few
times at most.  The calls are the state of a search, one that raises among them: each
gets the query and what the calls before it have answered (`Search`).  `converse_spec` is
the loop, by induction on the calls that may still follow; `web_search_sound` says what
a note is made of, and what it can cost.
-/
import AutoTrade.Judge
import AutoTrade.Lib.Effect
import AutoTrade.Symbols

namespace AutoTrade

open Effect

/-! ### The client -/

/-- A block of an answer, as far as it is read. -/
structure ContentBlock where
  type : Option String := none
  text : String := ""
  url : Option String := none
  /-- the `url` of each citation -/
  citations : List (Option String) := []

/-- An answer of the Messages client. -/
structure WebResponse where
  stopReason : Option String := none
  content : List ContentBlock := []

/-- What a call sends: the question, and the answers before it. -/
inductive Message
  | user (query : String)
  | assistant (content : List ContentBlock)

/-- What `messages.create` answers, or raises: the calls of a search are counted, for
two of them with the same messages can be answered differently. -/
abbrev MessagesClient := ℕ → List Message → Except Exn WebResponse

/-- The search is not finished and asks to be called again. -/
def WebResponse.paused (r : WebResponse) : Bool := r.stopReason = some "pause_turn"

/-- `ctx.market or "KR"`. -/
def researchQuery (ctx : CandidateContext) : String :=
  let held := if ctx.alreadyHeld then "보유 중" else "신규 매수 후보"
  let market := match ctx.market with
    | none => "KR"
    | some market => if market = "" then "KR" else market
  ctx.symbol ++ " " ++ ctx.name ++ " (" ++ market ++ ") — " ++ held ++ ". " ++
    "최근 뉴스·공시·실적·이벤트를 조사해 매매 판단용 사실 브리프를 작성하라."

/-- `_collect_text`: the text blocks, a line each. -/
def collectText (r : WebResponse) : String :=
  let parts := (r.content.filter fun b => b.type = some "text" ∧ b.text ≠ "").map ContentBlock.text
  String.ofList (strip ("\n".intercalate parts).toList)

/-- `_collect_sources`: each address once, in the order of the blocks. -/
def collectSources (r : WebResponse) : List String :=
  (r.content.flatMap fun b => b.url.toList ++ b.citations.reduceOption).unique

/-! ### The search -/

/-- A call: what it was given, and what it answered or raised. -/
structure Call where
  messages : List Message
  answer : Except Exn WebResponse

/-- `_call`: each call is noted, also one that raises. -/
def create (client : MessagesClient) (messages : List Message) :
    Effect Exn (List Call) WebResponse := fun calls =>
  (client calls.length messages, calls ++ [⟨messages, client calls.length messages⟩])

/-- A call, and the calls that may still follow it. -/
def converse (client : MessagesClient) :
    ℕ → List Message → Effect Exn (List Call) WebResponse
  | 0, messages => create client messages
  | continuations + 1, messages => do
    let response ← create client messages
    if response.paused then
      converse client continuations (messages ++ [.assistant response.content])
    else pure response

/-- The note of the last answer. -/
def noteOf (ctx : CandidateContext) (r : WebResponse) : ResearchNote where
  symbol := ctx.symbol
  summary := if collectText r = "" then "특이사항 없음" else collectText r
  sources := collectSources r

/-- `WebSearchResearch.research`. -/
def webSearchResearch (client : MessagesClient) (maxContinuations : ℕ) (ctx : CandidateContext) :
    Effect Exn (List Call) ResearchNote := do
  let response ← converse client maxContinuations [.user (researchQuery ctx)]
  pure (noteOf ctx response)

/-! ### The calls of a search -/

/-- What the answers before a call add to its messages. -/
def answered (calls : List Call) : List Message :=
  calls.filterMap fun call => call.answer.toOption.map fun response => .assistant response.content

/-- The calls of a search with `n` continuations, after `k` others, and its result: each
call gets what was said before and follows an answer that is paused, and the result is
what the last of them answers or raises. -/
structure Search (client : MessagesClient) (k : ℕ) (messages : List Message) (n : ℕ)
    (calls : List Call) (result : Except Exn WebResponse) : Prop where
  few : calls.length ≤ n + 1
  asks : ∀ i call, calls[i]? = some call →
    call.messages = messages ++ answered (calls.take i) ∧ call.answer = client (k + i) call.messages
  pauses : ∀ i call, calls[i]? = some call → i + 1 < calls.length →
    ∃ response, call.answer = .ok response ∧ response.paused
  last : calls.getLast?.map Call.answer = some result
  full : ∀ response, result = .ok response → response.paused → calls.length = n + 1

section Loop

variable {client : MessagesClient} {n k : ℕ} {messages : List Message} {calls : List Call}
  {response : WebResponse} {result : Except Exn WebResponse}

/-- A search of one call, which raises, or answers without a pause or for the last
time. -/
theorem search_one (hresult : result = client k messages)
    (hfull : ∀ response, result = .ok response → response.paused → n = 0) :
    Search client k messages n [⟨messages, client k messages⟩] result := by
  refine ⟨Nat.succ_le_succ (Nat.zero_le n), ?_, ?_, ?_, ?_⟩
  · intro i call hcall
    rcases i with - | i
    · cases hcall
      exact ⟨(List.append_nil _).symm, rfl⟩
    · cases hcall
  · intro i call hcall hlt
    exact absurd hlt (by simp)
  · rw [hresult]
    rfl
  · intro response hok hpaused
    rw [hfull response hok hpaused]
    rfl

/-- A paused call, and the search that follows it. -/
theorem Search.cons (h : client k messages = .ok response) (hpaused : response.paused)
    (hrest : Search client (k + 1) (messages ++ [.assistant response.content]) n calls result) :
    Search client k messages (n + 1) (⟨messages, client k messages⟩ :: calls) result := by
  refine ⟨Nat.succ_le_succ hrest.few, ?_, ?_, ?_, ?_⟩
  · intro i call hcall
    rcases i with - | i
    · cases hcall
      exact ⟨(List.append_nil _).symm, rfl⟩
    · obtain ⟨hmessages, hanswer⟩ := hrest.asks i call hcall
      refine ⟨?_, ?_⟩
      · rw [hmessages, List.take_succ_cons]
        unfold answered
        rw [List.append_assoc, List.filterMap_cons_some (b := Message.assistant response.content)]
        · rfl
        · rw [h]
          rfl
      · rw [hanswer]
        congr 1
        omega
  · intro i call hcall hlt
    rcases i with - | i
    · cases hcall
      exact ⟨response, h, hpaused⟩
    · exact hrest.pauses i call hcall (Nat.lt_of_succ_lt_succ hlt)
  · obtain ⟨call, hcall, hresult⟩ := Option.map_eq_some_iff.mp hrest.last
    rw [List.getLast?_cons, hcall, ← hresult]
    rfl
  · intro response' hok hpaused'
    rw [List.length_cons, hrest.full response' hok hpaused']

/-- **A search from any calls on**, by induction on the continuations that are left. -/
theorem converse_spec (client : MessagesClient) (n : ℕ) (messages : List Message)
    (before : List Call) :
    ∃ calls result, converse client n messages before = (result, before ++ calls) ∧
      Search client before.length messages n calls result := by
  induction n generalizing messages before with
  | zero => exact ⟨_, _, rfl, search_one rfl fun _ _ _ => rfl⟩
  | succ n ih =>
    rcases hclient : client before.length messages with e | response
    -- a call that raises is the last one
    · refine ⟨_, .error e, ?_, search_one hclient.symm nofun⟩
      rw [converse, Effect.bind_apply]
      unfold create
      simp only [hclient]
    · by_cases hpaused : response.paused
      · obtain ⟨calls, result, hrun, hsearch⟩ := ih (messages ++ [.assistant response.content])
          (before ++ [⟨messages, client before.length messages⟩])
        rw [List.length_append, List.length_singleton] at hsearch
        refine ⟨_, result, ?_, hsearch.cons hclient hpaused⟩
        rw [converse, Effect.bind_apply]
        unfold create
        simp only [hclient, hpaused, if_true] at hrun ⊢
        rw [hrun, List.append_assoc]
        rfl
      · refine ⟨_, .ok response, ?_, search_one hclient.symm ?_⟩
        · rw [converse, Effect.bind_apply]
          unfold create
          simp only [hclient, hpaused]
          rfl
        · intro response' hok hpaused'
          cases hok
          exact absurd hpaused' hpaused

end Loop

/-- **What a note is made of.**  A search makes a call and `max_continuations` more at
most; each gets the query and all the answers before it, and follows a paused one, so that
none follows a call that raised.  The note is made of the last answer alone, which is
paused only when no call was left, and has a summary and each source once; and what the
last call raises, the search raises. -/
theorem web_search_sound (client : MessagesClient) (maxContinuations : ℕ)
    (ctx : CandidateContext) :
    ∃ calls result,
      webSearchResearch client maxContinuations ctx [] = (result.map (noteOf ctx), calls) ∧
        Search client 0 [.user (researchQuery ctx)] maxContinuations calls result ∧
        ∀ note, result.map (noteOf ctx) = .ok note → note.summary ≠ "" ∧ note.sources.Nodup := by
  obtain ⟨calls, result, hrun, hsearch⟩ :=
    converse_spec client maxContinuations [.user (researchQuery ctx)] []
  refine ⟨calls, result, ?_, hsearch, ?_⟩
  · rw [webSearchResearch, Effect.bind_apply, hrun]
    rcases result with e | response
    · rfl
    · rfl
  · intro note hnote
    rcases result with e | response
    · cases hnote
    · cases hnote
      refine ⟨?_, List.nodup_unique⟩
      show (if collectText response = "" then "특이사항 없음" else _) ≠ ""
      split
      · decide
      · assumption

end AutoTrade
