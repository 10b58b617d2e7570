/-
AutoTrade/TossClient.lean

The client of the broker's API (`toss/client.py`).

Any number of requests share one client: its token, the token's expiry, the
account number and the `asyncio.Lock` around the fetch of a token.  A request is a
coroutine; what it does between two suspensions is one event, and the events of all
requests come in any order, with any answers of the network.  `time.time()` is read
once in an event.

`get_accounts` is a `_request` of its own.  Where a request that needs the account
header finds no account number it runs one first: the frame of the outer request
waits, with the token its header already has.

Inside an event a request is `running`, or `holding` the token lock; between events
it is neither.  So an event is a sequence of small steps (`Micro`), and an invariant
is checked for each of these.
-/
import AutoTrade.TickLock
import AutoTrade.Values

namespace AutoTrade.TossClient

open TickLock (AsyncioLock)

/-! ### What the network says -/

/-- What `resp.json()` gives. -/
inductive Json
  | null
  | bool (b : Bool)
  | num (v : FloatValue)
  | str (s : String)
  | list (xs : List Json)
  | obj (fields : List (String × Json))

namespace Json

/-- `bool(v)`. -/
def truthy : Json → Bool
  | null => false
  | bool b => b
  | num v => v ≠ 0
  | str s => s ≠ ""
  | list xs => !xs.isEmpty
  | obj fields => !fields.isEmpty

/-- `d.get(key, default)` of a dict; the default, where it is none. -/
def get (j : Json) (key : String) (default : Json := null) : Json :=
  match j with
  | obj fields => (fields.lookup key).getD default
  | _ => default

/-- `isinstance(d, dict) and key in d`. -/
def has (j : Json) (key : String) : Bool :=
  match j with
  | obj fields => (fields.lookup key).isSome
  | _ => false

/-- `a or b`. -/
def or (a b : Json) : Json := if a.truthy then a else b

end Json

/-- A response of httpx; `body` is what `_safe_json` makes of it. -/
structure Response where
  status : ℕ
  /-- the header `Retry-After` -/
  retryAfter : Option String := none
  body : Json

/-- What Python and pydantic do with what is read. -/
structure Readers where
  /-- `float(text)`, which reads `nan` and `inf` too -/
  float : String → Option FloatValue
  /-- the `account_seq` of each `Account.model_validate`, if all are valid -/
  accountSeqs : Json → Option (List ℤ)

/-- `float(v)` of a JSON value. -/
def Readers.floatOf (rd : Readers) : Json → Option FloatValue
  | .bool b => some (if b then 1 else 0)
  | .num v => some v
  | .str s => rd.float s
  | _ => none

/-- A token is renewed this many seconds before it ends. -/
def TOKEN_REFRESH_MARGIN_S : ℚ := 120
/-- The statuses that pass. -/
def RETRYABLE_STATUS : List ℕ := [429, 500, 502, 503, 504]
/-- No `Retry-After` counts for more seconds. -/
def MAX_RETRY_AFTER_S : ℚ := 10

/-- `TossAPIError`; a field that is missing is null. -/
structure TossAPIError where
  status : ℕ
  code : Json := .null
  message : Json := .null
  field : Json := .null
  requestId : Json := .null
  raw : Json := .null

/-- What a request raises. -/
inductive Failure
  | api (e : TossAPIError)
  /-- an `httpx.TransportError` -/
  | transport
  /-- a value of another type than the code reads it as -/
  | typed
  /-- pydantic's `ValidationError` -/
  | invalid
  | cancelled

/-- `_unwrap`. -/
def unwrap (body : Json) : Json := if body.has "result" then body.get "result" else body

/-- `_parse_error`.  An `error.data` that is no dict has no `get`. -/
def parseError (status : ℕ) (body : Json) : Failure :=
  match body with
  | .obj _ =>
    match body.get "error" with
    | .obj fields =>
      let err := Json.obj fields
      let found (field : Json) : Failure :=
        .api { status, code := err.get "code", message := err.get "message", field,
               requestId := err.get "requestId", raw := body }
      if (err.get "field").truthy then found (err.get "field")
      else
        match (err.get "data").or (.obj []) with
        | .obj data => found ((Json.obj data).get "field")
        | _ => .typed
    | .str e =>
      .api { status, code := .str e, message := body.get "error_description", raw := body }
    | _ =>
      .api { status, code := body.get "code", message := body.get "message",
             field := body.get "field", requestId := body.get "requestId", raw := body }
  | _ => .api { status, raw := body }

/-- The end of `_request`: the answer, unwrapped, or the error it stands for. -/
def settle (resp : Response) : Except Failure Json :=
  if 400 ≤ resp.status then .error (parseError resp.status resp.body)
  else .ok (unwrap resp.body)

/-! ### Retries -/

/-- The configuration, with what the retries read of it. -/
structure TossConfig where
  accountSeq : Option ℤ := none
  maxRetries : ℕ := 2

/-- `_retry_delay`.  A header that reads as NaN is not cut at the maximum. -/
def retryDelay (rd : Readers) (resp : Response) (attempt : ℕ) : FloatValue :=
  let backoff := FloatValue.num ((if resp.status = 429 then 1 / 2 else 1 / 5) * 2 ^ attempt)
  match resp.retryAfter with
  | none => backoff
  | some text =>
    if text = "" then backoff
    else match rd.float text with
      | some d => d.min (.num MAX_RETRY_AFTER_S)
      | none => backoff

/-- What one round of `_send_with_retry` comes to. -/
inductive Verdict
  | again (delay : FloatValue)
  | raises
  | answers (resp : Response)

/-- A round of `_send_with_retry`; `none` is an `httpx.TransportError`. -/
def verdict (rd : Readers) (cfg : TossConfig) (attempt : ℕ) : Option Response → Verdict
  | none => if attempt < cfg.maxRetries then .again (.num (3 / 10 * 2 ^ attempt)) else .raises
  | some resp =>
    if resp.status ∈ RETRYABLE_STATUS ∧ attempt < cfg.maxRetries then
      .again (retryDelay rd resp attempt)
    else .answers resp

/-- `_send_with_retry` against a network that answers the n-th request with `net n`:
what it gives back, and what it slept. -/
def sendWithRetry (rd : Readers) (cfg : TossConfig) (net : ℕ → Option Response) :
    ℕ → ℕ → Except Failure Response × List FloatValue
  | 0, _ => (.error .transport, [])
  | fuel + 1, attempt =>
    match verdict rd cfg attempt (net attempt) with
    -- the delay is slept before the next round
    | .again delay =>
      ((sendWithRetry rd cfg net fuel (attempt + 1)).1,
        delay :: (sendWithRetry rd cfg net fuel (attempt + 1)).2)
    | .raises => (.error .transport, [])
    | .answers resp => (.ok resp, [])

/-! ### A request -/

/-- The arguments of a `_request` that it branches on. -/
structure Frame where
  account : Bool
  retriedAuth : Bool := false
  deriving DecidableEq

/-- The two headers; `token` is `self._token` when they were made. -/
structure Headers where
  token : Option Json
  account : Option ℤ := none

/-- How a request ends. -/
inductive Outcome
  | returned (data : Json)
  | raised (e : Failure)

/-- Where a request stands. -/
inductive Phase
  | idle
  /-- in an event, without the token lock -/
  | running
  /-- suspended in `_token_lock.acquire()` -/
  | waiting
  /-- in an event, with the token lock -/
  | holding
  /-- in the POST of `_fetch_token` -/
  | fetching
  /-- in round `attempt` of `_send_with_retry` -/
  | sending (h : Headers) (attempt : ℕ)
  /-- in the `asyncio.sleep` after that round -/
  | sleeping (h : Headers) (attempt : ℕ)
  | done (o : Outcome)

/-- A request: its innermost `_request`, and the one that waits for the account
number, with the token in its header. -/
structure Thread where
  phase : Phase := .idle
  frame : Frame := ⟨false, false⟩
  caller : Option (Option Json × Frame) := none

/-- What goes over the wire, and what the client makes of it. -/
inductive Entry (Call : Type*)
  /-- the POST for a token; `lapsed` if the client still has one -/
  | asked (c : Call) (lapsed : Bool)
  | issued (token : Json)
  | sent (c : Call) (h : Headers)
  /-- a 401 that makes the client give up its token -/
  | rejected (c : Call)

/-- The client, and a history of what it did. -/
structure Client (Call : Type*) where
  token : Option Json := none
  tokenExp : FloatValue := 0
  accountSeq : Option ℤ
  tokenLock : AsyncioLock Call := {}
  thread : Call → Thread
  history : List (Entry Call) := []

/-- The tokens of a history, in the order they came. -/
def issuedOf {Call : Type*} : List (Entry Call) → List Json
  | [] => []
  | .issued t :: es => t :: issuedOf es
  | _ :: es => issuedOf es

/-- What a request does up to its next suspension. -/
inductive ClientEvent (Call : Type*)
  | call (c : Call) (account : Bool) (now : ℚ)
  /-- the lock wakes the request -/
  | resume (c : Call) (now : ℚ)
  /-- the POST for a token is answered, or fails -/
  | fetched (c : Call) (resp : Option Response) (now : ℚ)
  /-- the request is answered, or fails -/
  | answer (c : Call) (resp : Option Response) (now : ℚ)
  /-- the sleep between two rounds is over -/
  | wake (c : Call)
  /-- the task of the request is cancelled where it is suspended -/
  | cancel (c : Call)

variable {Call : Type*} [DecidableEq Call]

namespace Client

section Model

variable (rd : Readers) (cfg : TossConfig) (s : Client Call) (c : Call) (now : ℚ)

/-- `_token_valid`: an expiry of NaN has lapsed. -/
def tokenValid : Bool :=
  (s.token.any Json.truthy) &&
    (FloatValue.num now).lt (s.tokenExp.plus (-TOKEN_REFRESH_MARGIN_S))

/-- A call is as given. -/
def setThread (th : Thread) : Client Call :=
  { s with thread := Function.update s.thread c th }

/-- A call is elsewhere. -/
def move (x : Phase) : Client Call := s.setThread c { s.thread c with phase := x }

/-- One more entry of the history, which the source does not keep. -/
def note (e : Entry Call) : Client Call := { s with history := s.history ++ [e] }

/-- The lock is freed; its next waiter goes on in an event of its own. -/
def releaseToken : Client Call := ({ s with tokenLock := s.tokenLock.release }).move c .running

/-- `_http.request`, round `attempt`. -/
def send (h : Headers) (attempt : ℕ) : Client Call :=
  (s.move c (.sending h attempt)).note (.sent c h)

/-- The POST of `_fetch_token`. -/
def post : Client Call := (s.move c .fetching).note (.asked c s.token.isSome)

/-- `_ensure_token` from the `acquire` on: a free lock that nobody waits for is
taken at once, and the token, just looked at, is still not valid. -/
def acquireToken : Client Call :=
  let lock := s.tokenLock.acquire c
  let s' : Client Call := { s with tokenLock := lock.2 }
  -- with the lock, the token is looked at again and is still not valid
  if lock.1 then (s'.move c .holding).post c else s'.move c .waiting

/-- `_ensure_token`, and then the rest of the event. -/
def ensureToken (rest : Client Call → Client Call) : Client Call :=
  if s.tokenValid now then rest s else s.acquireToken c

/-- `_ensure_account_seq` runs `get_accounts`; the request waits for it. -/
def getAccounts : Client Call :=
  s.setThread c ⟨.running, ⟨false, false⟩, some (s.token, (s.thread c).frame)⟩

/-- `_request` once it has its token: the account header, if it needs one, and the
first round. -/
def proceed : Client Call :=
  if (s.thread c).frame.account then
    match s.accountSeq with
    | some seq => s.send c ⟨s.token, some seq⟩ 0
    -- the account number is asked for first, in a request of its own
    | none => (s.getAccounts c).ensureToken c now fun s => s.send c ⟨s.token, none⟩ 0
  else s.send c ⟨s.token, none⟩ 0

/-- `_request`, up to its first suspension. -/
def request : Client Call := s.ensureToken c now fun s => s.proceed c now

/-- A failure ends the request, and the one that waits for it. -/
def fail (e : Failure) : Client Call := s.move c (.done (.raised e))

/-- A token that was issued, and until when it holds. -/
def storeToken (token : Json) (exp : FloatValue) : Client Call :=
  { s with token := some token, tokenExp := exp }.note (.issued token)

/-- `_fetch_token` from its answer on.  The token is stored before its expiry is
read. -/
def fetchToken (resp : Option Response) : Client Call × Option Failure :=
  match resp with
  | none => (s, some .transport)
  | some resp =>
    if resp.status ≠ 200 ∨ !resp.body.has "access_token" then
      (s, some (parseError resp.status resp.body))
    else
      let token := resp.body.get "access_token"
      match rd.floatOf (resp.body.get "expires_in" (.num 0)) with
      -- the expiry is counted from when the answer came
      | some d => (s.storeToken token (d.plus now), none)
      | none => (s.storeToken token s.tokenExp, some .typed)

/-- The account number is there, and the request that waited goes on. -/
def foundAccount (seq : ℤ) (token : Option Json) (frame : Frame) : Client Call :=
  ({ s with accountSeq := some seq }.setThread c ⟨.running, frame, none⟩).send c
    ⟨token, some seq⟩ 0

/-- A `_request` returns `data`: to its caller, or to the `_ensure_account_seq` of
the request that waits. -/
def deliver (data : Json) : Client Call :=
  match (s.thread c).caller with
  | none => s.move c (.done (.returned data))
  | some (token, frame) =>
    match rd.accountSeqs data with
    | none => s.fail c .invalid
    -- no account: the error has no status of its own
    | some [] =>
      s.fail c (.api { status := 0, code := .str "no-account",
                       message := .str "조회 가능한 계좌가 없습니다" })
    | some (seq :: _) => s.foundAccount c seq token frame

/-- The token is given up, for the one retry with `_retried_auth`. -/
def giveUpToken : Client Call :=
  ({ s with token := none }.setThread c
    ⟨.running, ⟨(s.thread c).frame.account, true⟩, (s.thread c).caller⟩).note (.rejected c)

/-- `_request` from the answer of `_send_with_retry` on. -/
def handle (resp : Response) : Client Call :=
  -- one retry with a new token; a second 401 is an answer like any other
  if resp.status = 401 ∧ !(s.thread c).frame.retriedAuth then (s.giveUpToken c).request c now
  else
    match settle resp with
    | .error e => s.fail c e
    | .ok data => s.deliver rd c data

end Model

/-- One event; an event of a request that is somewhere else changes nothing. -/
def step (rd : Readers) (cfg : TossConfig) (s : Client Call) : ClientEvent Call → Client Call
  | .call c account now =>
    match (s.thread c).phase with
    | .idle => (s.setThread c ⟨.running, ⟨account, false⟩, none⟩).request c now
    | _ => s
  | .resume c now =>
    match (s.thread c).phase with
    | .waiting =>
      -- only the first waiter goes on, and looks at the token once more
      if !s.tokenLock.locked ∧ s.tokenLock.waiters.head? = some c then
        let s' := ({ s with tokenLock := s.tokenLock.resume }).move c .holding
        if s'.tokenValid now then (s'.releaseToken c).proceed c now else s'.post c
      else s
    | _ => s
  | .fetched c resp now =>
    match (s.thread c).phase with
    | .fetching =>
      let fetch := s.fetchToken rd now resp
      match fetch.2 with
      | none => (fetch.1.releaseToken c).proceed c now
      | some e => (fetch.1.releaseToken c).fail c e
    | _ => s
  | .answer c resp now =>
    match (s.thread c).phase with
    | .sending h attempt =>
      match verdict rd cfg attempt resp with
      | .again _ => s.move c (.sleeping h attempt)
      | .raises => s.fail c .transport
      | .answers resp => s.handle rd c now resp
    | _ => s
  | .wake c =>
    match (s.thread c).phase with
    | .sleeping h attempt => s.send c h (attempt + 1)
    | _ => s
  | .cancel c =>
    match (s.thread c).phase with
    | .waiting =>
      ({ s with tokenLock := { s.tokenLock with
          waiters := s.tokenLock.waiters.erase c } }).fail c .cancelled
    | .fetching => (s.releaseToken c).fail c .cancelled
    | .sending _ _ | .sleeping _ _ => s.fail c .cancelled
    | _ => s

/-- A new client. -/
def start (cfg : TossConfig) : Client Call where
  accountSeq := cfg.accountSeq
  thread := fun _ => {}

/-- Events one after another. -/
def run (rd : Readers) (cfg : TossConfig) (es : List (ClientEvent Call)) : Client Call :=
  es.foldl (step rd cfg) (start cfg)

end Client

end AutoTrade.TossClient
