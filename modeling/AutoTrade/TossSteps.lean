/-
AutoTrade/TossSteps.lean

The events of the broker's client, as chains of small steps.

An event runs through several functions of the client.  Each of the small steps it
is made of (`Micro`) does one thing, and says what the client has checked before:

    step_chain :  s —Micro→ ··· —Micro→ step s e

So an invariant of all runs is one case for each small step (`foldl_keeps`).
-/
import AutoTrade.TossClient
import AutoTrade.Lib.Run
import Mathlib.Logic.Relation

namespace AutoTrade.TossClient

open Relation
open TickLock (AsyncioLock)

variable {Call : Type*}

/-- Inside the region that the token lock guards. -/
def Phase.inside : Phase → Bool
  | .holding | .fetching => true
  | _ => false

/-- Under way, and not at the token lock. -/
def Phase.underway : Phase → Bool
  | .running | .sending _ _ | .sleeping _ _ => true
  | _ => false

/-- The headers of a request on its way, or between two rounds. -/
def Phase.header : Phase → Option Headers
  | .sending hd _ | .sleeping hd _ => some hd
  | _ => none

/-- The call that an event is of. -/
def ClientEvent.caller : ClientEvent Call → Call
  | call c _ _ | resume c _ | fetched c _ _ | answer c _ _ | wake c | cancel c => c

/-- What `time.time()` gives in the event. -/
def ClientEvent.clock : ClientEvent Call → Option ℚ
  | call _ _ now | resume _ now | fetched _ _ now | answer _ _ now => some now
  | wake _ | cancel _ => none

variable [DecidableEq Call]

namespace Client

/-- The expiry that `_fetch_token` leaves behind. -/
def expiry (s : Client Call) (rd : Readers) (now : ℚ) (resp : Response) : FloatValue :=
  ((rd.floatOf (resp.body.get "expires_in" (.num 0))).map (·.plus now)).getD s.tokenExp

/-! ### Small steps -/

/-- A small step of the request `c`, in the event `e`. -/
inductive Micro (rd : Readers) (cfg : TossConfig) (e : ClientEvent Call) (c : Call) :
    Client Call → Client Call → Prop
  | call {s : Client Call} (account : Bool) (h : (s.thread c).phase = .idle) :
      Micro rd cfg e c s (s.setThread c ⟨.running, ⟨account, false⟩, none⟩)
  | take {s : Client Call} (h : (s.thread c).phase = .running)
      (hfree : s.tokenLock.locked = false) (hnobody : s.tokenLock.waiters = []) :
      Micro rd cfg e c s
        (({ s with tokenLock := { s.tokenLock with locked := true } } : Client Call).move c
          .holding)
  | wait {s : Client Call} (h : (s.thread c).phase = .running) :
      Micro rd cfg e c s (({ s with tokenLock := { s.tokenLock with
        waiters := s.tokenLock.waiters ++ [c] } } : Client Call).move c .waiting)
  | resume {s : Client Call} (h : (s.thread c).phase = .waiting)
      (hfree : s.tokenLock.locked = false) (hhead : s.tokenLock.waiters.head? = some c) :
      Micro rd cfg e c s
        (({ s with tokenLock := s.tokenLock.resume } : Client Call).move c .holding)
  | release {s : Client Call} (h : (s.thread c).phase.inside = true) :
      Micro rd cfg e c s (s.releaseToken c)
  | post {s : Client Call} (h : (s.thread c).phase = .holding) {now : ℚ}
      (hnow : e.clock = some now) (hinvalid : s.tokenValid now = false) :
      Micro rd cfg e c s (s.post c)
  | store {s : Client Call} (h : (s.thread c).phase = .fetching) {resp : Response} {now : ℚ}
      (he : e = .fetched c (some resp) now) :
      Micro rd cfg e c s
        ((s.storeToken (resp.body.get "access_token") (s.expiry rd now resp)).releaseToken c)
  | nest {s : Client Call} (h : (s.thread c).phase = .running)
      (haccount : (s.thread c).frame.account = true) (hseq : s.accountSeq = none)
      (htoken : s.token.isSome) : Micro rd cfg e c s (s.getAccounts c)
  | send {s : Client Call} (h : (s.thread c).phase = .running) (htoken : s.token.isSome)
      (account : Option ℤ)
      (haccount : account = if (s.thread c).frame.account then s.accountSeq else none)
      (hknown : (s.thread c).frame.account = true → s.accountSeq.isSome) :
      Micro rd cfg e c s (s.send c ⟨s.token, account⟩ 0)
  | reject {s : Client Call} {hd : Headers} {a : ℕ} (h : (s.thread c).phase = .sending hd a)
      (hfirst : (s.thread c).frame.retriedAuth = false) {resp : Response} {now : ℚ}
      (he : e = .answer c (some resp) now) (h401 : resp.status = 401) :
      Micro rd cfg e c s (s.giveUpToken c)
  | sleep {s : Client Call} {hd : Headers} {a : ℕ} (h : (s.thread c).phase = .sending hd a)
      (ha : a < cfg.maxRetries) : Micro rd cfg e c s (s.move c (.sleeping hd a))
  | again {s : Client Call} {hd : Headers} {a : ℕ} (h : (s.thread c).phase = .sleeping hd a) :
      Micro rd cfg e c s (s.send c hd (a + 1))
  | found {s : Client Call} {hd : Headers} {a : ℕ} (h : (s.thread c).phase = .sending hd a)
      {token : Option Json} {frame : Frame} (hcaller : (s.thread c).caller = some (token, frame))
      (seq : ℤ) : Micro rd cfg e c s (s.foundAccount c seq token frame)
  | leave {s : Client Call} (h : (s.thread c).phase = .waiting) (o : Outcome) :
      Micro rd cfg e c s (({ s with tokenLock := { s.tokenLock with
        waiters := s.tokenLock.waiters.erase c } } : Client Call).move c (.done o))
  | finish {s : Client Call} (h : (s.thread c).phase.underway = true) (o : Outcome) :
      Micro rd cfg e c s (s.move c (.done o))

section Chains

variable {rd : Readers} {cfg : TossConfig} {e : ClientEvent Call} {s : Client Call} {c : Call}
  {now : ℚ}

@[simp] theorem setThread_thread_self {th : Thread} : (s.setThread c th).thread c = th := by
  show Function.update s.thread c th c = th
  rw [Function.update_self]

@[simp] theorem move_thread_self {x : Phase} :
    (s.move c x).thread c = { s.thread c with phase := x } := setThread_thread_self

@[simp] theorem releaseToken_thread_self :
    (s.releaseToken c).thread c = { s.thread c with phase := .running } := setThread_thread_self

@[simp] theorem getAccounts_thread_self : (s.getAccounts c).thread c =
    ⟨.running, ⟨false, false⟩, some (s.token, (s.thread c).frame)⟩ := setThread_thread_self

@[simp] theorem giveUpToken_thread_self : (s.giveUpToken c).thread c =
    ⟨.running, ⟨(s.thread c).frame.account, true⟩, (s.thread c).caller⟩ := setThread_thread_self

@[simp] theorem post_thread_self :
    (s.post c).thread c = { s.thread c with phase := .fetching } := setThread_thread_self

@[simp] theorem send_thread_self {hd : Headers} {a : ℕ} :
    (s.send c hd a).thread c = { s.thread c with phase := .sending hd a } := setThread_thread_self

@[simp] theorem foundAccount_thread_self {seq : ℤ} {token : Option Json} {frame : Frame} :
    (s.foundAccount c seq token frame).thread c =
      ⟨.sending ⟨token, some seq⟩ 0, frame, none⟩ := by
  rw [foundAccount, send_thread_self, setThread_thread_self]

omit [DecidableEq Call] in
/-- A token that is valid is there. -/
theorem isSome_of_tokenValid (h : s.tokenValid now = true) : s.token.isSome := by
  unfold tokenValid at h
  rcases ht : s.token with - | t
  · rw [ht] at h
    cases h
  · rfl

/-- A free lock that nobody waits for is taken at once. -/
theorem acquireToken_free (hfree : s.tokenLock.locked = false)
    (hnobody : s.tokenLock.waiters = []) :
    s.acquireToken c = (({ s with tokenLock := { s.tokenLock with
      locked := true } } : Client Call).move c .holding).post c := by
  have hcond : (!s.tokenLock.locked && s.tokenLock.waiters.isEmpty) = true := by
    rw [hfree, hnobody]
    rfl
  unfold acquireToken AsyncioLock.acquire
  rw [hcond]
  rfl

/-- A lock that is held or waited for makes the call the last of its waiters. -/
theorem acquireToken_busy (h : s.tokenLock.locked = true ∨ s.tokenLock.waiters ≠ []) :
    s.acquireToken c = ({ s with tokenLock := { s.tokenLock with
      waiters := s.tokenLock.waiters ++ [c] } } : Client Call).move c .waiting := by
  have hbusy : (!s.tokenLock.locked && s.tokenLock.waiters.isEmpty) = false := by
    rcases h with h | h
    · rw [h]
      rfl
    · rw [List.isEmpty_eq_false_iff.mpr h, Bool.and_false]
  unfold acquireToken AsyncioLock.acquire
  rw [hbusy]
  rfl

omit [DecidableEq Call] in
/-- The lock is free with nobody waiting, or the call has to wait. -/
theorem acquireToken_cases (s : Client Call) :
    (s.tokenLock.locked = false ∧ s.tokenLock.waiters = []) ∨
      (s.tokenLock.locked = true ∨ s.tokenLock.waiters ≠ []) := by
  rcases s.tokenLock.locked with - | -
  · rcases s.tokenLock.waiters with - | ⟨a, rest⟩
    · exact .inl ⟨rfl, rfl⟩
    · exact .inr (.inr (List.cons_ne_nil a rest))
  · exact .inr (.inl rfl)

/-- Taking the lock: at once with a fetch after it, or by waiting. -/
theorem chain_acquire (h : (s.thread c).phase = .running) (hnow : e.clock = some now)
    (hinvalid : s.tokenValid now = false) :
    ReflTransGen (Micro rd cfg e c) s (s.acquireToken c) := by
  rcases acquireToken_cases s with ⟨hfree, hnobody⟩ | hbusy
  · rw [acquireToken_free hfree hnobody]
    refine (ReflTransGen.single (.take h hfree hnobody)).tail (.post ?_ hnow hinvalid)
    rw [move_thread_self]
  · rw [acquireToken_busy hbusy]
    exact .single (.wait h)

theorem chain_send (h : (s.thread c).phase = .running) (htoken : s.token.isSome)
    (hframe : (s.thread c).frame.account = false) :
    Micro rd cfg e c s (s.send c ⟨s.token, none⟩ 0) := by
  refine .send h htoken none ?_ ?_
  · rw [hframe]
    rfl
  · intro haccount
    rw [hframe] at haccount
    cases haccount

/-- `get_accounts`, and any other request without the account header. -/
theorem chain_plain (h : (s.thread c).phase = .running) (hnow : e.clock = some now)
    (hframe : (s.thread c).frame.account = false) :
    ReflTransGen (Micro rd cfg e c) s
      (s.ensureToken c now fun s => s.send c ⟨s.token, none⟩ 0) := by
  unfold ensureToken
  split
  · next hvalid => exact .single (chain_send h (isSome_of_tokenValid hvalid) hframe)
  · next hinvalid => exact chain_acquire h hnow (Bool.eq_false_iff.mpr hinvalid)

/-- With a token the call is sent, or first asks for the accounts. -/
theorem chain_proceed (h : (s.thread c).phase = .running) (hnow : e.clock = some now)
    (htoken : s.token.isSome) : ReflTransGen (Micro rd cfg e c) s (s.proceed c now) := by
  unfold proceed
  rcases haccount : (s.thread c).frame.account with - | -
  · simp only [Bool.false_eq_true, if_false]
    exact .single (chain_send h htoken haccount)
  · simp only [if_true]
    rcases hseq : s.accountSeq with - | seq
    · refine .head (.nest h haccount hseq htoken) (chain_plain ?_ hnow ?_)
      · rw [getAccounts_thread_self]
      · rw [getAccounts_thread_self]
    · refine .single (.send h htoken (some seq) ?_ fun _ => ?_)
      · rw [haccount, hseq]
        rfl
      · rw [hseq]
        rfl

/-- A request starts with the token, whatever it has to do to have one. -/
theorem chain_request (h : (s.thread c).phase = .running) (hnow : e.clock = some now) :
    ReflTransGen (Micro rd cfg e c) s (s.request c now) := by
  unfold request ensureToken
  split
  · next hvalid => exact chain_proceed h hnow (isSome_of_tokenValid hvalid)
  · next hinvalid => exact chain_acquire h hnow (Bool.eq_false_iff.mpr hinvalid)

/-- An answer ends the call, or tells it its account. -/
theorem chain_deliver {hd : Headers} {a : ℕ} (h : (s.thread c).phase = .sending hd a)
    (data : Json) : ReflTransGen (Micro rd cfg e c) s (s.deliver rd c data) := by
  have hdone : ∀ o, Micro rd cfg e c s (s.move c (.done o)) :=
    .finish (congrArg Phase.underway h)
  unfold deliver
  rcases hcaller : (s.thread c).caller with - | ⟨token, frame⟩
  · exact .single (hdone _)
  · rcases hseqs : rd.accountSeqs data with - | - | ⟨seq, rest⟩
    · exact .single (hdone _)
    · exact .single (hdone _)
    · exact .single (.found h hcaller seq)

/-- A response is delivered, fails, or is tried again with a new token. -/
theorem chain_handle {hd : Headers} {a : ℕ} (h : (s.thread c).phase = .sending hd a)
    {resp : Response} (he : e = .answer c (some resp) now) :
    ReflTransGen (Micro rd cfg e c) s (s.handle rd c now resp) := by
  unfold handle
  split
  · next hfirst =>
    refine .head (.reject h (by simpa using hfirst.2) he hfirst.1) (chain_request ?_ ?_)
    · rw [giveUpToken_thread_self]
    · rw [he]
      rfl
  · rcases settle resp with e | data
    · exact .single (.finish (congrArg Phase.underway h) _)
    · exact chain_deliver h data

omit [DecidableEq Call] in
/-- A fetch fails with no token stored, or stores one. -/
theorem fetchToken_cases (s : Client Call) (resp : Option Response) :
    (∃ e, s.fetchToken rd now resp = (s, some e)) ∨
      ∃ r f, resp = some r ∧ s.fetchToken rd now resp =
        (s.storeToken (r.body.get "access_token") (s.expiry rd now r), f) := by
  unfold fetchToken
  split
  · exact .inl ⟨_, rfl⟩
  · next r =>
    split
    · exact .inl ⟨_, rfl⟩
    · rcases hexp : rd.floatOf (r.body.get "expires_in" (.num 0)) with - | d
      · refine .inr ⟨r, some .typed, rfl, ?_⟩
        simp only [expiry, hexp, Option.map_none, Option.getD_none]
      · refine .inr ⟨r, none, rfl, ?_⟩
        simp only [expiry, hexp, Option.map_some, Option.getD_some]

theorem chain_fail (h : (s.thread c).phase = .running) (f : Failure) :
    Micro rd cfg e c s (s.fail c f) :=
  .finish (congrArg Phase.underway h) _

/-- **An event is a chain of small steps** of its request. -/
theorem step_chain (s : Client Call) (e : ClientEvent Call) :
    ReflTransGen (Micro rd cfg e e.caller) s (s.step rd cfg e) := by
  rcases e with ⟨c, account, now⟩ | ⟨c, now⟩ | ⟨c, resp, now⟩ | ⟨c, resp, now⟩ | c | c
  all_goals
    rcases h : (s.thread c).phase with - | - | - | - | - | ⟨hd, a⟩ | ⟨hd, a⟩ | o
    all_goals simp only [step, ClientEvent.caller, h]
    all_goals try exact .refl
  -- the cases left are those where the call is where the event needs it
  · refine .head (.call account h) (chain_request ?_ rfl)
    rw [setThread_thread_self]
  · split
    · next hwake =>
      have hfree : s.tokenLock.locked = false := by simpa using hwake.1
      refine .head (.resume h hfree hwake.2) ?_
      split
      · next hvalid =>
        refine .head (.release (by rw [move_thread_self]; rfl)) (chain_proceed ?_ rfl ?_)
        · rw [releaseToken_thread_self]
        · exact isSome_of_tokenValid hvalid
      · next hinvalid =>
        exact .single (.post (by rw [move_thread_self]) rfl (Bool.eq_false_iff.mpr hinvalid))
    · exact .refl
  -- the lock is released whether the fetch failed or not
  · rcases @fetchToken_cases _ rd now s resp with ⟨f, hfetch⟩ | ⟨r, f, rfl, hfetch⟩
    · rw [hfetch]
      exact .head (.release (by rw [h]; rfl))
        (.single (chain_fail (by rw [releaseToken_thread_self]) f))
    · rw [hfetch]
      refine .head (.store h rfl) ?_
      rcases f with - | f
      · exact chain_proceed (by rw [releaseToken_thread_self]) rfl rfl
      · exact .single (chain_fail (by rw [releaseToken_thread_self]) f)
  -- what the round comes to: another one, a failure, or an answer
  · rcases hv : verdict rd cfg a resp with d | - | r
    · refine .single (.sleep h ?_)
      unfold verdict at hv
      split at hv
      · split at hv
        · assumption
        · cases hv
      · split at hv
        · next hagain => exact hagain.2
        · cases hv
    · exact .single (.finish (congrArg Phase.underway h) _)
    · obtain rfl : resp = some r := by
        unfold verdict at hv
        split at hv
        · split at hv <;> cases hv
        · split at hv
          · cases hv
          · cases hv
            rfl
      exact chain_handle h rfl
  · exact .single (.again h)
  · exact .single (.leave h _)
  · exact .head (.release (by rw [h]; rfl))
      (.single (chain_fail (by rw [releaseToken_thread_self]) _))
  · exact .single (.finish (congrArg Phase.underway h) _)
  · exact .single (.finish (congrArg Phase.underway h) _)

end Chains

/-! ### What a small step leaves alone -/

section Keeps

variable {rd : Readers} {cfg : TossConfig} {e : ClientEvent Call}
  {s s' : Client Call} {c : Call}

omit [DecidableEq Call] in
@[simp] theorem issuedOf_append (es fs : List (Entry Call)) :
    issuedOf (es ++ fs) = issuedOf es ++ issuedOf fs := by
  induction es with
  | nil => rfl
  | cons e es ih =>
    cases e with
    | issued token => exact congrArg (token :: ·) ih
    | _ => exact ih

/-- The other requests stay where they are. -/
theorem Micro.thread_of_ne {a : Call} (h : Micro rd cfg e c s s') (ha : a ≠ c) :
    s'.thread a = s.thread a := by
  cases h with
  | found h hcaller seq =>
    show Function.update (Function.update s.thread c _) c _ a = _
    rw [Function.update_of_ne ha, Function.update_of_ne ha]
  | _ => exact Function.update_of_ne ha _ _

/-- What every small step of the events keeps, the run keeps. -/
theorem foldl_keeps {I : Client Call → Prop} {es : List (ClientEvent Call)}
    (hkeep : ∀ e ∈ es, ∀ c s s', Micro rd cfg e c s s' → I s → I s') (hI : I s) :
    I (es.foldl (step rd cfg) s) := by
  induction es generalizing s with
  | nil => exact hI
  | cons e es ih =>
    refine ih (fun e' he' => hkeep e' (List.mem_cons_of_mem e he')) ?_
    have hchain : ReflTransGen (Micro rd cfg e e.caller) s (step rd cfg s e) := step_chain s e
    generalize step rd cfg s e = s' at hchain
    induction hchain with
    | refl => exact hI
    | tail _ hmicro ihchain => exact hkeep e List.mem_cons_self _ _ _ hmicro ihchain

end Keeps

end Client

end AutoTrade.TossClient
