/-
AutoTrade/TossTokens.lean

The token that all requests of the broker's client share.

* `TokenLock` — the token lock guards the fetch of a token, and its waiters are the
  requests that wait for it;
* `Paid` — every token but the first was asked for because the one before it was
  rejected or had lapsed.
-/
import AutoTrade.TossSteps

namespace AutoTrade.TossClient

open Mutex
open TickLock (AsyncioLock)

variable {Call : Type*} [DecidableEq Call]

theorem Phase.inside_of_underway {x : Phase} (h : x.underway = true) : x.inside = false := by
  cases x with
  | running => rfl
  | sending hd a => rfl
  | sleeping hd a => rfl
  | _ => cases h

/-- Where a request stands between two events. -/
def Phase.parked : Phase → Bool
  | .running | .holding => false
  | _ => true

namespace Client

/-! ### The token lock -/


/-- The token lock guards the fetch of a token, and its waiters are the requests
that wait for it, each once. -/
structure TokenLock (lock : AsyncioLock Call) (thread : Call → Thread) : Prop where
  guards : Guards (lock.locked = true) (fun _ th => th.phase.inside = true) thread
  nodup : lock.waiters.Nodup
  waits : ∀ c, c ∈ lock.waiters ↔ (thread c).phase = .waiting

section Lock

variable {rd : Readers} {cfg : TossConfig} {e : ClientEvent Call} {s s' : Client Call} {c : Call}
  {lock lock' : AsyncioLock Call} {thread : Call → Thread} {th : Thread}

/-- The waiters are still those who wait, after `c` has moved. -/
theorem waits_update (h : ∀ a, a ∈ lock.waiters ↔ (thread a).phase = .waiting)
    (hothers : ∀ a, a ≠ c → (a ∈ lock'.waiters ↔ a ∈ lock.waiters))
    (hself : c ∈ lock'.waiters ↔ th.phase = .waiting) (a : Call) :
    a ∈ lock'.waiters ↔ (Function.update thread c th a).phase = .waiting := by
  by_cases ha : a = c
  · subst ha
    rw [Function.update_self]
    exact hself
  · rw [Function.update_of_ne ha, hothers a ha]
    exact h a

/-- A move that neither lock nor waiters notice. -/
theorem TokenLock.pass (h : TokenLock lock thread)
    (hside : th.phase.inside = (thread c).phase.inside) (hwas : (thread c).phase ≠ .waiting)
    (his : th.phase ≠ .waiting) : TokenLock lock (Function.update thread c th) where
  guards := h.guards.stay (by rw [hside]) Iff.rfl
  nodup := h.nodup
  waits := waits_update h.waits (fun _ _ => Iff.rfl)
    (iff_of_false (fun hc => hwas ((h.waits c).mp hc)) his)

theorem TokenLock.free (h : TokenLock lock thread) (hin : (thread c).phase.inside = true)
    (hout : th.phase.inside = false) (his : th.phase ≠ .waiting) :
    TokenLock lock.release (Function.update thread c th) where
  guards := h.guards.release hin (by rw [hout]; nofun) (by nofun)
  nodup := h.nodup
  waits := by
    refine waits_update h.waits (fun _ _ => Iff.rfl) (iff_of_false ?_ his)
    intro hc
    rw [(h.waits c).mp hc] at hin
    cases hin

/-- A free lock with nobody waiting is taken. -/
theorem TokenLock.take (h : TokenLock lock thread) (hfree : lock.locked = false)
    (hnobody : lock.waiters = []) (hin : th.phase = .holding) :
    TokenLock { lock with locked := true } (Function.update thread c th) where
  guards := h.guards.acquire (by rw [hfree]; nofun) (by rw [hin]; rfl) rfl
  nodup := h.nodup
  waits := by
    refine waits_update h.waits (fun _ _ => Iff.rfl) (iff_of_false ?_ (by rw [hin]; nofun))
    show c ∉ lock.waiters
    rw [hnobody]
    exact List.not_mem_nil

/-- A call that comes to a held lock waits as the last. -/
theorem TokenLock.wait (h : TokenLock lock thread) (hwas : (thread c).phase = .running)
    (his : th.phase = .waiting) :
    TokenLock { lock with waiters := lock.waiters ++ [c] } (Function.update thread c th) where
  guards := h.guards.stay (by rw [hwas, his]; rfl) Iff.rfl
  nodup := by
    rw [List.nodup_append]
    refine ⟨h.nodup, List.nodup_cons.mpr ⟨List.not_mem_nil, List.nodup_nil⟩, ?_⟩
    intro a ha b hb
    rw [List.mem_singleton.mp hb]
    rintro rfl
    rw [(h.waits a).mp ha] at hwas
    cases hwas
  waits := by
    refine waits_update h.waits (fun a ha => ?_) (iff_of_true ?_ his)
    · rw [List.mem_append, List.mem_singleton, or_iff_left ha]
    · exact List.mem_append_right _ (List.mem_singleton_self c)

/-- The first waiter takes the lock when it is free. -/
theorem TokenLock.resume (h : TokenLock lock thread) (hfree : lock.locked = false)
    (hhead : lock.waiters.head? = some c) (hin : th.phase = .holding) :
    TokenLock lock.resume (Function.update thread c th) := by
  obtain ⟨rest, hrest⟩ : ∃ rest, lock.waiters = c :: rest := List.head?_eq_some_iff.mp hhead
  have htail : lock.resume.waiters = rest := by
    show lock.waiters.tail = rest
    rw [hrest, List.tail_cons]
  have hnodup := h.nodup
  rw [hrest, List.nodup_cons] at hnodup
  refine ⟨h.guards.acquire (by rw [hfree]; nofun) (by rw [hin]; rfl) rfl, ?_, ?_⟩
  · rw [htail]
    exact hnodup.2
  · refine waits_update h.waits (fun a ha => ?_) (iff_of_false ?_ (by rw [hin]; nofun))
    · rw [htail, hrest, List.mem_cons, or_iff_right ha]
    · rw [htail]
      exact hnodup.1

/-- A waiter that is cancelled leaves the others in their order. -/
theorem TokenLock.leave (h : TokenLock lock thread) (hwas : (thread c).phase = .waiting)
    (hout : th.phase.inside = false) (his : th.phase ≠ .waiting) :
    TokenLock { lock with waiters := lock.waiters.erase c } (Function.update thread c th) where
  guards := h.guards.stay (by rw [hwas, hout]; rfl) Iff.rfl
  nodup := h.nodup.erase c
  waits := waits_update h.waits (fun _ ha => List.mem_erase_of_ne ha)
    (iff_of_false h.nodup.not_mem_erase his)

/-- Each small step keeps the lock as it should be. -/
theorem Micro.tokenLock (hm : Micro rd cfg e c s s') (h : TokenLock s.tokenLock s.thread) :
    TokenLock s'.tokenLock s'.thread := by
  cases hm with
  | call account hc => exact h.pass (by rw [hc]; rfl) (by rw [hc]; nofun) nofun
  | take hc hfree hnobody => exact h.take hfree hnobody rfl
  | wait hc => exact h.wait hc rfl
  | resume hc hfree hhead => exact h.resume hfree hhead rfl
  | release hc => exact h.free hc rfl nofun
  | post hc hnow hinvalid => exact h.pass (by rw [hc]; rfl) (by rw [hc]; nofun) nofun
  | store hc he => exact h.free (congrArg Phase.inside hc) rfl nofun
  | nest hc _ _ _ => exact h.pass (congrArg Phase.inside hc).symm (by rw [hc]; nofun) nofun
  | send hc _ _ _ _ => exact h.pass (by rw [hc]; rfl) (by rw [hc]; nofun) nofun
  | reject hc _ _ _ => exact h.pass (by rw [hc]; rfl) (by rw [hc]; nofun) nofun
  | sleep hc _ => exact h.pass (by rw [hc]; rfl) (by rw [hc]; nofun) nofun
  | again hc => exact h.pass (by rw [hc]; rfl) (by rw [hc]; nofun) nofun
  | @found hd a hc token frame _ seq =>
    have hrun : TokenLock s.tokenLock (Function.update s.thread c ⟨.running, frame, none⟩) :=
      h.pass (by rw [hc]; rfl) (by rw [hc]; nofun) nofun
    refine hrun.pass ?_ ?_ nofun
    · rw [Function.update_self]
      rfl
    · rw [Function.update_self]
      nofun
  | leave hc o => exact h.leave hc rfl nofun
  | finish hc o =>
    refine h.pass ?_ ?_ nofun
    · exact (Phase.inside_of_underway hc).symm
    · intro hwait
      rw [hwait] at hc
      cases hc

omit [DecidableEq Call] in
theorem tokenLock_start : TokenLock (start cfg : Client Call).tokenLock (start cfg).thread where
  guards := guards_empty nofun fun _ => nofun
  nodup := List.nodup_nil
  waits := fun _ => iff_of_false List.not_mem_nil nofun

/-- The lock is as it should be over every run. -/
theorem tokenLock_run {es : List (ClientEvent Call)} :
    TokenLock (run rd cfg es).tokenLock (run rd cfg es).thread :=
  foldl_keeps (I := fun s : Client Call => TokenLock s.tokenLock s.thread)
    (fun _ _ _ _ _ hm => hm.tokenLock) tokenLock_start

end Lock

/-! ### Tokens are paid for -/

section Paid

variable {rd : Readers} {cfg : TossConfig} {e : ClientEvent Call} {s s' : Client Call} {c : Call}

/-- The 401s that made the client give up its token. -/
def rejections (history : List (Entry Call)) : ℕ :=
  history.countP fun | .rejected _ => true | _ => false

/-- The tokens that were asked for while the client had one, which had lapsed. -/
def lapses (history : List (Entry Call)) : ℕ :=
  history.countP fun | .asked _ lapsed => lapsed | _ => false

/-- Every token but the first was asked for because the one before it was rejected or
had lapsed; while a fetch runs beside a token, its lapse is not yet used. -/
structure Paid (s : Client Call) : Prop where
  issued : (issuedOf s.history).length ≤
    rejections s.history + lapses s.history + if s.token.isSome then 1 else 0
  fetching : ∀ c, (s.thread c).phase = .fetching → s.token.isSome →
    (issuedOf s.history).length ≤ rejections s.history + lapses s.history

omit [DecidableEq Call] in
theorem Paid.quiet (h : Paid s) (hissued : issuedOf s'.history = issuedOf s.history)
    (hrejections : rejections s'.history = rejections s.history)
    (hlapses : lapses s'.history = lapses s.history) (htoken : s'.token = s.token)
    (hthread : ∀ a, (s'.thread a).phase = .fetching → (s.thread a).phase = .fetching) :
    Paid s' where
  issued := by
    rw [hissued, hrejections, hlapses, htoken]
    exact h.issued
  fetching := by
    intro a ha
    rw [hissued, hrejections, hlapses, htoken]
    exact h.fetching a (hthread a ha)

/-- Only the request that moves can come to fetch. -/
theorem fetching_of_update {th : Thread} (hth : th.phase ≠ .fetching) (a : Call)
    (ha : (Function.update s.thread c th a).phase = .fetching) :
    (s.thread a).phase = .fetching := by
  by_cases hac : a = c
  · subst hac
    rw [Function.update_self] at ha
    exact absurd ha hth
  · rwa [Function.update_of_ne hac] at ha

omit [DecidableEq Call] in
@[simp] theorem rejections_append (es fs : List (Entry Call)) :
    rejections (es ++ fs) = rejections es + rejections fs := List.countP_append

omit [DecidableEq Call] in
@[simp] theorem lapses_append (es fs : List (Entry Call)) :
    lapses (es ++ fs) = lapses es + lapses fs := List.countP_append

omit [DecidableEq Call] in
@[simp] theorem lapses_asked (c : Call) (lapsed : Bool) :
    lapses [.asked c lapsed] = lapsed.toNat := by
  cases lapsed <;> rfl

omit [DecidableEq Call] in
/-- A request that goes out is no token. -/
theorem Paid.sent {hd : Headers} (h : Paid s) (hhistory : s'.history = s.history ++ [.sent c hd])
    (htoken : s'.token = s.token)
    (hthread : ∀ a, (s'.thread a).phase = .fetching → (s.thread a).phase = .fetching) :
    Paid s' := by
  refine h.quiet ?_ ?_ ?_ htoken hthread
  · rw [hhistory, issuedOf_append]
    exact List.append_nil _
  · rw [hhistory, rejections_append]
    rfl
  · rw [hhistory, lapses_append]
    rfl

/-- A token that is asked for while there is one has lapsed. -/
theorem Paid.post (h : Paid s) : Paid (s.post c) := by
  have hissued : issuedOf (s.post c).history = issuedOf s.history :=
    (issuedOf_append _ _).trans (List.append_nil _)
  have hrejections : rejections (s.post c).history = rejections s.history := rejections_append _ _
  have hlapses : lapses (s.post c).history = lapses s.history + s.token.isSome.toNat :=
    (lapses_append _ _).trans (congrArg _ (lapses_asked c _))
  have hbefore := h.issued
  refine ⟨?_, fun a _ (hsome : s.token.isSome = true) => ?_⟩
  · show _ ≤ _ + if s.token.isSome then 1 else 0
    rw [hissued, hrejections, hlapses]
    omega
  · rw [hissued, hrejections, hlapses, hsome]
    rwa [hsome, if_pos rfl] at hbefore

/-- A token that comes was asked for because there was none, or it had lapsed. -/
theorem Paid.store {token : Json} {exp : FloatValue} (h : Paid s)
    (hlock : TokenLock s.tokenLock s.thread)
    (hc : (s.thread c).phase = .fetching) : Paid ((s.storeToken token exp).releaseToken c) := by
  have hissued : (issuedOf ((s.storeToken token exp).releaseToken c).history).length =
      (issuedOf s.history).length + 1 := by
    show (issuedOf (s.history ++ [.issued token])).length = _
    rw [issuedOf_append, List.length_append]
    rfl
  have hrejections : rejections ((s.storeToken token exp).releaseToken c).history =
      rejections s.history := rejections_append _ _
  have hlapses : lapses ((s.storeToken token exp).releaseToken c).history =
      lapses s.history := lapses_append _ _
  refine ⟨?_, fun a ha _ => ?_⟩
  · show _ ≤ _ + 1
    rw [hissued, hrejections, hlapses]
    have hbefore := h.issued
    rcases hsome : s.token.isSome with - | -
    · rw [hsome] at hbefore
      exact Nat.succ_le_succ hbefore
    · exact Nat.succ_le_succ (h.fetching c hc hsome)
  · -- nobody else is in a fetch
    have hfetching : (s.thread a).phase = .fetching := fetching_of_update (by nofun) a ha
    have hac : a = c := hlock.guards.unique a c (congrArg Phase.inside hfetching)
      (congrArg Phase.inside hc)
    subst hac
    rw [releaseToken_thread_self] at ha
    cases ha

/-- A 401 pays for the next token. -/
theorem Paid.reject (h : Paid s) : Paid (s.giveUpToken c) := by
  have hissued : issuedOf (s.giveUpToken c).history = issuedOf s.history :=
    (issuedOf_append _ _).trans (List.append_nil _)
  have hrejections : rejections (s.giveUpToken c).history = rejections s.history + 1 :=
    rejections_append _ _
  have hlapses : lapses (s.giveUpToken c).history = lapses s.history := lapses_append _ _
  refine ⟨?_, fun _ _ hsome => by cases hsome⟩
  show _ ≤ _ + 0
  rw [hissued, hrejections, hlapses]
  have hbefore := h.issued
  split at hbefore <;> omega

/-- Each small step keeps the account of the tokens. -/
theorem Micro.paid (hm : Micro rd cfg e c s s') (hlock : TokenLock s.tokenLock s.thread)
    (h : Paid s) : Paid s' := by
  cases hm with
  | post hc hnow hinvalid => exact h.post
  | store hc he => exact h.store hlock hc
  | reject hc hfirst he h401 => exact h.reject
  | send hc _ _ _ _ => exact h.sent rfl rfl (fetching_of_update nofun)
  | again hc => exact h.sent rfl rfl (fetching_of_update nofun)
  | found hc hcaller seq =>
    refine h.sent rfl rfl fun a ha => ?_
    exact fetching_of_update (by nofun) a (fetching_of_update (by nofun) a ha)
  | call account hc => exact h.quiet rfl rfl rfl rfl (fetching_of_update nofun)
  | take hc hfree hnobody => exact h.quiet rfl rfl rfl rfl (fetching_of_update nofun)
  | wait hc => exact h.quiet rfl rfl rfl rfl (fetching_of_update nofun)
  | resume hc hfree hhead => exact h.quiet rfl rfl rfl rfl (fetching_of_update nofun)
  | release hc => exact h.quiet rfl rfl rfl rfl (fetching_of_update nofun)
  | nest hc _ _ _ => exact h.quiet rfl rfl rfl rfl (fetching_of_update nofun)
  | sleep hc _ => exact h.quiet rfl rfl rfl rfl (fetching_of_update nofun)
  | leave hc o => exact h.quiet rfl rfl rfl rfl (fetching_of_update nofun)
  | finish hc o => exact h.quiet rfl rfl rfl rfl (fetching_of_update nofun)

end Paid

/-! ### Between two events -/

section Parked

variable {rd : Readers} {cfg : TossConfig} {s : Client Call} {c : Call} {now : ℚ}

theorem acquireToken_parked : ((s.acquireToken c).thread c).phase.parked = true := by
  rcases acquireToken_cases s with ⟨hfree, hnobody⟩ | hbusy
  · rw [acquireToken_free hfree hnobody, post_thread_self]
    rfl
  · rw [acquireToken_busy hbusy, move_thread_self]
    rfl

theorem ensureToken_parked {rest : Client Call → Client Call}
    (h : ((rest s).thread c).phase.parked = true) :
    ((s.ensureToken c now rest).thread c).phase.parked = true := by
  unfold ensureToken
  split
  · exact h
  · exact acquireToken_parked

theorem send_parked {hd : Headers} {a : ℕ} : ((s.send c hd a).thread c).phase.parked = true := by
  rw [send_thread_self]
  rfl

theorem proceed_parked : ((s.proceed c now).thread c).phase.parked = true := by
  unfold proceed
  split
  · split
    · exact send_parked
    · exact ensureToken_parked send_parked
  · exact send_parked

theorem fail_parked {f : Failure} : ((s.fail c f).thread c).phase.parked = true := by
  rw [fail, move_thread_self]
  rfl

theorem deliver_parked {data : Json} : ((s.deliver rd c data).thread c).phase.parked = true := by
  unfold deliver
  split
  · rw [move_thread_self]
    rfl
  · split
    · exact fail_parked
    · exact fail_parked
    · rw [foundAccount_thread_self]
      rfl

theorem handle_parked {resp : Response} :
    ((s.handle rd c now resp).thread c).phase.parked = true := by
  unfold handle
  split
  · exact ensureToken_parked proceed_parked
  · split
    · exact fail_parked
    · exact deliver_parked

/-- An event ends where its request is suspended, or at its end. -/
theorem step_parked (e : ClientEvent Call) (h : (s.thread e.caller).phase.parked = true) :
    ((s.step rd cfg e).thread e.caller).phase.parked = true := by
  rcases e with ⟨c, account, now⟩ | ⟨c, now⟩ | ⟨c, resp, now⟩ | ⟨c, resp, now⟩ | c | c
  all_goals
    simp only [step, ClientEvent.caller] at h ⊢
    split
    all_goals try exact h
  · exact ensureToken_parked proceed_parked
  · split
    · split
      · exact proceed_parked
      · rw [post_thread_self]
        rfl
    · exact h
  · split
    · exact proceed_parked
    · exact fail_parked
  · split
    · rw [move_thread_self]
      rfl
    · exact fail_parked
    · exact handle_parked
  · exact send_parked
  all_goals exact fail_parked

/-- The requests of the other events stay where they are. -/
theorem step_thread_of_ne {a : Call} (e : ClientEvent Call) (ha : a ≠ e.caller) :
    (s.step rd cfg e).thread a = s.thread a := by
  have hchain : Relation.ReflTransGen (Micro rd cfg e e.caller) s (step rd cfg s e) :=
    step_chain s e
  generalize step rd cfg s e = s' at hchain
  induction hchain with
  | refl => rfl
  | tail _ hmicro ih => exact (hmicro.thread_of_ne ha).trans ih

/-- Between two events every call is at a point where it waits. -/
theorem parked_run (es : List (ClientEvent Call)) (c : Call) :
    ((run rd cfg es).thread c).phase.parked = true := by
  refine Run.foldl_invariant (I := fun s : Client Call => ∀ c, (s.thread c).phase.parked = true)
    ?_ (fun _ => rfl) es c
  intro s e h a
  by_cases ha : a = e.caller
  · subst ha
    exact step_parked e (h _)
  · rw [step_thread_of_ne e ha]
    exact h a

/-- Between two events, the lock is taken exactly while a token is fetched. -/
theorem inside_iff_of_parked {x : Phase} (h : x.parked = true) :
    x.inside = true ↔ x = .fetching := by
  cases x with
  | running => cases h
  | holding => cases h
  | fetching => exact iff_of_true rfl rfl
  | _ => exact iff_of_false nofun nofun

end Parked

/-! ### The waiters go on -/

section Waiters

variable {rd : Readers} {cfg : TossConfig} {s : Client Call} {c : Call} {now : ℚ}

theorem send_sending {hd : Headers} :
    ∃ hd', ((s.send c hd 0).thread c).phase = .sending hd' 0 := by
  refine ⟨hd, ?_⟩
  rw [send_thread_self]

/-- With a valid token a request goes out, and leaves the lock alone. -/
theorem proceed_valid (hvalid : s.tokenValid now = true) :
    (∃ hd, ((s.proceed c now).thread c).phase = .sending hd 0) ∧
      (s.proceed c now).tokenLock = s.tokenLock := by
  unfold proceed
  split
  · split
    · exact ⟨send_sending, rfl⟩
    · have hstill : (s.getAccounts c).tokenValid now = true := hvalid
      unfold ensureToken
      rw [if_pos hstill]
      exact ⟨send_sending, rfl⟩
  · exact ⟨send_sending, rfl⟩

/-- The first waiter of a free lock goes on: with the token, if there is one now, and
else to fetch it. -/
theorem step_resume_head {rest : List Call} (h : TokenLock s.tokenLock s.thread)
    (hfree : s.tokenLock.locked = false) (hwaiters : s.tokenLock.waiters = c :: rest) :
    (s.step rd cfg (.resume c now)).tokenLock.waiters = rest ∧
      if s.tokenValid now = true then
        (∃ hd, ((s.step rd cfg (.resume c now)).thread c).phase = .sending hd 0) ∧
          (s.step rd cfg (.resume c now)).tokenLock.locked = false
      else ((s.step rd cfg (.resume c now)).thread c).phase = .fetching := by
  have hwaiting : (s.thread c).phase = .waiting := by
    rw [← h.waits, hwaiters]
    exact List.mem_cons_self
  have hwake : (!s.tokenLock.locked) = true ∧ s.tokenLock.waiters.head? = some c := by
    rw [hfree, hwaiters]
    exact ⟨rfl, rfl⟩
  have htail : s.tokenLock.waiters.tail = rest := by
    rw [hwaiters, List.tail_cons]
  simp only [step, hwaiting, if_pos hwake]
  by_cases hvalid : s.tokenValid now = true
  · have hheld : ((({ s with tokenLock := s.tokenLock.resume } : Client Call).move c
        .holding).tokenValid now) = true := hvalid
    rw [if_pos hheld, if_pos hvalid]
    obtain ⟨hsending, hlock⟩ := @proceed_valid _ _
      ((({ s with tokenLock := s.tokenLock.resume } : Client Call).move c .holding).releaseToken c)
      c now hvalid
    rw [hlock]
    exact ⟨htail, hsending, rfl⟩
  · have hheld : ¬ ((({ s with tokenLock := s.tokenLock.resume } : Client Call).move c
        .holding).tokenValid now) = true := hvalid
    rw [if_neg hheld, if_neg hvalid]
    refine ⟨htail, ?_⟩
    rw [post_thread_self]

/-- Behind a queue, whatever a request does leaves a free lock free, and the first
waiter first. -/
theorem proceed_behind {a : Call} (hfree : s.tokenLock.locked = false)
    (hhead : s.tokenLock.waiters.head? = some a) :
    (s.proceed c now).tokenLock.locked = false ∧
      (s.proceed c now).tokenLock.waiters.head? = some a := by
  have hqueue : s.tokenLock.waiters ≠ [] := by
    intro hnil
    rw [hnil] at hhead
    cases hhead
  unfold proceed
  split
  · split
    · exact ⟨hfree, hhead⟩
    · unfold ensureToken
      split
      · exact ⟨hfree, hhead⟩
      · have hbusy : (s.getAccounts c).tokenLock.locked = true ∨
            (s.getAccounts c).tokenLock.waiters ≠ [] := .inr hqueue
        rw [acquireToken_busy hbusy]
        refine ⟨hfree, ?_⟩
        show (s.tokenLock.waiters ++ [c]).head? = some a
        rw [List.head?_append, hhead]
        rfl
  · exact ⟨hfree, hhead⟩

/-- The end of a fetch, however it ends, leaves the lock to the first waiter. -/
theorem step_fetching_end {a : Call} (hc : (s.thread c).phase = .fetching)
    (hhead : s.tokenLock.waiters.head? = some a) {e : ClientEvent Call}
    (he : (∃ resp now, e = .fetched c resp now) ∨ e = .cancel c) :
    (s.step rd cfg e).tokenLock.locked = false ∧
      (s.step rd cfg e).tokenLock.waiters.head? = some a := by
  rcases he with ⟨resp, now, rfl⟩ | rfl
  · simp only [step, hc]
    have hlock : ((s.fetchToken rd now resp).1.releaseToken c).tokenLock = s.tokenLock.release := by
      rcases @fetchToken_cases _ rd now s resp with ⟨f, hfetch⟩ | ⟨r, f, -, hfetch⟩
      · rw [hfetch]
        rfl
      · rw [hfetch]
        rfl
    split
    · exact proceed_behind (by rw [hlock]; rfl) (by rw [hlock]; exact hhead)
    · show ((s.fetchToken rd now resp).1.releaseToken c).tokenLock.locked = false ∧ _
      rw [hlock]
      refine ⟨rfl, ?_⟩
      show ((s.fetchToken rd now resp).1.releaseToken c).tokenLock.waiters.head? = some a
      rw [hlock]
      exact hhead
  · simp only [step, hc]
    exact ⟨rfl, hhead⟩

/-- **One fetch at a time, and nobody forgotten.**  After any run of any requests: one
fetch of a token at most is under way, and the lock is taken exactly while it is; its
waiters are the requests that wait, each once; when the lock is free the first of
them goes on, and when it is taken the end of the fetch leaves it to the first. -/
theorem token_single_flight (rd : Readers) (cfg : TossConfig) (es : List (ClientEvent Call)) :
    (∀ a b, ((run rd cfg es).thread a).phase = .fetching →
        ((run rd cfg es).thread b).phase = .fetching → a = b) ∧
      ((run rd cfg es).tokenLock.locked = true ↔
        ∃ a, ((run rd cfg es).thread a).phase = .fetching) ∧
      ((run rd cfg es).tokenLock.waiters.Nodup ∧
        ∀ a, a ∈ (run rd cfg es).tokenLock.waiters ↔
          ((run rd cfg es).thread a).phase = .waiting) ∧
      (∀ a rest now, (run rd cfg es).tokenLock.locked = false →
        (run rd cfg es).tokenLock.waiters = a :: rest →
        (run rd cfg (es ++ [.resume a now])).tokenLock.waiters = rest ∧
          if (run rd cfg es).tokenValid now = true then
            (∃ hd, ((run rd cfg (es ++ [.resume a now])).thread a).phase = .sending hd 0) ∧
              (run rd cfg (es ++ [.resume a now])).tokenLock.locked = false
          else ((run rd cfg (es ++ [.resume a now])).thread a).phase = .fetching) ∧
      ∀ a first e, ((run rd cfg es).thread a).phase = .fetching →
        (run rd cfg es).tokenLock.waiters.head? = some first →
        ((∃ resp now, e = .fetched a resp now) ∨ e = .cancel a) →
        (run rd cfg (es ++ [e])).tokenLock.locked = false ∧
          (run rd cfg (es ++ [e])).tokenLock.waiters.head? = some first := by
  have hlock : TokenLock (run rd cfg es).tokenLock (run rd cfg es).thread := tokenLock_run
  have happend : ∀ e, run rd cfg (es ++ [e]) = step rd cfg (run rd cfg es) e := by
    intro e
    unfold run
    rw [List.foldl_append]
    rfl
  refine ⟨?_, ?_, ⟨hlock.nodup, hlock.waits⟩, ?_, ?_⟩
  · intro a b ha hb
    exact hlock.guards.unique a b (congrArg Phase.inside ha) (congrArg Phase.inside hb)
  · rw [hlock.guards.taken_iff]
    exact exists_congr fun a => inside_iff_of_parked (parked_run es a)
  · intro a rest now hfree hwaiters
    rw [happend]
    exact step_resume_head hlock hfree hwaiters
  · intro a first e ha hhead he
    rw [happend]
    exact step_fetching_end ha hhead he

end Waiters

/-! ### Tokens in a run -/

section Runs

variable {rd : Readers} {cfg : TossConfig} {e : ClientEvent Call} {s s' : Client Call} {c : Call}
  {last : ℚ} {es : List (ClientEvent Call)}

/-- The tokens are accounted for over every run. -/
theorem paid_run : TokenLock (run rd cfg es).tokenLock (run rd cfg es).thread ∧
    Paid (run rd cfg es) := by
  refine foldl_keeps (I := fun s : Client Call => TokenLock s.tokenLock s.thread ∧ Paid s)
    (fun _ _ _ _ _ hm h => ⟨hm.tokenLock h.1, hm.paid h.1 h.2⟩) ⟨tokenLock_start, ?_⟩
  exact ⟨Nat.zero_le _, nofun⟩

/-- Until `last`, no 401, and no token that is empty or would lapse by then. -/
structure Calm (rd : Readers) (last : ℚ) (e : ClientEvent Call) : Prop where
  clock : ∀ now, e.clock = some now → now ≤ last
  accepted : ∀ c resp now, e = .answer c (some resp) now → resp.status ≠ 401
  lasting : ∀ c resp now, e = .fetched c (some resp) now →
    (resp.body.get "access_token").truthy = true ∧
      ∃ d, rd.floatOf (resp.body.get "expires_in" (.num 0)) = some d ∧
        (FloatValue.num last).lt ((d.plus now).plus (-TOKEN_REFRESH_MARGIN_S))

/-- The token that the client has is good until `last`, and nothing went wrong yet. -/
structure Lasting (last : ℚ) (s : Client Call) : Prop where
  token : ∀ t, s.token = some t → t.truthy = true ∧
    (FloatValue.num last).lt (s.tokenExp.plus (-TOKEN_REFRESH_MARGIN_S))
  unrejected : rejections s.history = 0
  unlapsed : lapses s.history = 0

omit [DecidableEq Call] in
/-- A token that lasts is valid as long as the run. -/
theorem Lasting.valid (h : Lasting last s) {now : ℚ} (hnow : now ≤ last)
    (htoken : s.token.isSome) : s.tokenValid now = true := by
  obtain ⟨t, ht⟩ := Option.isSome_iff_exists.mp htoken
  obtain ⟨htruthy, hexp⟩ := h.token t ht
  unfold tokenValid
  rw [ht, Option.any_some, htruthy, Bool.true_and]
  exact FloatValue.lt_of_le_of_lt hnow hexp

omit [DecidableEq Call] in
/-- Nothing that goes wrong is noted. -/
theorem Lasting.note (h : Lasting last s) {entry : Entry Call}
    (htoken : ∀ t, s'.token = some t → t.truthy = true ∧
      (FloatValue.num last).lt (s'.tokenExp.plus (-TOKEN_REFRESH_MARGIN_S)))
    (hhistory : s'.history = s.history ++ [entry]) (hr : rejections [entry] = 0)
    (hl : lapses [entry] = 0) : Lasting last s' := by
  refine ⟨htoken, ?_, ?_⟩
  · rw [hhistory, rejections_append, h.unrejected, hr]
  · rw [hhistory, lapses_append, h.unlapsed, hl]

/-- In calm no token is refused and none lapses, so one serves all. -/
theorem Micro.lasting (hm : Micro rd cfg e c s s') (hcalm : Calm rd last e)
    (h : Lasting last s) : Lasting last s' := by
  cases hm with
  | @post _ now hnow hinvalid =>
    -- a token would still be valid, so there is none
    have hnone : s.token.isSome = false := by
      rcases htoken : s.token.isSome with - | -
      · rfl
      · rw [h.valid (hcalm.clock now hnow) htoken] at hinvalid
        cases hinvalid
    refine h.note h.token rfl rfl ?_
    rw [lapses_asked, hnone]
    rfl
  | @store _ resp now he =>
    obtain ⟨htruthy, d, hd, hlast⟩ := hcalm.lasting _ _ _ he
    refine h.note ?_ rfl rfl rfl
    rintro t ⟨⟩
    refine ⟨htruthy, ?_⟩
    show (FloatValue.num last).lt ((s.expiry rd now resp).plus _)
    unfold expiry
    rw [hd]
    exact hlast
  | reject hc hfirst he h401 => exact absurd h401 (hcalm.accepted _ _ _ he)
  | send hc _ _ _ _ => exact h.note h.token rfl rfl rfl
  | again hc => exact h.note h.token rfl rfl rfl
  | found hc hcaller seq => exact h.note h.token rfl rfl rfl
  | _ => exact ⟨h.token, h.unrejected, h.unlapsed⟩

/-- **A token is asked for once.**  In any run every token after the first was asked
for because a 401 had made the client give up its token, or because the token it had
was no longer valid; so while nothing like that happens, one token serves all the
requests, however many find none at the start. -/
theorem tokens_paid (rd : Readers) (cfg : TossConfig) (es : List (ClientEvent Call)) :
    (issuedOf (run rd cfg es).history).length ≤
        rejections (run rd cfg es).history + lapses (run rd cfg es).history + 1 ∧
      ∀ last, (∀ e ∈ es, Calm rd last e) → (issuedOf (run rd cfg es).history).length ≤ 1 := by
  have hpaid : (issuedOf (run rd cfg es).history).length ≤
      rejections (run rd cfg es).history + lapses (run rd cfg es).history + 1 := by
    refine paid_run.2.issued.trans (Nat.add_le_add_left ?_ _)
    split <;> omega
  refine ⟨hpaid, ?_⟩
  intro last hcalm
  have hlasting : Lasting last (run rd cfg es) :=
    foldl_keeps (fun e he _ _ _ hm => hm.lasting (hcalm e he)) ⟨nofun, rfl, rfl⟩
  rwa [hlasting.unrejected, hlasting.unlapsed] at hpaid

end Runs

end Client

namespace Sample

/-- A client whose account is known, and a network that writes no number as a text. -/
def readers : Readers where
  float := fun _ => none
  accountSeqs := fun _ => none

/-- A token for an hour. -/
def hourToken : Response where
  status := 200
  body := .obj [("access_token", .str "t"), ("expires_in", .num 3600)]

/-- Two requests that find no token: the second waits for the first one's. -/
def twoRequests : List (ClientEvent ℕ) :=
  [.call 0 false 0, .call 1 false 1, .fetched 0 (some hourToken) 2, .resume 1 3,
    .answer 0 (some ⟨200, none, .obj []⟩) 4, .answer 1 (some ⟨200, none, .obj []⟩) 5]

theorem twoRequests_calm : ∀ e ∈ twoRequests, Client.Calm readers 5 e := by
  have hlasting : (FloatValue.num 5).lt (((3600 : FloatValue).plus 2).plus
      (-TOKEN_REFRESH_MARGIN_S)) := by decide +kernel
  have hclock : ∀ e ∈ twoRequests, ∀ now, e.clock = some now → now ≤ 5 := by
    intro e he now hnow
    simp only [twoRequests, List.mem_cons, List.not_mem_nil, or_false] at he
    rcases he with rfl | rfl | rfl | rfl | rfl | rfl
    all_goals
      cases hnow
      norm_num
  intro e he
  refine ⟨hclock e he, ?_, ?_⟩
  all_goals
    rintro c resp now rfl
    simp only [twoRequests, List.mem_cons, List.not_mem_nil, or_false, reduceCtorEq, false_or,
      ClientEvent.answer.injEq, ClientEvent.fetched.injEq, Option.some.injEq] at he
  · rcases he with ⟨-, rfl, -⟩ | ⟨-, rfl, -⟩
    · decide
    · decide
  · obtain ⟨-, rfl, rfl⟩ := he
    exact ⟨rfl, 3600, rfl, hlasting⟩

end Sample

/-- One token serves both. -/
theorem tokens_paid_sample :
    (issuedOf (Client.run Sample.readers {} Sample.twoRequests).history).length = 1 := by
  refine le_antisymm ((Client.tokens_paid Sample.readers {} Sample.twoRequests).2 5
    Sample.twoRequests_calm) ?_
  decide +kernel

end AutoTrade.TossClient
