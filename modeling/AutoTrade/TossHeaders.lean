/-
AutoTrade/TossHeaders.lean

What the requests of the broker's client carry.

* `Carried` — a request goes out with a token that was issued, and with the account
  number exactly when it needs it;
* `Fresh` — after a 401 a request goes out with a token that was issued since;
* `Spent` — a request goes out a bounded number of times.
-/
import AutoTrade.TossSteps
import Mathlib.Algebra.Order.BigOperators.Group.List

namespace AutoTrade.TossClient

variable {Call : Type*} [DecidableEq Call]

namespace Client

/-! ### What a request carries -/

/-- What a request carries is in order: its token was issued; it has the account
number, once it needs it; and what waits for `get_accounts` is the first try of a
request that needs it. -/
structure Carries (cfg : TossConfig) (known : Prop) (issued : List Json) (th : Thread) : Prop where
  header : ∀ hd, th.phase.header = some hd → ∃ token ∈ issued, hd.token = some token
  account : ∀ hd, th.phase.header = some hd → (th.frame.account = true ↔ hd.account.isSome)
  outgoing : th.phase.header.isSome → th.frame.account = true → known
  retried : th.frame.account = true → th.frame.retriedAuth = true → known
  caller : ∀ token frame, th.caller = some (token, frame) →
    frame.account = true ∧ frame.retriedAuth = false ∧ th.frame.account = false ∧
      ∃ t ∈ issued, token = some t
  slept : ∀ hd a, th.phase = .sleeping hd a → a < cfg.maxRetries

section Carried

variable {rd : Readers} {cfg : TossConfig} {e : ClientEvent Call} {s s' : Client Call} {c : Call}
  {th th' : Thread}
  {known known' : Prop} {issued issued' : List Json}

theorem Carries.mono (h : Carries cfg known issued th) (hknown : known → known')
    (hissued : issued ⊆ issued') : Carries cfg known' issued' th where
  header := fun hd hhd => (h.header hd hhd).imp fun _ ht => ⟨hissued ht.1, ht.2⟩
  account := h.account
  outgoing := fun hhd hacc => hknown (h.outgoing hhd hacc)
  retried := fun hacc hre => hknown (h.retried hacc hre)
  caller := by
    intro token frame hcaller
    obtain ⟨hacc, hfirst, hplain, t, ht, rfl⟩ := h.caller token frame hcaller
    exact ⟨hacc, hfirst, hplain, t, hissued ht, rfl⟩
  slept := h.slept

/-- A request without headers has nothing to carry but its frames. -/
theorem Carries.quiet (h : Carries cfg known issued th) (hframe : th'.frame = th.frame)
    (hcaller : th'.caller = th.caller) (hheader : th'.phase.header = none) :
    Carries cfg known issued th' where
  header := by
    intro hd hhd
    rw [hheader] at hhd
    cases hhd
  account := by
    intro hd hhd
    rw [hheader] at hhd
    cases hhd
  outgoing := by
    intro hhd
    rw [hheader] at hhd
    cases hhd
  retried := by
    rw [hframe]
    exact h.retried
  caller := by
    rw [hframe, hcaller]
    exact h.caller
  slept := by
    intro hd a hphase
    rw [hphase] at hheader
    cases hheader

/-- A request that is, or stays, on its way. -/
theorem Carries.goes (h : Carries cfg known issued th) (hframe : th'.frame = th.frame)
    (hcaller : th'.caller = th.caller) {hd : Headers} (hheader : th'.phase.header = some hd)
    (htoken : ∃ token ∈ issued, hd.token = some token)
    (haccount : th.frame.account = true ↔ hd.account.isSome)
    (hknown : th.frame.account = true → known)
    (hslept : ∀ a, th'.phase = .sleeping hd a → a < cfg.maxRetries) :
    Carries cfg known issued th' where
  header := by
    intro hd' hhd'
    rw [hheader] at hhd'
    cases hhd'
    exact htoken
  account := by
    intro hd' hhd'
    rw [hheader] at hhd'
    cases hhd'
    rw [hframe]
    exact haccount
  outgoing := by
    intro _
    rw [hframe]
    exact hknown
  retried := by
    rw [hframe]
    exact h.retried
  caller := by
    rw [hframe, hcaller]
    exact h.caller
  slept := by
    intro hd' a hphase
    have hhd' := hheader
    rw [hphase] at hhd'
    cases hhd'
    exact hslept a hphase

/-- The token of the client was issued, and every request carries what it should. -/
structure Carried (cfg : TossConfig) (s : Client Call) : Prop where
  token : ∀ t, s.token = some t → t ∈ issuedOf s.history
  thread : ∀ c, Carries cfg (s.accountSeq.isSome = true) (issuedOf s.history) (s.thread c)

omit [DecidableEq Call] in
theorem Carried.some_token (h : Carried cfg s) (htoken : s.token.isSome) :
    ∃ t ∈ issuedOf s.history, s.token = some t := by
  obtain ⟨t, ht⟩ := Option.isSome_iff_exists.mp htoken
  exact ⟨t, h.token t ht, ht⟩

/-- One request moves; the account number stays known and tokens stay issued. -/
theorem Carried.step (h : Carried cfg s) (hothers : ∀ a, a ≠ c → s'.thread a = s.thread a)
    (htoken : ∀ t, s'.token = some t → t ∈ issuedOf s'.history)
    (hknown : s.accountSeq.isSome = true → s'.accountSeq.isSome = true)
    (hissued : issuedOf s.history ⊆ issuedOf s'.history)
    (hself : Carries cfg (s'.accountSeq.isSome = true) (issuedOf s'.history) (s'.thread c)) :
    Carried cfg s' where
  token := htoken
  thread := by
    intro a
    by_cases hac : a = c
    · subst hac
      exact hself
    · rw [hothers a hac]
      exact (h.thread a).mono hknown hissued

/-- A request moves, and nothing is issued and no token dropped. -/
theorem Carried.moves (h : Carried cfg s) (hothers : ∀ a, a ≠ c → s'.thread a = s.thread a)
    (htoken : s'.token = s.token)
    (hseq : s'.accountSeq = s.accountSeq) (hissued : issuedOf s'.history = issuedOf s.history)
    (hself : Carries cfg (s.accountSeq.isSome = true) (issuedOf s.history) (s'.thread c)) :
    Carried cfg s' := by
  refine h.step hothers ?_ (by rw [hseq]; exact id) (by rw [hissued]; exact fun _ => id) ?_
  · rw [htoken, hissued]
    exact h.token
  · rw [hseq, hissued]
    exact hself

omit [DecidableEq Call] in
theorem issuedOf_sent (history : List (Entry Call)) (hd : Headers) :
    issuedOf (history ++ [.sent c hd]) = issuedOf history :=
  (issuedOf_append _ _).trans (List.append_nil _)

theorem Micro.carried (hm : Micro rd cfg e c s s') (h : Carried cfg s) : Carried cfg s' := by
  have hc' := h.thread c
  have hothers : ∀ a, a ≠ c → s'.thread a = s.thread a := fun a => hm.thread_of_ne
  cases hm with
  | call account hc =>
    refine h.moves hothers rfl rfl rfl ?_
    rw [setThread_thread_self]
    exact ⟨nofun, nofun, nofun, nofun, nofun, nofun⟩
  | take hc hfree hnobody =>
    exact h.moves hothers rfl rfl rfl
      (by rw [move_thread_self]; exact hc'.quiet rfl rfl rfl)
  | wait hc =>
    exact h.moves hothers rfl rfl rfl (by rw [move_thread_self]; exact hc'.quiet rfl rfl rfl)
  | resume hc hfree hhead =>
    exact h.moves hothers rfl rfl rfl
      (by rw [move_thread_self]; exact hc'.quiet rfl rfl rfl)
  | release hc =>
    exact h.moves hothers rfl rfl rfl
      (by rw [releaseToken_thread_self]; exact hc'.quiet rfl rfl rfl)
  -- the steps before the answer to the POST leave tokens and headers alone
  | post hc hnow hinvalid =>
    refine h.moves hothers rfl rfl ((issuedOf_append _ _).trans (List.append_nil _)) ?_
    rw [post_thread_self]
    exact hc'.quiet rfl rfl rfl
  -- the new token is an issued one, and the old ones stay so
  | store hc he =>
    refine h.step hothers ?_ id ?_ ?_
    · rintro t ⟨⟩
      exact issuedOf_append s.history _ ▸ List.mem_append_right _ List.mem_cons_self
    · exact issuedOf_append s.history _ ▸ List.subset_append_left _ _
    · rw [releaseToken_thread_self]
      refine (hc'.mono id ?_).quiet rfl rfl rfl
      exact issuedOf_append s.history _ ▸ List.subset_append_left _ _
  -- the caller keeps the token of its header while it waits for the account
  | nest hc haccount hseq htoken =>
    refine h.moves hothers rfl rfl rfl ?_
    rw [getAccounts_thread_self]
    refine ⟨nofun, nofun, nofun, nofun, ?_, nofun⟩
    intro token frame hcaller
    cases hcaller
    refine ⟨haccount, ?_, rfl, h.some_token htoken⟩
    rcases hre : (s.thread c).frame.retriedAuth with - | -
    · rfl
    · have hknown := hc'.retried haccount hre
      rw [hseq] at hknown
      cases hknown
  -- the header has the account exactly when the call asks for it
  | send hc htoken account haccount hknown =>
    refine h.moves hothers rfl rfl (issuedOf_sent _ _) ?_
    rw [send_thread_self]
    refine hc'.goes rfl rfl rfl (h.some_token htoken) ?_ hknown nofun
    rw [haccount]
    constructor
    · intro hacc
      rw [if_pos hacc]
      exact hknown hacc
    · intro hsome
      by_contra hacc
      rw [if_neg hacc] at hsome
      cases hsome
  -- a call that was sent has its account, so the retry has it too
  | @reject hd a hc hfirst resp now he h401 =>
    have hheader : (s.thread c).phase.header = some hd := congrArg Phase.header hc
    refine h.step hothers nofun id ?_ ?_
    · exact fun t ht => (issuedOf_append s.history _).symm ▸ List.mem_append_left _ ht
    · have hissued : issuedOf (s.giveUpToken c).history = issuedOf s.history :=
        (issuedOf_append _ _).trans (List.append_nil _)
      rw [hissued, giveUpToken_thread_self]
      refine ⟨nofun, nofun, nofun, fun hacc _ => ?_, hc'.caller, nofun⟩
      exact hc'.outgoing (by rw [hheader]; rfl) hacc
  | @sleep hd a hc ha =>
    have hheader : (s.thread c).phase.header = some hd := congrArg Phase.header hc
    refine h.moves hothers rfl rfl rfl ?_
    rw [move_thread_self]
    refine hc'.goes rfl rfl rfl (hc'.header hd hheader) (hc'.account hd hheader)
      (hc'.outgoing (by rw [hheader]; rfl)) ?_
    intro a' hslept
    cases hslept
    exact ha
  | @again hd a hc =>
    have hheader : (s.thread c).phase.header = some hd := congrArg Phase.header hc
    refine h.moves hothers rfl rfl (issuedOf_sent _ _) ?_
    rw [send_thread_self]
    exact hc'.goes rfl rfl rfl (hc'.header hd hheader) (hc'.account hd hheader)
      (hc'.outgoing (by rw [hheader]; rfl)) nofun
  -- the account is found, and the caller goes out with the token it had
  | @found hd a hc token frame hcaller seq =>
    obtain ⟨hacc, hfirst, -, t, ht, rfl⟩ := hc'.caller token frame hcaller
    have hissued : issuedOf (s.foundAccount c seq (some t) frame).history = issuedOf s.history :=
      issuedOf_sent _ _
    refine h.step hothers ?_ (fun _ => rfl) (by rw [hissued]; exact fun _ => id) ?_
    · rw [hissued]
      exact h.token
    · rw [hissued, foundAccount_thread_self]
      refine ⟨?_, ?_, fun _ _ => rfl, fun _ _ => rfl, nofun, nofun⟩
      · rintro hd' ⟨⟩
        exact ⟨t, ht, rfl⟩
      · rintro hd' ⟨⟩
        exact iff_of_true hacc rfl
  | leave hc o =>
    exact h.moves hothers rfl rfl rfl (by rw [move_thread_self]; exact hc'.quiet rfl rfl rfl)
  | finish hc o =>
    exact h.moves hothers rfl rfl rfl
      (by rw [move_thread_self]; exact hc'.quiet rfl rfl rfl)

omit [DecidableEq Call] in
theorem carried_start : Carried cfg (start cfg : Client Call) where
  token := nofun
  thread := fun _ => ⟨nofun, nofun, nofun, nofun, nofun, nofun⟩

/-! ### After a 401 -/

/-- The token goes, stays, or is the one just issued. -/
theorem Micro.tokens (hm : Micro rd cfg e c s s') :
    ((s'.token = s.token ∨ s'.token = none) ∧ issuedOf s'.history = issuedOf s.history) ∨
      ∃ t, s'.token = some t ∧ issuedOf s'.history = issuedOf s.history ++ [t] := by
  have hquiet : ∀ e : Entry Call, issuedOf [e] = [] →
      issuedOf (s.history ++ [e]) = issuedOf s.history := by
    intro e he
    rw [issuedOf_append, he, List.append_nil]
  cases hm with
  | store hc he => exact .inr ⟨_, rfl, issuedOf_append _ _⟩
  | post hc hnow hinvalid => exact .inl ⟨.inl rfl, hquiet _ rfl⟩
  | send hc _ _ _ _ => exact .inl ⟨.inl rfl, hquiet _ rfl⟩
  | reject hc hfirst he h401 => exact .inl ⟨.inr rfl, hquiet _ rfl⟩
  | again hc => exact .inl ⟨.inl rfl, hquiet _ rfl⟩
  | found hc hcaller seq => exact .inl ⟨.inl rfl, hquiet _ rfl⟩
  | _ => exact .inl ⟨.inl rfl, rfl⟩

/-- The headers of a retry were there before, or have the client's token. -/
theorem Micro.retry_header (hm : Micro rd cfg e c s s') (h : Carried cfg s) {hd : Headers}
    (hhd : (s'.thread c).phase.header = some hd)
    (hretry : (s'.thread c).frame.retriedAuth = true) :
    ((s.thread c).phase.header = some hd ∧ (s.thread c).frame.retriedAuth = true) ∨
      hd.token = s.token := by
  cases hm with
  | send hc htoken account _ _ =>
    rw [send_thread_self] at hhd
    cases hhd
    exact .inr rfl
  | sleep hc _ =>
    rw [move_thread_self] at hhd hretry
    cases hhd
    exact .inl ⟨congrArg Phase.header hc, hretry⟩
  | again hc =>
    rw [send_thread_self] at hhd hretry
    cases hhd
    exact .inl ⟨congrArg Phase.header hc, hretry⟩
  | found hc hcaller seq =>
    rw [foundAccount_thread_self] at hretry
    have hfirst := ((h.thread c).caller _ _ hcaller).2.1
    rw [hretry] at hfirst
    cases hfirst
  | call _ hc =>
    rw [setThread_thread_self] at hhd
    cases hhd
  | release hc =>
    rw [releaseToken_thread_self] at hhd
    cases hhd
  | post hc hnow hinvalid =>
    rw [post_thread_self] at hhd
    cases hhd
  | store hc he =>
    rw [releaseToken_thread_self] at hhd
    cases hhd
  | nest hc _ _ _ =>
    rw [getAccounts_thread_self] at hhd
    cases hhd
  | reject hc _ _ _ =>
    rw [giveUpToken_thread_self] at hhd
    cases hhd
  | _ =>
    rw [move_thread_self] at hhd
    cases hhd

/-- Past the first `n` tokens: the client's token, and the one that a retry of `c`
carries. -/
structure Fresh (n : ℕ) (c : Call) (s : Client Call) : Prop where
  le : n ≤ (issuedOf s.history).length
  token : ∀ t, s.token = some t → t ∈ (issuedOf s.history).drop n
  header : (s.thread c).frame.retriedAuth = true → ∀ hd, (s.thread c).phase.header = some hd →
    ∃ t ∈ (issuedOf s.history).drop n, hd.token = some t

theorem Micro.fresh {a : Call} {n : ℕ} (hm : Micro rd cfg e a s s') (hcarried : Carried cfg s)
    (h : Fresh n c s) : Fresh n c s' := by
  have hsub : (issuedOf s.history).drop n ⊆ (issuedOf s'.history).drop n := by
    rcases hm.tokens with ⟨-, hissued⟩ | ⟨t, -, hissued⟩
    · rw [hissued]
      exact fun _ => id
    · rw [hissued, List.drop_append_of_le_length h.le]
      exact List.subset_append_left _ _
  refine ⟨?_, ?_, ?_⟩
  · rcases hm.tokens with ⟨-, hissued⟩ | ⟨t, -, hissued⟩
    · rw [hissued]
      exact h.le
    · rw [hissued, List.length_append]
      exact Nat.le_add_right_of_le h.le
  · intro t ht
    rcases hm.tokens with ⟨hsame | hnone, -⟩ | ⟨t', ht', hissued⟩
    · exact hsub (h.token t (hsame ▸ ht))
    · rw [hnone] at ht
      cases ht
    · rw [ht'] at ht
      cases ht
      rw [hissued, List.drop_append_of_le_length h.le]
      exact List.mem_append_right _ List.mem_cons_self
  · intro hretry hd hhd
    by_cases hac : c = a
    · subst hac
      rcases hm.retry_header hcarried hhd hretry with ⟨hhd', hretry'⟩ | htoken
      · exact (h.header hretry' hd hhd').imp fun _ ht => ⟨hsub ht.1, ht.2⟩
      · -- a retry that goes out now has the client's token
        have hissued : ∃ t, s.token = some t := by
          obtain ⟨t, -, ht⟩ := ((hm.carried hcarried).thread c).header hd hhd
          exact ⟨t, htoken ▸ ht⟩
        obtain ⟨t, ht⟩ := hissued
        exact ⟨t, hsub (h.token t ht), htoken.trans ht⟩
    · rw [hm.thread_of_ne hac] at hretry hhd
      exact (h.header hretry hd hhd).imp fun _ ht => ⟨hsub ht.1, ht.2⟩

/-- Right after a 401 there is no token, and the retry has none. -/
theorem fresh_giveUpToken :
    Fresh (issuedOf s.history).length c (s.giveUpToken c) where
  le := by
    show _ ≤ (issuedOf (s.history ++ _)).length
    rw [issuedOf_append, List.length_append]
    exact Nat.le_add_right _ _
  token := nofun
  header := by
    intro _ hd hhd
    rw [giveUpToken_thread_self] at hhd
    cases hhd

/-! ### How often a request goes out -/

/-- The rounds of `c` over the wire. -/
def sentBy (c : Call) (history : List (Entry Call)) : ℕ :=
  history.countP fun | .sent a _ => a = c | _ => false

/-- The account number, once there, stays. -/
theorem Micro.accountSeq_isSome (hm : Micro rd cfg e c s s') (h : s.accountSeq.isSome = true) :
    s'.accountSeq.isSome = true := by
  cases hm with
  | found _ _ _ => rfl
  | _ => exact h

theorem sentBy_note (history : List (Entry Call)) (e : Entry Call) :
    sentBy c (history ++ [e]) = sentBy c history + sentBy c [e] := List.countP_append

@[simp] theorem sentBy_sent (hd : Headers) : sentBy c [Entry.sent c hd] = 1 := by
  simp [sentBy]

theorem sentBy_sent_of_ne {a : Call} (ha : c ≠ a) (hd : Headers) :
    sentBy c [Entry.sent a hd] = 0 := by
  simp [sentBy, Ne.symm ha]

/-- Other requests do not go out for `c`. -/
theorem Micro.sentBy_of_ne {a : Call} (hm : Micro rd cfg e a s s') (ha : c ≠ a) :
    sentBy c s'.history = sentBy c s.history := by
  cases hm with
  | post _ _ _ => exact sentBy_note _ _
  | store _ _ => exact sentBy_note _ _
  | reject _ _ _ _ => exact sentBy_note _ _
  | send _ _ _ _ _ => exact (sentBy_note _ _).trans (congrArg _ (sentBy_sent_of_ne ha _))
  | again _ => exact (sentBy_note _ _).trans (congrArg _ (sentBy_sent_of_ne ha _))
  | found _ _ _ => exact (sentBy_note _ _).trans (congrArg _ (sentBy_sent_of_ne ha _))
  | _ => rfl

end Carried

end Client

/-- Before the first round of a `_request`. -/
def Phase.early : Phase → Bool
  | .sending _ _ | .sleeping _ _ | .done _ => false
  | _ => true

theorem Phase.early_of_inside {x : Phase} (h : x.inside = true) : x.early = true := by
  cases x with
  | holding => rfl
  | fetching => rfl
  | _ => cases h

/-- The retries after a 401 that a `_request` has left. -/
def Frame.retries (f : Frame) : ℕ := if f.retriedAuth then 0 else 1

/-- How often the innermost `_request` may still go out, and the `get_accounts` it may
need, with `rounds` for one try. -/
def Thread.ownBudget (rounds : ℕ) (known : Bool) (th : Thread) : ℕ :=
  match th.phase with
  | .sending _ a | .sleeping _ a => (rounds - 1 - a) + th.frame.retries * rounds
  | .done _ => 0
  | _ =>
    (th.frame.retries + 1) * rounds +
      if th.frame.account = true ∧ known = false then 2 * rounds else 0

/-- How often a request may still go out. -/
def Thread.budget (rounds : ℕ) (known : Bool) (th : Thread) : ℕ :=
  th.ownBudget rounds known + th.caller.elim 0 fun caller => (caller.2.retries + 1) * rounds

/-- Whether the request, or the one that waits for it, needs the account number. -/
def Thread.needsAccount (th : Thread) : Bool :=
  th.caller.elim th.frame.account fun caller => caller.2.account

theorem Thread.ownBudget_early {rounds : ℕ} {known : Bool} {th : Thread}
    (h : th.phase.early = true) : th.ownBudget rounds known =
      (th.frame.retries + 1) * rounds +
        if th.frame.account = true ∧ known = false then 2 * rounds else 0 := by
  obtain ⟨phase, frame, caller⟩ := th
  cases phase with
  | sending hd a => cases h
  | sleeping hd a => cases h
  | done o => cases h
  | _ => rfl

/-- Until the first round, a move changes nothing that counts. -/
theorem Thread.budget_early {rounds : ℕ} {known : Bool} {th : Thread} {x : Phase}
    (h : th.phase.early = true) (hx : x.early = true) :
    ({ th with phase := x } : Thread).budget rounds known = th.budget rounds known := by
  rw [budget, budget, ownBudget_early h, ownBudget_early hx]

theorem Thread.budget_done {rounds : ℕ} {known : Bool} {th : Thread} {o : Outcome} :
    ({ th with phase := .done o } : Thread).budget rounds known ≤ th.budget rounds known :=
  Nat.add_le_add_right (Nat.zero_le _) _

theorem Thread.budget_known {rounds : ℕ} {known known' : Bool} {th : Thread}
    (h : known = true → known' = true) : th.budget rounds known' ≤ th.budget rounds known := by
  refine Nat.add_le_add_right ?_ _
  unfold ownBudget
  split
  · exact le_rfl
  · exact le_rfl
  · exact le_rfl
  · refine Nat.add_le_add_left ?_ _
    rcases known with - | -
    · split
      · next hacc => exact (if_pos ⟨hacc.1, rfl⟩).ge
      · exact Nat.zero_le _
    · rw [h rfl]

namespace Client

section Spent

variable {rd : Readers} {cfg : TossConfig} {e : ClientEvent Call} {s s' : Client Call} {c : Call}

/-- What `c` sent, with what it may still send. -/
def committed (cfg : TossConfig) (c : Call) (s : Client Call) : ℕ :=
  sentBy c s.history + (s.thread c).budget (cfg.maxRetries + 1) s.accountSeq.isSome

/-- How often a request goes out at most. -/
def limit (cfg : TossConfig) (th : Thread) : ℕ :=
  (if th.needsAccount = true ∧ cfg.accountSeq = none then 4 else 2) * (cfg.maxRetries + 1)

/-- A move before the first round, or to the end. -/
theorem committed_move {x : Phase} (hsent : sentBy c s'.history = sentBy c s.history)
    (hseq : s'.accountSeq = s.accountSeq) (hth : s'.thread c = { s.thread c with phase := x })
    (hx : ((s.thread c).phase.early = true ∧ x.early = true) ∨ ∃ o, x = .done o) :
    committed cfg c s' ≤ committed cfg c s ∧
      (s'.thread c).needsAccount = (s.thread c).needsAccount := by
  unfold committed
  rw [hsent, hseq, hth]
  refine ⟨Nat.add_le_add_left ?_ _, rfl⟩
  rcases hx with ⟨hwas, his⟩ | ⟨o, rfl⟩
  · exact (Thread.budget_early hwas his).le
  · exact Thread.budget_done

/-- A small step sends no more than it gives up. -/
theorem Micro.committed_le (hm : Micro rd cfg e c s s') (hcarried : Carried cfg s)
    (hidle : (s.thread c).phase ≠ .idle) :
    committed cfg c s' ≤ committed cfg c s ∧
      (s'.thread c).needsAccount = (s.thread c).needsAccount := by
  have hc' := hcarried.thread c
  cases hm with
  | call account hc => exact absurd hc hidle
  | take hc hfree hnobody =>
    exact committed_move rfl rfl move_thread_self (.inl ⟨congrArg Phase.early hc, rfl⟩)
  | wait hc => exact committed_move rfl rfl move_thread_self (.inl ⟨congrArg Phase.early hc, rfl⟩)
  | resume hc hfree hhead =>
    exact committed_move rfl rfl move_thread_self (.inl ⟨congrArg Phase.early hc, rfl⟩)
  | release hc =>
    exact committed_move rfl rfl releaseToken_thread_self (.inl ⟨Phase.early_of_inside hc, rfl⟩)
  | post hc hnow hinvalid =>
    exact committed_move (sentBy_note _ _) rfl post_thread_self
      (.inl ⟨congrArg Phase.early hc, rfl⟩)
  | store hc he =>
    exact committed_move (sentBy_note _ _) rfl releaseToken_thread_self
      (.inl ⟨congrArg Phase.early hc, rfl⟩)
  | leave hc o => exact committed_move rfl rfl move_thread_self (.inr ⟨o, rfl⟩)
  | finish hc o => exact committed_move rfl rfl move_thread_self (.inr ⟨o, rfl⟩)
  -- the rounds of the search for the account are set aside from the start
  | nest hc haccount hseq htoken =>
    have hcaller : (s.thread c).caller = none := by
      by_contra hsome
      obtain ⟨⟨token, frame⟩, hcaller⟩ := Option.ne_none_iff_exists'.mp hsome
      have hplain := (hc'.caller token frame hcaller).2.2.1
      rw [haccount] at hplain
      cases hplain
    unfold committed
    rw [getAccounts_thread_self]
    refine ⟨Nat.add_le_add_left ?_ _, ?_⟩
    · show Thread.budget _ s.accountSeq.isSome _ ≤ _
      unfold Thread.budget
      rw [Thread.ownBudget_early (congrArg Phase.early hc), Thread.ownBudget_early rfl, hcaller,
        hseq, haccount]
      simp only [Frame.retries, Option.elim, Option.isSome_none, and_self, if_true,
        Bool.false_eq_true, false_and, if_false]
      omega
    · show (s.thread c).frame.account = _
      unfold Thread.needsAccount
      rw [hcaller]
      rfl
  -- the first try of a round: the rest of the round is what is left of it
  | send hc htoken account haccount hknown =>
    unfold committed
    rw [send_thread_self]
    refine ⟨?_, rfl⟩
    show sentBy c (s.history ++ _) + Thread.budget _ s.accountSeq.isSome _ ≤ _
    rw [sentBy_note, sentBy_sent]
    unfold Thread.budget
    rw [Thread.ownBudget_early (congrArg Phase.early hc)]
    simp only [Thread.ownBudget]
    have hround : ((s.thread c).frame.retries + 1) * (cfg.maxRetries + 1) =
        (s.thread c).frame.retries * (cfg.maxRetries + 1) + (cfg.maxRetries + 1) :=
      Nat.succ_mul _ _
    omega
  -- the one round for a new token is set aside as well
  | @reject hd a hc hfirst resp now he h401 =>
    have hknown : (s.thread c).frame.account = true → s.accountSeq.isSome = true :=
      hc'.outgoing (congrArg (fun x => (Phase.header x).isSome) hc)
    unfold committed
    rw [giveUpToken_thread_self]
    refine ⟨?_, ?_⟩
    · show sentBy c (s.history ++ _) + Thread.budget _ s.accountSeq.isSome _ ≤ _
      rw [sentBy_note]
      refine Nat.add_le_add_left (Nat.add_le_add_right ?_ _) _
      rw [Thread.ownBudget_early rfl]
      simp only [Thread.ownBudget, hc, Frame.retries, hfirst]
      have hno : ¬ ((s.thread c).frame.account = true ∧ s.accountSeq.isSome = false) := by
        rintro ⟨hacc, hnone⟩
        rw [hknown hacc] at hnone
        cases hnone
      rw [if_neg hno]
      simp only [if_true, Bool.false_eq_true, if_false]
      omega
    · rfl
  | @sleep hd a hc ha =>
    unfold committed
    rw [move_thread_self]
    refine ⟨Nat.add_le_add_left (Nat.add_le_add_right ?_ _) _, rfl⟩
    simp only [Thread.ownBudget, hc]
    exact le_rfl
  -- one more try within the round
  | @again hd a hc =>
    have ha : a < cfg.maxRetries := hc'.slept hd a hc
    unfold committed
    rw [send_thread_self]
    refine ⟨?_, rfl⟩
    show sentBy c (s.history ++ _) + Thread.budget _ s.accountSeq.isSome _ ≤ _
    rw [sentBy_note, sentBy_sent]
    simp only [Thread.budget, Thread.ownBudget, hc]
    omega
  | @found hd a hc token frame hcaller seq =>
    unfold committed
    rw [foundAccount_thread_self]
    refine ⟨?_, ?_⟩
    · show sentBy c (s.history ++ _) + Thread.budget _ true _ ≤ _
      rw [sentBy_note, sentBy_sent]
      simp only [Thread.budget, Thread.ownBudget, hc, hcaller, Option.elim]
      have hround : (frame.retries + 1) * (cfg.maxRetries + 1) =
          frame.retries * (cfg.maxRetries + 1) + (cfg.maxRetries + 1) := Nat.succ_mul _ _
      omega
    · unfold Thread.needsAccount
      rw [hcaller]
      rfl

/-- What `c` sent, and what it may still send, is within its limit. -/
structure Spent (cfg : TossConfig) (c : Call) (s : Client Call) : Prop where
  known : cfg.accountSeq.isSome = true → s.accountSeq.isSome = true
  idle : (s.thread c).phase = .idle → sentBy c s.history = 0
  within : (s.thread c).phase ≠ .idle → committed cfg c s ≤ limit cfg (s.thread c)

/-- Nobody goes back to where it has not begun. -/
theorem Micro.ne_idle (hm : Micro rd cfg e c s s') : (s'.thread c).phase ≠ .idle := by
  cases hm with
  | call account hc => rw [setThread_thread_self]; nofun
  | release hc => rw [releaseToken_thread_self]; nofun
  | post hc hnow hinvalid => rw [post_thread_self]; nofun
  | store hc he => rw [releaseToken_thread_self]; nofun
  | nest hc _ _ _ => rw [getAccounts_thread_self]; nofun
  | send hc _ _ _ _ => rw [send_thread_self]; nofun
  | reject hc _ _ _ => rw [giveUpToken_thread_self]; nofun
  | again hc => rw [send_thread_self]; nofun
  | found hc hcaller seq => rw [foundAccount_thread_self]; nofun
  | _ => rw [move_thread_self]; nofun

/-- A request that begins is called. -/
theorem Micro.call_of_idle (hm : Micro rd cfg e c s s') (hidle : (s.thread c).phase = .idle) :
    ∃ account, s' = s.setThread c ⟨.running, ⟨account, false⟩, none⟩ := by
  cases hm with
  | call account hc => exact ⟨account, rfl⟩
  | release hc => rw [hidle] at hc; cases hc
  | finish hc o => rw [hidle] at hc; cases hc
  | take hc _ _ => rw [hidle] at hc; cases hc
  | wait hc => rw [hidle] at hc; cases hc
  | resume hc _ _ => rw [hidle] at hc; cases hc
  | post hc hnow hinvalid => rw [hidle] at hc; cases hc
  | store hc _ => rw [hidle] at hc; cases hc
  | nest hc _ _ _ => rw [hidle] at hc; cases hc
  | send hc _ _ _ _ => rw [hidle] at hc; cases hc
  | reject hc _ _ _ => rw [hidle] at hc; cases hc
  | sleep hc _ => rw [hidle] at hc; cases hc
  | again hc => rw [hidle] at hc; cases hc
  | found hc _ _ => rw [hidle] at hc; cases hc
  | leave hc _ => rw [hidle] at hc; cases hc

theorem budget_call {rounds : ℕ} {known account : Bool} :
    Thread.budget rounds known ⟨.running, ⟨account, false⟩, none⟩ =
      2 * rounds + if account = true ∧ known = false then 2 * rounds else 0 := by
  unfold Thread.budget
  rw [Thread.ownBudget_early rfl]
  rfl

/-- A request that begins may go out as often as its limit says. -/
theorem Spent.call (h : Spent cfg c s) (hidle : (s.thread c).phase = .idle) (account : Bool) :
    committed cfg c (s.setThread c ⟨.running, ⟨account, false⟩, none⟩) ≤
      limit cfg ⟨.running, ⟨account, false⟩, none⟩ := by
  unfold committed
  rw [setThread_thread_self]
  show sentBy c s.history + Thread.budget _ s.accountSeq.isSome _ ≤
    (if account = true ∧ cfg.accountSeq = none then 4 else 2) * (cfg.maxRetries + 1)
  rw [h.idle hidle, Nat.zero_add, budget_call]
  by_cases hneeds : account = true ∧ s.accountSeq.isSome = false
  · have hnone : cfg.accountSeq = none := by
      by_contra hsome
      have hknown := h.known (Option.isSome_iff_ne_none.mpr hsome)
      rw [hneeds.2] at hknown
      cases hknown
    rw [if_pos hneeds, if_pos ⟨hneeds.1, hnone⟩]
    omega
  · rw [if_neg hneeds, Nat.add_zero]
    refine Nat.mul_le_mul_right _ ?_
    split <;> omega

theorem Micro.spent {a : Call} (hm : Micro rd cfg e a s s') (hcarried : Carried cfg s)
    (h : Spent cfg c s) : Spent cfg c s' := by
  refine ⟨fun hcfg => hm.accountSeq_isSome (h.known hcfg), ?_, ?_⟩
  · intro hidle
    by_cases hca : c = a
    · subst hca
      exact absurd hidle hm.ne_idle
    · rw [hm.thread_of_ne hca] at hidle
      rw [hm.sentBy_of_ne hca]
      exact h.idle hidle
  · intro hidle
    by_cases hca : c = a
    · subst hca
      by_cases hwas : (s.thread c).phase = .idle
      · obtain ⟨account, rfl⟩ := hm.call_of_idle hwas
        rw [setThread_thread_self]
        exact h.call hwas account
      · obtain ⟨hle, hneeds⟩ := hm.committed_le hcarried hwas
        have hlimit : limit cfg (s'.thread c) = limit cfg (s.thread c) := by
          unfold limit
          rw [hneeds]
        rw [hlimit]
        exact hle.trans (h.within hwas)
    · rw [hm.thread_of_ne hca] at hidle ⊢
      refine le_trans ?_ (h.within hidle)
      unfold committed
      rw [hm.thread_of_ne hca, hm.sentBy_of_ne hca]
      exact Nat.add_le_add_left (Thread.budget_known hm.accountSeq_isSome) _

theorem spent_start : Spent cfg c (start cfg) where
  known := id
  idle := fun _ => rfl
  within := fun hidle => absurd rfl hidle

end Spent

/-! ### In every run -/

section Runs

variable {rd : Readers} {cfg : TossConfig} {e : ClientEvent Call} {s s' : Client Call} {c : Call}
  {es fs : List (ClientEvent Call)}

theorem carried_run : Carried cfg (run rd cfg es) :=
  foldl_keeps (fun _ _ _ _ _ hm => hm.carried) carried_start

/-- Tokens come one after the other. -/
theorem issued_grows : issuedOf s.history <+: issuedOf (fs.foldl (step rd cfg) s).history := by
  refine foldl_keeps (I := fun s' : Client Call => issuedOf s.history <+: issuedOf s'.history) ?_
    (List.prefix_refl _)
  intro e _ c s₁ s₂ hm h
  rcases hm.tokens with ⟨-, hissued⟩ | ⟨t, -, hissued⟩
  · rwa [hissued]
  · rw [hissued]
    exact h.trans (List.prefix_append _ _)

/-- From a 401 on, the retry has tokens that were issued since. -/
theorem fresh_after_401 {hd : Headers} {a : ℕ} {resp : Response} {now : ℚ}
    (hcarried : Carried cfg s) (hsending : (s.thread c).phase = .sending hd a)
    (hfirst : (s.thread c).frame.retriedAuth = false) (h401 : resp.status = 401) :
    Fresh (issuedOf s.history).length c
      ((.answer c (some resp) now :: fs).foldl (step rd cfg) s) := by
  have hverdict : verdict rd cfg a (some resp) = .answers resp := by
    refine if_neg fun h => ?_
    have hno : (401 : ℕ) ∉ RETRYABLE_STATUS := by decide
    exact hno (h401 ▸ h.1)
  have hstep : s.step rd cfg (.answer c (some resp) now) = (s.giveUpToken c).request c now := by
    have hgive : resp.status = 401 ∧ (!(s.thread c).frame.retriedAuth) = true := by
      rw [hfirst]
      exact ⟨h401, rfl⟩
    simp only [step, hsending, hverdict]
    exact if_pos hgive
  have hreject : Micro rd cfg (.answer c (some resp) now) c s (s.giveUpToken c) :=
    .reject hsending hfirst rfl h401
  have hboth : Carried cfg ((.answer c (some resp) now :: fs).foldl (step rd cfg) s) ∧
      Fresh (issuedOf s.history).length c
        ((.answer c (some resp) now :: fs).foldl (step rd cfg) s) := by
    rw [List.foldl_cons, hstep]
    refine foldl_keeps (I := fun s' => Carried cfg s' ∧ Fresh (issuedOf s.history).length c s')
      (fun _ _ _ _ _ hm h => ⟨hm.carried h.1, hm.fresh h.1 h.2⟩) ?_
    -- the rest of the event runs on the state without a token
    have hchain : Relation.ReflTransGen (Micro rd cfg (.answer c (some resp) now) c)
        (s.giveUpToken c) ((s.giveUpToken c).request c now) :=
      chain_request (by rw [giveUpToken_thread_self]) rfl
    generalize (s.giveUpToken c).request c now = s' at hchain
    induction hchain with
    | refl => exact ⟨hreject.carried hcarried, fresh_giveUpToken⟩
    | tail _ hm ih => exact ⟨hm.carried ih.1, hm.fresh ih.1 ih.2⟩
  exact hboth.2

/-- **A retry has a new token.**  When a request is answered 401 on its first try,
then whatever else happens, its retry goes out only with a token that was issued
after that answer; where no token is issued twice, not with the one refused. -/
theorem retry_token_new (rd : Readers) (cfg : TossConfig) (es fs : List (ClientEvent Call))
    (c : Call) (hd hd' : Headers) (a : ℕ) (resp : Response) (now : ℚ)
    (hsending : ((run rd cfg es).thread c).phase = .sending hd a)
    (hfirst : ((run rd cfg es).thread c).frame.retriedAuth = false) (h401 : resp.status = 401)
    (hretry : ((run rd cfg (es ++ .answer c (some resp) now :: fs)).thread c).frame.retriedAuth =
      true)
    (hhd' : ((run rd cfg (es ++ .answer c (some resp) now :: fs)).thread c).phase.header =
      some hd') :
    (∃ t ∈ (issuedOf (run rd cfg (es ++ .answer c (some resp) now :: fs)).history).drop
        (issuedOf (run rd cfg es).history).length, hd'.token = some t) ∧
      ((issuedOf (run rd cfg (es ++ .answer c (some resp) now :: fs)).history).Nodup →
        hd'.token ≠ hd.token) := by
  have happend : run rd cfg (es ++ .answer c (some resp) now :: fs) =
      (.answer c (some resp) now :: fs).foldl (step rd cfg) (run rd cfg es) := List.foldl_append
  have hcarried : Carried cfg (run rd cfg es) := carried_run
  have hfresh : Fresh (issuedOf (run rd cfg es).history).length c
      (run rd cfg (es ++ .answer c (some resp) now :: fs)) := by
    rw [happend]
    exact fresh_after_401 hcarried hsending hfirst h401
  obtain ⟨t, ht, htoken⟩ := hfresh.header hretry hd' hhd'
  refine ⟨⟨t, ht, htoken⟩, ?_⟩
  intro hnodup hsame
  -- the token refused was issued before, the new one after
  obtain ⟨t', ht', htoken'⟩ := (hcarried.thread c).header hd (congrArg Phase.header hsending)
  have heq : t' = t := by
    rw [htoken, htoken'] at hsame
    exact (Option.some.inj hsame).symm
  subst heq
  have hgrows : issuedOf (run rd cfg es).history <+:
      issuedOf (run rd cfg (es ++ .answer c (some resp) now :: fs)).history := by
    rw [happend]
    exact issued_grows
  rw [List.prefix_iff_eq_take.mp hgrows] at ht'
  exact List.disjoint_take_drop hnodup le_rfl ht' ht

/-- The answer to a POST for a token. -/
def tokenAnswer (text : String) : Response where
  status := 200
  body := .obj [("access_token", .str text), ("expires_in", .num 1000)]

/-- A request that is sent with the token `a`, refused, and sent again with `b`. -/
theorem retry_token_new_reissued :
    (∃ t ∈ (issuedOf (run ⟨fun _ => none, fun _ => none⟩ {}
        ([.call () false 0, .fetched () (some (tokenAnswer "a")) 0] ++
          .answer () (some ⟨401, none, .null⟩) 1 ::
            [.fetched () (some (tokenAnswer "b")) 1])).history).drop
        (issuedOf (run ⟨fun _ => none, fun _ => none⟩ {}
          [.call () false 0, .fetched () (some (tokenAnswer "a")) 0]).history).length,
        (⟨some (.str "b"), none⟩ : Headers).token = some t) ∧
      ((issuedOf (run ⟨fun _ => none, fun _ => none⟩ {}
        ([.call () false 0, .fetched () (some (tokenAnswer "a")) 0] ++
          .answer () (some ⟨401, none, .null⟩) 1 ::
            [.fetched () (some (tokenAnswer "b")) 1])).history).Nodup →
        (⟨some (.str "b"), none⟩ : Headers).token ≠ (⟨some (.str "a"), none⟩ : Headers).token) :=
  retry_token_new ⟨fun _ => none, fun _ => none⟩ {}
    [.call () false 0, .fetched () (some (tokenAnswer "a")) 0]
    [.fetched () (some (tokenAnswer "b")) 1] () ⟨some (.str "a"), none⟩ ⟨some (.str "b"), none⟩ 0
    ⟨401, none, .null⟩ 1 rfl rfl rfl rfl rfl

/-- **What goes out.**  In every run every request that is on its way carries a token
that was issued, and the account number exactly when it needs it; and it has been sent
`maxRetries + 1` times for each of its tries: two, and two more where it first has to
find the account number. -/
theorem requests_bounded (rd : Readers) (cfg : TossConfig) (es : List (ClientEvent Call))
    (c : Call) :
    (∀ hd, ((run rd cfg es).thread c).phase.header = some hd →
        (∃ t ∈ issuedOf (run rd cfg es).history, hd.token = some t) ∧
          (((run rd cfg es).thread c).frame.account = true ↔ hd.account.isSome)) ∧
      sentBy c (run rd cfg es).history ≤ limit cfg ((run rd cfg es).thread c) := by
  have hboth : Carried cfg (run rd cfg es) ∧ Spent cfg c (run rd cfg es) :=
    foldl_keeps (I := fun s => Carried cfg s ∧ Spent cfg c s)
      (fun _ _ _ _ _ hm h => ⟨hm.carried h.1, hm.spent h.1 h.2⟩) ⟨carried_start, spent_start⟩
  obtain ⟨hcarried, hspent⟩ := hboth
  refine ⟨fun hd hhd => ?_, ?_⟩
  · exact ⟨(hcarried.thread c).header hd hhd, (hcarried.thread c).account hd hhd⟩
  · by_cases hidle : ((run rd cfg es).thread c).phase = .idle
    · rw [hspent.idle hidle]
      exact Nat.zero_le _
    · exact (Nat.le_add_right _ _).trans (hspent.within hidle)

end Runs

end Client

/-! ### One try -/

section Tries

variable {rd : Readers} {cfg : TossConfig} {net : ℕ → Option Response}

/-- An answer that `_send_with_retry` tries again. -/
def transient : Option Response → Bool
  | none => true
  | some resp => resp.status ∈ RETRYABLE_STATUS

/-- What `_send_with_retry` makes of the answer it ends with. -/
def outcomeOf : Option Response → Except Failure Response
  | none => .error .transport
  | some resp => .ok resp

/-- The longest sleep between two rounds. -/
def maxDelay (cfg : TossConfig) : ℚ := max MAX_RETRY_AFTER_S (1 / 2 * 2 ^ cfg.maxRetries)

/-- An answer whose `Retry-After` reads as NaN. -/
def ReadsNan (rd : Readers) (answer : Option Response) : Prop :=
  ∃ resp text, answer = some resp ∧ resp.retryAfter = some text ∧ rd.float text = some .nan

theorem backoff_le {base : ℚ} {attempt : ℕ} (hbase : base ≤ 1 / 2)
    (h : attempt < cfg.maxRetries) :
    (FloatValue.num (base * 2 ^ attempt)).le (.num (maxDelay cfg)) := by
  have hpow : (2 : ℚ) ^ attempt ≤ 2 ^ cfg.maxRetries := pow_le_pow_right₀ (by norm_num) h.le
  have hpos : (0 : ℚ) ≤ 2 ^ attempt := by positivity
  rw [FloatValue.le_num, decide_eq_true_iff]
  calc base * 2 ^ attempt ≤ 1 / 2 * 2 ^ attempt := mul_le_mul_of_nonneg_right hbase hpos
    _ ≤ 1 / 2 * 2 ^ cfg.maxRetries := by linarith
    _ ≤ maxDelay cfg := le_max_right _ _

theorem retryDelay_le {resp : Response} {attempt : ℕ} (h : attempt < cfg.maxRetries) :
    (retryDelay rd resp attempt).le (.num (maxDelay cfg)) ∨
      retryDelay rd resp attempt = .nan ∧ ReadsNan rd (some resp) := by
  have hbackoff : (FloatValue.num ((if resp.status = 429 then 1 / 2 else 1 / 5) * 2 ^ attempt)).le
      (.num (maxDelay cfg)) := backoff_le (by split <;> norm_num) h
  unfold retryDelay
  simp only
  split
  · exact .inl hbackoff
  · next text htext =>
    split
    · exact .inl hbackoff
    · split
      -- the header is read as a float
      · next d hd =>
        rcases d.min_le_or_nan MAX_RETRY_AFTER_S with hle | rfl
        · exact .inl (FloatValue.le_trans_num hle (le_max_left _ _))
        · exact .inr ⟨rfl, resp, text, rfl, htext, hd⟩
      · exact .inl hbackoff

/-- A round sleeps exactly after a transient answer, while there are rounds left. -/
theorem verdict_cases (attempt : ℕ) (answer : Option Response) :
    (attempt < cfg.maxRetries ∧ transient answer = true ∧
        ∃ d, (d.le (.num (maxDelay cfg)) ∨ d = .nan ∧ ReadsNan rd answer) ∧
          verdict rd cfg attempt answer = .again d) ∨
      ((cfg.maxRetries ≤ attempt ∨ transient answer = false) ∧
        ((answer = none ∧ verdict rd cfg attempt answer = .raises) ∨
          ∃ resp, answer = some resp ∧ verdict rd cfg attempt answer = .answers resp)) := by
  rcases answer with - | resp
  · by_cases h : attempt < cfg.maxRetries
    · exact .inl ⟨h, rfl, _, .inl (backoff_le (by norm_num) h), if_pos h⟩
    · exact .inr ⟨.inl (Nat.le_of_not_lt h), .inl ⟨rfl, if_neg h⟩⟩
  · by_cases h : resp.status ∈ RETRYABLE_STATUS ∧ attempt < cfg.maxRetries
    · exact .inl ⟨h.2, decide_eq_true h.1, _, retryDelay_le h.2, if_pos h⟩
    · refine .inr ⟨?_, .inr ⟨resp, rfl, if_neg h⟩⟩
      by_cases hlt : attempt < cfg.maxRetries
      · exact .inr (decide_eq_false fun hmem => h ⟨hmem, hlt⟩)
      · exact .inl (Nat.le_of_not_lt hlt)

/-- The rounds from `attempt` on. -/
theorem sendWithRetry_from (fuel attempt : ℕ) (h : attempt + fuel = cfg.maxRetries + 1)
    (hfuel : 0 < fuel) : ∃ k, attempt ≤ k ∧ k ≤ cfg.maxRetries ∧
      (∀ j, attempt ≤ j → j < k → transient (net j) = true) ∧
      (k = cfg.maxRetries ∨ transient (net k) = false) ∧
      (sendWithRetry rd cfg net fuel attempt).1 = outcomeOf (net k) ∧
      (sendWithRetry rd cfg net fuel attempt).2.length = k - attempt ∧
      ∀ d ∈ (sendWithRetry rd cfg net fuel attempt).2, d.le (.num (maxDelay cfg)) ∨
        d = .nan ∧ ∃ j < k, ReadsNan rd (net j) := by
  induction fuel generalizing attempt with
  | zero => cases hfuel
  | succ fuel ih =>
    rcases @verdict_cases rd cfg attempt (net attempt) with ⟨hlt, htrans, d, hd, hv⟩ | ⟨hlast, hend⟩
    · obtain ⟨k, hle, hk, hbefore, hlast, hout, hlen, hdelay⟩ :=
        ih (attempt + 1) (by omega) (by omega)
      simp only [sendWithRetry, hv]
      refine ⟨k, by omega, hk, ?_, hlast, hout, ?_, ?_⟩
      · intro j hj hjk
        by_cases hja : j = attempt
        · rw [hja]
          exact htrans
        · exact hbefore j (by omega) hjk
      · rw [List.length_cons, hlen]
        omega
      · intro d' hd'
        rcases List.mem_cons.mp hd' with rfl | hd'
        · exact hd.imp_right fun hnan => ⟨hnan.1, attempt, by omega, hnan.2⟩
        · exact hdelay d' hd'
    · have hout : sendWithRetry rd cfg net (fuel + 1) attempt = (outcomeOf (net attempt), []) := by
        rcases hend with ⟨hnone, hv⟩ | ⟨resp, hsome, hv⟩
        · simp only [sendWithRetry, hv]
          rw [hnone]
          rfl
        · simp only [sendWithRetry, hv]
          rw [hsome]
          rfl
      rw [hout]
      refine ⟨attempt, le_rfl, by omega, fun j hj hjk => by omega, ?_, rfl, ?_, by simp⟩
      · exact hlast.imp (fun hle => by omega) id
      · simp

/-- **Retries end.**  Against any network `_send_with_retry` gives the first answer
that is not transient, or the last of its `maxRetries + 1` rounds; it sleeps once
after each round before that, and no sleep is longer than `maxDelay`, but for one that is
no number because an answer asked for it. -/
theorem sendWithRetry_spec (rd : Readers) (cfg : TossConfig) (net : ℕ → Option Response) :
    ∃ k ≤ cfg.maxRetries, (∀ j < k, transient (net j) = true) ∧
      (k = cfg.maxRetries ∨ transient (net k) = false) ∧
      (sendWithRetry rd cfg net (cfg.maxRetries + 1) 0).1 = outcomeOf (net k) ∧
      (sendWithRetry rd cfg net (cfg.maxRetries + 1) 0).2.length = k ∧
      ∀ d ∈ (sendWithRetry rd cfg net (cfg.maxRetries + 1) 0).2,
        d.le (.num (maxDelay cfg)) ∨ d = .nan ∧ ∃ j < k, ReadsNan rd (net j) := by
  obtain ⟨k, -, hk, hbefore, hlast, hout, hlen, hdelay⟩ :=
    @sendWithRetry_from rd cfg net (cfg.maxRetries + 1) 0 (Nat.zero_add _) (Nat.succ_pos _)
  exact ⟨k, hk, fun j hj => hbefore j (Nat.zero_le _) hj, hlast, hout, hlen, hdelay⟩

end Tries

end AutoTrade.TossClient
