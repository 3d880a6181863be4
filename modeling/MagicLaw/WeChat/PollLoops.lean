import MagicLaw.Lib.Machine
import MagicLaw.WeChat.Daemon

/-!
# The rounds of the poll loops

`channelLoop` and `tokenLoop` are the loops as far as the calls go.  Here a
round of each has all that the next round depends on: the counters of the
token poller, its delay, and how long the loop sleeps before the next attempt.
`channelRounds_eq` and `tokenRounds_eq` say that these are the same loops.

An attempt fails, or is answered.  `reqwest` tells whether a request that
failed had timed out or had no connection, and `get_updates_via_ilink` takes
both for a server that has nothing.

* `error_backsOff`: after every error that `get_updates_via_ilink` reports, the
  loops wait.
* `sessionExpiry_handled_iff`: an expired session is reported as another error
  than the one that the token poller matches.
* `connect_backsOff_iff`: a request without a connection is not reported.
-/

namespace MagicLaw.WeChat

open Lib Lib.Program Lib.Machine MagicLaw.Routing

/-! ## Attempts -/

/-- What `reqwest` says of a request that failed. -/
structure RequestError where
  isTimeout : Bool
  isConnect : Bool
  text : String

/-- What comes of one attempt. -/
inductive Attempt where
  | error (e : RequestError)
  | unreadable (err : String)
  | status (status body : String)
  | empty
  | invalid (err : String)
  | body (value : ILinkGetUpdatesResponse)

/-- What `get_updates_via_ilink` makes of it. -/
def Attempt.http : Attempt → Http ILinkGetUpdatesResponse
  | .error e => if e.isTimeout || e.isConnect then .noAnswer e.text else .failed e.text
  | .unreadable err => .unreadable err
  | .status code text => .status code text
  | .empty => .empty
  | .invalid err => .invalid err
  | .body value => .body value

/-- The answer has `errcode` -14. -/
def Attempt.saysExpired : Attempt → Bool
  | .body value => value.errcode = some (-14)
  | _ => false

/-- No connection to the server could be made. -/
def Attempt.noConnection : Attempt → Bool
  | .error e => e.isConnect
  | _ => false

/-! ## The channel poller -/

/-- The rest of a round: the cursor of the next one, and the milliseconds until
then; `none` when the loop ends. -/
def channelAnswered (account : String) (channelId : ChannelId) (syncBuf : String) :
    Except ILinkGetUpdatesError ILinkGetUpdatesResponse → Work (Option (String × UInt64))
  | .error (.sessionExpired _ _) => do
    call .sessionClear
    let _ ← call (.storeDeleteAll account)
    pure (some (syncBuf, 5000))
  | .error _ => pure (some (syncBuf, 1000))
  | .ok updates => do
    let next ← channelCursor syncBuf updates.getUpdatesBuf
    if ← channelMessages account channelId updates.msgs then
      pure (some (next, 0))
    else
      pure none

def channelRound (account : String) (channelId : ChannelId) (syncBuf : String) :
    Work (Option (String × UInt64)) := do
  channelAnswered account channelId syncBuf (← getUpdatesViaIlink syncBuf)

def channelRounds (account : String) (channelId : ChannelId) : Nat → String → Work Unit
  | 0, _ => pure ()
  | rounds + 1, syncBuf => do
    match ← channelRound account channelId syncBuf with
    | none => pure ()
    | some (next, _) => channelRounds account channelId rounds next

theorem channelRounds_eq (account : String) (channelId : ChannelId) (rounds : Nat)
    (syncBuf : String) :
    channelRounds account channelId rounds syncBuf =
      channelLoop account channelId rounds syncBuf := by
  induction rounds generalizing syncBuf with
  | zero => rfl
  | succ rounds ih =>
    unfold channelRounds channelLoop channelRound
    rw [bind_assoc]
    refine congrArg (getUpdatesViaIlink syncBuf >>= ·) (funext fun r => ?_)
    match r with
    | .error (.sessionExpired _ _) =>
      refine congrArg (Prog.call Call.sessionClear) (funext fun _ => ?_)
      exact congrArg (Prog.call (Call.storeDeleteAll account)) (funext fun _ => ih syncBuf)
    | .error (.transport _) => exact ih syncBuf
    | .error (.business _ _ _) => exact ih syncBuf
    | .ok updates =>
      simp only [channelAnswered, bind_assoc]
      refine congrArg (channelCursor syncBuf _ >>= ·) (funext fun next => ?_)
      refine congrArg (channelMessages account channelId _ >>= ·) (funext fun goOn => ?_)
      cases goOn with
      | true => exact ih next
      | false => rfl

/-! ## The token poller -/

/-- `INITIAL_RETRY_DELAY_MS` -/
def initialRetryDelayMs : UInt64 := 2000

/-- `MAX_RETRY_DELAY_MS` -/
def maxRetryDelayMs : UInt64 := 30000

/-- `MAX_CONSECUTIVE_FAILURES` -/
def maxConsecutiveFailures : UInt32 := 5

/-- `SESSION_PAUSE_MS` -/
def sessionPauseMs : UInt64 := 300000

/-- `saturating_mul` -/
def saturatingMul (a b : UInt64) : UInt64 :=
  if a.toNat * b.toNat < 2 ^ 64 then a * b else UInt64.ofNat (2 ^ 64 - 1)

/-- The variables of the loop. -/
structure TokenVars where
  syncBuf : String
  consecutiveFailures : UInt32
  sessionRetries : UInt32
  retryDelayMs : UInt64

def TokenVars.new (syncBuf : String) : TokenVars := ⟨syncBuf, 0, 0, initialRetryDelayMs⟩

/-- What a failure leaves, and the milliseconds until the next attempt. -/
def TokenVars.failed (v : TokenVars) : TokenVars × UInt64 :=
  let consecutiveFailures := v.consecutiveFailures + 1
  if maxConsecutiveFailures ≤ consecutiveFailures then
    ({ v with consecutiveFailures := 0, retryDelayMs := initialRetryDelayMs }, sessionPauseMs)
  else
    ({ v with
      consecutiveFailures
      retryDelayMs := min (saturatingMul v.retryDelayMs 2) maxRetryDelayMs }, v.retryDelayMs)

/-- The rest of a round; `none` when the loop ends. -/
def tokenAnswered (account : String) (v : TokenVars) :
    Except ILinkGetUpdatesError ILinkGetUpdatesResponse → Work (Option (TokenVars × UInt64))
  | .ok updates => do
    let next ← tokenCursor v.syncBuf updates.getUpdatesBuf
    Prog.forEach (tokenMessage account) updates.msgs
    pure (some (.new next, 0))
  | .error (.business _ errcode _) =>
    if errcode = -14 then
      let sessionRetries := v.sessionRetries + 1
      if maxSessionRetries ≤ sessionRetries.toNat then
        pure none
      else do
        call .cacheClear
        let _ ← call (.storeDeleteAll account)
        pure (some ({ v with sessionRetries }, sessionPauseMs))
    else
      pure (some v.failed)
  | .error _ => pure (some v.failed)

def tokenRound (account : String) (v : TokenVars) : Work (Option (TokenVars × UInt64)) := do
  tokenAnswered account v (← getUpdatesViaIlink v.syncBuf)

def tokenRounds (account : String) : Nat → TokenVars → Work Unit
  | 0, _ => pure ()
  | rounds + 1, v => do
    match ← tokenRound account v with
    | none => pure ()
    | some (next, _) => tokenRounds account rounds next

theorem TokenVars.failed_syncBuf (v : TokenVars) : v.failed.1.syncBuf = v.syncBuf := by
  unfold failed
  dsimp only
  split <;> rfl

theorem TokenVars.failed_sessionRetries (v : TokenVars) :
    v.failed.1.sessionRetries = v.sessionRetries := by
  unfold failed
  dsimp only
  split <;> rfl

theorem toNat_succ_of_lt {n : UInt32} (h : n.toNat < maxSessionRetries) :
    (n + 1).toNat = n.toNat + 1 := by
  have hone : (1 : UInt32).toNat = 1 := rfl
  have : n.toNat < 3 := h
  rw [UInt32.toNat_add, hone]
  omega

theorem tokenRounds_eq (account : String) (rounds : Nat) {v : TokenVars}
    (h : v.sessionRetries.toNat < maxSessionRetries) :
    tokenRounds account rounds v =
      tokenLoop account rounds v.sessionRetries.toNat v.syncBuf := by
  induction rounds generalizing v with
  | zero => rfl
  | succ rounds ih =>
    have hfailed : tokenRounds account rounds v.failed.1 =
        tokenLoop account rounds v.sessionRetries.toNat v.syncBuf := by
      rw [ih (v.failed_sessionRetries ▸ h), v.failed_sessionRetries, v.failed_syncBuf]
    unfold tokenRounds tokenLoop tokenRound
    rw [bind_assoc]
    refine congrArg (getUpdatesViaIlink v.syncBuf >>= ·) (funext fun r => ?_)
    match r with
    | .ok updates =>
      simp only [tokenAnswered, bind_assoc, pure_bind]
      refine congrArg (tokenCursor v.syncBuf _ >>= ·) (funext fun next => ?_)
      refine congrArg (Prog.forEach (tokenMessage account) _ >>= ·) (funext fun _ => ?_)
      exact ih (v := .new next) (show 0 < 3 by decide)
    | .error (.business _ errcode _) =>
      simp only [tokenAnswered, toNat_succ_of_lt h]
      by_cases hcode : errcode = -14
      · rw [if_pos hcode, if_pos hcode]
        by_cases hmax : maxSessionRetries ≤ v.sessionRetries.toNat + 1
        · rw [if_pos hmax, if_pos hmax]
          rfl
        · rw [if_neg hmax, if_neg hmax]
          have hnext := ih (v := { v with sessionRetries := v.sessionRetries + 1 })
            (by rw [toNat_succ_of_lt h]; omega)
          rw [toNat_succ_of_lt h] at hnext
          refine congrArg (Prog.call Call.cacheClear) (funext fun _ => ?_)
          exact congrArg (Prog.call (Call.storeDeleteAll account)) (funext fun _ => hnext)
      · rw [if_neg hcode, if_neg hcode]
        exact hfailed
    | .error (.transport _) => exact hfailed
    | .error (.sessionExpired _ _) => exact hfailed

/-! ## Runs of the loops -/

/-- An attempt, and the outcomes of the calls of its round. -/
structure Poll where
  attempt : Attempt
  outcomes : Nat → Outcome

def Poll.stream (p : Poll) (n : Nat) : Outcome :=
  { p.outcomes n with updates := p.attempt.http }

def channelPoll (account : String) (channelId : ChannelId) (s : String × World) (p : Poll) :
    Option (String × UInt64) × World :=
  (channelRound account channelId s.1).play handle p.stream s.2

def channelStep (account : String) (channelId : ChannelId) (s : String × World) (p : Poll) :
    Option (String × World) :=
  (channelPoll account channelId s p).1.map fun next =>
    (next.1, (channelPoll account channelId s p).2)

def tokenPoll (account : String) (s : TokenVars × World) (p : Poll) :
    Option (TokenVars × UInt64) × World :=
  (tokenRound account s.1).play handle p.stream s.2

def tokenStep (account : String) (s : TokenVars × World) (p : Poll) : Option (TokenVars × World) :=
  (tokenPoll account s p).1.map fun next => (next.1, (tokenPoll account s p).2)

section Rounds

variable (account : String) {channelId : ChannelId}

theorem tokenPoll_eq (s : TokenVars × World) (p : Poll) :
    tokenPoll account s p =
      (tokenAnswered account s.1 (getUpdatesResult s.1.syncBuf p.attempt.http)).play handle
        (fun n => p.stream (n + 1)) s.2 := rfl

theorem channelPoll_eq (s : String × World) (p : Poll) :
    channelPoll account channelId s p =
      (channelAnswered account channelId s.1 (getUpdatesResult s.1 p.attempt.http)).play handle
        (fun n => p.stream (n + 1)) s.2 := rfl

/-- An error is one failure more: it is never one that the poller takes for an
expired session. -/
theorem tokenPoll_of_error {s : TokenVars × World} {p : Poll} {e : ILinkGetUpdatesError}
    (h : getUpdatesResult s.1.syncBuf p.attempt.http = .error e) :
    tokenPoll account s p = (some s.1.failed, s.2) := by
  rw [tokenPoll_eq, h]
  cases e with
  | transport err => rfl
  | sessionExpired errcode errmsg => rfl
  | business ret errcode errmsg =>
    simp only [tokenAnswered, if_neg (getUpdatesResult_ne_business h)]
    rfl

/-- Without an error all counters start anew, and the next attempt is made at
once. -/
theorem tokenPoll_of_ok {s : TokenVars × World} {p : Poll} {updates : ILinkGetUpdatesResponse}
    (h : getUpdatesResult s.1.syncBuf p.attempt.http = .ok updates) :
    ∃ next, (tokenPoll account s p).1 = some (.new next, 0) := by
  rw [tokenPoll_eq, h]
  have hwp : wp handle anyOutcome (fun r _ => ∃ next, r = some (TokenVars.new next, 0))
      (tokenAnswered account s.1 (.ok updates)) s.2 := by
    unfold tokenAnswered
    rw [wp_bind]
    refine wp_mono (fun next s' _ => ?_) (wp_anyOutcome_true _ _)
    rw [wp_bind]
    exact wp_mono (fun _ _ _ => ⟨next, rfl⟩) (wp_anyOutcome_true _ _)
  exact play_of_wp hwp _

/-- The token poller never stops. -/
theorem exists_tokenStep (s : TokenVars × World) (p : Poll) :
    ∃ next, (tokenPoll account s p).1 = some next := by
  cases h : getUpdatesResult s.1.syncBuf p.attempt.http with
  | ok updates =>
    obtain ⟨next, hnext⟩ := tokenPoll_of_ok account h
    exact ⟨_, hnext⟩
  | error e => exact ⟨_, congrArg Prod.fst (tokenPoll_of_error account h)⟩

theorem exists_run_tokenStep (s : TokenVars × World) (polls : List Poll) :
    ∃ t, run (tokenStep account) s polls = some t := by
  induction polls generalizing s with
  | nil => exact ⟨s, rfl⟩
  | cons p polls ih =>
    obtain ⟨next, hnext⟩ := exists_tokenStep account s p
    have hstep : tokenStep account s p = some (next.1, (tokenPoll account s p).2) := by
      rw [tokenStep, hnext]
      rfl
    obtain ⟨t, ht⟩ := ih (next.1, (tokenPoll account s p).2)
    exact ⟨t, run_cons_eq_some.mpr ⟨_, hstep, ht⟩⟩

/-! ## The delay after an error -/

/-- What the variables always are within. -/
structure TokenVars.Sane (v : TokenVars) : Prop where
  delay_ge : initialRetryDelayMs ≤ v.retryDelayMs
  delay_le : v.retryDelayMs ≤ maxRetryDelayMs
  failures_lt : v.consecutiveFailures < maxConsecutiveFailures

theorem TokenVars.sane_of_reset {v : TokenVars} (hdelay : v.retryDelayMs = initialRetryDelayMs)
    (hfailures : v.consecutiveFailures = 0) : v.Sane := by
  constructor
  · rw [hdelay]
    decide
  · rw [hdelay]
    decide
  · rw [hfailures]
    decide

/-- A delay within the bounds is doubled without an overflow. -/
theorem doubled_ge {d : UInt64} (hge : initialRetryDelayMs ≤ d) (hle : d ≤ maxRetryDelayMs) :
    initialRetryDelayMs ≤ saturatingMul d 2 := by
  have hlow : 2000 ≤ d.toNat := hge
  have hhigh : d.toNat ≤ 30000 := hle
  have htwo : (2 : UInt64).toNat = 2 := rfl
  have hdouble : saturatingMul d 2 = d * 2 := if_pos (by rw [htwo]; omega)
  rw [hdouble]
  show 2000 ≤ (d * 2).toNat
  rw [UInt64.toNat_mul, htwo]
  omega

theorem TokenVars.Sane.failed {v : TokenVars} (h : v.Sane) : v.failed.1.Sane := by
  unfold TokenVars.failed
  dsimp only
  split
  · exact sane_of_reset rfl rfl
  · rename_i hfew
    have hmin : ∀ d : UInt64, initialRetryDelayMs ≤ d →
        initialRetryDelayMs ≤ min d maxRetryDelayMs ∧ min d maxRetryDelayMs ≤ maxRetryDelayMs := by
      intro d hd
      show _ ≤ (if d ≤ maxRetryDelayMs then d else maxRetryDelayMs) ∧
        (if d ≤ maxRetryDelayMs then d else maxRetryDelayMs) ≤ _
      split
      · exact ⟨hd, ‹_›⟩
      · exact ⟨by decide, by decide⟩
    obtain ⟨hge, hle⟩ := hmin _ (doubled_ge h.delay_ge h.delay_le)
    exact ⟨hge, hle, UInt32.not_le.mp hfew⟩

theorem sane_tokenStep {s t : TokenVars × World} {p : Poll} (h : s.1.Sane)
    (hstep : tokenStep account s p = some t) : t.1.Sane := by
  unfold tokenStep at hstep
  cases hresult : getUpdatesResult s.1.syncBuf p.attempt.http with
  | ok updates =>
    obtain ⟨next, hnext⟩ := tokenPoll_of_ok account hresult
    rw [hnext] at hstep
    cases hstep
    exact TokenVars.sane_of_reset rfl rfl
  | error e =>
    rw [tokenPoll_of_error account hresult] at hstep
    cases hstep
    exact h.failed

theorem sane_run {syncBuf : String} {w : World} {t : TokenVars × World} {polls : List Poll}
    (hrun : run (tokenStep account) (.new syncBuf, w) polls = some t) : t.1.Sane :=
  run_invariant (fun _ _ _ h hstep => sane_tokenStep account h hstep)
    (TokenVars.sane_of_reset rfl rfl) hrun

/-- After an error that is reported, both pollers wait. -/
theorem error_backsOff {s : TokenVars × World} {u : String × World} {p : Poll}
    {e e' : ILinkGetUpdatesError} (h : s.1.Sane)
    (htoken : getUpdatesResult s.1.syncBuf p.attempt.http = .error e)
    (hchannel : getUpdatesResult u.1 p.attempt.http = .error e') :
    (∃ next, (tokenPoll account s p).1 = some next ∧ initialRetryDelayMs ≤ next.2) ∧
      ∃ next, (channelPoll account channelId u p).1 = some next ∧ 1000 ≤ next.2 := by
  constructor
  · refine ⟨s.1.failed, congrArg Prod.fst (tokenPoll_of_error account htoken), ?_⟩
    unfold TokenVars.failed
    dsimp only
    split
    · exact show initialRetryDelayMs ≤ sessionPauseMs by decide
    · exact h.delay_ge
  · have hsome : (1000 : UInt64) ≤ 1000 ∧ (1000 : UInt64) ≤ 5000 := by decide
    rw [channelPoll_eq, hchannel]
    cases e' with
    | sessionExpired errcode errmsg => exact ⟨(u.1, 5000), rfl, hsome.2⟩
    | transport err => exact ⟨(u.1, 1000), rfl, hsome.1⟩
    | business ret errcode errmsg => exact ⟨(u.1, 1000), rfl, hsome.1⟩

/-! ## Expired sessions -/

/-- An answer with `errcode` -14 is one more retry of the session, and no
failure.  The third one in a row ends the loop, and the others clear the
tokens of the cache and of the table. -/
def HandlesExpiry (account : String) (s : TokenVars × World) (p : Poll) : Prop :=
  p.attempt.saysExpired = true →
    if maxSessionRetries ≤ s.1.sessionRetries.toNat + 1 then (tokenPoll account s p).1 = none
    else ∃ next, (tokenPoll account s p).1 = some next ∧
      next.1.sessionRetries = s.1.sessionRetries + 1 ∧
      next.1.consecutiveFailures = s.1.consecutiveFailures ∧
      (tokenPoll account s p).2.tokenCache = ∅ ∧
      ((∀ n, (p.outcomes n).fault = none) → (tokenPoll account s p).2.getAll account = ∅)

theorem getUpdatesResult_of_saysExpired {attempt : Attempt} (h : attempt.saysExpired = true)
    (syncBuf : String) :
    ∃ errmsg, getUpdatesResult syncBuf attempt.http = .error (.sessionExpired (-14) errmsg) := by
  cases attempt with
  | body value =>
    have hcode : value.errcode = some (-14) := of_decide_eq_true h
    exact ⟨_, if_pos hcode⟩
  | _ => cases h

/-- What is asked of attempts of a kind, and never true of one, is true where
there is none. -/
theorem asked_iff_of_not {kind : Bool} {P : Prop} (h : kind = true → ¬ P) :
    (kind = true → P) ↔ kind = false := by
  cases kind with
  | false => exact iff_of_true nofun rfl
  | true => exact iff_of_false (fun hasked => h rfl (hasked rfl)) nofun

/-- The poller takes an expired session for any other failure. -/
theorem handlesExpiry_iff (s : TokenVars × World) (p : Poll) :
    HandlesExpiry account s p ↔ p.attempt.saysExpired = false := by
  refine asked_iff_of_not fun hexpired hhandled => ?_
  obtain ⟨errmsg, hresult⟩ := getUpdatesResult_of_saysExpired hexpired s.1.syncBuf
  rw [tokenPoll_of_error account hresult] at hhandled
  split at hhandled
  · cases hhandled
  · obtain ⟨next, hnext, hretries, _⟩ := hhandled
    cases hnext
    rw [s.1.failed_sessionRetries] at hretries
    have hne := congrArg UInt32.toNat hretries
    have hone : (1 : UInt32).toNat = 1 := rfl
    rw [UInt32.toNat_add, hone] at hne
    omega

end Rounds

/-- From any counters on, the token poller handles every expired session as it
should exactly when the server reports none. -/
theorem sessionExpiry_handled_iff (account : String) (s : TokenVars × World)
    (polls : List Poll) :
    EveryStep (tokenStep account) (HandlesExpiry account) s polls ↔
      ∀ p ∈ polls, p.attempt.saysExpired = false := by
  obtain ⟨t, ht⟩ := exists_run_tokenStep account s polls
  rw [everyStep_congr (handlesExpiry_iff account), everyStep_iff_forall_mem ht]

def SessionExpiryHandled : Prop :=
  ∀ (account syncBuf : String) (w : World) (polls : List Poll),
    EveryStep (tokenStep account) (HandlesExpiry account) (.new syncBuf, w) polls

/-- The server says that the session has expired. -/
def expiredPoll : Poll := ⟨.body ⟨-1, some (-14), some "session timeout", [], none⟩, fun _ => fine⟩

theorem not_sessionExpiryHandled : ¬ SessionExpiryHandled := by
  intro h
  have hhandled := (h "bot" "" .init [expiredPoll]).1
  exact absurd ((handlesExpiry_iff "bot" _ expiredPoll).mp hhandled) (by decide)

/-! ## Requests without a connection -/

/-- The channel poller waits before the next attempt. -/
def ChannelBacksOff (account : String) (channelId : ChannelId) (s : String × World) (p : Poll) :
    Prop :=
  p.attempt.noConnection = true →
    ∃ next, (channelPoll account channelId s p).1 = some next ∧ 0 < next.2

/-- The token poller waits before the next attempt, and counts a failure, or
has come to the limit, where the count starts anew. -/
def TokenBacksOff (account : String) (s : TokenVars × World) (p : Poll) : Prop :=
  p.attempt.noConnection = true →
    ∃ next, (tokenPoll account s p).1 = some next ∧ 0 < next.2 ∧
      (next.1.consecutiveFailures = s.1.consecutiveFailures + 1 ∨
        maxConsecutiveFailures ≤ s.1.consecutiveFailures + 1)

section Connection

variable {account : String} {channelId : ChannelId}

theorem http_of_noConnection {attempt : Attempt} (h : attempt.noConnection = true) :
    ∃ err, attempt.http = .noAnswer err := by
  cases attempt with
  | error e =>
    have hconnect : e.isConnect = true := h
    exact ⟨e.text, by simp [Attempt.http, hconnect]⟩
  | _ => cases h

theorem getUpdatesResult_of_noConnection {attempt : Attempt} (h : attempt.noConnection = true)
    (syncBuf : String) : getUpdatesResult syncBuf attempt.http = .ok (.nothing syncBuf) := by
  obtain ⟨err, herr⟩ := http_of_noConnection h
  rw [herr]
  rfl

theorem channelBacksOff_iff (s : String × World) (p : Poll) :
    ChannelBacksOff account channelId s p ↔ p.attempt.noConnection = false := by
  refine asked_iff_of_not fun hconnect ⟨next, hnext, hpos⟩ => ?_
  have hpoll : (channelPoll account channelId s p).1 = some (s.1, 0) := by
    rw [channelPoll_eq, getUpdatesResult_of_noConnection hconnect]
    rfl
  rw [hpoll] at hnext
  cases hnext
  exact absurd (show (0 : UInt64) < 0 from hpos) (by decide)

theorem tokenBacksOff_iff (s : TokenVars × World) (p : Poll) :
    TokenBacksOff account s p ↔ p.attempt.noConnection = false := by
  refine asked_iff_of_not fun hconnect ⟨next, hnext, hpos, _⟩ => ?_
  obtain ⟨buf, hbuf⟩ := tokenPoll_of_ok account
    (getUpdatesResult_of_noConnection hconnect s.1.syncBuf)
  rw [hbuf] at hnext
  cases hnext
  exact absurd (show (0 : UInt64) < 0 from hpos) (by decide)

end Connection

/-- The pollers wait after every attempt that had no connection, and the token
poller counts it, exactly when there is no such attempt. -/
theorem connect_backsOff_iff (account : String) (channelId : ChannelId) (s : String × World)
    (t : TokenVars × World) (polls polls' : List Poll) :
    (EveryStep (channelStep account channelId) (ChannelBacksOff account channelId) s polls ↔
      EveryStep (channelStep account channelId) (fun _ p => p.attempt.noConnection = false)
        s polls) ∧
    (EveryStep (tokenStep account) (TokenBacksOff account) t polls' ↔
      ∀ p ∈ polls', p.attempt.noConnection = false) := by
  constructor
  · exact everyStep_congr channelBacksOff_iff s polls
  · obtain ⟨u, hu⟩ := exists_run_tokenStep account t polls'
    rw [everyStep_congr tokenBacksOff_iff, everyStep_iff_forall_mem hu]

def ConnectBacksOff : Prop :=
  ∀ (account syncBuf : String) (channelId : ChannelId) (w : World) (polls : List Poll),
    EveryStep (channelStep account channelId) (ChannelBacksOff account channelId) (syncBuf, w)
      polls ∧
    EveryStep (tokenStep account) (TokenBacksOff account) (.new syncBuf, w) polls

/-- The server refuses the connection. -/
def refusedPoll : Poll :=
  ⟨.error ⟨false, true, "tcp connect error: Connection refused (os error 111)"⟩, fun _ => fine⟩

theorem not_connectBacksOff : ¬ ConnectBacksOff := by
  intro h
  have hbacksOff := (h "bot" "" ⟨"wechat"⟩ .init [refusedPoll]).2.1
  exact absurd ((tokenBacksOff_iff _ refusedPoll).mp hbacksOff) (by decide)

end MagicLaw.WeChat
