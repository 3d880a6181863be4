import Mathlib.Algebra.Group.Int.Defs
import Mathlib.Algebra.Group.Nat.Defs
import MagicLaw.Lib.Machine
import MagicLaw.Outbox.Classification

/-!
# The access token of DingTalk

`ensure_access_token` of `channels/dingtalk/channel.rs`.  A token is cached up
to an instant that the code computes from `expires_in`, a number of the server:
it is cast to `u64`, 60 seconds are taken off, and the rest is added to the
clock.

The machine has any number of calls, each at one of its steps: the look into
the cache, and what comes of the request.  Each step comes with the instant
that the clock shows.

* `fits_iff`: an entry is served in time, and computed at all, exactly if
  `expires_in` is not negative and the sum is an instant.
* `token_cache_safe_iff`: in a run no call panics and no token is served late
  exactly if every response with a token is of that kind.

A negative `expires_in` becomes a number of about 2^64 seconds.
-/

namespace MagicLaw.DingTalk

open Lib.Machine
open MagicLaw.Outbox (ChannelError)

/-! ## Instants -/

/-- A reading of the monotonic clock, as Unix has it. -/
structure Instant where
  secs : Int64
  nanos : Nat
  nanos_lt : nanos < 1000000000
  deriving DecidableEq

def Instant.toNanos (t : Instant) : Int := t.secs.toInt * 1000000000 + t.nanos

/-- `now >= other`, field by field -/
def Instant.notBefore (now other : Instant) : Bool :=
  other.secs < now.secs || (other.secs = now.secs && other.nanos ≤ now.nanos)

/-- `checked_add` of whole seconds -/
def Instant.checkedAddSecs (t : Instant) (secs : UInt64) : Option Instant :=
  let sum := t.secs.toInt + secs.toNat
  if sum ≤ Int64.maxValue.toInt then some { t with secs := Int64.ofInt sum } else none

theorem notBefore_iff {now other : Instant} :
    now.notBefore other = true ↔ other.toNanos ≤ now.toNanos := by
  have hnow := now.nanos_lt
  have hother := other.nanos_lt
  unfold Instant.notBefore Instant.toNanos
  simp only [Bool.or_eq_true, Bool.and_eq_true, decide_eq_true_eq, Int64.lt_iff_toInt_lt,
    ← Int64.toInt_inj]
  omega

/-- The sum, if it is an instant. -/
theorem checkedAddSecs_eq_some {t u : Instant} {secs : UInt64}
    (h : t.checkedAddSecs secs = some u) :
    t.secs.toInt + secs.toNat ≤ Int64.maxValue.toInt ∧
      u.toNanos = t.toNanos + secs.toNat * 1000000000 := by
  have hlow := t.secs.le_toInt
  unfold Instant.checkedAddSecs at h
  dsimp only at h
  split at h
  case isTrue hsum =>
    cases h
    have hmax : Int64.maxValue.toInt = 2 ^ 63 - 1 := Int64.toInt_maxValue
    have hsecs : (Int64.ofInt (t.secs.toInt + secs.toNat)).toInt = t.secs.toInt + secs.toNat :=
      Int64.toInt_ofInt_of_le (by omega) (by omega)
    refine ⟨hsum, ?_⟩
    unfold Instant.toNanos
    dsimp only
    rw [hsecs]
    omega
  case isFalse => cases h

theorem checkedAddSecs_eq_none {t : Instant} {secs : UInt64} (h : t.checkedAddSecs secs = none) :
    Int64.maxValue.toInt < t.secs.toInt + secs.toNat := by
  unfold Instant.checkedAddSecs at h
  dsimp only at h
  split at h
  case isTrue => cases h
  case isFalse hsum => omega

/-! ## The response -/

/-- The fields of a JSON object, where an integer has no bounds. -/
structure TokenBody where
  errcode : Int
  errmsg : Option String
  accessToken : Option String
  expiresIn : Option Int

structure TokenResponse where
  errcode : Int64
  errmsg : Option String
  accessToken : Option String
  expiresIn : Option Int64

/-- What comes of the request: no response, or one that is JSON or not. -/
inductive Gettoken where
  | failed (error : String)
  | response (json : Except String TokenBody)

/-- What `serde_json` says of an integer that is no `i64`. -/
abbrev InvalidInteger := Int → String

def decodeI64 (invalid : InvalidInteger) (n : Int) : Except String Int64 :=
  if Int64.minValue.toInt ≤ n ∧ n ≤ Int64.maxValue.toInt then .ok (Int64.ofInt n)
  else .error (invalid n)

def TokenBody.decode (invalid : InvalidInteger) (body : TokenBody) :
    Except String TokenResponse := do
  let errcode ← decodeI64 invalid body.errcode
  let expiresIn ← body.expiresIn.mapM (decodeI64 invalid)
  pure ⟨errcode, body.errmsg, body.accessToken, expiresIn⟩

inductive DingtalkErrorSemantics where
  | retryable | terminal | unknown

def fromDingtalkErrcode (code : Int64) : DingtalkErrorSemantics :=
  if code = 0 then .terminal
  else if code ∈ [33001, 90001, 90002, 90007] then .retryable
  else if code ∈ [40001, 40003, 40014, 40102] then .terminal
  else if code ∈ [40002, 40004, 60008] then .terminal
  else if code = -1 then .retryable
  else .unknown

/-- The token of a response and its `expires_in`, which is two hours where the
response has none. -/
def readToken (invalid : InvalidInteger) : Gettoken → Except ChannelError (String × Int64)
  | .failed e => .error (.transport s!"dingtalk gettoken: {e}")
  | .response json =>
    match json.bind (TokenBody.decode invalid) with
    | .error e => .error (.transport s!"dingtalk gettoken parse: {e}")
    | .ok body =>
      if body.errcode ≠ 0 then
        match fromDingtalkErrcode body.errcode with
        | .retryable => .error (.rateLimited 60)
        | _ => .error (.authExpired body.errcode (body.errmsg.getD ""))
      else
        match body.accessToken with
        | none => .error (.internal "dingtalk: no access_token in response")
        | some token => .ok (token, body.expiresIn.getD 7200)

def saturatingSub (a b : UInt64) : UInt64 := if b ≤ a then a - b else 0

/-- `Instant::now() + Duration::from_secs(expires_in.saturating_sub(60))`, which
panics where it is no instant. -/
def expiresAt? (now : Instant) (expiresIn : Int64) : Option Instant :=
  now.checkedAddSecs (saturatingSub expiresIn.toUInt64 60)

/-! ## The calls -/

structure TokenCache where
  token : String
  expiresAt : Instant
  deriving DecidableEq

def TokenCache.isExpired (cache : TokenCache) (now : Instant) : Bool :=
  now.notBefore cache.expiresAt

/-- What is in the cache, with the instant at which it was fetched and the
`expires_in` of its response. -/
structure Entry extends TokenCache where
  fetchedAt : Instant
  expiresIn : Int64
  deriving DecidableEq

/-- The fetch, and as many seconds as are left of `expires_in` without the last
60 of them. -/
def Entry.deadline (entry : Entry) : Int :=
  entry.fetchedAt.toNanos + max 0 (entry.expiresIn.toInt - 60) * 1000000000

/-- Where a call of `ensure_access_token` is. -/
inductive Stage where
  | entered
  /-- found no token and sends the request -/
  | fetching
  /-- returned the token of the cache, at this instant -/
  | reused (entry : Entry) (now : Instant)
  | returned (result : Except ChannelError String)
  | panicked

structure TokenState where
  cache : Option Entry
  calls : List Stage

def TokenState.init : TokenState := ⟨none, []⟩

inductive TokenMove where
  | enter
  | lookup (n : Nat) (now : Instant)
  | respond (n : Nat) (now : Instant) (reply : Gettoken)

/-- The cache is looked at. -/
def lookup (cache : Option Entry) (now : Instant) : Stage :=
  match cache with
  | some entry => if entry.isExpired now then .fetching else .reused entry now
  | none => .fetching

/-- What the request leads to, and what is in the cache after it. -/
def receive (invalid : InvalidInteger) (cache : Option Entry) (now : Instant)
    (reply : Gettoken) : Stage × Option Entry :=
  match readToken invalid reply with
  | .error e => (.returned (.error e), cache)
  | .ok (token, expiresIn) =>
    match expiresAt? now expiresIn with
    | none => (.panicked, cache)
    | some expiresAt => (.returned (.ok token), some ⟨⟨token, expiresAt⟩, now, expiresIn⟩)

def TokenState.step (invalid : InvalidInteger) (s : TokenState) : TokenMove → Option TokenState
  | .enter => some { s with calls := s.calls ++ [.entered] }
  | .lookup n now =>
    match s.calls[n]? with
    | some .entered => some { s with calls := s.calls.set n (lookup s.cache now) }
    | _ => none
  | .respond n now reply =>
    match s.calls[n]? with
    | some .fetching =>
      let (stage, cache) := receive invalid s.cache now reply
      some ⟨cache, s.calls.set n stage⟩
    | _ => none

/-! ## What is safe -/

/-- The entry is not served at or after its deadline. -/
def Entry.InTime (entry : Entry) : Prop :=
  ∀ now, entry.isExpired now = false → now.toNanos < entry.deadline

/-- No call has panicked, each call that was served from the cache was served in
time, and so would be the next one. -/
structure TokenState.Safe (s : TokenState) : Prop where
  noPanic : ∀ stage ∈ s.calls, stage ≠ .panicked
  served : ∀ entry now, .reused entry now ∈ s.calls → now.toNanos < entry.deadline
  cached : ∀ entry ∈ s.cache, entry.InTime

/-- The number is not negative, and the sum is an instant. -/
def Fits (now : Instant) (expiresIn : Int64) : Prop :=
  0 ≤ expiresIn.toInt ∧
    now.secs.toInt + max 0 (expiresIn.toInt - 60) ≤ Int64.maxValue.toInt

/-- A response with a token has an `expires_in` that fits. -/
def TokenMove.Fits (invalid : InvalidInteger) : TokenMove → Prop
  | .enter | .lookup _ _ => True
  | .respond _ now reply =>
    ∀ token expiresIn, readToken invalid reply = .ok (token, expiresIn) →
      DingTalk.Fits now expiresIn

/-! ### One response -/

/-- The cast to `u64` of a negative number is not its size. -/
theorem toNat_toUInt64 (n : Int64) :
    (n.toUInt64.toNat : Int) = if n.toInt < 0 then n.toInt + 2 ^ 64 else n.toInt := by
  have hcast : n.toInt = if 2 * n.toUInt64.toNat < 2 ^ 64 then (n.toUInt64.toNat : Int)
      else n.toUInt64.toNat - (2 ^ 64 : Nat) := BitVec.toInt_eq_toNat_cond n.toBitVec
  have hlt := n.toUInt64.toNat_lt
  rw [hcast]
  split <;> split <;> omega

theorem toNat_saturatingSub (a b : UInt64) : (saturatingSub a b).toNat = a.toNat - b.toNat := by
  unfold saturatingSub
  split
  case isTrue hle => exact UInt64.toNat_sub_of_le _ _ hle
  case isFalse hle =>
    have hlt := UInt64.lt_iff_toNat_lt.mp (UInt64.not_le.mp hle)
    show 0 = a.toNat - b.toNat
    omega

/-- The seconds that are added to the clock. -/
theorem toNat_seconds (expiresIn : Int64) :
    ((saturatingSub expiresIn.toUInt64 60).toNat : Int) =
      if expiresIn.toInt < 0 then expiresIn.toInt + 2 ^ 64 - 60
      else max 0 (expiresIn.toInt - 60) := by
  have hcast := toNat_toUInt64 expiresIn
  have hlow := expiresIn.le_toInt
  have hsixty : (60 : UInt64).toNat = 60 := rfl
  rw [toNat_saturatingSub, hsixty]
  split
  case isTrue hneg =>
    rw [if_pos hneg] at hcast
    omega
  case isFalse hneg =>
    rw [if_neg hneg] at hcast
    omega

/-- An entry that expires at its deadline is served in time. -/
theorem inTime_of_expiresAt_eq {entry : Entry} (h : entry.expiresAt.toNanos = entry.deadline) :
    entry.InTime := by
  intro now hvalid
  rw [← h]
  by_contra hnot
  have hexpired : entry.isExpired now = true := notBefore_iff.mpr (Int.not_lt.mp hnot)
  rw [hexpired] at hvalid
  cases hvalid

/-- An entry is computed, and served in time, if and only if the number fits. -/
theorem fits_iff (now : Instant) (expiresIn : Int64) (token : String) :
    (∃ expiresAt, expiresAt? now expiresIn = some expiresAt ∧
      Entry.InTime ⟨⟨token, expiresAt⟩, now, expiresIn⟩) ↔ Fits now expiresIn := by
  have hseconds := toNat_seconds expiresIn
  constructor
  · intro ⟨expiresAt, hsum, hinTime⟩
    obtain ⟨hmax, hnanos⟩ := checkedAddSecs_eq_some hsum
    by_cases hneg : expiresIn.toInt < 0
    · -- at once after the fetch the entry is past its deadline, and valid
      have hlow := expiresIn.le_toInt
      rw [if_pos hneg] at hseconds
      have hvalid : now.notBefore expiresAt = false := by
        rw [Bool.eq_false_iff]
        intro hexpired
        have hle := notBefore_iff.mp hexpired
        omega
      have hlate : now.toNanos < now.toNanos + max 0 (expiresIn.toInt - 60) * 1000000000 :=
        hinTime now hvalid
      omega
    · rw [if_neg hneg] at hseconds
      exact ⟨Int.not_lt.mp hneg, hseconds ▸ hmax⟩
  · intro ⟨hnonneg, hfits⟩
    rw [if_neg (Int.not_lt.mpr hnonneg)] at hseconds
    cases hsum : expiresAt? now expiresIn with
    | none =>
      have hoverflow := checkedAddSecs_eq_none hsum
      omega
    | some expiresAt =>
      refine ⟨expiresAt, rfl, inTime_of_expiresAt_eq ?_⟩
      rw [(checkedAddSecs_eq_some hsum).2, hseconds]
      rfl

/-! ### Runs -/

section Runs

variable {invalid : InvalidInteger} {s s' : TokenState}

theorem safe_init : TokenState.init.Safe := ⟨nofun, nofun, nofun⟩

/-- One call moves on, and the cache may change with it. -/
theorem TokenState.Safe.set (h : s.Safe) {n : Nat} {stage : Stage} {cache : Option Entry}
    (hpanic : stage ≠ .panicked)
    (hserved : ∀ entry now, stage = .reused entry now → now.toNanos < entry.deadline)
    (hcached : ∀ entry ∈ cache, entry.InTime) :
    TokenState.Safe ⟨cache, s.calls.set n stage⟩ := by
  refine ⟨forall_mem_set h.noPanic hpanic, fun entry now hreused => ?_, hcached⟩
  rcases List.mem_or_eq_of_mem_set hreused with hreused | heq
  · exact h.served entry now hreused
  · exact hserved entry now heq.symm

/-- A call that looks into the cache finds a token that is in time, or none. -/
theorem safe_lookup (h : s.Safe) {n : Nat} {now : Instant} :
    TokenState.Safe { s with calls := s.calls.set n (lookup s.cache now) } := by
  refine h.set ?_ ?_ h.cached
  · unfold lookup
    split
    · split <;> nofun
    · nofun
  · intro entry now' hreused
    unfold lookup at hreused
    cases hcache : s.cache with
    | none =>
      rw [hcache] at hreused
      cases hreused
    | some found =>
      rw [hcache] at hreused
      dsimp only at hreused
      split at hreused
      case isTrue => cases hreused
      case isFalse hvalid =>
        cases hreused
        exact h.cached entry hcache now (Bool.eq_false_iff.mpr hvalid)

/-- A response keeps the state safe exactly if the number of its token fits. -/
theorem safe_receive_iff (h : s.Safe) {n : Nat} (hn : n < s.calls.length) {now : Instant}
    {reply : Gettoken} :
    TokenState.Safe ⟨(receive invalid s.cache now reply).2,
        s.calls.set n (receive invalid s.cache now reply).1⟩ ↔
      (TokenMove.respond n now reply).Fits invalid := by
  unfold receive
  show _ ↔ ∀ token expiresIn, readToken invalid reply = .ok (token, expiresIn) →
    Fits now expiresIn
  cases readToken invalid reply with
  | error e => exact iff_of_true (h.set nofun nofun h.cached) nofun
  | ok found =>
    obtain ⟨token, expiresIn⟩ := found
    have hfits := fits_iff now expiresIn token
    have hone : (∀ token' expiresIn', (Except.ok (token, expiresIn) :
        Except ChannelError (String × Int64)) = .ok (token', expiresIn') → Fits now expiresIn') ↔
          Fits now expiresIn := by
      constructor
      · exact fun hall => hall token expiresIn rfl
      · rintro hfits token' expiresIn' ⟨⟩
        exact hfits
    rw [hone, ← hfits]
    dsimp only
    cases hsum : expiresAt? now expiresIn with
    | none =>
      refine iff_of_false (fun hsafe => ?_) (by simp)
      exact hsafe.noPanic .panicked (List.mem_set hn _) rfl
    | some expiresAt =>
      constructor
      · intro hsafe
        exact ⟨expiresAt, rfl, hsafe.cached _ rfl⟩
      · rintro ⟨_, ⟨⟩, hinTime⟩
        refine h.set nofun nofun ?_
        rintro entry ⟨⟩
        exact hinTime

/-- A step keeps the state safe exactly if it fits. -/
theorem safe_step_iff (h : s.Safe) {m : TokenMove} (hstep : s.step invalid m = some s') :
    s'.Safe ↔ m.Fits invalid := by
  cases m with
  | enter =>
    cases hstep
    refine iff_of_true ⟨forall_mem_concat h.noPanic nofun, fun entry now hreused => ?_,
      h.cached⟩ trivial
    rcases List.mem_append.mp hreused with hreused | hreused
    · exact h.served entry now hreused
    · cases List.mem_singleton.mp hreused
  | lookup n now =>
    simp only [TokenState.step] at hstep
    split at hstep
    case h_1 =>
      cases hstep
      exact iff_of_true (safe_lookup h) trivial
    case h_2 => cases hstep
  | respond n now reply =>
    simp only [TokenState.step] at hstep
    split at hstep
    case h_1 hn =>
      cases hstep
      exact safe_receive_iff h (List.getElem?_eq_some_iff.mp hn).1
    case h_2 => cases hstep

/-- Whatever the order of the calls' steps is, in no state of a run has a call
panicked or been served a token late, or could be next, if and only if the
`expires_in` of each response with a token fits. -/
theorem token_cache_safe_iff {moves : List TokenMove}
    (hrun : run (TokenState.step invalid) .init moves = some s) :
    EveryState (TokenState.step invalid) TokenState.Safe .init moves ↔
      ∀ m ∈ moves, m.Fits invalid := by
  rw [← everyStep_iff_forall_mem hrun]
  apply everyState_iff_everyStep (P := fun _ m => TokenMove.Fits invalid m)
    (fun t (ht : TokenState.Safe t) => ht) _ _ safe_init
    (everyStep_of_forall (fun _ _ => trivial) TokenState.init moves) hrun
  · intro t m t' ht _ hfits hstep
    exact (safe_step_iff ht hstep).mpr hfits
  · intro t m t' ht _ hstep hsafe
    exact (safe_step_iff ht hstep).mp hsafe

end Runs

/-! ## Two responses -/

def serdeInvalid : InvalidInteger := fun n => s!"invalid value: integer `{n}`, expected i64"

def expiring (expiresIn : Option Int) : Gettoken :=
  .response (.ok ⟨0, some "ok", some "token", expiresIn⟩)

def atSecond (secs : Int64) : Instant := ⟨secs, 0, by decide⟩

/-- A server that says `"expires_in": -1` makes the call panic. -/
theorem negative_expires_in_panics :
    run (TokenState.step serdeInvalid) .init
        [.enter, .lookup 0 (atSecond 1000), .respond 0 (atSecond 1001) (expiring (some (-1)))] =
      some ⟨none, [.panicked]⟩ ∧
    ¬ EveryState (TokenState.step serdeInvalid) TokenState.Safe .init
        [.enter, .lookup 0 (atSecond 1000), .respond 0 (atSecond 1001) (expiring (some (-1)))] := by
  refine ⟨rfl, fun h => ?_⟩
  have hlast := ((h.2 _ rfl).2 _ rfl).2 _ rfl
  exact hlast.noPanic .panicked (.head _) rfl

/-- The ordinary response is cached and served for 7140 seconds. -/
theorem token_cache_safe_hours :
    EveryState (TokenState.step serdeInvalid) TokenState.Safe .init
      [.enter, .lookup 0 (atSecond 1000), .respond 0 (atSecond 1001) (expiring (some 7200)),
        .enter, .lookup 1 (atSecond 8140)] := by
  refine (token_cache_safe_iff rfl).mpr ?_
  intro m hm
  simp only [List.mem_cons, List.not_mem_nil, or_false] at hm
  rcases hm with rfl | rfl | rfl | rfl | rfl
  case inr.inr.inl =>
    rintro token expiresIn ⟨⟩
    exact ⟨by decide, by decide⟩
  all_goals trivial

end MagicLaw.DingTalk
