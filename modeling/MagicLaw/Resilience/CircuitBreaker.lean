import Mathlib.Algebra.Group.Nat.Defs
import Mathlib.Data.List.Induction
import MagicLaw.Lib.Machine

/-!
# The circuit breaker

`CircuitBreaker` of `core/resilience/circuit_breaker.rs`, and what holds of
its histories.

* `breaker_recovers`: of two calls of `allow_request` that come late enough,
  one is let through.
* `trips_exactly`: the breaker leaves Closed with the failure that completes
  `failure_threshold` in a row, and while it is Open and the timeout has not
  passed it lets nothing through and stays as it is.
* `admissions_limited_iff`: `half_open_max` limits the requests in HalfOpen
  only where the callers do, who make no more calls of `allow_request`.

An `Instant` is the number of nanoseconds that have passed.  `record_failure`
comes in two parts, `countFailure` and `trip`, since only the second one is
under the lock of the state.  `last_failure_time` is written and never read.
-/

namespace MagicLaw.Resilience

open Lib.Machine

/-! ## The breaker -/

inductive CircuitState where
  | closed | opened | halfOpen
  deriving DecidableEq, Repr

structure BreakerConfig where
  failureThreshold : UInt32
  timeout : Nat
  halfOpenMax : UInt32

/-- `BreakerConfig::default` -/
def BreakerConfig.default : BreakerConfig where
  failureThreshold := 20
  timeout := 300 * 10 ^ 9
  halfOpenMax := 3

/-- A breaker for examples: it trips at the first failure and waits for 5. -/
def BreakerConfig.quick : BreakerConfig where
  failureThreshold := 1
  timeout := 5
  halfOpenMax := 1

structure CircuitBreaker where
  state : CircuitState
  failureCount : UInt32
  openedAt : Option Nat
  deriving DecidableEq

namespace CircuitBreaker

def new : CircuitBreaker where
  state := .closed
  failureCount := 0
  openedAt := none

/-- `opened.elapsed() >= timeout` for the instant it was opened at, if any. -/
def timedOut (config : BreakerConfig) (b : CircuitBreaker) (now : Nat) : Bool :=
  match b.openedAt with
  | some opened => config.timeout ≤ now - opened
  | none => false

def allowRequest (config : BreakerConfig) (b : CircuitBreaker) (now : Nat) :
    Bool × CircuitBreaker :=
  match b.state with
  | .closed => (true, b)
  | .opened =>
    if b.timedOut config now then (true, { b with state := .halfOpen, failureCount := 0 })
    else (false, b)
  | .halfOpen =>
    if config.halfOpenMax ≤ b.failureCount then
      if b.timedOut config now then
        (false, { b with state := .opened, openedAt := some now, failureCount := 0 })
      else (false, b)
    else (true, b)

def recordSuccess (b : CircuitBreaker) : CircuitBreaker :=
  { b with
    failureCount := 0
    state := if b.state = .halfOpen then .closed else b.state }

/-- `fetch_add`, and what `record_failure` takes for the count. -/
def countFailure (b : CircuitBreaker) : UInt32 × CircuitBreaker :=
  (b.failureCount + 1, { b with failureCount := b.failureCount + 1 })

/-- The rest of `record_failure`. -/
def trip (config : BreakerConfig) (count : UInt32) (b : CircuitBreaker) (now : Nat) :
    CircuitBreaker :=
  if config.failureThreshold ≤ count then
    if b.state = .closed then { b with state := .opened, openedAt := some now } else b
  else b

def recordFailure (config : BreakerConfig) (b : CircuitBreaker) (now : Nat) : CircuitBreaker :=
  let (count, b) := b.countFailure
  b.trip config count now

end CircuitBreaker

/-! ## Histories -/

inductive BreakerCall where
  | allowRequest | recordSuccess | recordFailure
  deriving DecidableEq, Repr

/-- A call at an instant, and the request it is made for, which the breaker
does not see. -/
structure Event where
  request : Nat
  call : BreakerCall
  now : Nat

def CircuitBreaker.apply (config : BreakerConfig) (b : CircuitBreaker) (e : Event) :
    CircuitBreaker :=
  match e.call with
  | .allowRequest => (b.allowRequest config e.now).2
  | .recordSuccess => b.recordSuccess
  | .recordFailure => b.recordFailure config e.now

/-- The breaker after the calls, the last one at the end. -/
def breakerAfter (config : BreakerConfig) (history : List Event) : CircuitBreaker :=
  history.foldl (CircuitBreaker.apply config) .new

/-- The instants do not decrease. -/
def InOrder (history : List Event) : Prop := history.Pairwise fun e e' => e.now ≤ e'.now

theorem breakerAfter_concat (config : BreakerConfig) (history : List Event) (e : Event) :
    breakerAfter config (history ++ [e]) = (breakerAfter config history).apply config e :=
  List.foldl_concat ..

/-! ## What a call does -/

namespace CircuitBreaker

variable {config : BreakerConfig} {b : CircuitBreaker} {now : Nat}

/-- The ways from one state to another. -/
inductive Transition (config : BreakerConfig) (b : CircuitBreaker) (now : Nat) :
    BreakerCall → CircuitBreaker → Prop where
  | trips (hclosed : b.state = .closed) (hcount : config.failureThreshold ≤ b.failureCount + 1) :
      Transition config b now .recordFailure ⟨.opened, b.failureCount + 1, some now⟩
  | probes (hopened : b.state = .opened) (htimeout : b.timedOut config now = true) :
      Transition config b now .allowRequest ⟨.halfOpen, 0, b.openedAt⟩
  | reverts (hhalf : b.state = .halfOpen) (hcount : config.halfOpenMax ≤ b.failureCount)
      (htimeout : b.timedOut config now = true) :
      Transition config b now .allowRequest ⟨.opened, 0, some now⟩
  | closes (hhalf : b.state = .halfOpen) :
      Transition config b now .recordSuccess ⟨.closed, 0, b.openedAt⟩

/-- What a call leaves of the counter where the breaker stays in its state. -/
def countAfter (b : CircuitBreaker) : BreakerCall → UInt32
  | .allowRequest => b.failureCount
  | .recordSuccess => 0
  | .recordFailure => b.failureCount + 1

/-- A call is one of the transitions, or it touches the counter only. -/
theorem transition_or_stays (config : BreakerConfig) (b : CircuitBreaker) (e : Event) :
    Transition config b e.now e.call (b.apply config e) ∨
      b.apply config e = { b with failureCount := b.countAfter e.call } := by
  obtain ⟨request, call, now⟩ := e
  obtain ⟨state, count, openedAt⟩ := b
  cases call with
  | allowRequest =>
    cases state with
    | closed => exact .inr rfl
    | opened =>
      by_cases htimeout : timedOut config ⟨.opened, count, openedAt⟩ now = true
      · left
        simpa [apply, allowRequest, htimeout] using Transition.probes rfl htimeout
      · right
        simp [apply, allowRequest, htimeout, countAfter]
    | halfOpen =>
      by_cases hcount : config.halfOpenMax ≤ count
      · by_cases htimeout : timedOut config ⟨.halfOpen, count, openedAt⟩ now = true
        · left
          simpa [apply, allowRequest, hcount, htimeout] using
            Transition.reverts rfl hcount htimeout
        · right
          simp [apply, allowRequest, hcount, htimeout, countAfter]
      · right
        simp [apply, allowRequest, hcount, countAfter]
  | recordSuccess =>
    cases state with
    | halfOpen => exact .inl (.closes rfl)
    | closed | opened => exact .inr rfl
  | recordFailure =>
    by_cases htrips : config.failureThreshold ≤ count + 1 ∧ state = .closed
    · obtain ⟨hcount, rfl⟩ := htrips
      left
      simpa [apply, recordFailure, countFailure, trip, hcount] using
        @Transition.trips config ⟨.closed, count, openedAt⟩ now rfl hcount
    · right
      simp only [apply, recordFailure, countFailure, trip, countAfter]
      grind

theorem allowRequest_of_closed (h : b.state = .closed) :
    b.allowRequest config now = (true, b) := by
  simp [allowRequest, h]

theorem allowRequest_of_early (h : b.state = .opened) (hearly : b.timedOut config now = false) :
    b.allowRequest config now = (false, b) := by
  simp [allowRequest, h, hearly]

theorem allowRequest_of_timedOut (h : b.state = .opened) (hlate : b.timedOut config now = true) :
    (b.allowRequest config now).1 = true := by
  simp [allowRequest, h, hlate]

/-- In HalfOpen a request is let through exactly where the failures are below
the limit, and then nothing changes. -/
theorem allowRequest_of_halfOpen (h : b.state = .halfOpen) :
    ((b.allowRequest config now).1 = true ↔ b.failureCount < config.halfOpenMax) := by
  by_cases hcount : config.halfOpenMax ≤ b.failureCount
  · have hnot : ¬b.failureCount < config.halfOpenMax := UInt32.not_lt.mpr hcount
    by_cases htimeout : b.timedOut config now = true <;>
      simp [allowRequest, h, hcount, htimeout, hnot]
  · simp [allowRequest, h, hcount, UInt32.not_le.mp hcount]

/-- Right after a request was let through the breaker is Closed or HalfOpen. -/
theorem state_of_allowed (h : (b.allowRequest config now).1 = true) :
    (b.allowRequest config now).2.state ≠ .opened := by
  cases hstate : b.state with
  | closed => simp [allowRequest_of_closed hstate, hstate]
  | opened =>
    by_cases htimeout : b.timedOut config now = true
    · simp [allowRequest, hstate, htimeout]
    · simp [allowRequest, hstate, htimeout] at h
  | halfOpen =>
    have hcount := UInt32.not_le.mpr ((allowRequest_of_halfOpen hstate).mp h)
    simp [allowRequest, hstate, hcount]

theorem trip_of_halfOpen {count : UInt32} (h : b.state = .halfOpen) :
    b.trip config count now = b := by
  simp [trip, h]

theorem halfOpen_of_recordFailure (h : (b.recordFailure config now).state = .halfOpen) :
    b.state = .halfOpen := by
  by_cases hcount : config.failureThreshold ≤ b.failureCount + 1 <;>
    by_cases hclosed : b.state = .closed <;>
      simp_all [recordFailure, countFailure, trip]

theorem timedOut_iff {opened : Nat} (h : b.openedAt = some opened) :
    b.timedOut config now = true ↔ config.timeout ≤ now - opened := by
  simp [timedOut, h]

end CircuitBreaker

/-! ## Recovery -/

/-- Outside of Closed the breaker knows when it opened, and that was no later
than `t`. -/
def Dated (t : Nat) (b : CircuitBreaker) : Prop :=
  b.state ≠ .closed → ∃ opened, b.openedAt = some opened ∧ opened ≤ t

theorem Dated.mono {b : CircuitBreaker} {t t' : Nat} (h : Dated t b) (hle : t ≤ t') :
    Dated t' b := by
  intro hstate
  obtain ⟨opened, hopened, hbefore⟩ := h hstate
  exact ⟨opened, hopened, Nat.le_trans hbefore hle⟩

theorem dated_apply {config : BreakerConfig} {b : CircuitBreaker} {e : Event}
    (h : Dated e.now b) : Dated e.now (b.apply config e) := by
  rcases b.transition_or_stays config e with hmoves | hstays
  · obtain ⟨request, call, now⟩ := e
    generalize b.apply config ⟨request, call, now⟩ = after at hmoves
    cases hmoves with
    | trips | reverts => exact fun _ => ⟨now, rfl, Nat.le_refl now⟩
    | probes hopened => exact fun _ => h (by simp [hopened])
    | closes => exact fun hstate => absurd rfl hstate
  · rw [hstays]
    exact h

theorem dated_breakerAfter {config : BreakerConfig} {history : List Event}
    (hord : InOrder history) {t : Nat} (ht : ∀ e ∈ history, e.now ≤ t) :
    Dated t (breakerAfter config history) := by
  induction history using List.reverseRecOn generalizing t with
  | nil => exact fun hstate => absurd rfl hstate
  | append_singleton history e ih =>
    rw [breakerAfter_concat]
    have hparts := List.pairwise_append.mp hord
    have hbefore : Dated e.now (breakerAfter config history) :=
      ih hparts.1 fun e' he' => hparts.2.2 e' he' e (List.mem_singleton_self e)
    exact (dated_apply hbefore).mono (ht e (by simp))

theorem exists_last (history : List Event) : ∃ last, ∀ e ∈ history, e.now ≤ last := by
  induction history with
  | nil => exact ⟨0, by simp⟩
  | cons e history ih =>
    obtain ⟨last, hlast⟩ := ih
    refine ⟨e.now + last, List.forall_mem_cons.mpr ⟨by omega, fun e' he' => ?_⟩⟩
    have := hlast e' he'
    omega

/-- Two calls that both come a timeout after what was before them. -/
theorem allowRequest_twice {config : BreakerConfig} {b : CircuitBreaker} {t t₁ t₂ : Nat}
    (hdated : Dated t b) (h₁ : t + config.timeout ≤ t₁) (h₂ : t₁ + config.timeout ≤ t₂) :
    (b.allowRequest config t₁).1 = true ∨
      ((b.allowRequest config t₁).2.allowRequest config t₂).1 = true := by
  cases hstate : b.state with
  | closed => exact .inl (by rw [CircuitBreaker.allowRequest_of_closed hstate])
  | opened =>
    obtain ⟨opened, hopened, hbefore⟩ := hdated (by simp [hstate])
    have hlate : b.timedOut config t₁ = true := by
      rw [CircuitBreaker.timedOut_iff hopened]
      omega
    exact .inl (CircuitBreaker.allowRequest_of_timedOut hstate hlate)
  | halfOpen =>
    by_cases hcount : b.failureCount < config.halfOpenMax
    · exact .inl ((CircuitBreaker.allowRequest_of_halfOpen hstate).mpr hcount)
    · right
      -- The first call finds the probes used up and goes back to Open, so that
      -- the timeout starts at `t₁`.
      obtain ⟨opened, hopened, hbefore⟩ := hdated (by simp [hstate])
      have hlate : b.timedOut config t₁ = true := by
        rw [CircuitBreaker.timedOut_iff hopened]
        omega
      have hreverts : (b.allowRequest config t₁).2 = ⟨.opened, 0, some t₁⟩ := by
        simp [CircuitBreaker.allowRequest, hstate, UInt32.not_lt.mp hcount, hlate]
      rw [hreverts]
      apply CircuitBreaker.allowRequest_of_timedOut rfl
      rw [CircuitBreaker.timedOut_iff rfl]
      omega

theorem breaker_recovers (config : BreakerConfig) (history : List Event)
    (hord : InOrder history) :
    ((breakerAfter config history).state ≠ .closed →
      (breakerAfter config history).openedAt.isSome = true) ∧
    ∀ t₁ t₂, (∀ e ∈ history, e.now + config.timeout ≤ t₁) → t₁ + config.timeout ≤ t₂ →
      let first := (breakerAfter config history).allowRequest config t₁
      first.1 = true ∨ (first.2.allowRequest config t₂).1 = true := by
  constructor
  · intro hstate
    obtain ⟨last, hlast⟩ := exists_last history
    obtain ⟨opened, hopened, -⟩ := dated_breakerAfter hord hlast hstate
    rw [hopened]
    rfl
  · intro t₁ t₂ h₁ h₂
    by_cases hnil : history = []
    · subst hnil
      exact .inl rfl
    · -- The timeout is below `t₁`, so `t₁ - timeout` bounds the instants.
      have hlast : ∀ e ∈ history, e.now ≤ t₁ - config.timeout := by
        intro e he
        have := h₁ e he
        omega
      obtain ⟨e, he⟩ := List.exists_mem_of_ne_nil history hnil
      have htimeout := h₁ e he
      exact allowRequest_twice (dated_breakerAfter hord hlast) (by omega) h₂

/-- The breaker trips at once, and its one probe fails, so that the first of
the two calls is turned away. -/
theorem breaker_recovers_tripped :
    let history : List Event :=
      [⟨0, .recordFailure, 0⟩, ⟨1, .allowRequest, 5⟩, ⟨1, .recordFailure, 6⟩]
    let first := (breakerAfter .quick history).allowRequest .quick 11
    first.1 = false ∧ (first.1 = true ∨ (first.2.allowRequest .quick 16).1 = true) := by
  refine ⟨by decide, ?_⟩
  exact (breaker_recovers .quick
    [⟨0, .recordFailure, 0⟩, ⟨1, .allowRequest, 5⟩, ⟨1, .recordFailure, 6⟩]
    (by unfold InOrder; decide)).2 11 16 (by decide) (by decide)

/-! ## Trips -/

/-- The breaker with what a reader of its history knows: the failures since
the last success or since it last became Closed, and when it last became
Open. -/
structure Observed where
  breaker : CircuitBreaker
  streak : Nat
  opening : Option Nat

def Observed.new : Observed where
  breaker := .new
  streak := 0
  opening := none

def Observed.apply (config : BreakerConfig) (o : Observed) (e : Event) : Observed :=
  let after := o.breaker.apply config e
  { breaker := after
    streak :=
      if e.call = .recordSuccess ∨ o.breaker.state ≠ .closed ∧ after.state = .closed then 0
      else if e.call = .recordFailure then o.streak + 1
      else o.streak
    opening :=
      if o.breaker.state ≠ .opened ∧ after.state = .opened then some e.now else o.opening }

def observed (config : BreakerConfig) (history : List Event) : Observed :=
  history.foldl (Observed.apply config) .new

theorem observed_breaker (config : BreakerConfig) (history : List Event) :
    (observed config history).breaker = breakerAfter config history := by
  induction history using List.reverseRecOn with
  | nil => rfl
  | append_singleton history e ih =>
    rw [breakerAfter_concat, ← ih, observed, List.foldl_concat]
    rfl

/-- In Closed the counter is the streak, and below the threshold.  In Open
`opened_at` is the opening. -/
structure Tracks (config : BreakerConfig) (o : Observed) : Prop where
  counts : o.breaker.state = .closed → o.breaker.failureCount.toNat = o.streak
  below : o.breaker.state = .closed → o.breaker.failureCount < config.failureThreshold
  dates : o.breaker.state = .opened → o.opening.isSome = true ∧ o.breaker.openedAt = o.opening

theorem leaves_closed_iff {config : BreakerConfig} {b : CircuitBreaker} (hclosed : b.state = .closed)
    (e : Event) :
    (b.apply config e).state ≠ .closed ↔
      e.call = .recordFailure ∧ config.failureThreshold ≤ b.failureCount + 1 := by
  obtain ⟨request, call, now⟩ := e
  cases call with
  | allowRequest => simp [CircuitBreaker.apply, CircuitBreaker.allowRequest_of_closed, hclosed]
  | recordSuccess => simp [CircuitBreaker.apply, CircuitBreaker.recordSuccess, hclosed]
  | recordFailure =>
    by_cases hcount : config.failureThreshold ≤ b.failureCount + 1 <;>
      simp [CircuitBreaker.apply, CircuitBreaker.recordFailure, CircuitBreaker.countFailure,
        CircuitBreaker.trip, hclosed, hcount]

/-- Below the threshold the counter does not overflow. -/
theorem toNat_add_one_of_lt {count threshold : UInt32} (h : count < threshold) :
    (count + 1).toNat = count.toNat + 1 := by
  have hcount : count.toNat < threshold.toNat := UInt32.lt_iff_toNat_lt.mp h
  have hthreshold : threshold.toNat < 2 ^ 32 := threshold.toNat_lt
  rw [UInt32.toNat_add]
  exact Nat.mod_eq_of_lt (by simp; omega)

/-- The failure that is counted next completes the streak, or the counter
stays below the threshold. -/
theorem threshold_le_iff {count threshold : UInt32} (h : count < threshold) :
    threshold ≤ count + 1 ↔ count.toNat + 1 = threshold.toNat := by
  have hcount : count.toNat < threshold.toNat := UInt32.lt_iff_toNat_lt.mp h
  rw [UInt32.le_iff_toNat_le, toNat_add_one_of_lt h]
  omega

theorem Tracks.new {config : BreakerConfig} (hthreshold : 1 ≤ config.failureThreshold) :
    Tracks config .new where
  counts _ := rfl
  below _ := by
    have := UInt32.le_iff_toNat_le.mp hthreshold
    rw [UInt32.lt_iff_toNat_lt]
    show 0 < config.failureThreshold.toNat
    exact this
  dates h := nomatch h

theorem Tracks.apply_of_moves {config : BreakerConfig} (hthreshold : 1 ≤ config.failureThreshold)
    {o : Observed} {e : Event}
    (hmoves : o.breaker.Transition config e.now e.call (o.breaker.apply config e)) :
    Tracks config (o.apply config e) := by
  obtain ⟨request, call, now⟩ := e
  generalize hafter : o.breaker.apply config ⟨request, call, now⟩ = after at hmoves
  cases hmoves with
  | trips hclosed =>
    constructor <;> simp [Observed.apply, hafter, hclosed]
  | probes hopened =>
    constructor <;> simp [Observed.apply, hafter]
  | reverts hhalf =>
    constructor <;> simp [Observed.apply, hafter, hhalf]
  | closes hhalf =>
    have hpos := (Tracks.new hthreshold).below rfl
    constructor <;> simp [Observed.apply, hafter]
    exact hpos

/-- A call that leaves the breaker in Closed counts with the streak, and keeps
the counter below the threshold. -/
theorem Tracks.counts_of_stays {config : BreakerConfig} (hthreshold : 1 ≤ config.failureThreshold)
    {o : Observed} (h : Tracks config o) {e : Event} (hclosed : o.breaker.state = .closed)
    (hstays : o.breaker.apply config e =
      { o.breaker with failureCount := o.breaker.countAfter e.call }) :
    (o.breaker.countAfter e.call).toNat = (o.apply config e).streak ∧
      o.breaker.countAfter e.call < config.failureThreshold := by
  obtain ⟨request, call, now⟩ := e
  have hcounts := h.counts hclosed
  have hbelow := h.below hclosed
  cases call with
  | allowRequest =>
    refine ⟨?_, hbelow⟩
    simpa [Observed.apply, hstays, hclosed, CircuitBreaker.countAfter] using hcounts
  | recordSuccess =>
    refine ⟨?_, (Tracks.new hthreshold).below rfl⟩
    simp [Observed.apply, CircuitBreaker.countAfter]
  | recordFailure =>
    constructor
    · have hnext := toNat_add_one_of_lt hbelow
      simp only [Observed.apply, hstays, hclosed, CircuitBreaker.countAfter]
      rw [hnext, hcounts]
      simp
    · have hleaves := @leaves_closed_iff config _ hclosed ⟨request, .recordFailure, now⟩
      rw [hstays] at hleaves
      exact UInt32.not_le.mp fun hcount => (hleaves.mpr ⟨rfl, hcount⟩) hclosed

theorem Tracks.apply {config : BreakerConfig} (hthreshold : 1 ≤ config.failureThreshold)
    {o : Observed} (h : Tracks config o) (e : Event) : Tracks config (o.apply config e) := by
  rcases o.breaker.transition_or_stays config e with hmoves | hstays
  · exact .apply_of_moves hthreshold hmoves
  · have hstate : (o.apply config e).breaker.state = o.breaker.state := by
      show (o.breaker.apply config e).state = _
      rw [hstays]
    have hcount : (o.apply config e).breaker.failureCount = o.breaker.countAfter e.call := by
      show (o.breaker.apply config e).failureCount = _
      rw [hstays]
    constructor
    · intro hclosed
      rw [hcount]
      exact (h.counts_of_stays hthreshold (hstate.symm.trans hclosed) hstays).1
    · intro hclosed
      rw [hcount]
      exact (h.counts_of_stays hthreshold (hstate.symm.trans hclosed) hstays).2
    · intro hopened
      rw [hstate] at hopened
      simpa [Observed.apply, hstays, hopened] using h.dates hopened

theorem tracks_observed {config : BreakerConfig} (hthreshold : 1 ≤ config.failureThreshold)
    (history : List Event) : Tracks config (observed config history) := by
  induction history using List.reverseRecOn with
  | nil => exact .new hthreshold
  | append_singleton history e ih =>
    rw [observed, List.foldl_concat]
    exact ih.apply hthreshold e

/-- What `o` becomes, where the breaker leaves Closed. -/
theorem Tracks.trips_iff {config : BreakerConfig} {o : Observed} (h : Tracks config o)
    (hclosed : o.breaker.state = .closed) (e : Event) :
    (o.breaker.apply config e).state ≠ .closed ↔
      e.call = .recordFailure ∧ (o.apply config e).streak = config.failureThreshold.toNat := by
  rw [leaves_closed_iff hclosed]
  apply and_congr_right
  intro hcall
  have hstreak : (o.apply config e).streak = o.streak + 1 := by
    simp [Observed.apply, hcall, hclosed]
  rw [hstreak, threshold_le_iff (h.below hclosed), h.counts hclosed]

theorem trips_exactly (config : BreakerConfig) (hthreshold : 1 ≤ config.failureThreshold)
    (history : List Event) :
    let o := observed config history
    (o.breaker.state = .closed → ∀ e, (o.breaker.apply config e).state ≠ .closed ↔
      e.call = .recordFailure ∧ (o.apply config e).streak = config.failureThreshold.toNat) ∧
    (o.breaker.state = .opened → ∃ opening, o.opening = some opening ∧
      ∀ now, opening ≤ now → now < opening + config.timeout →
        o.breaker.allowRequest config now = (false, o.breaker)) := by
  have h := tracks_observed hthreshold history
  constructor
  · intro hclosed e
    exact h.trips_iff hclosed e
  · intro hopened
    obtain ⟨hsome, hdates⟩ := h.dates hopened
    obtain ⟨opening, hopening⟩ := Option.isSome_iff_exists.mp hsome
    refine ⟨opening, hopening, fun now hafter hbefore => ?_⟩
    apply CircuitBreaker.allowRequest_of_early hopened
    rw [← Bool.not_eq_true, CircuitBreaker.timedOut_iff (hdates.trans hopening)]
    omega

/-- One failure trips the breaker, at 3. -/
theorem trips_exactly_tripped :
    let o := observed .quick [⟨0, .recordFailure, 3⟩]
    o.breaker.state = .opened ∧ ∃ opening, o.opening = some opening ∧
      ∀ now, opening ≤ now → now < opening + BreakerConfig.quick.timeout →
        o.breaker.allowRequest .quick now = (false, o.breaker) :=
  ⟨by decide, (trips_exactly .quick (by decide)
    [⟨0, .recordFailure, 3⟩]).2 (by decide)⟩

/-! ## The requests in HalfOpen -/

/-- The breaker with the requests it let through since it entered HalfOpen,
the last one first, and whether the outcome of one of them was recorded. -/
structure Probing where
  breaker : CircuitBreaker
  probes : List Nat
  answered : Bool

def Probing.new : Probing where
  breaker := .new
  probes := []
  answered := false

def Probing.apply (config : BreakerConfig) (p : Probing) (e : Event) : Probing :=
  let after := p.breaker.apply config e
  match e.call with
  | .allowRequest =>
    if p.breaker.state ≠ .halfOpen ∧ after.state = .halfOpen then
      { breaker := after, probes := [e.request], answered := false }
    else if (p.breaker.allowRequest config e.now).1 then
      { p with breaker := after, probes := e.request :: p.probes }
    else { p with breaker := after }
  | .recordSuccess | .recordFailure =>
    { p with breaker := after, answered := p.answered || decide (e.request ∈ p.probes) }

/-- In HalfOpen no more than `half_open_max` requests were let through, up to
the first outcome of one of them. -/
def Limited (config : BreakerConfig) (p : Probing) : Prop :=
  p.breaker.state = .halfOpen → p.answered = false →
    p.probes.length ≤ config.halfOpenMax.toNat

/-- There is room for the requests that the call lets through.  The first one
after the timeout comes under a limit that is not 0, and the limit is not
reached when one comes in HalfOpen, while no probe has an outcome and the
counter allows it. -/
def HasRoom (config : BreakerConfig) (p : Probing) (e : Event) : Prop :=
  e.call = .allowRequest →
    (p.breaker.state = .opened → p.breaker.timedOut config e.now = true →
      0 < config.halfOpenMax.toNat) ∧
    (p.breaker.state = .halfOpen → p.answered = false →
      p.breaker.failureCount < config.halfOpenMax →
      p.probes.length < config.halfOpenMax.toNat)

theorem limited_request_iff {config : BreakerConfig} {p : Probing} (h : Limited config p)
    (request now : Nat) :
    Limited config (p.apply config ⟨request, .allowRequest, now⟩) ↔
      HasRoom config p ⟨request, .allowRequest, now⟩ := by
  cases hstate : p.breaker.state with
  | closed =>
    have hsame : p.breaker.allowRequest config now = (true, p.breaker) :=
      CircuitBreaker.allowRequest_of_closed hstate
    simp [Limited, HasRoom, Probing.apply, CircuitBreaker.apply, hsame, hstate]
  | opened =>
    by_cases htimeout : p.breaker.timedOut config now = true
    · simp [Limited, HasRoom, Probing.apply, CircuitBreaker.apply, CircuitBreaker.allowRequest,
        hstate, htimeout]
      omega
    · simp [Limited, HasRoom, Probing.apply, CircuitBreaker.apply, CircuitBreaker.allowRequest,
        hstate, htimeout]
  | halfOpen =>
    by_cases hcount : config.halfOpenMax ≤ p.breaker.failureCount
    · have hrefused : ¬p.breaker.failureCount < config.halfOpenMax := UInt32.not_lt.mpr hcount
      by_cases htimeout : p.breaker.timedOut config now = true
      · simp [Limited, HasRoom, Probing.apply, CircuitBreaker.apply, CircuitBreaker.allowRequest,
          hstate, hcount, htimeout, hrefused]
      · simpa [Limited, HasRoom, Probing.apply, CircuitBreaker.apply, CircuitBreaker.allowRequest,
          hstate, hcount, htimeout, hrefused] using h
    · have hallowed : p.breaker.failureCount < config.halfOpenMax := UInt32.not_le.mp hcount
      have hsame : p.breaker.allowRequest config now = (true, p.breaker) := by
        simp [CircuitBreaker.allowRequest, hstate, hcount]
      have hafter : p.apply config ⟨request, .allowRequest, now⟩ =
          { p with probes := request :: p.probes } := by
        simp [Probing.apply, CircuitBreaker.apply, hsame, hstate]
      rw [hafter]
      constructor
      · intro hlimited _
        constructor
        · exact fun hopened => nomatch hstate.symm.trans hopened
        · exact fun _ hanswered _ => hlimited hstate hanswered
      · intro hpaced _ hanswered
        exact (hpaced rfl).2 hstate hanswered hallowed

theorem not_halfOpen_of_recordSuccess (b : CircuitBreaker) :
    b.recordSuccess.state ≠ .halfOpen := by
  by_cases hstate : b.state = .halfOpen <;>
    simp [CircuitBreaker.recordSuccess, hstate]

/-- A success leaves HalfOpen, and a failure lets nothing through. -/
theorem limited_outcome {config : BreakerConfig} {p : Probing} (h : Limited config p)
    {e : Event} (hcall : e.call ≠ .allowRequest) : Limited config (p.apply config e) := by
  obtain ⟨request, call, now⟩ := e
  cases call with
  | allowRequest => exact absurd rfl hcall
  | recordSuccess =>
    exact fun hhalf => absurd hhalf (not_halfOpen_of_recordSuccess p.breaker)
  | recordFailure =>
    intro hhalf hanswered
    have hstate : p.breaker.state = .halfOpen := CircuitBreaker.halfOpen_of_recordFailure hhalf
    exact h hstate (Bool.or_eq_false_iff.mp hanswered).1

theorem limited_apply_iff {config : BreakerConfig} {p : Probing} (h : Limited config p)
    (e : Event) : Limited config (p.apply config e) ↔ HasRoom config p e := by
  obtain ⟨request, call, now⟩ := e
  cases call with
  | allowRequest => exact limited_request_iff h request now
  | recordSuccess | recordFailure =>
    exact iff_of_true (limited_outcome h nofun) nofun

theorem limited_new (config : BreakerConfig) : Limited config .new := nofun

theorem limited_iff_hasRoom (config : BreakerConfig) (history : List Event) :
    EveryState (total (Probing.apply config)) (Limited config) .new history ↔
      EveryStep (total (Probing.apply config)) (HasRoom config) .new history := by
  have hrun := run_total (Probing.apply config) .new history
  apply everyState_iff_everyStep (fun p (h : Limited config p) => h) _ _ (limited_new config)
    (everyStep_of_forall (fun _ _ => trivial) Probing.new history) hrun
  · rintro p e _ h - hroom ⟨⟩
    exact (limited_apply_iff h e).mpr hroom
  · rintro p e _ h - ⟨⟩ hgood
    exact (limited_apply_iff h e).mp hgood

/-- The breaker with the requests that called `allow_request` since it entered
HalfOpen, the last one first, up to the failures that make it refuse, and
whether the outcome of one of them was recorded. -/
structure Calling where
  breaker : CircuitBreaker
  callers : List Nat
  heard : Bool

def Calling.new : Calling where
  breaker := .new
  callers := []
  heard := false

def Calling.apply (config : BreakerConfig) (c : Calling) (e : Event) : Calling :=
  let after := c.breaker.apply config e
  match e.call, c.breaker.state with
  | .allowRequest, .closed => { c with breaker := after }
  | .allowRequest, .opened =>
    if c.breaker.timedOut config e.now then
      { breaker := after, callers := [e.request], heard := false }
    else { c with breaker := after }
  | .allowRequest, .halfOpen =>
    if c.breaker.failureCount < config.halfOpenMax then
      { c with breaker := after, callers := e.request :: c.callers }
    else { c with breaker := after }
  | .recordSuccess, _ | .recordFailure, _ =>
    { c with breaker := after, heard := c.heard || decide (e.request ∈ c.callers) }

/-- The callers keep the limit.  The call that enters HalfOpen comes under a
limit that is not 0, and as long as no caller's outcome is recorded and the
failures are below the limit, no more calls than that come in HalfOpen. -/
def Paced (config : BreakerConfig) (c : Calling) (e : Event) : Prop :=
  e.call = .allowRequest →
    (c.breaker.state = .opened → c.breaker.timedOut config e.now = true →
      0 < config.halfOpenMax.toNat) ∧
    (c.breaker.state = .halfOpen → c.heard = false →
      c.breaker.failureCount < config.halfOpenMax →
      c.callers.length < config.halfOpenMax.toNat)

/-- In HalfOpen the callers are the requests that were let through. -/
structure Admitted (p : Probing) (c : Calling) : Prop where
  breaker : c.breaker = p.breaker
  probes : p.breaker.state = .halfOpen → c.callers = p.probes ∧ c.heard = p.answered

theorem admitted_new : Admitted .new .new where
  breaker := rfl
  probes hhalf := by cases hhalf

theorem admitted_allowRequest {config : BreakerConfig} {p : Probing} {c : Calling}
    (h : Admitted p c) (request now : Nat) :
    Admitted (p.apply config ⟨request, .allowRequest, now⟩)
      (c.apply config ⟨request, .allowRequest, now⟩) := by
  obtain ⟨breaker, callers, heard⟩ := c
  obtain rfl : breaker = p.breaker := h.breaker
  cases hstate : p.breaker.state with
  | closed =>
    have hsame : p.breaker.allowRequest config now = (true, p.breaker) :=
      CircuitBreaker.allowRequest_of_closed hstate
    constructor <;> simp [Probing.apply, Calling.apply, CircuitBreaker.apply, hsame, hstate]
  | opened =>
    by_cases htimeout : p.breaker.timedOut config now = true <;>
      constructor <;>
        simp [Probing.apply, Calling.apply, CircuitBreaker.apply, CircuitBreaker.allowRequest,
          hstate, htimeout]
  | halfOpen =>
    obtain ⟨rfl, rfl⟩ := h.probes hstate
    by_cases hcount : config.halfOpenMax ≤ p.breaker.failureCount
    · have hrefused : ¬p.breaker.failureCount < config.halfOpenMax := UInt32.not_lt.mpr hcount
      by_cases htimeout : p.breaker.timedOut config now = true <;>
        constructor <;>
          simp [Probing.apply, Calling.apply, CircuitBreaker.apply, CircuitBreaker.allowRequest,
            hstate, hcount, htimeout, hrefused]
    · have hallowed : p.breaker.failureCount < config.halfOpenMax := UInt32.not_le.mp hcount
      have hsame : p.breaker.allowRequest config now = (true, p.breaker) := by
        simp [CircuitBreaker.allowRequest, hstate, hcount]
      constructor <;>
        simp [Probing.apply, Calling.apply, CircuitBreaker.apply, hsame, hstate, hallowed]

theorem admitted_apply (config : BreakerConfig) (p : Probing) (c : Calling) (e : Event)
    (h : Admitted p c) : Admitted (p.apply config e) (c.apply config e) := by
  obtain ⟨request, call, now⟩ := e
  cases call with
  | allowRequest => exact admitted_allowRequest h request now
  | recordSuccess =>
    refine ⟨congrArg CircuitBreaker.recordSuccess h.breaker, fun hhalf => ?_⟩
    exact absurd hhalf (not_halfOpen_of_recordSuccess p.breaker)
  | recordFailure =>
    refine ⟨congrArg (CircuitBreaker.recordFailure config · now) h.breaker, fun hhalf => ?_⟩
    obtain ⟨hcallers, hheard⟩ := h.probes (CircuitBreaker.halfOpen_of_recordFailure hhalf)
    simp only [Probing.apply, Calling.apply, hcallers, hheard, and_self]

theorem hasRoom_iff_paced (config : BreakerConfig) (p : Probing) (c : Calling) (e : Event)
    (h : Admitted p c) : HasRoom config p e ↔ Paced config c e := by
  unfold HasRoom Paced
  rw [h.breaker]
  refine imp_congr_right fun _ => and_congr_right fun _ => forall_congr' fun hhalf => ?_
  rw [(h.probes hhalf).1, (h.probes hhalf).2]

/-- In every history no more than `half_open_max` requests are let through in
HalfOpen, up to the first outcome of one of them, exactly when no more calls
come. -/
theorem admissions_limited_iff (config : BreakerConfig) (history : List Event) :
    EveryState (total (Probing.apply config)) (Limited config) .new history ↔
      EveryStep (total (Calling.apply config)) (Paced config) .new history :=
  (limited_iff_hasRoom config history).trans
    (everyStep_total_iff (hasRoom_iff_paced config) (admitted_apply config) admitted_new history)

/-- The failure of request 0 opens the breaker, and with one request allowed
in HalfOpen requests 1 and 2 are both let through. -/
theorem not_admissions_limited :
    ¬∀ (config : BreakerConfig) (history : List Event),
      EveryState (total (Probing.apply config)) (Limited config) .new history := by
  intro h
  have hlimited := h .quick
    [⟨0, .recordFailure, 0⟩, ⟨1, .allowRequest, 5⟩, ⟨2, .allowRequest, 6⟩]
  have hlast := ((hlimited.2 _ rfl).2 _ rfl).2 _ rfl
  exact absurd (hlast rfl rfl) (by decide)

end MagicLaw.Resilience
