import MagicLaw.Outbox.Loops
import MagicLaw.Outbox.Replay
import MagicLaw.Resilience.CircuitBreaker

/-!
# The outbox worker behind its gate

`ResilientOutboxSender` of `application/resilient_sender.rs`, through which
`start_background` of `infrastructure/runtime.rs` lets the worker send.  The
gate asks the breaker before each send and tells it the result of each send
that it lets through.  To the worker a refusal is a send that failed.

The worker awaits a send before it makes the next one, and nothing else passes
this gate.  So `execute` runs once at a time, and the permits of the bulkhead
never run out.  A process that starts again has a new breaker.

* `asks_bounded`: how often the channels are asked while they fail.
* `open_spends_retries`: while the breaker is Open the channels are not asked,
  and each refusal uses up a retry of its message, the last one included.
-/

namespace MagicLaw.Outbox

open Lib Lib.Program Lib.Machine
open MagicLaw.Resilience (BreakerConfig CircuitBreaker BreakerCall Dated dated_apply)

/-! ## The gate -/

/-- What the worker gets for a send that the gate refuses. -/
def Outcome.refused (o : Outcome) : Outcome := { o with fault := some "circuit breaker open" }

/-- The part of `execute` after the operation. -/
def answered (config : BreakerConfig) (b : CircuitBreaker) (o : Outcome) (now : Nat) :
    CircuitBreaker :=
  match o.fault with
  | none => b.recordSuccess
  | some _ => b.recordFailure config now

/-- The process with its breaker.  `asked` has the messages that were passed to
a channel and `refused` those that the gate refused, the newest first.  The
code keeps neither. -/
structure Gated where
  process : Process
  breaker : CircuitBreaker
  clock : Nat
  asked : List String
  refused : List String

/-- An action of the process, the time that passes before it, and the time
that a channel takes, if one is asked. -/
structure GatedMove where
  action : Action
  before : Nat
  during : Nat

namespace Gated

def init : Gated := ⟨Process.init, .new, 0, [], []⟩

/-- The send that the move is about, and its outcome if a channel is asked. -/
def send? (s : Gated) (m : GatedMove) : Option (OutboxEntry × Outcome) :=
  match m.action, s.process.phase.nextCall? with
  | .call o, some (.send entry) => some (entry, o)
  | _, _ => none

/-- `allow_request` at the time of the move. -/
def allowRequest (config : BreakerConfig) (s : Gated) (m : GatedMove) : Bool × CircuitBreaker :=
  s.breaker.allowRequest config (s.clock + m.before)

/-- The action that the process takes. -/
def seen (config : BreakerConfig) (s : Gated) (m : GatedMove) : Action :=
  match s.send? m with
  | some (_, o) => if (s.allowRequest config m).1 then m.action else .call o.refused
  | none => m.action

/-- The gate after the move, when the process is `process`. -/
def after (config : BreakerConfig) (s : Gated) (m : GatedMove) (process : Process) : Gated :=
  let now := s.clock + m.before
  match s.send? m with
  | some (entry, o) =>
    let (allowed, breaker) := s.allowRequest config m
    if allowed then
      { process := process
        breaker := answered config breaker o (now + m.during)
        clock := now + m.during
        asked := entry.id :: s.asked
        refused := s.refused }
    else
      { process := process
        breaker := breaker
        clock := now
        asked := s.asked
        refused := entry.id :: s.refused }
  | none =>
    { process := process
      breaker := match m.action with
        | .restart => .new
        | _ => s.breaker
      clock := now
      asked := s.asked
      refused := s.refused }

def step (config : BreakerConfig) (retry : RetryConfig) (s : Gated) (m : GatedMove) :
    Option Gated :=
  (s.process.step retry (s.seen config m)).map (s.after config m)

end Gated

/-! ## What a step does -/

section Step

variable {config : BreakerConfig} {retry : RetryConfig} {s t : Gated} {m : GatedMove}

theorem Gated.send?_eq_some {entry : OutboxEntry} {o : Outcome}
    (h : s.send? m = some (entry, o)) :
    m.action = .call o ∧ s.process.phase.nextCall? = some (.send entry) := by
  unfold send? at h
  split at h
  case h_1 haction hnext =>
    cases h
    exact ⟨haction, hnext⟩
  case h_2 => cases h

theorem Gated.send?_of_eq {entry : OutboxEntry} {o : Outcome} (haction : m.action = .call o)
    (hnext : s.process.phase.nextCall? = some (.send entry)) : s.send? m = some (entry, o) := by
  simp [send?, haction, hnext]

/-- The three kinds of steps. -/
inductive Gates (config : BreakerConfig) (retry : RetryConfig) (s : Gated) (m : GatedMove) :
    Gated → Prop where
  | asks {entry o process} (hsend : s.send? m = some (entry, o))
      (hallowed : (s.allowRequest config m).1 = true)
      (hstep : s.process.step retry (.call o) = some process) :
      Gates config retry s m
        ⟨process, answered config (s.allowRequest config m).2 o (s.clock + m.before + m.during),
          s.clock + m.before + m.during, entry.id :: s.asked, s.refused⟩
  | refuses {entry o process} (hsend : s.send? m = some (entry, o))
      (hrefused : (s.allowRequest config m).1 = false)
      (hstep : s.process.step retry (.call o.refused) = some process) :
      Gates config retry s m
        ⟨process, (s.allowRequest config m).2, s.clock + m.before, s.asked, entry.id :: s.refused⟩
  | passes {process breaker} (hsend : s.send? m = none)
      (hbreaker : breaker = s.breaker ∨ m.action = .restart ∧ breaker = .new)
      (hstep : s.process.step retry m.action = some process) :
      Gates config retry s m ⟨process, breaker, s.clock + m.before, s.asked, s.refused⟩

theorem gates_of_step (h : s.step config retry m = some t) : Gates config retry s m t := by
  obtain ⟨process, hstep, rfl⟩ := Option.map_eq_some_iff.mp h
  unfold Gated.seen at hstep
  unfold Gated.after
  cases hsend : s.send? m with
  | none =>
    rw [hsend] at hstep
    refine .passes hsend ?_ hstep
    cases haction : m.action with
    | restart => exact .inr ⟨rfl, rfl⟩
    | enqueue | startPending | startRetries | startReplay | call | finish | crash => exact .inl rfl
  | some sent =>
    obtain ⟨entry, o⟩ := sent
    simp only [hsend] at hstep
    cases hallowed : (s.allowRequest config m).1 with
    | true =>
      rw [hallowed, if_pos rfl, (Gated.send?_eq_some hsend).1] at hstep
      simpa [hallowed] using Gates.asks hsend hallowed hstep
    | false =>
      rw [hallowed, if_neg Bool.false_ne_true] at hstep
      simpa [hallowed] using Gates.refuses hsend hallowed hstep

/-- The worker behind the gate is the worker, for whom a refusal is a send that
failed. -/
theorem seen_of_step (h : s.step config retry m = some t) :
    s.process.step retry (s.seen config m) = some t.process := by
  obtain ⟨process, hstep, rfl⟩ := Option.map_eq_some_iff.mp h
  rw [hstep]
  unfold Gated.after
  cases s.send? m with
  | none => rfl
  | some sent => cases hallowed : (s.allowRequest config m).1 <;> simp [hallowed]

theorem clock_le_of_step (h : s.step config retry m = some t) : s.clock + m.before ≤ t.clock := by
  cases gates_of_step h with
  | asks => exact Nat.le_add_right _ _
  | refuses | passes => exact Nat.le_refl _

theorem clock_le_of_run {moves : List GatedMove}
    (h : run (Gated.step config retry) s moves = some t) : s.clock ≤ t.clock := by
  induction moves generalizing s with
  | nil =>
    cases h
    exact Nat.le_refl _
  | cons m moves ih =>
    obtain ⟨u, hu, hrun⟩ := run_cons_eq_some.mp h
    have hfirst := clock_le_of_step hu
    have hrest := ih hrun
    omega

end Step

/-! ## How often the channels are asked -/

/-- The failures that open a Closed breaker. -/
def toOpen (config : BreakerConfig) : Nat := max 1 config.failureThreshold.toNat

/-- The failures that end a HalfOpen phase. -/
def toReopen (config : BreakerConfig) : Nat := max 1 config.halfOpenMax.toNat

/-- A breaker that is Closed counts fewer failures than open it. -/
def Counting (config : BreakerConfig) (b : CircuitBreaker) : Prop :=
  b.state = .closed → b.failureCount.toNat < toOpen config

/-- The breaker is one that the worker can have at this time. -/
structure Sane (config : BreakerConfig) (s : Gated) : Prop where
  dated : Dated s.clock s.breaker
  counting : Counting config s.breaker

section Breaker

variable {config : BreakerConfig} {b : CircuitBreaker} {now : Nat}

/-- What `allow_request` answers and leaves. -/
inductive Allows (config : BreakerConfig) (b : CircuitBreaker) (now : Nat) :
    Bool × CircuitBreaker → Prop where
  | closed (hstate : b.state = .closed) : Allows config b now (true, b)
  | waits (hstate : b.state = .opened) : Allows config b now (false, b)
  | probes (hstate : b.state = .opened) (htimeout : b.timedOut config now = true) :
      Allows config b now (true, ⟨.halfOpen, 0, b.openedAt⟩)
  | halfOpen (hstate : b.state = .halfOpen)
      (hcount : b.failureCount.toNat < config.halfOpenMax.toNat) : Allows config b now (true, b)
  | stops (hstate : b.state = .halfOpen) : Allows config b now (false, b)
  | reopens (hstate : b.state = .halfOpen) (htimeout : b.timedOut config now = true) :
      Allows config b now (false, ⟨.opened, 0, some now⟩)

theorem allows (config : BreakerConfig) (b : CircuitBreaker) (now : Nat) :
    Allows config b now (b.allowRequest config now) := by
  cases hstate : b.state with
  | closed =>
    rw [CircuitBreaker.allowRequest_of_closed hstate]
    exact .closed hstate
  | opened =>
    cases htimeout : b.timedOut config now with
    | true => simpa [CircuitBreaker.allowRequest, hstate, htimeout] using Allows.probes hstate htimeout
    | false =>
      rw [CircuitBreaker.allowRequest_of_early hstate htimeout]
      exact .waits hstate
  | halfOpen =>
    by_cases hcount : config.halfOpenMax ≤ b.failureCount
    · cases htimeout : b.timedOut config now with
      | true =>
        simpa [CircuitBreaker.allowRequest, hstate, hcount, htimeout] using
          Allows.reopens hstate htimeout
      | false =>
        simpa [CircuitBreaker.allowRequest, hstate, hcount, htimeout] using Allows.stops hstate
    · have hlt := UInt32.lt_iff_toNat_lt.mp (UInt32.not_le.mp hcount)
      simpa [CircuitBreaker.allowRequest, hstate, hcount] using Allows.halfOpen hstate hlt

theorem toOpen_pos (config : BreakerConfig) : 0 < toOpen config := Nat.le_max_left _ _

theorem toReopen_pos (config : BreakerConfig) : 0 < toReopen config := Nat.le_max_left _ _

theorem counting_new : Counting config .new := fun _ => toOpen_pos config

theorem counting_allowRequest (h : Counting config b) :
    Counting config (b.allowRequest config now).2 := by
  generalize hr : b.allowRequest config now = r
  have hallows := allows config b now
  rw [hr] at hallows
  cases hallows with
  | closed | waits | halfOpen | stops => exact h
  | probes | reopens => exact fun hclosed => nomatch hclosed

theorem toNat_succ_of_lt_toOpen (h : b.failureCount.toNat < toOpen config) :
    (b.failureCount + 1).toNat = b.failureCount.toNat + 1 := by
  have hmax := config.failureThreshold.toNat_lt
  unfold toOpen at h
  rw [UInt32.toNat_add, UInt32.toNat_one]
  omega

variable (now) in
/-- A failure in Closed opens the breaker, or leaves room for the next one. -/
theorem recordFailure_of_closed (hstate : b.state = .closed) (h : Counting config b) :
    (config.failureThreshold.toNat ≤ b.failureCount.toNat + 1 ∧
        b.recordFailure config now = ⟨.opened, b.failureCount + 1, some now⟩) ∨
      (b.failureCount.toNat + 1 < toOpen config ∧
        b.recordFailure config now = ⟨.closed, b.failureCount + 1, b.openedAt⟩) := by
  have hsucc := toNat_succ_of_lt_toOpen (h hstate)
  by_cases htrips : config.failureThreshold ≤ b.failureCount + 1
  · refine .inl ⟨hsucc ▸ UInt32.le_iff_toNat_le.mp htrips, ?_⟩
    simp [CircuitBreaker.recordFailure, CircuitBreaker.countFailure, CircuitBreaker.trip, htrips,
      hstate]
  · have hroom := UInt32.lt_iff_toNat_lt.mp (UInt32.not_le.mp htrips)
    rw [hsucc] at hroom
    refine .inr ⟨hroom.trans_le (Nat.le_max_right _ _), ?_⟩
    simp [CircuitBreaker.recordFailure, CircuitBreaker.countFailure, CircuitBreaker.trip, htrips,
      hstate]

theorem recordFailure_of_halfOpen (hstate : b.state = .halfOpen) :
    b.recordFailure config now = ⟨.halfOpen, b.failureCount + 1, b.openedAt⟩ := by
  simp [CircuitBreaker.recordFailure, CircuitBreaker.countFailure, CircuitBreaker.trip, hstate]

theorem counting_answered {o : Outcome} (h : Counting config b) :
    Counting config (answered config b o now) := by
  unfold answered
  cases o.fault with
  | none => exact fun _ => toOpen_pos config
  | some e =>
    intro hclosed
    cases hstate : b.state with
    | closed =>
      rcases recordFailure_of_closed now hstate h with ⟨-, heq⟩ | ⟨hroom, heq⟩
      · rw [heq] at hclosed
        cases hclosed
      · rw [heq]
        exact (toNat_succ_of_lt_toOpen (h hstate)).trans_lt hroom
    | halfOpen =>
      rw [recordFailure_of_halfOpen hstate] at hclosed
      cases hclosed
    | opened =>
      simp [CircuitBreaker.recordFailure, CircuitBreaker.countFailure, CircuitBreaker.trip,
        hstate] at hclosed

theorem dated_answered {o : Outcome} (h : Dated now b) : Dated now (answered config b o now) := by
  unfold answered
  cases o.fault with
  | none => exact @dated_apply config b ⟨0, .recordSuccess, now⟩ h
  | some e => exact @dated_apply config b ⟨0, .recordFailure, now⟩ h

end Breaker

section Asks

variable {config : BreakerConfig} {retry : RetryConfig} {s t : Gated} {m : GatedMove}

theorem sane_init : Sane config Gated.init := ⟨fun h => absurd rfl h, counting_new⟩

theorem Sane.allowRequest (h : Sane config s) (m : GatedMove) :
    Dated (s.clock + m.before) (s.allowRequest config m).2 ∧
      Counting config (s.allowRequest config m).2 :=
  ⟨dated_apply (e := ⟨0, .allowRequest, s.clock + m.before⟩)
    (h.dated.mono (Nat.le_add_right _ _)), counting_allowRequest h.counting⟩

theorem sane_step (h : Sane config s) (hstep : s.step config retry m = some t) :
    Sane config t := by
  cases gates_of_step hstep with
  | asks =>
    obtain ⟨hdated, hcounting⟩ := h.allowRequest m
    exact ⟨dated_answered (hdated.mono (Nat.le_add_right _ _)), counting_answered hcounting⟩
  | refuses => exact ⟨(h.allowRequest m).1, (h.allowRequest m).2⟩
  | passes hsend hbreaker =>
    rcases hbreaker with rfl | ⟨-, rfl⟩
    · exact ⟨h.dated.mono (Nat.le_add_right _ _), h.counting⟩
    · exact ⟨fun hstate => absurd rfl hstate, counting_new⟩

/-- The channel fails, if the move asks one. -/
def ChannelFailing (config : BreakerConfig) (s : Gated) (m : GatedMove) : Prop :=
  ∀ entry o, s.send? m = some (entry, o) → (s.allowRequest config m).1 = true → o.fault ≠ none

instance (config : BreakerConfig) (s : Gated) (m : GatedMove) :
    Decidable (ChannelFailing config s m) :=
  match hsend : s.send? m with
  | none => isTrue fun _ _ h => nomatch hsend.symm.trans h
  | some (_, o) =>
    decidable_of_iff ((s.allowRequest config m).1 = true → o.fault ≠ none)
      ⟨fun h _ _ heq => by cases hsend.symm.trans heq; exact h, fun h => h _ _ hsend⟩

/-- What the breaker says of the channel calls since `start`, when there had
been `base` of them and all failed since. -/
def Spent (config : BreakerConfig) (start base : Nat) (b : CircuitBreaker) (asked now : Nat) :
    Prop :=
  match b.state with
  | .closed => asked + (toOpen config - b.failureCount.toNat) ≤ base + toOpen config
  | .opened => ∃ n opened, b.openedAt = some opened ∧ opened ≤ now ∧
      (n = 0 ∨ start ≤ opened ∧ n * config.timeout ≤ opened - start + config.timeout) ∧
      asked ≤ base + toOpen config + toReopen config * n
  | .halfOpen => ∃ n, n * config.timeout ≤ now - start ∧
      asked + (toReopen config - b.failureCount.toNat) ≤
        base + toOpen config + toReopen config * (n + 1)

section Spent

variable {config : BreakerConfig} {start base asked now : Nat} {b : CircuitBreaker}

theorem Spent.mono (h : Spent config start base b asked now) {now' : Nat} (hle : now ≤ now') :
    Spent config start base b asked now' := by
  unfold Spent at h ⊢
  cases hstate : b.state with
  | closed => simpa only [hstate] using h
  | opened =>
    simp only [hstate] at h ⊢
    obtain ⟨n, opened, hopened, hbefore, hn, hasked⟩ := h
    exact ⟨n, opened, hopened, hbefore.trans hle, hn, hasked⟩
  | halfOpen =>
    simp only [hstate] at h ⊢
    obtain ⟨n, hn, hasked⟩ := h
    exact ⟨n, hn.trans (Nat.sub_le_sub_right hle start), hasked⟩

/-- At the start nothing is spent. -/
theorem spent_start (hdated : Dated start b) : Spent config start base b base start := by
  unfold Spent
  cases hstate : b.state with
  | closed => exact Nat.add_le_add_left (Nat.sub_le _ _) base
  | opened =>
    obtain ⟨opened, hopened, hbefore⟩ := hdated (by simp [hstate])
    exact ⟨0, opened, hopened, hbefore, .inl rfl, by omega⟩
  | halfOpen => exact ⟨0, by omega, by omega⟩

/-- The number of timeouts that have passed bounds the calls. -/
theorem Spent.bound (h : Spent config start base b asked now) :
    ∃ n, n * config.timeout ≤ now - start ∧
      asked ≤ base + toOpen config + toReopen config * (n + 1) := by
  unfold Spent at h
  cases hstate : b.state with
  | closed =>
    simp only [hstate] at h
    exact ⟨0, by omega, by omega⟩
  | opened =>
    simp only [hstate] at h
    obtain ⟨n, opened, -, hbefore, hn, hasked⟩ := h
    rcases n with _ | n
    · exact ⟨0, by omega, by omega⟩
    · refine ⟨n, ?_, hasked⟩
      rcases hn with hn | ⟨hstart, hn⟩
      · cases hn
      · rw [Nat.succ_mul] at hn
        omega
  | halfOpen =>
    simp only [hstate] at h
    obtain ⟨n, hn, hasked⟩ := h
    exact ⟨n, hn, by omega⟩

/-- A call that fails is one that the breaker allows for. -/
theorem spent_fails (hcounting : Counting config b) (hstart : start ≤ now)
    (h : Spent config start base b asked now) {after : CircuitBreaker}
    (hallows : Allows config b now (true, after)) {now' : Nat} (hle : now ≤ now') :
    Spent config start base (after.recordFailure config now') (asked + 1) now' := by
  unfold Spent at h
  cases hallows with
  | closed hstate =>
    simp only [hstate] at h
    have hroom := hcounting hstate
    rcases recordFailure_of_closed now' hstate hcounting with ⟨-, heq⟩ | ⟨hcount, heq⟩
    · rw [heq]
      exact ⟨0, now', rfl, Nat.le_refl _, .inl rfl, by omega⟩
    · rw [heq]
      show asked + 1 + (toOpen config - (b.failureCount + 1).toNat) ≤ _
      rw [toNat_succ_of_lt_toOpen hroom]
      omega
  | probes hstate htimeout =>
    simp only [hstate] at h
    obtain ⟨n, opened, hopened, hbefore, hn, hasked⟩ := h
    rw [CircuitBreaker.timedOut_iff hopened] at htimeout
    rw [recordFailure_of_halfOpen rfl]
    refine ⟨n, ?_, ?_⟩
    · rcases hn with rfl | ⟨hsince, hn⟩ <;> omega
    · show asked + 1 + (toReopen config - 1) ≤ _
      have hpos := toReopen_pos config
      rw [Nat.mul_succ]
      omega
  | halfOpen hstate hcount =>
    simp only [hstate] at h
    obtain ⟨n, hn, hasked⟩ := h
    have hmax := config.halfOpenMax.toNat_lt
    have hsucc : (b.failureCount + 1).toNat = b.failureCount.toNat + 1 := by
      rw [UInt32.toNat_add, UInt32.toNat_one]
      omega
    have hlimit : config.halfOpenMax.toNat ≤ toReopen config := Nat.le_max_right _ _
    rw [recordFailure_of_halfOpen hstate]
    refine ⟨n, by omega, ?_⟩
    show asked + 1 + (toReopen config - (b.failureCount + 1).toNat) ≤ _
    omega

/-- A refusal asks no channel. -/
theorem spent_refused (hstart : start ≤ now) (h : Spent config start base b asked now)
    {after : CircuitBreaker} (hallows : Allows config b now (false, after)) :
    Spent config start base after asked now := by
  cases hallows with
  | waits | stops => exact h
  | reopens hstate htimeout =>
    unfold Spent at h
    simp only [hstate] at h
    obtain ⟨n, hn, hasked⟩ := h
    refine ⟨n + 1, now, rfl, Nat.le_refl _, .inr ⟨hstart, ?_⟩, by omega⟩
    rw [Nat.succ_mul]
    omega

end Spent

/-- Of the states of a run whose channel calls all fail since `start`. -/
structure Failing (config : BreakerConfig) (start base : Nat) (s : Gated) : Prop where
  sane : Sane config s
  start_le : start ≤ s.clock
  spent : Spent config start base s.breaker s.asked.length s.clock

theorem failing_step {start base : Nat} (h : Failing config start base s)
    (hfailing : ChannelFailing config s m) (hresumes : m.action ≠ .restart)
    (hstep : s.step config retry m = some t) : Failing config start base t := by
  have hle := clock_le_of_step hstep
  refine ⟨sane_step h.sane hstep, h.start_le.trans (by omega), ?_⟩
  have hnow : start ≤ s.clock + m.before := h.start_le.trans (Nat.le_add_right _ _)
  have hspent := h.spent.mono (Nat.le_add_right s.clock m.before)
  have hallows : Allows config s.breaker (s.clock + m.before) (s.allowRequest config m) :=
    allows config s.breaker _
  cases gates_of_step hstep with
  | asks hsend hallowed =>
    have hfault := hfailing _ _ hsend hallowed
    rw [← Prod.mk.eta (p := s.allowRequest config m), hallowed] at hallows
    unfold answered
    split
    case h_1 hnone => exact absurd hnone hfault
    case h_2 => exact spent_fails h.sane.counting hnow hspent hallows (Nat.le_add_right _ _)
  | refuses hsend hrefused =>
    rw [← Prod.mk.eta (p := s.allowRequest config m), hrefused] at hallows
    exact spent_refused hnow hspent hallows
  | passes hsend hbreaker =>
    rcases hbreaker with rfl | ⟨hrestart, -⟩
    · exact hspent
    · exact absurd hrestart hresumes

/-- From any state of a run, as long as every channel call fails and the
process is not started again, the channels are asked no more often than it
takes to open the breaker once, and to open it again for each timeout that has
passed. -/
theorem asks_bounded {before window : List GatedMove}
    (hbefore : run (Gated.step config retry) Gated.init before = some s)
    (hwindow : run (Gated.step config retry) s window = some t)
    (hfailing : EveryStep (Gated.step config retry) (ChannelFailing config) s window)
    (hresumes : ∀ m ∈ window, m.action ≠ .restart) :
    ∃ n, n * config.timeout ≤ t.clock - s.clock ∧
      t.asked.length ≤ s.asked.length + max 1 config.failureThreshold.toNat +
        max 1 config.halfOpenMax.toNat * (n + 1) := by
  have hsane : Sane config s := run_invariant (fun _ _ _ => sane_step) sane_init hbefore
  have hstart : Failing config s.clock s.asked.length s :=
    ⟨hsane, Nat.le_refl _, spent_start hsane.dated⟩
  have hall := hfailing.and (fun _ _ => And.intro)
    ((everyStep_iff_forall_mem hwindow).mpr hresumes)
  exact (run_invariant_of_everyStep (fun _ _ _ h hmove => failing_step h hmove.1 hmove.2)
    hstart hall hwindow).spent.bound

end Asks

/-! ### Channels that fail -/

/-- An action, with this time before it. -/
def GatedMove.after (before : Nat) (action : Action) : GatedMove := ⟨action, before, 0⟩

/-- The worker with one attempt for each message, behind a breaker that opens
at the first failure, for a timeout of 5. -/
def runQuick (s : Gated) (moves : List GatedMove) : Option Gated :=
  run (Gated.step .quick { fiveRetries with maxRetries := 1 }) s moves

/-- A message is enqueued, and its only attempt comes this much later and
fails. -/
def failedAttempt (id : String) (before : Nat) : List GatedMove :=
  ([.enqueue id "wechat/c1" "hi" 1700000000, .startPending 64, .call works, .call works] :
      List Action).map (.after 0) ++
    [.after before (.call (fails "timeout"))] ++
    ([.call works, .call works, .call works, .call works] : List Action).map (.after 0)

/-- The first attempt opens the breaker, the second one is refused, and the
third one probes the channel. -/
def outage : List GatedMove :=
  failedAttempt "m1" 0 ++ failedAttempt "m2" 3 ++ failedAttempt "m3" 3

def afterOutage : Gated := (runQuick .init outage).get (by decide +kernel)

theorem outage_bounded :
    ∃ n, n * 5 ≤ afterOutage.clock - 0 ∧ afterOutage.asked.length ≤ 0 + 1 + 1 * (n + 1) := by
  have hbefore : runQuick .init [] = some .init := rfl
  have hwindow : runQuick .init outage = some afterOutage := (Option.some_get _).symm
  have hresumes : ∀ m ∈ outage, m.action ≠ .restart := by
    simp [outage, failedAttempt, GatedMove.after]
  obtain ⟨n, hn, hasked⟩ := asks_bounded hbefore hwindow (by decide +kernel) hresumes
  exact ⟨n, hn, hasked⟩

/-! ## What an action adds to the trace -/

/-- How often the message was replayed. -/
def replays (id : String) (trace : List Event) : Nat := trace.count (.replayed id)

/-- The world loses no row, and the event comes to the trace, if there is
one. -/
structure Adds (w w' : World) (event? : Option Event) : Prop where
  trace : w'.trace = event?.toList ++ w.trace
  rows : ∀ id, (w.outbox.find? id).isSome → (w'.outbox.find? id).isSome
  fresh : ∀ id, event? = some (.enqueued id) → w.outbox.find? id = none

theorem Adds.of_eq {w w' : World} (htrace : w'.trace = w.trace) (houtbox : w'.outbox = w.outbox) :
    Adds w w' none :=
  ⟨htrace, fun _ h => houtbox ▸ h, nofun⟩

theorem adds_updateRow (w : World) (id : String) (f : OutboxEntry → OutboxEntry)
    (hf : ∀ row, (f row).id = row.id) : Adds w (w.updateRow id f hf) none := by
  refine ⟨rfl, fun id' h => ?_, nofun⟩
  obtain ⟨row, hrow⟩ := Option.isSome_iff_exists.mp h
  by_cases hid : id' = id
  · rw [hid] at hrow ⊢
    rw [find?_updateRow_self w id f hf hrow]
    rfl
  · rw [find?_updateRow_of_ne w id f hf hid, hrow]
    rfl

theorem Adds.of_attempt {w w' : World} {id : String} {ok : Bool}
    (htrace : w'.trace = .attempted id ok :: w.trace) (houtbox : w'.outbox = w.outbox) :
    Adds w w' (some (.attempted id ok)) :=
  ⟨htrace, fun _ h => houtbox ▸ h, nofun⟩

theorem adds_enqueue (w : World) (entry : OutboxEntry) :
    ∃ event?, Adds w (w.enqueue entry) event? ∧ ∀ id ok, event? ≠ some (.attempted id ok) := by
  have hrows : ∀ id, (w.outbox.find? id).isSome → ((w.enqueue entry).outbox.find? id).isSome := by
    intro id h
    refine (congrArg Option.isSome (KeyedTable.find?_insertOrIgnore w.outbox entry id)).trans ?_
    by_cases hid : id = entry.id
    · rw [if_pos hid]
      rfl
    · rw [if_neg hid]
      exact h
  cases hfind : w.outbox.find? entry.id with
  | some row =>
    refine ⟨none, ⟨?_, hrows, by simp⟩, by simp⟩
    simp [World.enqueue, hfind]
  | none =>
    refine ⟨some (.enqueued entry.id), ⟨?_, hrows, fun id hid => ?_⟩, by simp⟩
    · simp [World.enqueue, hfind]
    · cases hid
      exact hfind

theorem adds_send (w : World) (o : Outcome) (entry : OutboxEntry) :
    Adds w (handle w o (.send entry)).2 (some (.attempted entry.id o.fault.isNone)) := by
  simp only [handle]
  cases o.fault with
  | some e => exact .of_attempt rfl rfl
  | none => exact .of_attempt rfl rfl

/-- A statement that leaves what it found, or what it adds. -/
theorem adds_statement {α : Type} {w w' : World} {e : Option Event} (o : Outcome) (a : α)
    (h : Adds w w' e) (hevent : ∀ id ok, e ≠ some (.attempted id ok)) :
    ∃ event?, Adds w (statement w o a w').2 event? ∧
      ∀ id ok, event? ≠ some (.attempted id ok) := by
  unfold statement
  cases o.fault with
  | some err => exact ⟨none, .of_eq rfl rfl, by simp⟩
  | none => exact ⟨e, h, hevent⟩

/-- No call but a send is an attempt. -/
theorem adds_handle (w : World) (o : Outcome) {c : Call} (hc : c.isSend = false) :
    ∃ event?, Adds w (handle w o c).2 event? ∧ ∀ id ok, event? ≠ some (.attempted id ok) := by
  cases c with
  | send entry => cases hc
  | record | timestamp | timestampMillis => exact ⟨none, .of_eq rfl rfl, by simp⟩
  | fetchPending | fetchRetryable | fetchInFlight | selectRouteKey =>
    exact adds_statement o _ (.of_eq rfl rfl) (by simp)
  | deleteDeadLetter => exact adds_statement o () (.of_eq rfl rfl) (by simp)
  | markStatus | markRetrying => exact adds_statement o () (adds_updateRow w _ _ _) (by simp)
  | insertDeadLetter entry =>
    simp only [handle]
    cases w.deadLetter.insert entry with
    | none => exact ⟨none, .of_eq rfl rfl, by simp⟩
    | some deadLetter => exact adds_statement o () (.of_eq rfl rfl) (by simp)
  | selectDeadLetter id =>
    simp only [handle]
    cases w.deadLetter.find? id with
    | none => exact ⟨none, .of_eq rfl rfl, by simp⟩
    | some entry => exact adds_statement o entry (.of_eq rfl rfl) (by simp)
  | resetForReplay id payload now =>
    have hreset := adds_updateRow w id (.reset payload now) (OutboxEntry.reset_id payload now)
    exact adds_statement (e := some (.replayed id)) o () ⟨rfl, hreset.rows, by simp⟩ (by simp)
  | insertReplayed id payload now =>
    simp only [handle]
    cases hinsert : w.outbox.insert (OutboxEntry.new id "replayed" payload now) with
    | none => exact ⟨none, .of_eq rfl rfl, by simp⟩
    | some outbox =>
      obtain ⟨hfree, rfl⟩ := KeyedTable.eq_append_of_insert hinsert
      refine adds_statement (e := some (.replayed id)) o () ⟨rfl, fun id' h => ?_, by simp⟩ (by simp)
      show ((w.outbox.append _ hfree).find? id').isSome
      rw [KeyedTable.find?_append]
      split
      · rfl
      · exact h

/-- An action is a call of the program that runs, an enqueue, or leaves the
world alone. -/
theorem Process.world_of_step {retry : RetryConfig} {s t : Process} {a : Action}
    (h : s.step retry a = some t) :
    (∃ o c, a = .call o ∧ s.phase.nextCall? = some c ∧ t.world = (handle s.world o c).2) ∨
      (∃ entry, t.world = s.world.enqueue entry) ∨ t.world = s.world := by
  cases a with
  | call o =>
    obtain ⟨c, hnext, hworld⟩ := Process.world_of_call h
    exact .inl ⟨o, c, rfl, hnext, hworld⟩
  | enqueue id routeKey payload nowTs =>
    cases h
    exact .inr (.inl ⟨_, rfl⟩)
  | startPending | startRetries | startReplay =>
    obtain ⟨-, rfl⟩ := Process.whenIdle_eq_some.mp h
    exact .inr (.inr rfl)
  | finish =>
    obtain ⟨phase, -, rfl⟩ := Option.map_eq_some_iff.mp h
    exact .inr (.inr rfl)
  | crash =>
    cases h
    exact .inr (.inr rfl)
  | restart =>
    obtain ⟨w, phase⟩ := s
    cases phase with
    | crashed =>
      cases h
      exact .inr (.inr rfl)
    | ticking work | replaying work | recovering work => simp [Process.step] at h

section Process

variable {retry : RetryConfig} {s t : Process}

theorem adds_of_send {o : Outcome} {entry : OutboxEntry} (h : s.step retry (.call o) = some t)
    (hnext : s.phase.nextCall? = some (.send entry)) :
    Adds s.world t.world (some (.attempted entry.id o.fault.isNone)) := by
  obtain ⟨c, hc, hworld⟩ := Process.world_of_call h
  obtain rfl : .send entry = c := Option.some.inj (hnext.symm.trans hc)
  rw [hworld]
  exact adds_send s.world o entry

theorem adds_of_other {a : Action} (h : s.step retry a = some t)
    (hnot : ∀ o entry, a = .call o → s.phase.nextCall? ≠ some (.send entry)) :
    ∃ event?, Adds s.world t.world event? ∧ ∀ id ok, event? ≠ some (.attempted id ok) := by
  rcases Process.world_of_step h with ⟨o, c, rfl, hnext, hworld⟩ | ⟨entry, hworld⟩ | hworld
  · rw [hworld]
    refine adds_handle s.world o ?_
    cases c with
    | send entry => exact absurd hnext (hnot o entry rfl)
    | _ => rfl
  · rw [hworld]
    exact adds_enqueue s.world entry
  · exact ⟨none, .of_eq (congrArg _ hworld) (congrArg _ hworld), nofun⟩

end Process

/-! ## An open breaker -/

/-- What has become of the message since `s`, when no channel was asked: if it
was not replayed, it failed as often as it was refused. -/
structure OnlyRefused (id : String) (s t : Gated) : Prop where
  breaker : t.breaker = s.breaker
  asked : t.asked = s.asked
  row : (s.process.world.outbox.find? id).isSome → (t.process.world.outbox.find? id).isSome
  replays_le : replays id s.process.world.trace ≤ replays id t.process.world.trace
  history : (s.process.world.outbox.find? id).isSome →
    replays id t.process.world.trace = replays id s.process.world.trace →
    ∃ n, t.refused.count id = s.refused.count id + n ∧
      Outbox.history id t.process.world.trace =
        List.replicate n false ++ Outbox.history id s.process.world.trace

theorem onlyRefused_refl (id : String) (s : Gated) : OnlyRefused id s s :=
  ⟨rfl, rfl, fun h => h, Nat.le_refl _, fun _ _ => ⟨0, rfl, rfl⟩⟩

theorem OnlyRefused.trans {id : String} {s t u : Gated} (h : OnlyRefused id s t)
    (h' : OnlyRefused id t u) : OnlyRefused id s u where
  breaker := h'.breaker.trans h.breaker
  asked := h'.asked.trans h.asked
  row hrow := h'.row (h.row hrow)
  replays_le := h.replays_le.trans h'.replays_le
  history hrow hreplays := by
    have hle := h.replays_le
    have hle' := h'.replays_le
    obtain ⟨n, hn, hhistory⟩ := h.history hrow (by omega)
    obtain ⟨n', hn', hhistory'⟩ := h'.history (h.row hrow) (by omega)
    refine ⟨n' + n, by omega, ?_⟩
    rw [hhistory', hhistory, List.replicate_add, List.append_assoc]

section Open

variable {config : BreakerConfig} {retry : RetryConfig} {s t : Gated}

/-- One move of the worker while the breaker refuses. -/
theorem onlyRefused_step (id : String) {m : GatedMove}
    (hrefuses : s.allowRequest config m = (false, s.breaker)) (hresumes : m.action ≠ .restart)
    (h : s.step config retry m = some t) : OnlyRefused id s t := by
  cases gates_of_step h with
  | asks hsend hallowed =>
    rw [hrefuses] at hallowed
    cases hallowed
  | @refuses entry o process hsend hrefused hstep =>
    obtain ⟨-, hnext⟩ := Gated.send?_eq_some hsend
    have hadds := adds_of_send hstep hnext
    refine ⟨congrArg Prod.snd hrefuses, rfl, hadds.rows id, ?_, fun _ _ => ?_⟩
    · rw [hadds.trace]
      exact (List.sublist_append_right _ _).count_le _
    · rw [hadds.trace]
      by_cases hid : entry.id = id
      · exact ⟨1, by simp [hid], by simp [Outbox.history, hid, Outcome.refused]⟩
      · exact ⟨0, by simp [hid], by simp [Outbox.history, hid]⟩
  | @passes process breaker hsend hbreaker hstep =>
    have hnot : ∀ o entry, m.action = .call o →
        s.process.phase.nextCall? ≠ some (.send entry) := by
      intro o entry haction hnext
      rw [Gated.send?_of_eq haction hnext] at hsend
      cases hsend
    obtain ⟨event?, hadds, hevent⟩ := adds_of_other hstep hnot
    have hkept : breaker = s.breaker := hbreaker.resolve_right fun hnew => hresumes hnew.1
    refine ⟨hkept, rfl, hadds.rows id, ?_, fun hrow hreplays => ⟨0, rfl, ?_⟩⟩
    · rw [hadds.trace]
      exact (List.sublist_append_right _ _).count_le _
    · rw [hadds.trace] at hreplays ⊢
      cases event? with
      | none => rfl
      | some event =>
        cases event with
        | attempted id' ok => exact absurd rfl (hevent id' ok)
        | enqueued id' =>
          have hne : id' ≠ id := by
            rintro rfl
            rw [hadds.fresh id' rfl] at hrow
            cases hrow
          simp [Outbox.history, hne]
        | replayed id' =>
          have hne : id' ≠ id := by
            rintro rfl
            simp [replays] at hreplays
          simp [Outbox.history, hne]

/-- Before its timeout an Open breaker refuses. -/
theorem refuses_early {b : CircuitBreaker} {opened now : Nat} (hstate : b.state = .opened)
    (hopened : b.openedAt = some opened) (hsince : opened ≤ now)
    (hearly : now < opened + config.timeout) : b.allowRequest config now = (false, b) := by
  refine CircuitBreaker.allowRequest_of_early hstate (Bool.eq_false_iff.mpr fun htimeout => ?_)
  rw [CircuitBreaker.timedOut_iff hopened] at htimeout
  omega

/-- No call fails but a send, and the process does not crash. -/
def StorageWorks (s : Gated) (m : GatedMove) : Prop := Meets sendsMayFail s.process m.action

instance (s : Gated) (m : GatedMove) : Decidable (StorageWorks s m) :=
  inferInstanceAs (Decidable (Meets sendsMayFail s.process m.action))

/-- The invariant of the worker without a gate. -/
def Accounting (retry : RetryConfig) (s : Gated) : Prop :=
  PhaseInv sendsMayFail (Accounted retry.limit) s.process

theorem accounting_step (h : Accounting retry s) {m : GatedMove} (hworks : StorageWorks s m)
    (hstep : s.step config retry m = some t) : Accounting retry t := by
  refine phaseInv_step (keeps_accounted retry) _ (s.seen config m) _ h ?_ (seen_of_step hstep)
  unfold Gated.seen
  cases hsend : s.send? m with
  | none => exact hworks
  | some sent =>
    obtain ⟨entry, o⟩ := sent
    by_cases hallowed : (s.allowRequest config m).1 = true
    · simp only [hallowed, if_true]
      exact hworks
    · simp only [hallowed]
      intro c hc
      rw [(Gated.send?_eq_some hsend).2] at hc
      cases hc
      exact .inr rfl

theorem accounting_run {moves : List GatedMove} (h : Accounting retry s)
    (hworks : EveryStep (Gated.step config retry) StorageWorks s moves)
    (hrun : run (Gated.step config retry) s moves = some t) : Accounting retry t :=
  run_invariant_of_everyStep (fun _ _ _ h => accounting_step h) h hworks hrun

/-- A process that has not crashed is not started again. -/
theorem ne_restart_of_accounting {m : GatedMove} (h : Accounting retry s)
    (hstep : s.step config retry m = some t) : m.action ≠ .restart := by
  intro haction
  have hseen := seen_of_step hstep
  have hsend : s.send? m = none := by simp [Gated.send?, haction]
  simp only [Gated.seen, hsend, haction] at hseen
  unfold Accounting PhaseInv at h
  unfold Process.step at hseen
  cases hphase : s.process.phase with
  | crashed =>
    rw [hphase] at h
    exact h
  | ticking work | replaying work | recovering work => simp [hphase] at hseen

theorem onlyRefused_run (id : String) {opened : Nat} {window : List GatedMove}
    (h : Accounting retry s) (hworks : EveryStep (Gated.step config retry) StorageWorks s window)
    (hstate : s.breaker.state = .opened) (hopened : s.breaker.openedAt = some opened)
    (hsince : opened ≤ s.clock) (hrun : run (Gated.step config retry) s window = some t)
    (hearly : t.clock < opened + config.timeout) : OnlyRefused id s t := by
  induction window generalizing s with
  | nil =>
    cases hrun
    exact onlyRefused_refl id _
  | cons m window ih =>
    obtain ⟨u, hu, hrun⟩ := run_cons_eq_some.mp hrun
    have hle := clock_le_of_step hu
    have hle' := clock_le_of_run hrun
    have hfirst : OnlyRefused id s u :=
      onlyRefused_step id (refuses_early hstate hopened (by omega) (by omega))
        (ne_restart_of_accounting h hu) hu
    rw [← hfirst.breaker] at hstate hopened
    exact hfirst.trans (ih (accounting_step h hworks.1 hu) (hworks.2 u hu) hstate hopened
      (by omega) hrun)

/-- Of the row of a message that has failed so often, and nothing else. -/
theorem row_of_failures {limit n : Nat} {w : World} {id : String} {row : OutboxEntry}
    (h : Accounted limit w) (hrow : w.outbox.find? id = some row)
    (hhistory : Outbox.history id w.trace = List.replicate n false) :
    (n < limit ∧ row.Waits ∧ row.retryCount.toNat = n) ∨
      (n = limit ∧ row.status = .deadLetter) := by
  have haccounted := h.rows id row hrow
  have hid : row.id = id := KeyedTable.key_of_find? hrow
  cases hstatus : row.status with
  | pending | retrying =>
    rw [hstatus] at haccounted
    obtain ⟨hcount, hlt⟩ := haccounted
    rw [hid, hhistory] at hcount
    have hlength : n = row.retryCount.toNat := by simpa using congrArg List.length hcount
    refine .inl ⟨hlength ▸ hlt, ?_, hlength.symm⟩
    simp [OutboxEntry.Waits, hstatus]
  | sending =>
    rw [hstatus] at haccounted
    exact haccounted.elim
  | sent =>
    rw [hstatus] at haccounted
    obtain ⟨k, -, hsent⟩ := haccounted
    rw [hid, hhistory] at hsent
    have htrue : true ∈ List.replicate n false := hsent ▸ List.mem_cons_self
    exact absurd (List.eq_of_mem_replicate htrue) (by decide)
  | deadLetter =>
    rw [hstatus] at haccounted
    have hdead : Outbox.history row.id w.trace = List.replicate limit false := haccounted
    rw [hid, hhistory] at hdead
    exact .inr ⟨by simpa using congrArg List.length hdead, rfl⟩

/-- While the breaker is Open and its timeout has not passed, no channel is
asked, and each refusal uses up a retry of the message as a failed send does:
when the limit is reached the message is dead-lettered, and until then it
waits with a count that is higher by the number of refusals. -/
theorem open_spends_retries {before window : List GatedMove}
    (hbefore : run (Gated.step config retry) Gated.init before = some s)
    (hwindow : run (Gated.step config retry) s window = some t)
    (hworks : EveryStep (Gated.step config retry) StorageWorks Gated.init before)
    (hworks' : EveryStep (Gated.step config retry) StorageWorks s window)
    (hidle : s.process.phase.isIdle = true) (hidle' : t.process.phase.isIdle = true)
    (hstate : s.breaker.state = .opened) {opened : Nat}
    (hopened : s.breaker.openedAt = some opened) (hearly : t.clock < opened + config.timeout)
    {id : String} {row : OutboxEntry} (hrow : s.process.world.outbox.find? id = some row)
    (hwaits : row.Waits)
    (hkept : replays id t.process.world.trace = replays id s.process.world.trace) :
    t.asked = s.asked ∧
      ∃ n row', t.refused.count id = s.refused.count id + n ∧
        t.process.world.outbox.find? id = some row' ∧
        ((row.retryCount.toNat + n < max 1 retry.maxRetries.toNat ∧ row'.Waits ∧
            row'.retryCount.toNat = row.retryCount.toNat + n) ∨
          (row.retryCount.toNat + n = max 1 retry.maxRetries.toNat ∧
            row'.status = .deadLetter)) := by
  have hsane : Sane config s := run_invariant (fun _ _ _ => sane_step) sane_init hbefore
  obtain ⟨opened', hopened', hsince⟩ := hsane.dated (by simp [hstate])
  obtain rfl : opened = opened' := Option.some.inj (hopened.symm.trans hopened')
  have hinit : Accounting retry Gated.init := accounted_init retry.limit
  have haccounting := accounting_run hinit hworks hbefore
  have hs := (phaseInv_iff_of_isIdle hidle).mp haccounting
  have ht := (phaseInv_iff_of_isIdle hidle').mp (accounting_run haccounting hworks' hwindow)
  have honly := onlyRefused_run id haccounting hworks' hstate hopened hsince hwindow hearly
  have hsome : (s.process.world.outbox.find? id).isSome := hrow ▸ rfl
  obtain ⟨n, hn, hhistory⟩ := honly.history hsome hkept
  obtain ⟨row', hrow'⟩ := Option.isSome_iff_exists.mp (honly.row hsome)
  have hcount : Outbox.history id s.process.world.trace =
      List.replicate row.retryCount.toNat false := by
    have haccounted := hs.rows id row hrow
    rw [← KeyedTable.key_of_find? hrow]
    rcases hwaits with hstatus | hstatus <;> rw [hstatus] at haccounted <;> exact haccounted.1
  rw [hcount, ← List.replicate_add, Nat.add_comm] at hhistory
  exact ⟨honly.asked, n, row', hn, hrow', row_of_failures ht hrow' hhistory⟩

end Open

/-! ### A message that no channel was asked for -/

/-- The attempt for one message fails, and another message is enqueued. -/
def failedThenNew : List GatedMove :=
  failedAttempt "m1" 0 ++ [.after 0 (.enqueue "m2" "wechat/c2" "hi" 1700000000)]

/-- A round for the other message, which the channel would take. -/
def secondRound : List GatedMove :=
  ([.startPending 64, .call works, .call works, .call works, .call works, .call works,
    .call works, .call works] : List Action).map (.after 0)

def firstFailed : Gated := (runQuick .init failedThenNew).get (by decide +kernel)

def secondRefused : Gated := (runQuick firstFailed secondRound).get (by decide +kernel)

/-- The message is dead-lettered, and no channel was asked for it. -/
theorem secondRefused_spends :
    "m2" ∉ secondRefused.asked ∧ ∃ n row',
      secondRefused.refused.count "m2" = firstFailed.refused.count "m2" + n ∧
        secondRefused.process.world.outbox.find? "m2" = some row' ∧
        ((0 + n < 1 ∧ row'.Waits ∧ row'.retryCount.toNat = 0 + n) ∨
          (0 + n = 1 ∧ row'.status = .deadLetter)) := by
  have hbefore : runQuick .init failedThenNew = some firstFailed := (Option.some_get _).symm
  have hwindow : runQuick firstFailed secondRound = some secondRefused := (Option.some_get _).symm
  have hopened : firstFailed.breaker.openedAt = some 0 := by decide +kernel
  have hrow : firstFailed.process.world.outbox.find? "m2" =
      some (.new "m2" "wechat/c2" "hi" 1700000000) := rfl
  obtain ⟨hasked, hspent⟩ := open_spends_retries hbefore hwindow (by decide +kernel)
    (by decide +kernel) (by decide +kernel) (by decide +kernel) (by decide +kernel) hopened
    (by decide +kernel) hrow (.inl rfl) (by decide +kernel)
  exact ⟨hasked ▸ (by decide +kernel), hspent⟩

end MagicLaw.Outbox
