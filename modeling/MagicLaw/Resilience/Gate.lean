import MagicLaw.Resilience.CircuitBreaker

/-!
# Calls of `execute` at the same time

`ResilienceGate` of `core/resilience/gate.rs` with the `Bulkhead` of
`core/resilience/bulkhead.rs`.  A move of the machine is one step of one of
the calls of `execute`, or time that passes.

* `leaves_halfOpen`: the success of any call that runs closes a HalfOpen
  breaker, whenever the call was let through, and nothing else closes it.
* `starts_in_open`: an operation starts in Open only where its call was let
  through before the breaker opened.
* `active_le`: the operations that run are at most `max_concurrent`.

The methods of the breaker hold the lock of the state, so that they are one
step each.  Only the `fetch_add` of `record_failure` comes before its lock.
Nothing closes the semaphore, so `acquire` returns a permit when it returns.
-/

namespace MagicLaw.Resilience

open Lib.Machine

/-! ## The gate -/

/-- Where a call of `execute` is. -/
inductive Phase where
  /-- before `allow_request` -/
  | called
  /-- let through, and waits for a permit -/
  | admitted
  /-- has a permit, and the operation did not start -/
  | holding
  | running
  /-- the operation failed, and `fetch_add` counted it -/
  | failing (count : UInt32)
  /-- returned `circuit breaker open` -/
  | rejected
  /-- returned what the operation did, or was dropped -/
  | ended
  deriving DecidableEq

/-- The call has a `BulkheadGuard`. -/
def Phase.guarded : Phase → Bool
  | .holding | .running | .failing _ => true
  | .called | .admitted | .rejected | .ended => false

/-- The call was let through, and has not returned. -/
def Phase.underway : Phase → Bool
  | .admitted | .holding | .running | .failing _ => true
  | .called | .rejected | .ended => false

/-- What a reader notes of a call that is let through: the state of the breaker
right after, and how often it had opened by then.  The code keeps neither. -/
structure Admission where
  state : CircuitState
  openings : Nat
  deriving DecidableEq

structure Call where
  phase : Phase
  admission : Option Admission
  deriving DecidableEq

/-- `openings` is how often the breaker became Open. -/
structure Gate where
  clock : Nat
  breaker : CircuitBreaker
  openings : Nat
  calls : List Call
  deriving DecidableEq

/-- `ResilienceGate::new`, before the first call. -/
def Gate.new : Gate where
  clock := 0
  breaker := .new
  openings := 0
  calls := []

/-- `Bulkhead::active_count` -/
def Gate.active (g : Gate) : Nat := g.calls.countP (·.phase.guarded)

inductive CallMove where
  | allowRequest | acquire | start | succeed | fail | trip
  /-- the caller drops the call at an `await` -/
  | drop
  deriving DecidableEq

inductive Move where
  | wait (duration : Nat)
  | execute
  | call (n : Nat) (m : CallMove)
  deriving DecidableEq

/-- A call and the breaker after a step of the call. -/
def Gate.moved (config : BreakerConfig) (maxConcurrent : Nat) (g : Gate) (call : Call) :
    CallMove → Option (Call × CircuitBreaker)
  | .allowRequest =>
    if call.phase = .called then
      let (allowed, breaker) := g.breaker.allowRequest config g.clock
      if allowed then some (⟨.admitted, some ⟨breaker.state, g.openings⟩⟩, breaker)
      else some (⟨.rejected, none⟩, breaker)
    else none
  | .acquire =>
    if call.phase = .admitted ∧ g.active < maxConcurrent then
      some ({ call with phase := .holding }, g.breaker)
    else none
  | .start =>
    if call.phase = .holding then some ({ call with phase := .running }, g.breaker) else none
  | .succeed =>
    if call.phase = .running then some ({ call with phase := .ended }, g.breaker.recordSuccess)
    else none
  | .fail =>
    if call.phase = .running then
      let (count, breaker) := g.breaker.countFailure
      some ({ call with phase := .failing count }, breaker)
    else none
  | .trip =>
    match call.phase with
    | .failing count =>
      some ({ call with phase := .ended }, g.breaker.trip config count g.clock)
    | _ => none
  | .drop =>
    if call.phase = .admitted ∨ call.phase = .running then
      some ({ call with phase := .ended }, g.breaker)
    else none

/-- The gate after its breaker became another one. -/
def Gate.withBreaker (g : Gate) (breaker : CircuitBreaker) : Gate :=
  { g with
    breaker := breaker
    openings :=
      if g.breaker.state ≠ .opened ∧ breaker.state = .opened then g.openings + 1
      else g.openings }

def Gate.step (config : BreakerConfig) (maxConcurrent : Nat) (g : Gate) : Move → Option Gate
  | .wait duration => some { g with clock := g.clock + duration }
  | .execute => some { g with calls := g.calls ++ [⟨.called, none⟩] }
  | .call n m =>
    match g.calls[n]? with
    | none => none
    | some call => (g.moved config maxConcurrent call m).map fun (call', breaker) =>
      { g.withBreaker breaker with calls := g.calls.set n call' }

/-! ## What a step does -/

section Step

variable {config : BreakerConfig} {maxConcurrent : Nat} {g g' : Gate}

/-- The steps of a call. -/
inductive Moves (config : BreakerConfig) (maxConcurrent : Nat) (g : Gate) :
    Call → CallMove → Call → CircuitBreaker → Prop where
  | admits {call} (hcalled : call.phase = .called)
      (hallowed : (g.breaker.allowRequest config g.clock).1 = true) :
      Moves config maxConcurrent g call .allowRequest
        ⟨.admitted, some ⟨(g.breaker.allowRequest config g.clock).2.state, g.openings⟩⟩
        (g.breaker.allowRequest config g.clock).2
  | rejects {call} (hcalled : call.phase = .called)
      (hrefused : (g.breaker.allowRequest config g.clock).1 = false) :
      Moves config maxConcurrent g call .allowRequest ⟨.rejected, none⟩
        (g.breaker.allowRequest config g.clock).2
  | acquires {call} (hadmitted : call.phase = .admitted) (hfree : g.active < maxConcurrent) :
      Moves config maxConcurrent g call .acquire { call with phase := .holding } g.breaker
  | starts {call} (hholding : call.phase = .holding) :
      Moves config maxConcurrent g call .start { call with phase := .running } g.breaker
  | succeeds {call} (hrunning : call.phase = .running) :
      Moves config maxConcurrent g call .succeed { call with phase := .ended }
        g.breaker.recordSuccess
  | fails {call} (hrunning : call.phase = .running) :
      Moves config maxConcurrent g call .fail
        { call with phase := .failing g.breaker.countFailure.1 } g.breaker.countFailure.2
  | trips {call} (count) (hfailing : call.phase = .failing count) :
      Moves config maxConcurrent g call .trip { call with phase := .ended }
        (g.breaker.trip config count g.clock)
  | drops {call} (hwaits : call.phase = .admitted ∨ call.phase = .running) :
      Moves config maxConcurrent g call .drop { call with phase := .ended } g.breaker

theorem moves_of_eq_some {call call' : Call} {m : CallMove} {breaker : CircuitBreaker}
    (h : g.moved config maxConcurrent call m = some (call', breaker)) :
    Moves config maxConcurrent g call m call' breaker := by
  cases m with
  | allowRequest =>
    simp only [Gate.moved] at h
    split at h
    case isTrue hcalled =>
      split at h
      case isTrue hallowed => cases h; exact .admits hcalled hallowed
      case isFalse hrefused => cases h; exact .rejects hcalled (by simpa using hrefused)
    case isFalse => cases h
  | acquire =>
    simp only [Gate.moved] at h
    split at h
    case isTrue hfree => cases h; exact .acquires hfree.1 hfree.2
    case isFalse => cases h
  | start =>
    simp only [Gate.moved] at h
    split at h
    case isTrue hholding => cases h; exact .starts hholding
    case isFalse => cases h
  | succeed =>
    simp only [Gate.moved] at h
    split at h
    case isTrue hrunning => cases h; exact .succeeds hrunning
    case isFalse => cases h
  | fail =>
    simp only [Gate.moved] at h
    split at h
    case isTrue hrunning => cases h; exact .fails hrunning
    case isFalse => cases h
  | trip =>
    simp only [Gate.moved] at h
    split at h
    case h_1 count hfailing => cases h; exact .trips count hfailing
    case h_2 => cases h
  | drop =>
    simp only [Gate.moved] at h
    split at h
    case isTrue hwaits => cases h; exact .drops hwaits
    case isFalse => cases h

theorem step_call {n : Nat} {m : CallMove}
    (h : g.step config maxConcurrent (.call n m) = some g') :
    ∃ call call' breaker, g.calls[n]? = some call ∧
      Moves config maxConcurrent g call m call' breaker ∧
      g' = { g.withBreaker breaker with calls := g.calls.set n call' } := by
  simp only [Gate.step] at h
  split at h
  case h_1 => cases h
  case h_2 call hcall =>
    obtain ⟨⟨call', breaker⟩, hmoved, rfl⟩ := Option.map_eq_some_iff.mp h
    exact ⟨call, call', breaker, hcall, moves_of_eq_some hmoved, rfl⟩

end Step

/-! ## The permits -/

/-- A call has its guard from before, or takes a permit that is free. -/
theorem guarded_of_moves {config : BreakerConfig} {maxConcurrent : Nat} {g : Gate}
    {call call' : Call} {m : CallMove} {breaker : CircuitBreaker}
    (h : Moves config maxConcurrent g call m call' breaker) (hguarded : call'.phase.guarded = true) :
    call.phase.guarded = true ∨ g.active < maxConcurrent := by
  cases h with
  | acquires hadmitted hfree => exact .inr hfree
  | starts hholding => exact .inl (by rw [hholding]; rfl)
  | fails hrunning => exact .inl (by rw [hrunning]; rfl)
  | admits | rejects | succeeds | trips | drops => exact nomatch hguarded

theorem active_step {config : BreakerConfig} {maxConcurrent : Nat} (g : Gate) (a : Move) (g' : Gate)
    (h : g.active ≤ maxConcurrent) (hstep : g.step config maxConcurrent a = some g') :
    g'.active ≤ maxConcurrent := by
  cases a with
  | wait duration =>
    cases hstep
    exact h
  | execute =>
    cases hstep
    simpa [Gate.active, Phase.guarded] using h
  | call n m =>
    obtain ⟨call, call', breaker, hcall, hmoves, rfl⟩ := step_call hstep
    have hset := countP_set_add (fun c => c.phase.guarded) hcall call'
    show (g.calls.set n call').countP (·.phase.guarded) ≤ maxConcurrent
    by_cases hnew : call'.phase.guarded = true
    · rcases guarded_of_moves hmoves hnew with hheld | hfree
      · rw [if_pos hheld, if_pos hnew] at hset
        exact Nat.le_trans (Nat.le_of_add_le_add_right (Nat.le_of_eq hset)) h
      · rw [if_pos hnew] at hset
        unfold Gate.active at hfree
        omega
    · rw [if_neg hnew] at hset
      unfold Gate.active at h
      omega

/-- The bulkhead is never over-full. -/
theorem active_le {config : BreakerConfig} {maxConcurrent : Nat} {as : List Move} {g : Gate}
    (hrun : run (Gate.step config maxConcurrent) .new as = some g) : g.active ≤ maxConcurrent :=
  run_invariant (fun g a g' => active_step g a g') (Nat.zero_le _) hrun

/-! ## The calls that were let through -/

/-- A call that is underway was let through, in Closed or HalfOpen, and the
breaker is not Open unless it opened since. -/
def Call.Admitted (g : Gate) (call : Call) : Prop :=
  call.phase.underway = true → ∃ a, call.admission = some a ∧ a.state ≠ .opened ∧
    a.openings ≤ g.openings ∧ (a.openings = g.openings → g.breaker.state ≠ .opened)

def AllAdmitted (g : Gate) : Prop := ∀ call ∈ g.calls, call.Admitted g

theorem openings_le_withBreaker (g : Gate) (breaker : CircuitBreaker) :
    g.openings ≤ (g.withBreaker breaker).openings := by
  simp only [Gate.withBreaker]
  split <;> omega

/-- Where the breaker is Open and the openings are the same, it was Open. -/
theorem opened_of_withBreaker {g : Gate} {breaker : CircuitBreaker}
    (hopened : breaker.state = .opened) (h : (g.withBreaker breaker).openings = g.openings) :
    g.breaker.state = .opened := by
  by_contra hstate
  simp [Gate.withBreaker, hopened, hstate] at h

theorem Call.Admitted.withBreaker {g : Gate} {call : Call} (h : call.Admitted g)
    (breaker : CircuitBreaker) : call.Admitted (g.withBreaker breaker) := by
  intro hunderway
  obtain ⟨a, ha, hstate, hle, hopen⟩ := h hunderway
  have hgrows := openings_le_withBreaker g breaker
  refine ⟨a, ha, hstate, by omega, fun heq hopened => ?_⟩
  have hsame : (g.withBreaker breaker).openings = g.openings := by omega
  exact hopen (by omega) (opened_of_withBreaker hopened hsame)

/-- A step of a call keeps its own admission. -/
theorem admitted_moves {config : BreakerConfig} {maxConcurrent : Nat} {g : Gate} {call call' : Call}
    {m : CallMove} {breaker : CircuitBreaker} (h : call.Admitted g)
    (hmoves : Moves config maxConcurrent g call m call' breaker) :
    call'.Admitted (g.withBreaker breaker) := by
  cases hmoves with
  | admits hcalled hallowed =>
    have hstate := CircuitBreaker.state_of_allowed hallowed
    exact fun _ => ⟨_, rfl, hstate, openings_le_withBreaker g _, fun _ => hstate⟩
  | acquires hadmitted => exact fun _ => h.withBreaker _ (by rw [hadmitted]; rfl)
  | starts hholding => exact fun _ => h.withBreaker _ (by rw [hholding]; rfl)
  | fails hrunning => exact fun _ => h.withBreaker _ (by rw [hrunning]; rfl)
  | rejects | succeeds | trips | drops => exact fun hunderway => nomatch hunderway

theorem allAdmitted_step {config : BreakerConfig} {maxConcurrent : Nat} (g : Gate) (a : Move)
    (g' : Gate) (h : AllAdmitted g) (hstep : g.step config maxConcurrent a = some g') :
    AllAdmitted g' := by
  cases a with
  | wait duration =>
    cases hstep
    exact h
  | execute =>
    cases hstep
    exact forall_mem_concat h fun hunderway => nomatch hunderway
  | call n m =>
    obtain ⟨call, call', breaker, hcall, hmoves, rfl⟩ := step_call hstep
    have hothers : ∀ c ∈ g.calls, c.Admitted (g.withBreaker breaker) :=
      fun c hold => (h c hold).withBreaker breaker
    exact forall_mem_set hothers (admitted_moves (h call (List.mem_of_getElem? hcall)) hmoves)

theorem allAdmitted_of_run {config : BreakerConfig} {maxConcurrent : Nat} {as : List Move} {g : Gate}
    (hrun : run (Gate.step config maxConcurrent) .new as = some g) : AllAdmitted g :=
  run_invariant (fun g a g' => allAdmitted_step g a g')
    (show AllAdmitted .new from fun _ h => nomatch h) hrun

/-! ## Out of HalfOpen -/

/-- What a step of a call makes of a HalfOpen breaker. -/
theorem state_of_moves {config : BreakerConfig} {maxConcurrent : Nat} {g : Gate}
    {call call' : Call} {m : CallMove} {breaker : CircuitBreaker}
    (hhalf : g.breaker.state = .halfOpen) (h : Moves config maxConcurrent g call m call' breaker) :
    (breaker.state = .closed ↔ m = .succeed) ∧
      (breaker.state = .opened → m = .allowRequest) := by
  cases h with
  | admits hcalled hallowed =>
    have hcount := UInt32.not_le.mpr
      ((CircuitBreaker.allowRequest_of_halfOpen hhalf).mp hallowed)
    simp [CircuitBreaker.allowRequest, hhalf, hcount]
  | rejects hcalled hrefused =>
    refine ⟨iff_of_false ?_ (by decide), fun _ => rfl⟩
    simp only [CircuitBreaker.allowRequest, hhalf]
    split
    · split <;> simp [hhalf]
    · simp [hhalf]
  | succeeds hrunning => simp [CircuitBreaker.recordSuccess, hhalf]
  | trips count hfailing =>
    have hsame : g.breaker.trip config count g.clock = g.breaker :=
      CircuitBreaker.trip_of_halfOpen hhalf
    simp [hsame, hhalf]
  | fails hrunning => simp [CircuitBreaker.countFailure, hhalf]
  | acquires | starts | drops => simp [hhalf]

/-- In every run: a HalfOpen breaker becomes Closed with the success of a call
that runs and was let through, in Closed or in HalfOpen, and it becomes Open
again only where a new call asks. -/
theorem leaves_halfOpen {config : BreakerConfig} {maxConcurrent : Nat} {as : List Move}
    {g g' : Gate} {a : Move} (hrun : run (Gate.step config maxConcurrent) .new as = some g)
    (hstep : g.step config maxConcurrent a = some g') (hhalf : g.breaker.state = .halfOpen) :
    (g'.breaker.state = .closed ↔ ∃ n, a = .call n .succeed) ∧
    (g'.breaker.state = .opened → ∃ n, a = .call n .allowRequest) ∧
    ∀ n, a = .call n .succeed → ∃ call admission, g.calls[n]? = some call ∧
      call.phase = .running ∧ call.admission = some admission ∧ admission.state ≠ .opened ∧
      admission.openings ≤ g.openings := by
  cases a with
  | wait duration =>
    cases hstep
    simp [hhalf]
  | execute =>
    cases hstep
    simp [hhalf]
  | call n m =>
    obtain ⟨call, call', breaker, hcall, hmoves, rfl⟩ := step_call hstep
    have hstate := state_of_moves hhalf hmoves
    refine ⟨?_, ?_, ?_⟩
    · simpa [Gate.withBreaker] using hstate.1
    · simpa [Gate.withBreaker] using hstate.2
    · rintro _ ⟨⟩
      cases hmoves with
      | succeeds hrunning =>
        have hadmitted := allAdmitted_of_run hrun call (List.mem_of_getElem? hcall)
        obtain ⟨admission, ha, hclosed, hle, -⟩ := hadmitted (by rw [hrunning]; rfl)
        exact ⟨call, admission, hcall, hrunning, ha, hclosed, hle⟩

/-- Two calls are let through in Closed.  The failure of call 1 trips the
breaker, and call 2 is the probe after the timeout. -/
def overlapping : List Move :=
  [.execute, .execute, .call 0 .allowRequest, .call 1 .allowRequest,
    .call 0 .acquire, .call 1 .acquire, .call 0 .start, .call 1 .start,
    .call 1 .fail, .call 1 .trip, .wait 5, .execute, .call 2 .allowRequest]

/-- The gate after these moves. -/
def halfOpened : Gate where
  clock := 5
  breaker := ⟨.halfOpen, 0, some 0⟩
  openings := 1
  calls := [⟨.running, some ⟨.closed, 0⟩⟩, ⟨.ended, some ⟨.closed, 0⟩⟩,
    ⟨.admitted, some ⟨.halfOpen, 1⟩⟩]

/-- The gate after the success of call 0. -/
def closedByStale : Gate where
  clock := 5
  breaker := ⟨.closed, 0, some 0⟩
  openings := 1
  calls := [⟨.ended, some ⟨.closed, 0⟩⟩, ⟨.ended, some ⟨.closed, 0⟩⟩,
    ⟨.admitted, some ⟨.halfOpen, 1⟩⟩]

theorem leaves_halfOpen_overlapping :
    ∃ call admission, halfOpened.calls[0]? = some call ∧ call.phase = .running ∧
      call.admission = some admission ∧ admission.state ≠ .opened ∧
      admission.openings ≤ halfOpened.openings := by
  have hrun : run (Gate.step .quick 2) .new overlapping = some halfOpened := by decide
  have hstep : halfOpened.step .quick 2 (.call 0 .succeed) = some closedByStale := by decide
  exact (leaves_halfOpen hrun hstep rfl).2.2 0 rfl

/-- Call 0 was let through before the breaker opened, and its success closes
the breaker. -/
theorem not_closed_by_probes_only :
    ¬∀ (config : BreakerConfig) (maxConcurrent : Nat) (as : List Move) (g g' : Gate) (a : Move),
      run (Gate.step config maxConcurrent) .new as = some g →
      g.step config maxConcurrent a = some g' →
      g.breaker.state = .halfOpen → g'.breaker.state = .closed →
      ∃ n call admission, a = .call n .succeed ∧ g.calls[n]? = some call ∧
        call.admission = some admission ∧ admission.state = .halfOpen := by
  intro h
  obtain ⟨n, call, admission, ha, hcall, hadmission, hstate⟩ :=
    h .quick 2 overlapping halfOpened closedByStale (.call 0 .succeed) (by decide) (by decide)
      rfl rfl
  cases ha
  cases hcall
  cases hadmission
  exact nomatch hstate

/-! ## Starts in Open -/

theorem rejected_step {config : BreakerConfig} {maxConcurrent : Nat} {n : Nat} (g : Gate) (a : Move)
    (g' : Gate) (h : g.calls[n]? = some ⟨.rejected, none⟩)
    (hstep : g.step config maxConcurrent a = some g') : g'.calls[n]? = some ⟨.rejected, none⟩ := by
  cases a with
  | wait duration =>
    cases hstep
    exact h
  | execute =>
    cases hstep
    exact (List.getElem?_append_left (List.getElem?_eq_some_iff.mp h).1).trans h
  | call n' m =>
    obtain ⟨call, call', breaker, hcall, hmoves, rfl⟩ := step_call hstep
    by_cases hn : n' = n
    · subst hn
      cases hcall.symm.trans h
      cases hmoves with
      | drops hwaits => simp at hwaits
      | admits h | rejects h | acquires h | starts h | succeeds h | fails h | trips _ h => simp at h
    · show (g.calls.set n' call')[n]? = _
      rw [List.getElem?_set_ne hn]
      exact h

/-- In every run: an operation that starts in Open is that of a call that was
let through before the breaker opened, and a call that asks in Open before the
timeout has passed never runs its operation. -/
theorem starts_in_open {config : BreakerConfig} {maxConcurrent : Nat} {as : List Move} {g : Gate}
    (hrun : run (Gate.step config maxConcurrent) .new as = some g)
    (hopened : g.breaker.state = .opened) :
    (∀ n g', g.step config maxConcurrent (.call n .start) = some g' →
      ∃ call admission, g.calls[n]? = some call ∧ call.admission = some admission ∧
        admission.state ≠ .opened ∧ admission.openings < g.openings) ∧
    (g.breaker.timedOut config g.clock = false →
      ∀ n g', g.step config maxConcurrent (.call n .allowRequest) = some g' →
        ∀ bs g'', run (Gate.step config maxConcurrent) g' bs = some g'' →
          g''.calls[n]? = some ⟨.rejected, none⟩) := by
  constructor
  · intro n g' hstep
    obtain ⟨call, call', breaker, hcall, hmoves, rfl⟩ := step_call hstep
    cases hmoves with
    | starts hholding =>
      have hadmitted := allAdmitted_of_run hrun call (List.mem_of_getElem? hcall)
      obtain ⟨admission, ha, hstate, hle, hsame⟩ := hadmitted (by rw [hholding]; rfl)
      have hne : admission.openings ≠ g.openings := fun heq => hsame heq hopened
      exact ⟨call, admission, hcall, ha, hstate, by omega⟩
  · intro hearly n g' hstep bs g'' hrest
    refine run_invariant (fun g a g' => rejected_step g a g') ?_ hrest
    obtain ⟨call, call', breaker, hcall, hmoves, rfl⟩ := step_call hstep
    have hn := (List.getElem?_eq_some_iff.mp hcall).1
    have hrefused := CircuitBreaker.allowRequest_of_early hopened hearly
    cases hmoves with
    | admits hcalled hallowed => simp [hrefused] at hallowed
    | rejects => exact List.getElem?_set_self hn

/-- Call 1 is let through, and waits for the one permit while call 0 fails. -/
def waiting : List Move :=
  [.execute, .execute, .call 0 .allowRequest, .call 1 .allowRequest, .call 0 .acquire,
    .call 0 .start, .call 0 .fail, .call 0 .trip, .call 1 .acquire]

def openedWhileWaiting : Gate where
  clock := 0
  breaker := ⟨.opened, 1, some 0⟩
  openings := 1
  calls := [⟨.ended, some ⟨.closed, 0⟩⟩, ⟨.holding, some ⟨.closed, 0⟩⟩]

theorem starts_in_open_waiting :
    openedWhileWaiting.breaker.state = .opened ∧
    ∃ call admission, openedWhileWaiting.calls[1]? = some call ∧
      call.admission = some admission ∧ admission.state ≠ .opened ∧
      admission.openings < openedWhileWaiting.openings := by
  have hrun : run (Gate.step .quick 1) .new waiting = some openedWhileWaiting := by decide
  exact ⟨rfl, (starts_in_open hrun rfl).1 1 _ rfl⟩

/-- The operation of call 1 starts right after the breaker opened. -/
theorem not_open_means_no_start :
    ¬∀ (config : BreakerConfig) (maxConcurrent : Nat) (as : List Move) (g g' : Gate) (n : Nat),
      run (Gate.step config maxConcurrent) .new as = some g →
      g.step config maxConcurrent (.call n .start) = some g' →
      ¬(g.breaker.state = .opened ∧ g.breaker.timedOut config g.clock = false) := by
  intro h
  exact h .quick 1 waiting openedWhileWaiting _ 1 (by decide) rfl ⟨rfl, rfl⟩

end MagicLaw.Resilience
