import MagicLaw.Lib.Machine
import MagicLaw.Outbox.Storage

/-!
# The outbox worker as a machine

The loops of `application/outbox_worker.rs`, `recover_after_crash` of
`application/crash_recovery.rs` and `replay` of
`adapters/sqlite_dead_letter.rs`, as programs of calls, and the process that
runs them.

The process runs one program at a time.  Its actions are the start of a
program, one call of the program that runs, a crash, and the restart, which
runs the recovery.  A recovery that fails ends the process again.  Messages are
enqueued at any time, also between two calls of a program.

`run_keeps` is the induction that the results about the worker share: a
property of the idle states follows from weakest preconditions of the programs
among enqueues.
-/

namespace MagicLaw.Outbox

open Lib Lib.Program Lib.Machine

/-! ## The programs -/

abbrev Work := Prog Call.Reply

section Calls

def call (c : Call) : Work c.Reply := .perform c

def fetchPending (limit : UInt64) : Work (Except String (List OutboxEntry)) :=
  call (.fetchPending limit)

def fetchRetryable (nowTs : Int64) (limit : UInt64) : Work (Except String (List OutboxEntry)) :=
  call (.fetchRetryable nowTs limit)

def fetchInFlight : Work (Except String (List OutboxEntry)) :=
  call .fetchInFlight

def markStatus (id : String) (status : OutboxStatus) (error : Option String) :
    Work (Except String Unit) :=
  call (.markStatus id status error)

def markRetrying (id : String) (retryCount : UInt32) (nextRetryAt : Int64) (error : String) :
    Work (Except String Unit) :=
  call (.markRetrying id retryCount nextRetryAt error)

def insertDeadLetter (entry : DeadLetterEntry) : Work (Except String Unit) :=
  call (.insertDeadLetter entry)

def selectDeadLetter (id : String) : Work (Except String DeadLetterEntry) :=
  call (.selectDeadLetter id)

def deleteDeadLetter (id : String) : Work (Except String Unit) :=
  call (.deleteDeadLetter id)

def selectRouteKey (id : String) : Work (Except String (Option String)) :=
  call (.selectRouteKey id)

def resetForReplay (id payload : String) (now : Int64) : Work (Except String Unit) :=
  call (.resetForReplay id payload now)

def insertReplayed (id payload : String) (now : Int64) : Work (Except String Unit) :=
  call (.insertReplayed id payload now)

def send (entry : OutboxEntry) : Work (Except String Unit) :=
  call (.send entry)

def record (routeKey : Option String) (action result : String) : Work Unit :=
  call (.record routeKey action result)

def timestamp : Work Int64 := call .timestamp

def timestampMillis : Work Int64 := call .timestampMillis

end Calls

/-- The branch of a send that failed for the last time. -/
def moveToDeadLetter (entry : OutboxEntry) (newCount : UInt32) (err : String) : Work Unit := do
  let _ ← markStatus entry.id .deadLetter (some err)
  let now ← timestamp
  let dlEntry := DeadLetterEntry.new entry.id "outbox" entry.payload
    s!"max retries ({newCount}): {err}" now
  let _ ← insertDeadLetter dlEntry
  record (some entry.routeKey) "dead_letter" s!"max retries ({newCount}): {err}"

/-- The branch of a send that failed and is tried again. -/
def scheduleRetry (retry : RetryConfig) (entry : OutboxEntry) (newCount : UInt32)
    (err : String) : Work Unit := do
  let now ← timestampMillis
  let nextAt := now + (retry.nextDelayMs newCount).toInt64
  let _ ← markRetrying entry.id newCount nextAt err
  record (some entry.routeKey) "send" s!"retrying ({newCount}): {err}"

/-- The body of the loops of `process_pending` and `process_retries`, which
differ in their log messages only. -/
def deliver (retry : RetryConfig) (entry : OutboxEntry) : Work Unit := do
  match ← markStatus entry.id .sending none with
  | .error _ => pure ()
  | .ok () =>
    match ← send entry with
    | .ok () => do
      let _ ← markStatus entry.id .sent none
      record (some entry.routeKey) "send" "sent"
    | .error err =>
      let newCount := entry.retryCount + 1
      if retry.maxRetries ≤ newCount then
        moveToDeadLetter entry newCount err
      else
        scheduleRetry retry entry newCount err

def processPending (retry : RetryConfig) (batchSize : UInt64) : Work Unit := do
  match ← fetchPending batchSize with
  | .error _ => pure ()
  | .ok entries => .forEach (deliver retry) entries

def processRetries (retry : RetryConfig) (batchSize : UInt64) : Work Unit := do
  let nowTs ← timestampMillis
  match ← fetchRetryable nowTs batchSize with
  | .error _ => pure ()
  | .ok entries => .forEach (deliver retry) entries

/-- The loop of `recover_after_crash`, which returns at the first error. -/
def resetInFlight : List OutboxEntry → Work (Except String Unit)
  | [] => pure (.ok ())
  | entry :: entries => do
    match ← markStatus entry.id .pending none with
    | .error e => pure (.error e)
    | .ok () => resetInFlight entries

def recoverAfterCrash : Work (Except String Nat) := do
  match ← fetchInFlight with
  | .error e => pure (.error e)
  | .ok entries =>
    match ← resetInFlight entries with
    | .error e => pure (.error e)
    | .ok () => pure (.ok entries.length)

/-- The part of `replay` after the dead letter has been deleted. -/
def requeue (id payload : String) : Work (Except String OutboxEntry) := do
  let now ← timestamp
  match ← selectRouteKey id with
  | .error e => pure (.error e)
  | .ok (some routeKey) =>
    match ← resetForReplay id payload now with
    | .error e => pure (.error e)
    | .ok () => pure (.ok (OutboxEntry.new id routeKey payload now))
  | .ok none =>
    match ← insertReplayed id payload now with
    | .error e => pure (.error e)
    | .ok () => pure (.ok (OutboxEntry.new id "replayed" payload now))

def replay (id : String) : Work (Except String OutboxEntry) := do
  match ← selectDeadLetter id with
  | .error e => pure (.error e)
  | .ok dl =>
    match ← deleteDeadLetter id with
    | .error e => pure (.error e)
    | .ok () => requeue id dl.payload

/-! ## One rule for each call -/

section Rules

variable {F : Faults Call World Outcome} {w : World}

theorem statement_cases {α : Type} {Q : Except String α → World → Prop} {o : Outcome} {a : α}
    {w' : World} (herror : ∀ e, o.fault = some e → Q (.error e) w)
    (hok : o.fault = none → Q (.ok a) w') :
    Q (statement w o a w').1 (statement w o a w').2 := by
  unfold statement
  cases hfault : o.fault with
  | some e => exact herror e hfault
  | none => exact hok hfault

theorem wp_fetchPending {Q : Except String (List OutboxEntry) → World → Prop} {limit : UInt64}
    (hcrash : F.mayCrash (some (.fetchPending limit)) → F.atCrash w)
    (herror : ∀ e, Q (.error e) w) (hok : Q (.ok (limitRows limit w.pendingRows)) w) :
    wp handle F Q (fetchPending limit) w :=
  wp_perform.mpr ⟨hcrash, fun _ _ => statement_cases (fun e _ => herror e) (fun _ => hok)⟩

theorem wp_fetchRetryable {Q : Except String (List OutboxEntry) → World → Prop}
    {nowTs : Int64} {limit : UInt64}
    (hcrash : F.mayCrash (some (.fetchRetryable nowTs limit)) → F.atCrash w)
    (herror : ∀ e, Q (.error e) w)
    (hok : Q (.ok (limitRows limit (w.retryableRows nowTs))) w) :
    wp handle F Q (fetchRetryable nowTs limit) w :=
  wp_perform.mpr ⟨hcrash, fun _ _ => statement_cases (fun e _ => herror e) (fun _ => hok)⟩

theorem wp_fetchInFlight {Q : Except String (List OutboxEntry) → World → Prop}
    (hcrash : F.mayCrash (some .fetchInFlight) → F.atCrash w)
    (herror : ∀ e, Q (.error e) w) (hok : Q (.ok w.inFlightRows) w) :
    wp handle F Q fetchInFlight w :=
  wp_perform.mpr ⟨hcrash, fun _ _ => statement_cases (fun e _ => herror e) (fun _ => hok)⟩

theorem wp_markStatus {Q : Except String Unit → World → Prop} {id : String}
    {status : OutboxStatus} {error : Option String}
    (hcrash : F.mayCrash (some (.markStatus id status error)) → F.atCrash w)
    (herror : ∀ o e, F.allowed (.markStatus id status error) o → o.fault = some e →
      Q (.error e) w)
    (hok : ∀ seconds, Q (.ok ()) (w.updateRow id (.setStatus status error seconds)
      (OutboxEntry.setStatus_id status error seconds))) :
    wp handle F Q (markStatus id status error) w :=
  wp_perform.mpr ⟨hcrash, fun o ho => statement_cases (fun e he => herror o e ho he) (fun _ => hok o.seconds)⟩

theorem wp_markRetrying {Q : Except String Unit → World → Prop} {id : String}
    {retryCount : UInt32} {nextRetryAt : Int64} {error : String}
    (hcrash : F.mayCrash (some (.markRetrying id retryCount nextRetryAt error)) → F.atCrash w)
    (herror : ∀ o e, F.allowed (.markRetrying id retryCount nextRetryAt error) o →
      o.fault = some e → Q (.error e) w)
    (hok : ∀ seconds, Q (.ok ())
      (w.updateRow id (.setRetrying retryCount nextRetryAt error seconds)
        (OutboxEntry.setRetrying_id retryCount nextRetryAt error seconds))) :
    wp handle F Q (markRetrying id retryCount nextRetryAt error) w :=
  wp_perform.mpr ⟨hcrash, fun o ho => statement_cases (fun e he => herror o e ho he) (fun _ => hok o.seconds)⟩

theorem wp_insertDeadLetter {Q : Except String Unit → World → Prop} {entry : DeadLetterEntry}
    (hcrash : F.mayCrash (some (.insertDeadLetter entry)) → F.atCrash w)
    (hfree : w.deadLetter.find? entry.id = none)
    (herror : ∀ o e, F.allowed (.insertDeadLetter entry) o → o.fault = some e → Q (.error e) w)
    (hok : Q (.ok ()) { w with deadLetter := w.deadLetter.append entry hfree }) :
    wp handle F Q (insertDeadLetter entry) w := by
  refine wp_perform.mpr ⟨hcrash, fun o ho => ?_⟩
  simp only [handle, KeyedTable.insert_eq_some hfree]
  exact statement_cases (fun e he => herror o e ho he) (fun _ => hok)

theorem wp_selectDeadLetter {Q : Except String DeadLetterEntry → World → Prop} {id : String}
    (hcrash : F.mayCrash (some (.selectDeadLetter id)) → F.atCrash w)
    (herror : ∀ e, Q (.error e) w)
    (hok : ∀ entry, w.deadLetter.find? id = some entry → Q (.ok entry) w) :
    wp handle F Q (selectDeadLetter id) w := by
  refine wp_perform.mpr ⟨hcrash, fun o _ => ?_⟩
  cases hfind : w.deadLetter.find? id with
  | none =>
    simp only [handle, hfind]
    exact herror _
  | some entry =>
    simp only [handle, hfind]
    exact statement_cases (fun e _ => herror e) (fun _ => hok entry hfind)

theorem wp_deleteDeadLetter {Q : Except String Unit → World → Prop} {id : String}
    (hcrash : F.mayCrash (some (.deleteDeadLetter id)) → F.atCrash w)
    (herror : ∀ e, Q (.error e) w)
    (hok : Q (.ok ()) { w with deadLetter := w.deadLetter.delete id }) :
    wp handle F Q (deleteDeadLetter id) w :=
  wp_perform.mpr ⟨hcrash, fun _ _ => statement_cases (fun e _ => herror e) (fun _ => hok)⟩

theorem wp_selectRouteKey {Q : Except String (Option String) → World → Prop} {id : String}
    (hcrash : F.mayCrash (some (.selectRouteKey id)) → F.atCrash w)
    (herror : ∀ o e, F.allowed (.selectRouteKey id) o → o.fault = some e → Q (.error e) w)
    (hok : Q (.ok ((w.outbox.find? id).map OutboxEntry.routeKey)) w) :
    wp handle F Q (selectRouteKey id) w :=
  wp_perform.mpr ⟨hcrash, fun o ho => statement_cases (fun e he => herror o e ho he) (fun _ => hok)⟩

theorem wp_resetForReplay {Q : Except String Unit → World → Prop} {id payload : String}
    {now : Int64} (hcrash : F.mayCrash (some (.resetForReplay id payload now)) → F.atCrash w)
    (herror : ∀ o e, F.allowed (.resetForReplay id payload now) o → o.fault = some e →
      Q (.error e) w)
    (hok : Q (.ok ()) { w.updateRow id (.reset payload now) (OutboxEntry.reset_id payload now) with
      trace := .replayed id :: w.trace }) :
    wp handle F Q (resetForReplay id payload now) w :=
  wp_perform.mpr ⟨hcrash, fun o ho => statement_cases (fun e he => herror o e ho he) (fun _ => hok)⟩

theorem wp_send {Q : Except String Unit → World → Prop} {entry : OutboxEntry}
    (hcrash : F.mayCrash (some (.send entry)) → F.atCrash w)
    (herror : ∀ e, Q (.error e) { w with trace := .attempted entry.id false :: w.trace })
    (hok : Q (.ok ()) { w with trace := .attempted entry.id true :: w.trace }) :
    wp handle F Q (send entry) w := by
  refine wp_perform.mpr ⟨hcrash, fun o _ => ?_⟩
  simp only [handle]
  cases o.fault with
  | some e => exact herror e
  | none => exact hok

theorem wp_record {Q : Unit → World → Prop} {routeKey : Option String} {action result : String}
    (hcrash : F.mayCrash (some (.record routeKey action result)) → F.atCrash w)
    (hok : Q () { w with audit := (routeKey, action, result) :: w.audit }) :
    wp handle F Q (record routeKey action result) w :=
  wp_perform.mpr ⟨hcrash, fun _ _ => hok⟩

theorem wp_timestamp {Q : Int64 → World → Prop} (hcrash : F.mayCrash (some .timestamp) → F.atCrash w)
    (hok : ∀ now, Q now w) : wp handle F Q timestamp w :=
  wp_perform.mpr ⟨hcrash, fun o _ => hok o.seconds⟩

theorem wp_timestampMillis {Q : Int64 → World → Prop}
    (hcrash : F.mayCrash (some .timestampMillis) → F.atCrash w) (hok : ∀ now, Q now w) :
    wp handle F Q timestampMillis w :=
  wp_perform.mpr ⟨hcrash, fun o _ => hok o.millis⟩

end Rules

/-! ## The process -/

/-- The arguments of `OutboxEntry::new` for a message that is enqueued. -/
structure NewMessage where
  id : String
  routeKey : String
  payload : String
  nowTs : Int64

def World.enqueueNew (new : NewMessage) (w : World) : World :=
  w.enqueue (OutboxEntry.new new.id new.routeKey new.payload new.nowTs)

section Enqueue

variable {w : World} {new : NewMessage} {id : String}

/-- A row that is there stays. -/
theorem find?_enqueueNew_of_eq_some {row : OutboxEntry} (h : w.outbox.find? id = some row) :
    (w.enqueueNew new).outbox.find? id = some row := by
  refine (KeyedTable.find?_insertOrIgnore w.outbox _ id).trans ?_
  rw [h]
  split <;> rfl

/-- A row that is new is pending. -/
theorem find?_enqueueNew_cases {row : OutboxEntry}
    (h : (w.enqueueNew new).outbox.find? id = some row) :
    w.outbox.find? id = some row ∨ row.status = .pending := by
  rw [show (w.enqueueNew new).outbox.find? id = _ from
    KeyedTable.find?_insertOrIgnore w.outbox _ id] at h
  split at h
  · cases hold : w.outbox.find? id with
    | some old =>
      rw [hold] at h
      exact .inl h
    | none =>
      rw [hold] at h
      obtain rfl := Option.some.inj h
      exact .inr rfl
  · exact .inl h

/-- The trace has the enqueue where no row had the id. -/
theorem trace_enqueueNew_cases (w : World) (new : NewMessage) :
    (w.enqueueNew new).trace = w.trace ∨
      w.outbox.find? new.id = none ∧ (w.enqueueNew new).trace = .enqueued new.id :: w.trace := by
  unfold World.enqueueNew World.enqueue
  dsimp only [OutboxEntry.new]
  cases w.outbox.find? new.id with
  | some old => exact .inl rfl
  | none => exact .inr ⟨rfl, rfl⟩

theorem stable_hasStatus (id : String) (status : OutboxStatus) :
    Stable World.enqueueNew fun w => HasStatus w id status := by
  rintro new w ⟨row, hrow, hstatus⟩
  exact ⟨row, find?_enqueueNew_of_eq_some hrow, hstatus⟩

theorem moved_enqueueNew_deadLetter (news : List NewMessage) (w : World) :
    (moved World.enqueueNew news w).deadLetter = w.deadLetter := by
  have hstable : Stable World.enqueueNew fun w' => w'.deadLetter = w.deadLetter := fun _ _ h => h
  exact hstable.moved news rfl

end Enqueue

/-- The calls of a program, where messages are enqueued in between. -/
abbrev sharing : Handler Call.Reply World (Outcome × List NewMessage) :=
  Handler.amid World.enqueueNew handle

/-- What the process does. -/
inductive Phase where
  | ticking (work : Work Unit)
  | replaying (work : Work (Except String OutboxEntry))
  | recovering (work : Work (Except String Nat))
  | crashed

/-- The process has nothing to do: it has started, and its last tick or replay
is over. -/
def Phase.isIdle : Phase → Bool
  | .ticking (.ret ()) => true
  | _ => false

/-- The call that the process makes next. -/
def Phase.nextCall? : Phase → Option Call
  | .ticking work => work.next?
  | .replaying work => work.next?
  | .recovering work => work.next?
  | .crashed => none

/-- One call of the program that runs. -/
def Phase.call (o : Outcome) (w : World) : Phase → Option (World × Phase)
  | .ticking work => (work.step handle o w).map fun (work', w') => (w', .ticking work')
  | .replaying work => (work.step handle o w).map fun (work', w') => (w', .replaying work')
  | .recovering work => (work.step handle o w).map fun (work', w') => (w', .recovering work')
  | .crashed => none

/-- The program that runs returns.  A recovery that fails is returned from
`main`. -/
def Phase.finish : Phase → Option Phase
  | .replaying (.ret _) => some (.ticking (.ret ()))
  | .recovering (.ret (.ok _)) => some (.ticking (.ret ()))
  | .recovering (.ret (.error _)) => some .crashed
  | _ => none

structure Process where
  world : World
  phase : Phase

/-- An empty database, and nothing to do. -/
def Process.init : Process := ⟨World.init, .ticking (.ret ())⟩

inductive Action where
  | enqueue (id routeKey payload : String) (nowTs : Int64)
  | startPending (batchSize : UInt64)
  | startRetries (batchSize : UInt64)
  | startReplay (id : String)
  /-- the next call of the program that runs, with this outcome -/
  | call (o : Outcome)
  | finish
  | crash
  | restart

/-- An action that an idle process can take. -/
def Process.whenIdle (s next : Process) : Option Process :=
  if s.phase.isIdle then some next else none

theorem Process.whenIdle_eq_some {s next s' : Process} :
    s.whenIdle next = some s' ↔ s.phase.isIdle = true ∧ next = s' := by
  unfold Process.whenIdle
  by_cases hidle : s.phase.isIdle = true <;> simp [hidle]

def Process.step (retry : RetryConfig) (s : Process) : Action → Option Process
  | .enqueue id routeKey payload nowTs =>
    some { s with world := s.world.enqueue (OutboxEntry.new id routeKey payload nowTs) }
  | .startPending batchSize =>
    s.whenIdle { s with phase := .ticking (processPending retry batchSize) }
  | .startRetries batchSize =>
    s.whenIdle { s with phase := .ticking (processRetries retry batchSize) }
  | .startReplay id => s.whenIdle { s with phase := .replaying (replay id) }
  | .call o => (s.phase.call o s.world).map fun (w, phase) => ⟨w, phase⟩
  | .finish => s.phase.finish.map fun phase => { s with phase := phase }
  | .crash => some { s with phase := .crashed }
  | .restart =>
    match s.phase with
    | .crashed => some { s with phase := .recovering recoverAfterCrash }
    | _ => none

/-! ## Runs under weakest preconditions -/

/-- The action is a fault or a crash only where `F` allows it. -/
def Meets (F : Faults Call World Outcome) (s : Process) : Action → Prop
  | .call o => ∀ c ∈ s.phase.nextCall?, F.allowed c o
  | .crash => F.mayCrash s.phase.nextCall?
  | _ => True

/-- What the four programs do with a property `Inv` of the worlds of idle
states, under the faults `F`. -/
structure Keeps (retry : RetryConfig) (F : Faults Call World Outcome) (Inv : World → Prop) :
    Prop where
  atCrash : F.mayCrash none → ∀ w, Inv w → F.atCrash w
  enqueue : Stable World.enqueueNew Inv
  crashed : Stable World.enqueueNew F.atCrash
  pending : ∀ batchSize w, Inv w →
    wp sharing F.amid (fun _ w' => Inv w') (processPending retry batchSize) w
  retries : ∀ batchSize w, Inv w →
    wp sharing F.amid (fun _ w' => Inv w') (processRetries retry batchSize) w
  replay : ∀ id w, Inv w → wp sharing F.amid (fun _ w' => Inv w') (replay id) w
  recover : ∀ w, F.atCrash w →
    wp sharing F.amid (fun r w' => if r.isOk then Inv w' else F.atCrash w') recoverAfterCrash w

/-- The property of all states that the runs keep. -/
def PhaseInv (F : Faults Call World Outcome) (Inv : World → Prop) (s : Process) : Prop :=
  match s.phase with
  | .ticking work => wp sharing F.amid (fun _ w => Inv w) work s.world
  | .replaying work => wp sharing F.amid (fun _ w => Inv w) work s.world
  | .recovering work =>
    wp sharing F.amid (fun r w => if r.isOk then Inv w else F.atCrash w) work s.world
  | .crashed => F.atCrash s.world

theorem phaseInv_iff_of_isIdle {F : Faults Call World Outcome} {Inv : World → Prop}
    {s : Process} (hidle : s.phase.isIdle = true) : PhaseInv F Inv s ↔ Inv s.world := by
  obtain ⟨w, phase⟩ := s
  cases phase with
  | ticking work =>
    cases work with
    | ret a => rfl
    | call c next => exact absurd hidle (by simp [Phase.isIdle])
  | replaying work => exact absurd hidle (by simp [Phase.isIdle])
  | recovering work => exact absurd hidle (by simp [Phase.isIdle])
  | crashed => exact absurd hidle (by simp [Phase.isIdle])

section Runs

variable {retry : RetryConfig} {F : Faults Call World Outcome} {Inv : World → Prop}

theorem phaseInv_call {s s' : Process} {o : Outcome} (h : PhaseInv F Inv s)
    (hmeets : Meets F s (.call o)) (hstep : s.step retry (.call o) = some s') :
    PhaseInv F Inv s' := by
  obtain ⟨w, phase⟩ := s
  unfold Process.step Phase.call at hstep
  cases phase with
  | crashed => simp at hstep
  | ticking work | replaying work | recovering work =>
    cases hwork : work.step handle o w with
    | none => simp [hwork] at hstep
    | some r =>
      obtain ⟨work', w'⟩ := r
      simp only [hwork, Option.map_some, Option.some.injEq] at hstep
      subst hstep
      exact wp_amid_step h hwork hmeets

theorem phaseInv_finish {s s' : Process} (h : PhaseInv F Inv s)
    (hstep : s.step retry .finish = some s') : PhaseInv F Inv s' := by
  obtain ⟨w, phase⟩ := s
  unfold Process.step Phase.finish at hstep
  cases phase with
  | crashed => simp at hstep
  | ticking work => simp at hstep
  | replaying work =>
    cases work with
    | call c next => simp at hstep
    | ret r =>
      simp only [Option.map_some, Option.some.injEq] at hstep
      subst hstep
      exact h
  | recovering work =>
    cases work with
    | call c next => simp at hstep
    | ret r =>
      cases r with
      | ok n =>
        simp only [Option.map_some, Option.some.injEq] at hstep
        subst hstep
        exact h
      | error e =>
        simp only [Option.map_some, Option.some.injEq] at hstep
        subst hstep
        exact h

theorem phaseInv_crash (hatCrash : F.mayCrash none → ∀ w, Inv w → F.atCrash w) {s s' : Process}
    (h : PhaseInv F Inv s) (hmeets : Meets F s .crash) (hstep : s.step retry .crash = some s') :
    PhaseInv F Inv s' := by
  obtain ⟨w, phase⟩ := s
  cases hstep
  show F.atCrash w
  cases phase with
  | crashed => exact h
  | ticking work => exact wp_atCrash (F := F.amid) h (fun _ hc => hatCrash hc w) hmeets
  | replaying work => exact wp_atCrash (F := F.amid) h (fun _ hc => hatCrash hc w) hmeets
  | recovering work =>
    refine wp_atCrash (F := F.amid) h (fun r hc hr => ?_) hmeets
    by_cases hok : r.isOk
    · rw [if_pos hok] at hr
      exact hatCrash hc w hr
    · rwa [if_neg hok] at hr

/-- A message may be enqueued whatever the process does. -/
theorem phaseInv_enqueue (hinv : Stable World.enqueueNew Inv)
    (hcrashed : Stable World.enqueueNew F.atCrash) {s : Process} (h : PhaseInv F Inv s)
    (new : NewMessage) : PhaseInv F Inv { s with world := s.world.enqueueNew new } := by
  obtain ⟨w, phase⟩ := s
  cases phase with
  | crashed => exact hcrashed new w h
  | ticking work => exact stable_wp (fun _ => hinv) hcrashed work new w h
  | replaying work => exact stable_wp (fun _ => hinv) hcrashed work new w h
  | recovering work =>
    refine stable_wp (fun r new w hr => ?_) hcrashed work new w h
    by_cases hok : r.isOk
    · rw [if_pos hok] at hr ⊢
      exact hinv new w hr
    · rw [if_neg hok] at hr ⊢
      exact hcrashed new w hr

theorem phaseInv_step (hkeeps : Keeps retry F Inv) (s : Process) (a : Action) (s' : Process)
    (h : PhaseInv F Inv s) (hmeets : Meets F s a) (hstep : s.step retry a = some s') :
    PhaseInv F Inv s' := by
  have hinv : s.phase.isIdle = true → Inv s.world := fun hidle =>
    (phaseInv_iff_of_isIdle hidle).mp h
  cases a with
  | call o => exact phaseInv_call h hmeets hstep
  | finish => exact phaseInv_finish h hstep
  | crash => exact phaseInv_crash hkeeps.atCrash h hmeets hstep
  | restart =>
    obtain ⟨w, phase⟩ := s
    cases phase with
    | crashed =>
      cases hstep
      exact hkeeps.recover w h
    | ticking work | replaying work | recovering work => simp [Process.step] at hstep
  | enqueue id routeKey payload nowTs =>
    cases hstep
    exact phaseInv_enqueue hkeeps.enqueue hkeeps.crashed h ⟨id, routeKey, payload, nowTs⟩
  | startPending batchSize =>
    obtain ⟨hidle, rfl⟩ := Process.whenIdle_eq_some.mp hstep
    exact hkeeps.pending batchSize s.world (hinv hidle)
  | startRetries batchSize =>
    obtain ⟨hidle, rfl⟩ := Process.whenIdle_eq_some.mp hstep
    exact hkeeps.retries batchSize s.world (hinv hidle)
  | startReplay id =>
    obtain ⟨hidle, rfl⟩ := Process.whenIdle_eq_some.mp hstep
    exact hkeeps.replay id s.world (hinv hidle)

/-- What the programs keep holds in every idle state of a run whose faults
and crashes are allowed. -/
theorem run_keeps (hkeeps : Keeps retry F Inv) (hinit : Inv World.init) {actions : List Action}
    {s : Process} (hrun : run (Process.step retry) Process.init actions = some s)
    (hmeets : EveryStep (Process.step retry) (Meets F) Process.init actions)
    (hidle : s.phase.isIdle = true) : Inv s.world := by
  have hstart : PhaseInv F Inv Process.init := hinit
  exact (phaseInv_iff_of_isIdle hidle).mp
    (run_invariant_of_everyStep (phaseInv_step hkeeps) hstart hmeets hrun)

end Runs

/-! ## Ingredients of concrete runs -/

/-- Five retries, a second to start with, no jitter. -/
def fiveRetries : RetryConfig := ⟨5, 1000, 60000, fun _ => 0⟩

/-- The outcome of a call that works. -/
def works : Outcome := .working 1700000000 1700000000000

/-- The outcome of a call that fails. -/
def fails (error : String) : Outcome := .failing error 1700000000 1700000000000

end MagicLaw.Outbox
