import MagicLaw.Lib.Tasks
import MagicLaw.Outbox.Worker

/-!
# Several loops over one outbox

A tick of `outbox_worker_loop` is `process_pending` and then
`process_retries`, and so is `process_outbox_once` of
`infrastructure/runtime.rs`.  Here any number of ticks run over one outbox,
their calls interleave, and messages are enqueued between any two calls.

A loop fetches a row and marks it as `sending` in two statements.  Where every
call works, and every row that is marked still waits as it did when it was
fetched, each message is sent at most once, whatever is in the outbox at the
start (`sent_once`).  Two loops that fetch the same row before either marks it
send it twice.
-/

namespace MagicLaw.Outbox

open Lib Lib.Program Lib.Machine Lib.Tasks

/-- One round of `outbox_worker_loop`, and the body of `process_outbox_once`. -/
def tick (retry : RetryConfig) (batchSize : UInt64) : Work Unit := do
  processPending retry batchSize
  processRetries retry batchSize

/-- Any number of ticks, each started with its batch size, over one outbox. -/
def Loops.step (retry : RetryConfig) : Pool Call.Reply Unit World → Move UInt64 NewMessage Outcome →
    Option (Pool Call.Reply Unit World) :=
  Pool.step handle (tick retry) World.enqueueNew

/-- How often a message was passed to the channel. -/
def attempts (id : String) (trace : List Event) : Nat :=
  trace.countP fun
    | .attempted id' _ => id' = id
    | _ => false

/-! ## The row is claimed by its status -/

instance (row : OutboxEntry) : Decidable row.Waits :=
  inferInstanceAs (Decidable (row.status = .pending ∨ row.status = .retrying))

/-- The row is not to be sent any more. -/
def World.Taken (w : World) (id : String) : Bool :=
  match w.outbox.find? id with
  | none => false
  | some row => ¬ row.Waits

/-- A send acts on the message and works, and marking its row as `sending`
claims it. -/
def sendOnce : Discipline Call.Reply World String where
  legal
    | .markStatus _ status _ => status ≠ .pending ∧ status ≠ .retrying
    | .markRetrying _ _ _ _ | .resetForReplay _ _ _ | .insertReplayed _ _ _ => False
    | _ => True
  told
    | .send _, r => r = .ok ()
    | _, _ => True
  acts
    | .send entry => some entry.id
    | _ => none
  won
    | .markStatus id .sending _, .ok () => some id
    | _, _ => none
  claimed := World.Taken
  count w id := attempts id w.trace

/-- Every call works, and a row that is marked as `sending` still is pending or
retrying, as it was when it was fetched. -/
def MarksWaiting (w : World) : Call → Outcome → Prop
  | .markStatus id .sending _, o =>
    o.fault = none ∧ ∃ row, w.outbox.find? id = some row ∧ row.Waits
  | _, o => o.fault = none

theorem MarksWaiting.works {w : World} {c : Call} {o : Outcome} (h : MarksWaiting w c o) :
    o.fault = none := by
  unfold MarksWaiting at h
  split at h
  · exact h.1
  · exact h

/-! ## The loops keep to the discipline -/

theorem guarded_record (right routeKey : Option String) (action result : String) :
    Guarded sendOnce right (record routeKey action result) :=
  guarded_call_iff.mpr ⟨trivial, fun _ h => absurd h (by simp [sendOnce]), fun _ _ => trivial⟩

/-- A send comes right after the row was marked as `sending`. -/
theorem guarded_deliver (retry : RetryConfig) (entry : OutboxEntry) :
    Guarded sendOnce none (deliver retry entry) := by
  unfold deliver
  apply guarded_perform_bind (by simp [sendOnce]) rfl
  intro r _
  match r with
  | .error e => trivial
  | .ok () =>
    apply guarded_act_bind trivial rfl
    intro r' hr'
    have hdelivered : r' = .ok () := hr'
    subst hdelivered
    apply guarded_perform_bind (by simp [sendOnce]) rfl
    intro r'' _
    exact guarded_record _ _ _ _

theorem guarded_processPending (retry : RetryConfig) (batchSize : UInt64) :
    Guarded sendOnce none (processPending retry batchSize) := by
  unfold processPending
  apply guarded_perform_bind trivial rfl
  intro r _
  match r with
  | .error e => trivial
  | .ok entries => exact guarded_forEach (guarded_deliver retry) entries

theorem guarded_processRetries (retry : RetryConfig) (batchSize : UInt64) :
    Guarded sendOnce none (processRetries retry batchSize) := by
  unfold processRetries
  apply guarded_perform_bind trivial rfl
  intro nowTs _
  apply guarded_perform_bind trivial rfl
  intro r _
  match r with
  | .error e => trivial
  | .ok entries => exact guarded_forEach (guarded_deliver retry) entries

theorem guarded_tick (retry : RetryConfig) (batchSize : UInt64) :
    Guarded sendOnce none (tick retry batchSize) :=
  guarded_bind (guarded_processPending retry batchSize) fun _ =>
    guarded_processRetries retry batchSize

/-! ## What the calls do to the claims -/

/-- What a call of the loops does to the outbox and the trace. -/
theorem handle_outbox (w : World) (o : Outcome) (c : Call) (hlegal : sendOnce.legal c) :
    ((handle w o c).2.outbox = w.outbox ∧ (handle w o c).2.trace = w.trace) ∨
    (∃ id, ∃ f : OutboxEntry → OutboxEntry, ∃ hf : ∀ row, (f row).id = row.id,
      (∀ row, ¬ (f row).Waits) ∧ (handle w o c).2 = w.updateRow id f hf) ∨
    (∃ entry delivered, c = .send entry ∧ (handle w o c).2.outbox = w.outbox ∧
      (handle w o c).2.trace = .attempted entry.id delivered :: w.trace) := by
  have hsame : ∀ {α : Type} (a : α) (w' : World), w'.outbox = w.outbox → w'.trace = w.trace →
      (statement w o a w').2.outbox = w.outbox ∧ (statement w o a w').2.trace = w.trace := by
    intro α a w' houtbox htrace
    unfold statement
    cases o.fault with
    | some e => exact ⟨rfl, rfl⟩
    | none => exact ⟨houtbox, htrace⟩
  cases c with
  | fetchPending limit | fetchRetryable nowTs limit | fetchInFlight | selectRouteKey id =>
    exact Or.inl (hsame _ w rfl rfl)
  | deleteDeadLetter id => exact Or.inl (hsame () { w with deadLetter := _ } rfl rfl)
  | timestamp | timestampMillis | record routeKey action result => exact Or.inl ⟨rfl, rfl⟩
  | markRetrying id retryCount nextRetryAt error => exact hlegal.elim
  | resetForReplay id payload now | insertReplayed id payload now => exact hlegal.elim
  | insertDeadLetter entry =>
    simp only [handle]
    split
    · exact Or.inl ⟨rfl, rfl⟩
    · exact Or.inl (hsame () { w with deadLetter := _ } rfl rfl)
  | selectDeadLetter id =>
    simp only [handle]
    split
    · exact Or.inl ⟨rfl, rfl⟩
    · exact Or.inl (hsame _ w rfl rfl)
  | markStatus id status error =>
    simp only [handle, statement]
    cases o.fault with
    | some e => exact Or.inl ⟨rfl, rfl⟩
    | none =>
      exact Or.inr (Or.inl ⟨id, .setStatus status error o.seconds,
        OutboxEntry.setStatus_id status error o.seconds, fun _ => not_or.mpr hlegal, rfl⟩)
  | send entry =>
    simp only [handle]
    cases o.fault with
    | some e => exact Or.inr (Or.inr ⟨entry, false, rfl, rfl, rfl⟩)
    | none => exact Or.inr (Or.inr ⟨entry, true, rfl, rfl, rfl⟩)

theorem taken_congr {w w' : World} (h : w'.outbox = w.outbox) (k : String) :
    w'.Taken k = w.Taken k := by
  unfold World.Taken
  rw [h]

theorem taken_updateRow {w : World} {id : String} {f : OutboxEntry → OutboxEntry}
    {hf : ∀ row, (f row).id = row.id} (hover : ∀ row, ¬ (f row).Waits) {k : String}
    (h : w.Taken k = true) : (w.updateRow id f hf).Taken k = true := by
  unfold World.Taken at h ⊢
  by_cases hk : k = id
  · subst hk
    cases hrow : w.outbox.find? k with
    | none => simp [hrow] at h
    | some row =>
      rw [find?_updateRow_self w k f hf hrow]
      exact decide_eq_true (hover row)
  · rwa [find?_updateRow_of_ne w id f hf hk]

theorem taken_enqueueNew (w : World) (new : NewMessage) {k : String} (h : w.Taken k = true) :
    (w.enqueueNew new).Taken k = true := by
  unfold World.Taken at h ⊢
  cases hrow : w.outbox.find? k with
  | none => simp [hrow] at h
  | some row =>
    rw [find?_enqueueNew_of_eq_some hrow]
    rwa [hrow] at h

/-- A claim is a row that was marked as `sending`. -/
theorem markStatus_of_won {w : World} {o : Outcome} {c : Call} {k : String}
    (h : sendOnce.won c (handle w o c).1 = some k) :
    ∃ error, c = .markStatus k .sending error ∧ o.fault = none := by
  cases c with
  | markStatus id status error =>
    cases status with
    | sending =>
      cases hfault : o.fault with
      | some e => simp [sendOnce, handle, statement, hfault] at h
      | none =>
        simp only [sendOnce, handle, statement, hfault, Option.some.injEq] at h
        exact ⟨error, by rw [h], rfl⟩
    | pending | sent | retrying | deadLetter => simp [sendOnce] at h
  | _ => simp [sendOnce] at h

theorem sendOnce_sound : sendOnce.Sound handle MarksWaiting World.enqueueNew where
  told_call w o c _ hallowed := by
    cases c with
    | send entry =>
      obtain ⟨fault, seconds, millis⟩ := o
      obtain rfl : fault = none := hallowed.works
      rfl
    | _ => trivial
  won_free w o c k _ hallowed hwon := by
    obtain ⟨error, hc, hfault⟩ := markStatus_of_won hwon
    subst hc
    obtain ⟨row, hrow, hwaits⟩ := hallowed.2
    constructor
    · show World.Taken w k = false
      simp [World.Taken, hrow, hwaits]
    · show World.Taken _ k = true
      simp only [handle, statement, hfault]
      unfold World.Taken
      rw [find?_updateRow_self _ _ _ _ hrow]
      exact decide_eq_true (by simp [OutboxEntry.Waits, OutboxEntry.setStatus])
  claimed_call w o c k hlegal _ htaken := by
    show World.Taken _ k = true
    rcases handle_outbox w o c hlegal with h | ⟨id, f, hf, hover, h⟩ | ⟨_, _, _, h, _⟩
    · rwa [taken_congr h.1]
    · rw [h]
      exact taken_updateRow hover htaken
    · rwa [taken_congr h]
  claimed_other w new k := taken_enqueueNew w new
  count_call w o c k hlegal _ := by
    show attempts k _ ≤ attempts k w.trace + _
    rcases handle_outbox w o c hlegal with h | ⟨id, f, hf, _, h⟩ | ⟨entry, delivered, hc, _, h⟩
    · rw [h.2]
      exact Nat.le_add_right _ _
    · rw [h]
      exact Nat.le_add_right _ _
    · subst hc
      rw [h, attempts, List.countP_cons]
      simp [sendOnce, attempts]
  count_other w new k := by
    show attempts k (w.enqueueNew new).trace = attempts k w.trace
    unfold World.enqueueNew World.enqueue
    split
    · rfl
    · simp [attempts]

/-! ## At most one send -/

/-- In every interleaving of ticks, over any outbox, in which every call works
and every row that is marked as `sending` still waits, every message is passed
to the channel once at most. -/
theorem sent_once (retry : RetryConfig) {w : World} {moves : List (Move UInt64 NewMessage Outcome)}
    {s : Pool Call.Reply Unit World}
    (hrun : run (Loops.step retry) (.init w) moves = some s)
    (hwaiting : EveryStep (Loops.step retry) (Tasks.Meets MarksWaiting) (.init w) moves)
    (id : String) : attempts id s.shared.trace ≤ attempts id w.trace + 1 :=
  count_le_succ sendOnce_sound (guarded_tick retry) hrun hwaiting id

/-- A message was sent once without success, and waits for a retry. -/
def oneRetrying : World :=
  { World.init with
    outbox := .single { OutboxEntry.new "m0" "wechat/c1" "hello" 1699999990 with
      status := .retrying, retryCount := 1, nextRetryAt := some 1699999995 }
    trace := [.attempted "m0" false] }

/-- The second loop fetches the retries after the first one has marked the row,
and a message that comes in meanwhile as the first one. -/
def oneAfterTheOther : List (Move UInt64 NewMessage Outcome) :=
  [.start 64, .start 64, .call 0 works, .call 0 works, .call 0 works, .call 0 works,
    .other ⟨"m1", "wechat/c1", "hi", 1700000000⟩, .call 1 works, .call 1 works, .call 0 works,
    .call 1 works, .call 1 works, .call 1 works, .call 0 works, .call 1 works, .call 1 works]

instance (w : World) (id : String) : Decidable (∃ row, w.outbox.find? id = some row ∧ row.Waits) :=
  decidable_of_iff (∃ row ∈ w.outbox.find? id, row.Waits) (by simp)

instance (w : World) (c : Call) (o : Outcome) : Decidable (MarksWaiting w c o) := by
  unfold MarksWaiting
  split <;> infer_instance

def bothSent : Pool Call.Reply Unit World :=
  (run (Loops.step fiveRetries) (.init oneRetrying) oneAfterTheOther).get (by decide +kernel)

theorem oneAfterTheOther_sent_once :
    attempts "m0" bothSent.shared.trace ≤ attempts "m0" oneRetrying.trace + 1 ∧
      attempts "m1" bothSent.shared.trace ≤ attempts "m1" oneRetrying.trace + 1 := by
  have hrun : run (Loops.step fiveRetries) (.init oneRetrying) oneAfterTheOther = some bothSent :=
    (Option.some_get _).symm
  have hwaiting : EveryStep (Loops.step fiveRetries) (Tasks.Meets MarksWaiting)
      (.init oneRetrying) oneAfterTheOther := by decide +kernel
  exact ⟨sent_once fiveRetries hrun hwaiting "m0", sent_once fiveRetries hrun hwaiting "m1"⟩

/-! ## Two loops that fetch the same row -/

/-- Every call works. -/
def Works (_ : World) (_ : Call) (o : Outcome) : Prop := o.fault = none

instance (w : World) (c : Call) (o : Outcome) : Decidable (Works w c o) :=
  inferInstanceAs (Decidable (o.fault = none))

def LoopsSendOnce : Prop :=
  ∀ (retry : RetryConfig) (moves : List (Move UInt64 NewMessage Outcome))
    (s : Pool Call.Reply Unit World),
    run (Loops.step retry) (.init World.init) moves = some s →
    EveryStep (Loops.step retry) (Tasks.Meets Works) (.init World.init) moves →
    ∀ id, attempts id s.shared.trace ≤ 1

/-- Both loops fetch the row before either marks it. -/
def bothFetch : List (Move UInt64 NewMessage Outcome) :=
  [.other ⟨"m1", "wechat/c1", "hi", 1700000000⟩, .start 64, .start 64, .call 0 works,
    .call 1 works, .call 0 works, .call 0 works, .call 1 works, .call 1 works]

/-- The message is passed to the channel twice. -/
theorem not_loopsSendOnce : ¬ LoopsSendOnce := by
  intro h
  have hworks : EveryStep (Loops.step fiveRetries) (Tasks.Meets Works) (.init World.init) bothFetch := by
    decide +kernel
  refine absurd (h fiveRetries bothFetch (Option.get _ ?_) (Option.some_get _).symm hworks "m1") ?_
  · decide +kernel
  · decide +kernel

end MagicLaw.Outbox
