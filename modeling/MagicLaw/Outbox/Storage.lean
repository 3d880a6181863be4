import Mathlib.Algebra.Group.Nat.Defs
import Mathlib.Data.List.Sort
import MagicLaw.Lib.KeyedTable
import MagicLaw.Lib.Program

/-!
# The outbox tables and the calls of the outbox worker

The entries of `infrastructure/storage`, the `outbox` and `dead_letter` tables
of `infrastructure/db.rs`, and the calls that the worker, the recovery and the
replay make: the SQL statements of `adapters/sqlite_outbox.rs` and
`adapters/sqlite_dead_letter.rs`, the send, the audit record and the clocks.

`handle` says what one call does.  The environment picks its outcome: the
error it fails with, if it fails, and what the clocks show.  A failed
statement changes nothing.

The world also carries a trace of what happened to each message: when it was
enqueued, each attempt to send it, and when it was replayed.  No call reads it.
-/

namespace MagicLaw.Outbox

open Lib Lib.Program

/-! ## Entries -/

inductive OutboxStatus where
  | pending | sending | sent | retrying | deadLetter
  deriving DecidableEq, Repr

def OutboxStatus.asStr : OutboxStatus → String
  | .pending => "pending"
  | .sending => "sending"
  | .sent => "sent"
  | .retrying => "retrying"
  | .deadLetter => "dead_letter"

def OutboxStatus.parse (s : String) : Option OutboxStatus :=
  match s with
  | "pending" => some .pending
  | "sending" => some .sending
  | "sent" => some .sent
  | "retrying" => some .retrying
  | "dead_letter" => some .deadLetter
  | _ => none

/-- A status that is written to the table is read back as it was, so the rows
of the model carry the status and not its text. -/
theorem OutboxStatus.parse_asStr (status : OutboxStatus) : parse status.asStr = some status := by
  cases status <;> rfl

/-- `OutboxEntry`, a row of `outbox`. -/
structure OutboxEntry where
  id : String
  routeKey : String
  payload : String
  status : OutboxStatus
  retryCount : UInt32
  nextRetryAt : Option Int64
  lastError : Option String
  createdAt : Int64
  updatedAt : Int64

def OutboxEntry.new (id routeKey payload : String) (nowTs : Int64) : OutboxEntry where
  id := id
  routeKey := routeKey
  payload := payload
  status := .pending
  retryCount := 0
  nextRetryAt := none
  lastError := none
  createdAt := nowTs
  updatedAt := nowTs

/-- A message that waits for an attempt. -/
def OutboxEntry.Waits (row : OutboxEntry) : Prop := row.status = .pending ∨ row.status = .retrying

/-- `DeadLetterEntry`, a row of `dead_letter`. -/
structure DeadLetterEntry where
  id : String
  source : String
  payload : String
  reason : String
  createdAt : Int64

def DeadLetterEntry.new (id source payload reason : String) (nowTs : Int64) : DeadLetterEntry :=
  ⟨id, source, payload, reason, nowTs⟩

/-! ## The retry delay -/

/-- `RetryConfig`.  `jitterRange capped` stands for the floating-point product
`(capped as f64 * jitter) as u64`. -/
structure RetryConfig where
  maxRetries : UInt32
  baseBackoffMs : UInt64
  maxBackoffMs : UInt64
  jitterRange : UInt64 → UInt64

/-- A `Nat` as a `u64`, the largest one when it does not fit. -/
def saturate (n : Nat) : UInt64 := UInt64.ofNat (min n (2 ^ 64 - 1))

/-- `next_delay_ms`: the doubled base, capped, with some jitter, capped
again. -/
def RetryConfig.nextDelayMs (retry : RetryConfig) (retryCount : UInt32) : UInt64 :=
  let power := saturate (2 ^ retryCount.toNat)
  let base := saturate (retry.baseBackoffMs.toNat * power.toNat)
  let capped := min base retry.maxBackoffMs
  let jitterRange := retry.jitterRange capped
  let withJitter :=
    if 0 < jitterRange then
      saturate (capped.toNat + (retryCount.toUInt64 * 7 % jitterRange).toNat)
    else capped
  min withJitter retry.maxBackoffMs

/-- Whatever the jitter is, the delay stays under the cap. -/
theorem RetryConfig.nextDelayMs_le (retry : RetryConfig) (retryCount : UInt32) :
    retry.nextDelayMs retryCount ≤ retry.maxBackoffMs := by
  have hmin : ∀ a b : UInt64, min a b ≤ b := by
    intro a b
    show (if a ≤ b then a else b) ≤ b
    by_cases h : a ≤ b
    · rwa [if_pos h]
    · rw [if_neg h]
      exact UInt64.le_refl b
  exact hmin _ _

/-! ## The world -/

/-- What happened to the message with an id. -/
inductive Event where
  | enqueued (id : String)
  | attempted (id : String) (delivered : Bool)
  | replayed (id : String)
  deriving DecidableEq

/-- The two tables, what was given to the audit sink, and the trace.  The
lists have the newest element first. -/
structure World where
  outbox : KeyedTable OutboxEntry.id
  deadLetter : KeyedTable DeadLetterEntry.id
  audit : List (Option String × String × String)
  trace : List Event

def World.init : World := ⟨KeyedTable.empty, KeyedTable.empty, [], []⟩

/-- The calls to the ports. -/
inductive Call where
  | fetchPending (limit : UInt64)
  | fetchRetryable (nowTs : Int64) (limit : UInt64)
  /-- `OutboxRepo::recover_after_crash` -/
  | fetchInFlight
  | markStatus (id : String) (status : OutboxStatus) (error : Option String)
  | markRetrying (id : String) (retryCount : UInt32) (nextRetryAt : Int64) (error : String)
  | insertDeadLetter (entry : DeadLetterEntry)
  /-- the `SELECT`, `DELETE`, `SELECT`, `UPDATE` and `INSERT` of `replay` -/
  | selectDeadLetter (id : String)
  | deleteDeadLetter (id : String)
  | selectRouteKey (id : String)
  | resetForReplay (id payload : String) (now : Int64)
  | insertReplayed (id payload : String) (now : Int64)
  | send (entry : OutboxEntry)
  | record (routeKey : Option String) (action result : String)
  /-- `Utc::now().timestamp()` -/
  | timestamp
  /-- `Utc::now().timestamp_millis()` -/
  | timestampMillis

def Call.isSend : Call → Bool
  | .send _ => true
  | _ => false

/-- What a call yields. -/
def Call.Reply : Call → Type
  | .fetchPending _ | .fetchRetryable _ _ | .fetchInFlight => Except String (List OutboxEntry)
  | .markStatus _ _ _ | .markRetrying _ _ _ _ | .insertDeadLetter _ => Except String Unit
  | .selectDeadLetter _ => Except String DeadLetterEntry
  | .deleteDeadLetter _ => Except String Unit
  | .selectRouteKey _ => Except String (Option String)
  | .resetForReplay _ _ _ | .insertReplayed _ _ _ => Except String Unit
  | .send _ => Except String Unit
  | .record _ _ _ => Unit
  | .timestamp | .timestampMillis => Int64

/-- What the environment picks for a call. -/
structure Outcome where
  fault : Option String
  seconds : Int64
  millis : Int64

/-- The call works. -/
def Outcome.working (seconds millis : Int64) : Outcome := ⟨none, seconds, millis⟩

/-- The call fails, if it is one that can. -/
def Outcome.failing (error : String) (seconds millis : Int64) : Outcome :=
  ⟨some error, seconds, millis⟩

/-! ## What the calls do -/

/-- `LIMIT`: a `usize` that is negative as an `i64` is no limit. -/
def limitRows (limit : UInt64) (rows : List OutboxEntry) : List OutboxEntry :=
  if limit.toInt64 < 0 then rows else rows.take limit.toNat

/-- `SELECT … FROM outbox WHERE status='pending' ORDER BY created_at ASC`. -/
def World.pendingRows (w : World) : List OutboxEntry :=
  (w.outbox.select fun row => row.status = .pending).insertionSort fun r r' =>
    r.createdAt ≤ r'.createdAt

/-- A retry is due.  The comparison with NULL does not hold. -/
def OutboxEntry.dueAt (row : OutboxEntry) (nowTs : Int64) : Bool :=
  match row.nextRetryAt with
  | none => false
  | some nextRetryAt => nextRetryAt ≤ nowTs

/-- `SELECT … FROM outbox WHERE status='retrying' AND next_retry_at <= ?1
ORDER BY next_retry_at ASC`. -/
def World.retryableRows (w : World) (nowTs : Int64) : List OutboxEntry :=
  (w.outbox.select fun row => row.status = .retrying && row.dueAt nowTs).insertionSort fun r r' =>
    r.nextRetryAt.getD 0 ≤ r'.nextRetryAt.getD 0

/-- `SELECT … FROM outbox WHERE status IN ('sending','retrying')
ORDER BY created_at ASC`. -/
def World.inFlightRows (w : World) : List OutboxEntry :=
  (w.outbox.select fun row => row.status = .sending || row.status = .retrying).insertionSort
    fun r r' => r.createdAt ≤ r'.createdAt

/-- `UPDATE outbox SET status = ?1, last_error = ?2, updated_at = unixepoch()`. -/
def OutboxEntry.setStatus (status : OutboxStatus) (error : Option String) (unixepoch : Int64)
    (row : OutboxEntry) : OutboxEntry :=
  { row with status := status, lastError := error, updatedAt := unixepoch }

/-- `UPDATE outbox SET status='retrying', retry_count=?1, next_retry_at=?2,
last_error=?3, updated_at=unixepoch()`. -/
def OutboxEntry.setRetrying (retryCount : UInt32) (nextRetryAt : Int64) (error : String)
    (unixepoch : Int64) (row : OutboxEntry) : OutboxEntry :=
  { row with
    status := .retrying
    retryCount := retryCount
    nextRetryAt := some nextRetryAt
    lastError := some error
    updatedAt := unixepoch }

/-- `UPDATE outbox SET status='pending', retry_count=0, next_retry_at=NULL,
last_error=NULL, payload=?2, updated_at=?3`. -/
def OutboxEntry.reset (payload : String) (now : Int64) (row : OutboxEntry) : OutboxEntry :=
  { row with
    status := .pending
    retryCount := 0
    nextRetryAt := none
    lastError := none
    payload := payload
    updatedAt := now }

theorem OutboxEntry.setStatus_id (status : OutboxStatus) (error : Option String)
    (unixepoch : Int64) (row : OutboxEntry) : (row.setStatus status error unixepoch).id = row.id :=
  rfl

theorem OutboxEntry.setRetrying_id (retryCount : UInt32) (nextRetryAt : Int64) (error : String)
    (unixepoch : Int64) (row : OutboxEntry) :
    (row.setRetrying retryCount nextRetryAt error unixepoch).id = row.id :=
  rfl

theorem OutboxEntry.reset_id (payload : String) (now : Int64) (row : OutboxEntry) :
    (row.reset payload now).id = row.id :=
  rfl

/-- `UPDATE outbox … WHERE id = ?`. -/
def World.updateRow (w : World) (id : String) (f : OutboxEntry → OutboxEntry)
    (hf : ∀ row, (f row).id = row.id) : World :=
  { w with outbox := w.outbox.update id f hf }

/-- A statement that yields `a` and leaves `w'`, or fails. -/
def statement {α : Type} (w : World) (o : Outcome) (a : α) (w' : World) :
    Except String α × World :=
  match o.fault with
  | some e => (.error e, w)
  | none => (.ok a, w')

/-- What a call yields and leaves behind. -/
def handle (w : World) (o : Outcome) : (call : Call) → call.Reply × World
  | .fetchPending limit => statement w o (limitRows limit w.pendingRows) w
  | .fetchRetryable nowTs limit => statement w o (limitRows limit (w.retryableRows nowTs)) w
  | .fetchInFlight => statement w o w.inFlightRows w
  | .markStatus id status error =>
    statement w o () (w.updateRow id (.setStatus status error o.seconds)
      (OutboxEntry.setStatus_id status error o.seconds))
  | .markRetrying id retryCount nextRetryAt error =>
    statement w o () (w.updateRow id (.setRetrying retryCount nextRetryAt error o.seconds)
      (OutboxEntry.setRetrying_id retryCount nextRetryAt error o.seconds))
  | .insertDeadLetter entry =>
    match w.deadLetter.insert entry with
    | none => (.error "UNIQUE constraint failed: dead_letter.id", w)
    | some deadLetter => statement w o () { w with deadLetter := deadLetter }
  | .selectDeadLetter id =>
    match w.deadLetter.find? id with
    | none => (.error "Query returned no rows", w)
    | some entry => statement w o entry w
  | .deleteDeadLetter id =>
    statement w o () { w with deadLetter := w.deadLetter.delete id }
  | .selectRouteKey id => statement w o ((w.outbox.find? id).map OutboxEntry.routeKey) w
  | .resetForReplay id payload now =>
    let w' := w.updateRow id (.reset payload now) (OutboxEntry.reset_id payload now)
    statement w o () { w' with trace := .replayed id :: w.trace }
  | .insertReplayed id payload now =>
    match w.outbox.insert (OutboxEntry.new id "replayed" payload now) with
    | none => (.error "UNIQUE constraint failed: outbox.id", w)
    | some outbox =>
      statement w o () { w with outbox := outbox, trace := .replayed id :: w.trace }
  | .send entry =>
    match o.fault with
    | some e => (.error e, { w with trace := .attempted entry.id false :: w.trace })
    | none => (.ok (), { w with trace := .attempted entry.id true :: w.trace })
  | .record routeKey action result =>
    ((), { w with audit := (routeKey, action, result) :: w.audit })
  | .timestamp => (o.seconds, w)
  | .timestampMillis => (o.millis, w)

/-- `OutboxRepo::insert`, an `INSERT OR IGNORE`. -/
def World.enqueue (w : World) (entry : OutboxEntry) : World :=
  { w with
    outbox := w.outbox.insertOrIgnore entry
    trace :=
      match w.outbox.find? entry.id with
      | some _ => w.trace
      | none => .enqueued entry.id :: w.trace }

/-- The row with this id is in the given status. -/
def HasStatus (w : World) (id : String) (status : OutboxStatus) : Prop :=
  ∃ row, w.outbox.find? id = some row ∧ row.status = status

/-! ## What the updates leave -/

section UpdateRow

variable (w : World) (id : String) (f : OutboxEntry → OutboxEntry)
  (hf : ∀ row, (f row).id = row.id)

theorem find?_updateRow_of_ne {id' : String} (h : id' ≠ id) :
    (w.updateRow id f hf).outbox.find? id' = w.outbox.find? id' := by
  unfold World.updateRow
  rw [KeyedTable.find?_update, if_neg h]

theorem find?_updateRow_self {row : OutboxEntry} (h : w.outbox.find? id = some row) :
    (w.updateRow id f hf).outbox.find? id = some (f row) := by
  unfold World.updateRow
  rw [KeyedTable.find?_update, if_pos rfl, h, Option.map_some]

theorem hasStatus_updateRow_of_ne {w : World} {k : String} {f : OutboxEntry → OutboxEntry}
    {hf : ∀ row, (f row).id = row.id} {id : String} (hid : id ≠ k) (status : OutboxStatus) :
    HasStatus (w.updateRow k f hf) id status ↔ HasStatus w id status := by
  unfold HasStatus
  rw [find?_updateRow_of_ne w k f hf hid]

@[simp] theorem updateRow_deadLetter : (w.updateRow id f hf).deadLetter = w.deadLetter := rfl

end UpdateRow

/-! ## What the queries fetch -/

theorem mem_limitRows {limit : UInt64} {rows : List OutboxEntry} {row : OutboxEntry}
    (h : row ∈ limitRows limit rows) : row ∈ rows := by
  unfold limitRows at h
  by_cases hneg : limit.toInt64 < 0
  · rwa [if_pos hneg] at h
  · rw [if_neg hneg] at h
    exact List.mem_of_mem_take h

/-- What is fetched is the first part of what matches. -/
theorem exists_limitRows_append (limit : UInt64) (rows : List OutboxEntry) :
    ∃ rest, rows = limitRows limit rows ++ rest := by
  unfold limitRows
  by_cases hneg : limit.toInt64 < 0
  · rw [if_pos hneg]
    exact ⟨[], (List.append_nil rows).symm⟩
  · rw [if_neg hneg]
    exact ⟨rows.drop limit.toNat, (List.take_append_drop limit.toNat rows).symm⟩

theorem nodup_limitRows {limit : UInt64} {rows : List OutboxEntry}
    (h : (rows.map OutboxEntry.id).Nodup) : ((limitRows limit rows).map OutboxEntry.id).Nodup := by
  unfold limitRows
  by_cases hneg : limit.toInt64 < 0
  · rwa [if_pos hneg]
  · rw [if_neg hneg]
    exact h.sublist ((List.take_sublist _ _).map _)

/-- An ordered select yields the rows that match, each once. -/
theorem mem_orderedSelect {t : KeyedTable OutboxEntry.id} {p : OutboxEntry → Bool}
    {r : OutboxEntry → OutboxEntry → Prop} [DecidableRel r] {row : OutboxEntry} :
    row ∈ (t.select p).insertionSort r ↔ t.find? row.id = some row ∧ p row = true := by
  rw [(List.perm_insertionSort r _).mem_iff, KeyedTable.mem_select]

theorem nodup_orderedSelect (t : KeyedTable OutboxEntry.id) (p : OutboxEntry → Bool)
    (r : OutboxEntry → OutboxEntry → Prop) [DecidableRel r] :
    (((t.select p).insertionSort r).map OutboxEntry.id).Nodup :=
  ((List.perm_insertionSort r _).map _).nodup_iff.mpr (t.nodup_select p)

end MagicLaw.Outbox
