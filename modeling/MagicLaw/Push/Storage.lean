import Mathlib.Data.List.Sort
import MagicLaw.Lib.KeyedTable
import MagicLaw.Lib.Program
import MagicLaw.Outbox.Storage

/-!
# The tables of bindings and push jobs

The delivery targets of `application/binding.rs`, the tables `projects`,
`delivery_targets`, `project_bindings`, `push_jobs`, `push_job_items` and
`outbox` of `infrastructure/db.rs`, and the calls that the binding import and
`application/push.rs` make: their SQL statements, the audit record and the
draw of an id.

`handle` says what one call does.  The environment picks its outcome: the
error it fails with, if it fails, what the clock shows and which id is drawn.
A failed statement changes nothing.

The database also carries two traces that no call reads: the rows that were
enqueued, with the item and the target they are for, and the items that each
run has fetched and not marked yet.
-/

namespace MagicLaw.Push

open Lib Lib.Program
open MagicLaw.Outbox (OutboxEntry)

/-! ## Delivery targets -/

/-- The columns of a target that are unique together. -/
structure Endpoint where
  channel : String
  peerId : String
  conversationId : String
  conversationType : String
  accountScope : String
  deriving DecidableEq

/-- The id that the endpoint has in the tables: its columns, joined. -/
def Endpoint.targetId (e : Endpoint) : String :=
  s!"{e.channel}|{e.peerId}|{e.conversationId}|{e.conversationType}|{e.accountScope}"

structure DeliveryTarget where
  channel : String
  peerId : String
  conversationId : String
  conversationType : String
  accountScope : Option String
  deriving DecidableEq

def DeliveryTarget.accountScopeValue (target : DeliveryTarget) : String :=
  target.accountScope.getD ""

def DeliveryTarget.endpoint (target : DeliveryTarget) : Endpoint :=
  ⟨target.channel, target.peerId, target.conversationId, target.conversationType,
    target.accountScopeValue⟩

/-- `target_id` -/
def DeliveryTarget.targetId (target : DeliveryTarget) : String := target.endpoint.targetId

/-! ## Rows -/

/-- A row of `projects`. -/
structure ProjectRow where
  projectKey : String
  projectName : String
  createdAt : Int64
  updatedAt : Int64

/-- The column `status` of targets and bindings. -/
inductive BindingStatus where
  | active | inactive
  deriving DecidableEq

/-- A row of `delivery_targets`. -/
structure DeliveryTargetRow where
  targetId : String
  endpoint : Endpoint
  status : BindingStatus
  createdAt : Int64
  updatedAt : Int64

/-- A row of `project_bindings`. -/
structure ProjectBindingRow where
  id : String
  projectKey : String
  targetId : String
  bindSource : String
  status : BindingStatus
  boundAt : Int64
  unboundAt : Option Int64
  createdAt : Int64
  updatedAt : Int64

inductive JobStatus where
  | pending | running | done | failed | partly
  deriving DecidableEq

/-- A row of `push_jobs`. -/
structure PushJobRow where
  jobId : String
  status : JobStatus
  totalItems : Int64
  successItems : Int64
  failedItems : Int64
  updatedAt : Int64

inductive ItemStatus where
  | pending | queued | failed
  deriving DecidableEq

/-- A row of `push_job_items`. -/
structure PushItemRow where
  itemId : String
  jobId : String
  projectKey : String
  messageText : String
  mode : String
  targetTargetsJson : Option String
  status : ItemStatus
  error : Option String
  createdAt : Int64
  updatedAt : Int64

/-- `PendingItem` -/
structure PendingItem where
  itemId : String
  projectKey : String
  messageText : String
  mode : String
  targetTargetsJson : Option String
  deriving DecidableEq

def PushItemRow.toPending (row : PushItemRow) : PendingItem :=
  ⟨row.itemId, row.projectKey, row.messageText, row.mode, row.targetTargetsJson⟩

/-- A row that was enqueued for an item and an endpoint. -/
structure Enqueued where
  itemId : String
  endpoint : Endpoint
  rowId : String
  deriving DecidableEq

/-! ## Updates of rows -/

/-- `UPDATE SET project_name = CASE WHEN ?4 THEN excluded.project_name ELSE
projects.project_name END, updated_at = …`. -/
def ProjectRow.rename (hasExplicit : Bool) (insertName : String) (ts : Int64) (row : ProjectRow) :
    ProjectRow :=
  { row with
    projectName := if hasExplicit then insertName else row.projectName
    updatedAt := ts }

/-- `UPDATE SET status = 'active', updated_at = …`. -/
def DeliveryTargetRow.activate (ts : Int64) (row : DeliveryTargetRow) : DeliveryTargetRow :=
  { row with
    status := .active
    updatedAt := ts }

/-- `UPDATE SET status = 'active', bind_source = …, unbound_at = NULL,
updated_at = …`. -/
def ProjectBindingRow.activate (bindSource : String) (ts : Int64) (row : ProjectBindingRow) :
    ProjectBindingRow :=
  { row with
    status := .active
    bindSource := bindSource
    unboundAt := none
    updatedAt := ts }

/-- `UPDATE push_jobs SET status = 'running', updated_at = unixepoch()`. -/
def PushJobRow.start (unixepoch : Int64) (row : PushJobRow) : PushJobRow :=
  { row with
    status := .running
    updatedAt := unixepoch }

/-- `UPDATE push_jobs SET status = ?1, success_items = ?2, failed_items = ?3,
updated_at = unixepoch()`. -/
def PushJobRow.finish (status : JobStatus) (success failed unixepoch : Int64) (row : PushJobRow) :
    PushJobRow :=
  { row with
    status := status
    successItems := success
    failedItems := failed
    updatedAt := unixepoch }

/-- `UPDATE push_job_items SET status = ?1, error = ?2, updated_at =
unixepoch()`. -/
def PushItemRow.mark (status : ItemStatus) (error : Option String) (unixepoch : Int64)
    (row : PushItemRow) : PushItemRow :=
  { row with
    status := status
    error := error
    updatedAt := unixepoch }

/-! ## The database -/

/-- The tables, what was given to the audit log, and the traces. -/
structure Database where
  projects : KeyedTable ProjectRow.projectKey
  targets : KeyedTable DeliveryTargetRow.targetId
  bindings : KeyedTable ProjectBindingRow.id
  jobs : KeyedTable PushJobRow.jobId
  items : KeyedTable PushItemRow.itemId
  outbox : KeyedTable OutboxEntry.id
  audit : List (Option String × String × String)
  enqueued : List Enqueued
  held : List (Nat × String)

/-- The statements and the draws.  A call of a run carries the number of the
run, and a row the item and the endpoint it is for: they are for the traces. -/
inductive Call where
  | ensureProject (key insertName : String) (hasExplicit : Bool)
  | upsertDeliveryTarget (target : DeliveryTarget)
  | upsertBinding (projectKey targetId bindSource : String)
  | markJobRunning (jobId : String)
  | fetchPendingItems (run : Nat) (jobId : String)
  | resolveBroadcastTargets (projectKey : String)
  | activeTargetIds (projectKey : String)
  | insertOutbox (itemId : String) (endpoint : Endpoint) (routeKeyJson payloadJson : String)
  | markItem (run : Nat) (itemId : String) (status : ItemStatus) (error : Option String)
  | writeAudit (routeKey : Option String) (action result : String)
  | finalizeJob (jobId : String) (status : JobStatus) (success failed : Int64)

/-- What a call yields. -/
def Call.Reply : Call → Type
  | .ensureProject _ _ _ | .upsertDeliveryTarget _ | .upsertBinding _ _ _ => Except String Unit
  | .markJobRunning _ => Except String Unit
  | .fetchPendingItems _ _ => Except String (List PendingItem)
  | .resolveBroadcastTargets _ => Except String (List DeliveryTarget)
  | .activeTargetIds _ => Except String (List String)
  | .insertOutbox _ _ _ _ | .markItem _ _ _ _ => Except String Unit
  | .writeAudit _ _ _ => Unit
  | .finalizeJob _ _ _ _ => Except String Unit

/-- What the environment picks for a call. -/
structure Outcome where
  fault : Option String
  seconds : Int64
  uuid : String

/-! ## What the calls do -/

section Statements

variable (db : Database)

/-- `INSERT INTO projects … ON CONFLICT(project_key) DO UPDATE`. -/
def ensureProjectRow (key insertName : String) (hasExplicit : Bool) (ts : Int64) : Database :=
  match db.projects.find? key with
  | none => { db with projects := db.projects.insertOrIgnore ⟨key, insertName, ts, ts⟩ }
  | some _ =>
    let rename := ProjectRow.rename hasExplicit insertName ts
    { db with projects := db.projects.update key rename fun _ => rfl }

/-- `INSERT INTO delivery_targets … ON CONFLICT(channel, …) DO UPDATE`.  The
conflict on the columns is looked at first; a conflict on the id alone is an
error. -/
def upsertTargetRow (target : DeliveryTarget) (ts : Int64) : Except String Database :=
  match db.targets.rows.find? fun row => row.endpoint = target.endpoint with
  | some old =>
    let activate := DeliveryTargetRow.activate ts
    .ok { db with targets := db.targets.update old.targetId activate fun _ => rfl }
  | none =>
    match db.targets.insert ⟨target.targetId, target.endpoint, .active, ts, ts⟩ with
    | some targets => .ok { db with targets := targets }
    | none => .error "UNIQUE constraint failed: delivery_targets.target_id"

/-- `INSERT INTO project_bindings … ON CONFLICT(project_key, target_id)
DO UPDATE`. -/
def upsertBindingRow (projectKey targetId bindSource : String) (ts : Int64) :
    Except String Database :=
  match db.bindings.rows.find? fun row => row.projectKey = projectKey && row.targetId = targetId with
  | some old =>
    let activate := ProjectBindingRow.activate bindSource ts
    .ok { db with bindings := db.bindings.update old.id activate fun _ => rfl }
  | none =>
    match db.bindings.insert
        ⟨s!"{projectKey}|{targetId}", projectKey, targetId, bindSource, .active, ts, none, ts, ts⟩ with
    | some bindings => .ok { db with bindings := bindings }
    | none => .error "UNIQUE constraint failed: project_bindings.id"

/-- `SELECT … FROM push_job_items WHERE job_id = ?1 AND status = 'pending'
ORDER BY created_at ASC`. -/
def pendingItems (jobId : String) : List PendingItem :=
  ((db.items.select fun row => row.jobId = jobId && row.status = .pending).insertionSort
    fun a b => a.createdAt ≤ b.createdAt).map PushItemRow.toPending

/-- The active bindings of a project. -/
def activeBindings (projectKey : String) : List ProjectBindingRow :=
  db.bindings.select fun row => row.projectKey = projectKey && row.status = .active

/-- An account scope that is empty is none. -/
def Endpoint.toTarget (e : Endpoint) : DeliveryTarget :=
  ⟨e.channel, e.peerId, e.conversationId, e.conversationType,
    if e.accountScope = "" then none else some e.accountScope⟩

/-- `SELECT … FROM project_bindings b JOIN delivery_targets t ON t.target_id =
b.target_id WHERE …`. -/
def broadcastTargets (projectKey : String) : List DeliveryTarget :=
  (activeBindings db projectKey).filterMap fun binding =>
    ((db.targets.find? binding.targetId).filter fun row => row.status = .active).map
      fun row => row.endpoint.toTarget

def activeIds (projectKey : String) : List String :=
  (activeBindings db projectKey).map ProjectBindingRow.targetId

/-- `INSERT INTO outbox`, and the trace of the row. -/
def insertOutboxRow (itemId : String) (endpoint : Endpoint) (routeKeyJson payloadJson uuid : String)
    (ts : Int64) : Except String Database :=
  let entry := OutboxEntry.new s!"push-{uuid}" routeKeyJson payloadJson ts
  match db.outbox.insert entry with
  | some outbox =>
    .ok { db with outbox := outbox, enqueued := ⟨itemId, endpoint, entry.id⟩ :: db.enqueued }
  | none => .error "UNIQUE constraint failed: outbox.id"

/-- The run does not hold anything any more. -/
def dropRun (run : Nat) : Database := { db with held := db.held.filter fun h => h.1 ≠ run }

end Statements

/-- A statement that changes the database, or fails and does not. -/
def settle (result : Except String Database) (db : Database) : Except String Unit × Database :=
  match result with
  | .ok db' => (.ok (), db')
  | .error e => (.error e, db)

/-- The statement, unless it faults. -/
def Outcome.attempt {α : Type} (f : Outcome) (db : Database) (statement : Except String α × Database) :
    Except String α × Database :=
  match f.fault with
  | some e => (.error e, db)
  | none => statement

def handle (db : Database) (f : Outcome) : (c : Call) → c.Reply × Database
  | .ensureProject key insertName hasExplicit =>
    f.attempt db (.ok (), ensureProjectRow db key insertName hasExplicit f.seconds)
  | .upsertDeliveryTarget target =>
    f.attempt db (settle (upsertTargetRow db target f.seconds) db)
  | .upsertBinding projectKey targetId bindSource =>
    f.attempt db (settle (upsertBindingRow db projectKey targetId bindSource f.seconds) db)
  | .markJobRunning jobId =>
    f.attempt db (.ok (), { db with
      jobs := db.jobs.update jobId (PushJobRow.start f.seconds) fun _ => rfl })
  | .fetchPendingItems run jobId =>
    f.attempt db (.ok (pendingItems db jobId), { db with
      held := (pendingItems db jobId).map (fun item => (run, item.itemId)) ++ db.held })
  | .resolveBroadcastTargets projectKey => f.attempt db (.ok (broadcastTargets db projectKey), db)
  | .activeTargetIds projectKey => f.attempt db (.ok (activeIds db projectKey), db)
  | .insertOutbox itemId endpoint routeKeyJson payloadJson =>
    f.attempt db (settle
      (insertOutboxRow db itemId endpoint routeKeyJson payloadJson f.uuid f.seconds) db)
  | .markItem run itemId status error =>
    match f.fault with
    -- the run ends with the error
    | some e => (.error e, dropRun db run)
    | none => (.ok (), { db with
        items := db.items.update itemId (PushItemRow.mark status error f.seconds) fun _ => rfl
        held := db.held.filter fun h => h ≠ (run, itemId) })
  | .writeAudit routeKey action result =>
    match f.fault with
    | some _ => ((), db)
    | none => ((), { db with audit := (routeKey, action, result) :: db.audit })
  | .finalizeJob jobId status success failed =>
    f.attempt db (.ok (), { db with
      jobs := db.jobs.update jobId (PushJobRow.finish status success failed f.seconds)
        fun _ => rfl })

end MagicLaw.Push
