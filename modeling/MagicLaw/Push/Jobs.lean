import MagicLaw.Lib.Text
import MagicLaw.Pipeline.Middleware
import MagicLaw.Push.Storage

/-!
# The binding import and the push jobs

`apply_binding_record` of `application/binding.rs` and `run_push_job` of
`application/push.rs`, as programs of calls.
-/

namespace MagicLaw.Push

open Lib Lib.Program
open Lib.Text (trim toAsciiLowercase)
open MagicLaw.Routing (RouteKey MessageContent ConversationType)

abbrev Work := Prog Call.Reply

section Calls

def call (c : Call) : Work c.Reply := .perform c

def ensureProjectCall (key insertName : String) (hasExplicit : Bool) : Work (Except String Unit) :=
  call (.ensureProject key insertName hasExplicit)

def upsertTargetCall (target : DeliveryTarget) : Work (Except String Unit) :=
  call (.upsertDeliveryTarget target)

def upsertBindingCall (projectKey targetId bindSource : String) : Work (Except String Unit) :=
  call (.upsertBinding projectKey targetId bindSource)

def markJobRunning (jobId : String) : Work (Except String Unit) := call (.markJobRunning jobId)

def fetchItems (run : Nat) (jobId : String) : Work (Except String (List PendingItem)) :=
  call (.fetchPendingItems run jobId)

def queryBroadcastTargets (projectKey : String) : Work (Except String (List DeliveryTarget)) :=
  call (.resolveBroadcastTargets projectKey)

def queryActiveTargetIds (projectKey : String) : Work (Except String (List String)) :=
  call (.activeTargetIds projectKey)

def insertOutbox (itemId : String) (endpoint : Endpoint) (routeKeyJson payloadJson : String) :
    Work (Except String Unit) :=
  call (.insertOutbox itemId endpoint routeKeyJson payloadJson)

def updateItem (run : Nat) (itemId : String) (status : ItemStatus) (error : Option String) :
    Work (Except String Unit) :=
  call (.markItem run itemId status error)

def writeAudit (routeKey : Option String) (action result : String) : Work Unit :=
  call (.writeAudit routeKey action result)

def finalizeJob (jobId : String) (status : JobStatus) (success failed : Int64) :
    Work (Except String Unit) :=
  call (.finalizeJob jobId status success failed)

end Calls

/-- `map_err(|e| format!("… failed: {}", e))`. -/
def orFailed {α : Type} (what : String) (result : Except String α) : Except String α :=
  result.mapError fun e => s!"{what} failed: {e}"

/-! ## Bindings -/

def DeliveryTarget.validate (target : DeliveryTarget) : Except String Unit :=
  if trim target.channel = "" then .error "channel is empty"
  else if trim target.peerId = "" then .error "peer_id is empty"
  else if trim target.conversationId = "" then .error "conversation_id is empty"
  else if trim target.conversationType = "" then .error "conversation_type is empty"
  else .ok ()

structure BindingImportRecord where
  projectKey : String
  channel : String
  peerId : String
  conversationId : String
  conversationType : String
  bindSource : String
  projectName : Option String
  accountScope : Option String

/-- The target of a record: its columns are trimmed, its account scope is
not. -/
def BindingImportRecord.target (record : BindingImportRecord) : DeliveryTarget :=
  ⟨trim record.channel, trim record.peerId, trim record.conversationId,
    trim record.conversationType, record.accountScope⟩

@[irreducible]
def ensureProject (projectKey : String) (projectName : Option String) :
    Work (Except String Unit) := do
  let key := trim projectKey
  if key = "" then return .error "project_key is empty"
  let explicitName := (projectName.map trim).filter (· ≠ "")
  let r ← ensureProjectCall key (explicitName.getD key) explicitName.isSome
  return orFailed "ensure_project" r

@[irreducible]
def upsertDeliveryTarget (target : DeliveryTarget) : Work (Except String String) := do
  match target.validate with
  | .error e => return .error e
  | .ok () =>
    let r ← upsertTargetCall target
    return (orFailed "upsert_delivery_target" r).map fun _ => target.targetId

@[irreducible]
def upsertBinding (projectKey targetId bindSource : String) : Work (Except String Unit) := do
  let r ← upsertBindingCall (trim projectKey) targetId (trim bindSource)
  return orFailed "upsert_binding" r

@[irreducible]
def applyBindingRecord (record : BindingImportRecord) : Work (Except String Unit) := do
  if trim record.projectKey = "" then return .error "project_key is empty"
  match ← ensureProject record.projectKey record.projectName with
  | .error e => return .error e
  | .ok () =>
    match ← upsertDeliveryTarget record.target with
    | .error e => return .error e
    | .ok targetId =>
      let bindSource := if trim record.bindSource = "" then "import" else trim record.bindSource
      upsertBinding (trim record.projectKey) targetId bindSource

/-- The loop of the imports over the records that could be read.  A record
that fails does not stop it. -/
def importBindings (records : List BindingImportRecord) : Work Unit :=
  .forEach (fun record => do let _ ← applyBindingRecord record) records

/-! ## Push jobs -/

/-- `serde_json` on the columns of the outbox, and on the targets of an
item. -/
structure Serde extends Pipeline.SerdeText where
  targets : String → Except String (List DeliveryTarget)

def parseConversationType (value : String) : ConversationType :=
  match toAsciiLowercase (trim value) with
  | "group" => .group
  | "thread" => .thread
  | "bot_session" => .botSession
  | _ => .direct

/-- The route that a target is delivered by. -/
def DeliveryTarget.routeKey (target : DeliveryTarget) : RouteKey :=
  ⟨⟨target.channel⟩, target.conversationId, target.peerId,
    parseConversationType target.conversationType⟩

structure RunSummary where
  jobId : String
  totalItems : Nat
  queuedItems : Nat
  failedItems : Nat
  enqueuedMessages : Nat

section Runs

variable (serde : Serde)

def enqueueOutbox (itemId : String) (target : DeliveryTarget) (messageText : String) :
    Work (Except String Unit) := do
  match serde.routeKey target.routeKey with
  | .error e => return .error e
  | .ok routeKeyJson =>
    match serde.content (.text messageText) with
    | .error e => return .error e
    | .ok payloadJson =>
      let r ← insertOutbox itemId target.endpoint routeKeyJson payloadJson
      return orFailed "enqueue outbox" r

/-- The targets that a targeted item asks for. -/
def PendingItem.requested (item : PendingItem) : Except String (List DeliveryTarget) :=
  match item.targetTargetsJson with
  | none => .error "targeted item has no target_targets"
  | some raw => serde.targets raw

/-- The targets are the requested ones, if the ids of all are allowed. -/
def validated (requested : List DeliveryTarget) (allowed : List String) :
    Except String (List DeliveryTarget) :=
  let (valid, invalid) := requested.partition fun t => t.targetId ∈ allowed
  if invalid ≠ [] then
    .error ("targets not bound to project: " ++
      ", ".intercalate (invalid.map DeliveryTarget.targetId))
  else .ok valid

def resolveItemTargets (item : PendingItem) : Work (Except String (List DeliveryTarget)) := do
  match item.mode with
  | "broadcast" =>
    match orFailed "resolve broadcast targets" (← queryBroadcastTargets item.projectKey) with
    | .error e => return .error e
    | .ok targets =>
      if targets = [] then return .error "no active bindings for project"
      return .ok targets
  | "targeted" =>
    match item.requested serde with
    | .error e => return .error e
    | .ok requested =>
      if requested = [] then return .error "targeted item has empty target set"
      match orFailed "load active target ids" (← queryActiveTargetIds item.projectKey) with
      | .error e => return .error e
      | .ok allowed => return validated requested allowed
  | other => return .error s!"invalid mode: {other}"

/-- The loop over the targets: how many were enqueued, and the first error. -/
def enqueueAll (itemId messageText : String) :
    List DeliveryTarget → Nat → Option String → Work (Nat × Option String)
  | [], enqueued, firstError => pure (enqueued, firstError)
  | target :: targets, enqueued, firstError => do
    match ← enqueueOutbox serde itemId target messageText with
    | .ok () => enqueueAll itemId messageText targets (enqueued + 1) firstError
    | .error e => enqueueAll itemId messageText targets enqueued (firstError.or (some e))

/-- `mark_item` and the audit record after it.  Its error ends the run. -/
def markItem (run : Nat) (item : PendingItem) (status : ItemStatus) (error : Option String)
    (result : String) : Work (Except String Unit) := do
  match orFailed "mark item" (← updateItem run item.itemId status error) with
  | .error e => return .error e
  | .ok () => do
    writeAudit (some item.projectKey) "project_push" result
    return .ok ()

/-- The outcome of an item: how many rows it queued, or that it failed. -/
def pushItem (run : Nat) (item : PendingItem) : Work (Except String (Option Nat)) := do
  match ← resolveItemTargets serde item with
  | .error e =>
    return (← markItem run item .failed (some e) s!"failed: {e}").map fun _ => none
  | .ok targets =>
    let (enqueued, firstError) ← enqueueAll serde item.itemId item.messageText targets 0 none
    if enqueued = 0 then
      let err := firstError.getD "no targets enqueued"
      return (← markItem run item .failed (some err) s!"failed: {err}").map fun _ => none
    else
      match firstError with
      | none =>
        return (← markItem run item .queued none
          s!"queued {item.mode} ({enqueued} targets)").map fun _ => some enqueued
      | some err =>
        return (← markItem run item .queued (some s!"partial: {err}")
          s!"partial: {err}").map fun _ => some enqueued

def RunSummary.add (summary : RunSummary) : Option Nat → RunSummary
  | some enqueued => { summary with
      queuedItems := summary.queuedItems + 1
      enqueuedMessages := summary.enqueuedMessages + enqueued }
  | none => { summary with failedItems := summary.failedItems + 1 }

/-- The loop over the items, which ends at the first error. -/
def pushItems (run : Nat) : List PendingItem → RunSummary → Work (Except String RunSummary)
  | [], summary => pure (.ok summary)
  | item :: items, summary => do
    match ← pushItem serde run item with
    | .error e => return .error e
    | .ok outcome => pushItems run items (summary.add outcome)

def RunSummary.status (summary : RunSummary) : JobStatus :=
  if summary.failedItems = 0 then .done
  else if summary.queuedItems = 0 then .failed
  else .partly

/-- A `usize` as an `i64`. -/
def asI64 (n : Nat) : Int64 := (UInt64.ofNat n).toInt64

/-- `run_push_job`, as the run with a number. -/
def runPushJob (run : Nat) (jobId : String) : Work (Except String RunSummary) := do
  match orFailed "mark job running" (← markJobRunning jobId) with
  | .error e => return .error e
  | .ok () =>
    match orFailed "fetch pending items" (← fetchItems run jobId) with
    | .error e => return .error e
    | .ok items =>
      match ← pushItems serde run items ⟨jobId, items.length, 0, 0, 0⟩ with
      | .error e => return .error e
      | .ok summary =>
        let r ← finalizeJob jobId summary.status (asI64 summary.queuedItems)
          (asI64 summary.failedItems)
        return (orFailed "finalize job" r).map fun _ => summary

end Runs

end MagicLaw.Push
