import MagicLaw.Lib.DerivedKeys
import MagicLaw.Lib.Interference
import MagicLaw.Push.Statements

/-!
# The records of the binding import

A record is applied by three upserts, of the project, the target and the
binding.  Those of the target and the binding have a conflict clause on columns
that the primary key is joined of, so they are refused when the joined key is
that of other columns.

* `leavesNoTrace_iff`: when a record that is rejected leaves nothing behind.
* `importsSet_iff`: when the records leave the set of the endpoints that they
  give.
-/

namespace MagicLaw.Push

open Lib Lib.Program Lib.Interference
open Lib.Text (trim trim_trim)

/-! ## The three statements -/

section Statements

variable (record : BindingImportRecord)

/-- The key of the project, as it is written. -/
def BindingImportRecord.key : String := trim record.projectKey

def BindingImportRecord.explicitName : Option String :=
  (record.projectName.map trim).filter (· ≠ "")

def BindingImportRecord.insertName : String := record.explicitName.getD record.key

def BindingImportRecord.source : String :=
  if trim record.bindSource = "" then "import" else trim record.bindSource

def BindingImportRecord.projectCall : Call :=
  .ensureProject record.key record.insertName record.explicitName.isSome

def BindingImportRecord.targetCall : Call := .upsertDeliveryTarget record.target

def BindingImportRecord.bindingCall : Call :=
  .upsertBinding record.key record.target.targetId (trim record.source)

end Statements

/-- The columns of a binding that are unique together. -/
def ProjectBindingRow.pair (row : ProjectBindingRow) : String × String :=
  (row.projectKey, row.targetId)

/-- The id that the columns of a binding have in the table. -/
def bindingId (pair : String × String) : String := s!"{pair.1}|{pair.2}"

section Rows

theorem DeliveryTargetRow.activate_targetId (ts : Int64) (row : DeliveryTargetRow) :
    (row.activate ts).targetId = row.targetId := rfl

theorem ProjectBindingRow.activate_id (bindSource : String) (ts : Int64) (row : ProjectBindingRow) :
    (row.activate bindSource ts).id = row.id := rfl

/-- The targets after the upsert of one, unless it is refused. -/
def targetsWith (targets : KeyedTable DeliveryTargetRow.targetId) (target : DeliveryTarget)
    (ts : Int64) : Option (KeyedTable DeliveryTargetRow.targetId) :=
  let fresh : DeliveryTargetRow := ⟨target.targetId, target.endpoint, .active, ts, ts⟩
  targets.upsertOn DeliveryTargetRow.endpoint target.endpoint fresh
    (DeliveryTargetRow.activate ts) (DeliveryTargetRow.activate_targetId ts)

/-- The bindings after the upsert of one, unless it is refused. -/
def bindingsWith (bindings : KeyedTable ProjectBindingRow.id)
    (projectKey targetId bindSource : String) (ts : Int64) :
    Option (KeyedTable ProjectBindingRow.id) :=
  let fresh : ProjectBindingRow := ⟨bindingId (projectKey, targetId), projectKey, targetId,
    bindSource, .active, ts, none, ts, ts⟩
  bindings.upsertOn ProjectBindingRow.pair (projectKey, targetId) fresh
    (ProjectBindingRow.activate bindSource ts) (ProjectBindingRow.activate_id bindSource ts)

theorem upsertTargetRow_eq (db : Database) (target : DeliveryTarget) (ts : Int64) :
    upsertTargetRow db target ts =
      match targetsWith db.targets target ts with
      | some targets => .ok { db with targets := targets }
      | none => .error "UNIQUE constraint failed: delivery_targets.target_id" := by
  unfold upsertTargetRow targetsWith KeyedTable.upsertOn
  dsimp only
  cases db.targets.rows.find? fun row => row.endpoint = target.endpoint <;> rfl

theorem upsertBindingRow_eq (db : Database) (projectKey targetId bindSource : String) (ts : Int64) :
    upsertBindingRow db projectKey targetId bindSource ts =
      match bindingsWith db.bindings projectKey targetId bindSource ts with
      | some bindings => .ok { db with bindings := bindings }
      | none => .error "UNIQUE constraint failed: project_bindings.id" := by
  have hpair : (fun row : ProjectBindingRow => decide (row.pair = (projectKey, targetId))) =
      fun row => row.projectKey = projectKey && row.targetId = targetId := by
    funext row
    simp [ProjectBindingRow.pair]
  unfold upsertBindingRow bindingsWith KeyedTable.upsertOn
  dsimp only
  rw [← hpair]
  cases db.bindings.rows.find? fun row => row.pair = (projectKey, targetId) <;> rfl

theorem targetsWith_eq_none_iff {targets : KeyedTable DeliveryTargetRow.targetId}
    {target : DeliveryTarget} {ts : Int64} :
    targetsWith targets target ts = none ↔ (∀ row ∈ targets.rows, row.endpoint ≠ target.endpoint) ∧
      ∃ row ∈ targets.rows, row.targetId = target.targetId :=
  Option.isNone_iff_eq_none.symm.trans KeyedTable.upsertOn_isNone_iff

theorem bindingsWith_eq_none_iff {bindings : KeyedTable ProjectBindingRow.id}
    {projectKey targetId bindSource : String} {ts : Int64} :
    bindingsWith bindings projectKey targetId bindSource ts = none ↔
      (∀ row ∈ bindings.rows, row.pair ≠ (projectKey, targetId)) ∧
        ∃ row ∈ bindings.rows, row.id = bindingId (projectKey, targetId) :=
  Option.isNone_iff_eq_none.symm.trans KeyedTable.upsertOn_isNone_iff

end Rows

/-! ## A record that is rejected -/

section Rejected

variable (record : BindingImportRecord) (picks : Call → Outcome) (db : Database)

/-- The upsert of the project changes nothing. -/
def ProjectKept : Prop :=
  ∃ row, db.projects.find? record.key = some row ∧ row.rename record.explicitName.isSome
    record.insertName (picks record.projectCall).seconds = row

/-- The target is not valid, its upsert fails, or its id is that of another
endpoint. -/
def TargetRefused : Prop :=
  record.target.validate ≠ .ok () ∨ (picks record.targetCall).fault ≠ none ∨
    ((∀ row ∈ db.targets.rows, row.endpoint ≠ record.target.endpoint) ∧
      ∃ row ∈ db.targets.rows, row.targetId = record.target.targetId)

/-- The upsert of the target changes nothing. -/
def TargetKept : Prop :=
  ∃ row, db.targets.rows.find? (fun row => row.endpoint = record.target.endpoint) = some row ∧
    row.activate (picks record.targetCall).seconds = row

/-- The upsert of the binding fails, or its id is that of other columns. -/
def BindingRefused : Prop :=
  (picks record.bindingCall).fault ≠ none ∨
    ((∀ row ∈ db.bindings.rows, row.pair ≠ (record.key, record.target.targetId)) ∧
      ∃ row ∈ db.bindings.rows, row.id = bindingId (record.key, record.target.targetId))

/-- What `apply_binding_record` yields and leaves.  Its three statements are
different calls, so an outcome for each call is one for each statement. -/
def applied : Option (Except String Unit) × Database :=
  (applyBindingRecord record).exec handle (fun c => some (picks c)) db

/-- If the record is rejected, the tables of the bindings are as before. -/
def LeavesNoTrace : Prop :=
  ∀ e t, applied record picks db = (some (.error e), t) →
    t.projects = db.projects ∧ t.targets = db.targets ∧ t.bindings = db.bindings

end Rejected

section Exec

variable {record : BindingImportRecord} {picks : Call → Outcome} {db : Database}

theorem exec_ensureProject (h : record.key ≠ "") :
    (ensureProject record.projectKey record.projectName).exec handle (fun c => some (picks c)) db =
      (some (orFailed "ensure_project" (handle db (picks record.projectCall) record.projectCall).1),
        (handle db (picks record.projectCall) record.projectCall).2) := by
  have hkey : ¬ trim record.projectKey = "" := h
  unfold ensureProject
  dsimp only
  rw [if_neg hkey, exec_bind]
  rfl

theorem exec_upsertDeliveryTarget (h : record.target.validate = .ok ()) :
    (upsertDeliveryTarget record.target).exec handle (fun c => some (picks c)) db =
      (some ((orFailed "upsert_delivery_target"
          (handle db (picks record.targetCall) record.targetCall).1).map
            fun _ => record.target.targetId),
        (handle db (picks record.targetCall) record.targetCall).2) := by
  unfold upsertDeliveryTarget
  rw [h]
  rfl

theorem exec_upsertBinding :
    (upsertBinding (trim record.projectKey) record.target.targetId record.source).exec handle
      (fun c => some (picks c)) db =
      (some (orFailed "upsert_binding" (handle db (picks record.bindingCall) record.bindingCall).1),
        (handle db (picks record.bindingCall) record.bindingCall).2) := by
  unfold upsertBinding
  rw [trim_trim]
  rfl

/-- A record without a project key does nothing. -/
theorem applied_of_blank (h : record.key = "") :
    applied record picks db = (some (.error "project_key is empty"), db) := by
  have hkey : trim record.projectKey = "" := h
  unfold applied applyBindingRecord
  rw [if_pos hkey]
  rfl

/-- If the first statement fails nothing is done. -/
theorem applied_of_fault {e : String} (h : record.key ≠ "")
    (hfault : (picks record.projectCall).fault = some e) :
    applied record picks db = (some (.error s!"ensure_project failed: {e}"), db) := by
  have hkey : ¬ trim record.projectKey = "" := h
  have hhandle : handle db (picks record.projectCall) record.projectCall = (.error e, db) :=
    attempt_of_fault hfault _
  unfold applied applyBindingRecord
  rw [if_neg hkey, exec_bind, exec_ensureProject h, hhandle]
  rfl

/-- The database after the upsert of the project. -/
def withProject (record : BindingImportRecord) (picks : Call → Outcome) (db : Database) : Database :=
  ensureProjectRow db record.key record.insertName record.explicitName.isSome
    (picks record.projectCall).seconds

/-- After it the target is upserted. -/
theorem applied_of_project (h : record.key ≠ "")
    (hworks : (picks record.projectCall).fault = none) :
    applied record picks db =
      match (upsertDeliveryTarget record.target).exec handle (fun c => some (picks c))
        (withProject record picks db) with
      | (some (.ok id), t) => (upsertBinding (trim record.projectKey) id record.source).exec handle
          (fun c => some (picks c)) t
      | (some (.error e), t) => (some (.error e), t)
      | (none, t) => (none, t) := by
  have hkey : ¬ trim record.projectKey = "" := h
  have hhandle : handle db (picks record.projectCall) record.projectCall =
      (.ok (), withProject record picks db) := attempt_of_fault_none hworks _
  unfold applied applyBindingRecord
  rw [if_neg hkey, exec_bind, exec_ensureProject h, hhandle]
  dsimp only [orFailed, Except.mapError]
  rw [exec_bind]
  rcases (upsertDeliveryTarget record.target).exec handle (fun c => some (picks c))
    (withProject record picks db) with ⟨r, t⟩
  cases r with
  | none => rfl
  | some r => cases r <;> rfl

theorem withProject_targets (record : BindingImportRecord) (picks : Call → Outcome) (db : Database) :
    (withProject record picks db).targets = db.targets := by
  unfold withProject ensureProjectRow
  split <;> rfl

theorem withProject_bindings (record : BindingImportRecord) (picks : Call → Outcome)
    (db : Database) : (withProject record picks db).bindings = db.bindings := by
  unfold withProject ensureProjectRow
  split <;> rfl

/-- The projects are as before exactly when the row is left as it is. -/
theorem withProject_projects_iff :
    (withProject record picks db).projects = db.projects ↔ ProjectKept record picks db := by
  unfold withProject ensureProjectRow ProjectKept
  cases hfind : db.projects.find? record.key with
  | none =>
    refine iff_of_false (fun h => ?_) (by simp)
    have hrow := KeyedTable.find?_insertOrIgnore db.projects ⟨record.key, record.insertName,
      (picks record.projectCall).seconds, (picks record.projectCall).seconds⟩ record.key
    rw [if_pos rfl, hfind] at hrow
    dsimp only at h
    rw [h, hfind] at hrow
    cases hrow
  | some row =>
    simpa using KeyedTable.update_eq_self_iff hfind (ProjectRow.rename record.explicitName.isSome
      record.insertName (picks record.projectCall).seconds) fun _ => rfl

/-- The upsert of a valid target, if it is not refused. -/
def withTarget (record : BindingImportRecord) (picks : Call → Outcome) (db : Database) :
    Option (KeyedTable DeliveryTargetRow.targetId) :=
  targetsWith db.targets record.target (picks record.targetCall).seconds

theorem withTarget_congr {t : Database} (h : t.targets = db.targets) :
    withTarget record picks t = withTarget record picks db :=
  congrArg (targetsWith · record.target (picks record.targetCall).seconds) h

/-- The second statement fails, or changes the targets. -/
theorem handle_targetCall (hworks : (picks record.targetCall).fault = none) (t : Database) :
    handle t (picks record.targetCall) record.targetCall =
      match withTarget record picks t with
      | some targets => (.ok (), { t with targets := targets })
      | none => (.error "UNIQUE constraint failed: delivery_targets.target_id", t) := by
  have hhandle : handle t (picks record.targetCall) record.targetCall =
      settle (upsertTargetRow t record.target (picks record.targetCall).seconds) t :=
    attempt_of_fault_none hworks _
  rw [hhandle, upsertTargetRow_eq]
  unfold withTarget
  cases targetsWith t.targets record.target (picks record.targetCall).seconds <;> rfl

/-- The upsert of the binding, if it is not refused. -/
def withBinding (record : BindingImportRecord) (picks : Call → Outcome) (db : Database) :
    Option (KeyedTable ProjectBindingRow.id) :=
  bindingsWith db.bindings record.key record.target.targetId (trim record.source)
    (picks record.bindingCall).seconds

theorem withBinding_congr {t : Database} (h : t.bindings = db.bindings) :
    withBinding record picks t = withBinding record picks db :=
  congrArg (bindingsWith · record.key record.target.targetId (trim record.source)
    (picks record.bindingCall).seconds) h

theorem handle_bindingCall (hworks : (picks record.bindingCall).fault = none) (t : Database) :
    handle t (picks record.bindingCall) record.bindingCall =
      match withBinding record picks t with
      | some bindings => (.ok (), { t with bindings := bindings })
      | none => (.error "UNIQUE constraint failed: project_bindings.id", t) := by
  have hhandle : handle t (picks record.bindingCall) record.bindingCall =
      settle (upsertBindingRow t record.key record.target.targetId (trim record.source)
        (picks record.bindingCall).seconds) t :=
    attempt_of_fault_none hworks _
  rw [hhandle, upsertBindingRow_eq]
  unfold withBinding
  cases bindingsWith t.bindings record.key record.target.targetId (trim record.source)
    (picks record.bindingCall).seconds <;> rfl

theorem targetRefused_iff : TargetRefused record picks db ↔ record.target.validate ≠ .ok () ∨
    (picks record.targetCall).fault ≠ none ∨ withTarget record picks db = none :=
  or_congr_right (or_congr_right targetsWith_eq_none_iff.symm)

theorem bindingRefused_iff : BindingRefused record picks db ↔
    (picks record.bindingCall).fault ≠ none ∨ withBinding record picks db = none :=
  or_congr_right bindingsWith_eq_none_iff.symm

theorem withTarget_eq_self_iff :
    withTarget record picks db = some db.targets ↔ TargetKept record picks db :=
  KeyedTable.upsertOn_eq_self_iff

/-- If the target is refused, the project has been written. -/
theorem applied_of_targetRefused (h : record.key ≠ "")
    (hworks : (picks record.projectCall).fault = none) (hrefused : TargetRefused record picks db) :
    ∃ e, applied record picks db = (some (.error e), withProject record picks db) := by
  rw [targetRefused_iff] at hrefused
  rw [applied_of_project h hworks]
  cases hvalid : record.target.validate with
  | error e =>
    have hexec : (upsertDeliveryTarget record.target).exec handle (fun c => some (picks c))
        (withProject record picks db) = (some (.error e), withProject record picks db) := by
      unfold upsertDeliveryTarget
      rw [hvalid]
      rfl
    rw [hexec]
    exact ⟨e, rfl⟩
  | ok _ =>
    rw [exec_upsertDeliveryTarget hvalid]
    have hfails : ∃ e, handle (withProject record picks db) (picks record.targetCall)
        record.targetCall = (.error e, withProject record picks db) := by
      cases hfault : (picks record.targetCall).fault with
      | some e => exact ⟨e, attempt_of_fault hfault _⟩
      | none =>
        have hnone : withTarget record picks db = none := by simpa [hvalid, hfault] using hrefused
        rw [handle_targetCall hfault, withTarget_congr (withProject_targets record picks db), hnone]
        exact ⟨_, rfl⟩
    obtain ⟨e, hfails⟩ := hfails
    rw [hfails]
    exact ⟨_, rfl⟩

/-- If it is not, the target is written too. -/
theorem applied_of_target (h : record.key ≠ "")
    (hworks : (picks record.projectCall).fault = none) (hnot : ¬ TargetRefused record picks db) :
    ∃ targets, withTarget record picks db = some targets ∧ applied record picks db =
      (upsertBinding (trim record.projectKey) record.target.targetId record.source).exec handle
        (fun c => some (picks c)) { withProject record picks db with targets := targets } := by
  rw [targetRefused_iff, not_or, not_or, not_not, not_not] at hnot
  obtain ⟨hvalid, hfault, hsome⟩ := hnot
  obtain ⟨targets, htargets⟩ := Option.ne_none_iff_exists'.mp hsome
  refine ⟨targets, htargets, ?_⟩
  rw [applied_of_project h hworks, exec_upsertDeliveryTarget hvalid, handle_targetCall hfault,
    withTarget_congr (withProject_targets record picks db), htargets]
  rfl

/-- The last statement, where nothing has touched the bindings. -/
theorem exec_upsertBinding_of_refused {t : Database} (ht : t.bindings = db.bindings)
    (hrefused : BindingRefused record picks db) :
    ∃ e, (upsertBinding (trim record.projectKey) record.target.targetId record.source).exec handle
      (fun c => some (picks c)) t = (some (.error e), t) := by
  rw [exec_upsertBinding]
  cases hfault : (picks record.bindingCall).fault with
  | some e =>
    have hfails : handle t (picks record.bindingCall) record.bindingCall = (.error e, t) :=
      attempt_of_fault hfault _
    rw [hfails]
    exact ⟨_, rfl⟩
  | none =>
    have hnone : withBinding record picks db = none :=
      (bindingRefused_iff.mp hrefused).resolve_left (by simp [hfault])
    rw [handle_bindingCall hfault, withBinding_congr ht, hnone]
    exact ⟨_, rfl⟩

theorem exec_upsertBinding_of_not_refused {t : Database} (ht : t.bindings = db.bindings)
    (hnot : ¬ BindingRefused record picks db) :
    ∃ t', (upsertBinding (trim record.projectKey) record.target.targetId record.source).exec handle
      (fun c => some (picks c)) t = (some (.ok ()), t') := by
  rw [bindingRefused_iff, not_or, not_not] at hnot
  obtain ⟨bindings, hsome⟩ := Option.ne_none_iff_exists'.mp hnot.2
  rw [exec_upsertBinding, handle_bindingCall hnot.1, withBinding_congr ht, hsome]
  exact ⟨_, rfl⟩

theorem leavesNoTrace_of_nothing {e : String} (happlied : applied record picks db = (some (.error e), db)) :
    LeavesNoTrace record picks db := by
  intro e' t ht
  rw [happlied] at ht
  cases ht
  exact ⟨rfl, rfl, rfl⟩

/-- Where the target is refused, only the project may have been written. -/
theorem leavesNoTrace_iff_of_targetRefused (h : record.key ≠ "")
    (hworks : (picks record.projectCall).fault = none) (hrefused : TargetRefused record picks db) :
    LeavesNoTrace record picks db ↔ ProjectKept record picks db := by
  obtain ⟨e, happlied⟩ := applied_of_targetRefused h hworks hrefused
  rw [← withProject_projects_iff]
  constructor
  · intro hnoTrace
    exact (hnoTrace e _ happlied).1
  · intro hprojects e' t ht
    rw [happlied] at ht
    cases ht
    exact ⟨hprojects, withProject_targets record picks db, withProject_bindings record picks db⟩

/-- Where the binding is refused, the project and the target may have been. -/
theorem leavesNoTrace_iff_of_bindingRefused (h : record.key ≠ "")
    (hworks : (picks record.projectCall).fault = none) (hnot : ¬ TargetRefused record picks db)
    (hrefused : BindingRefused record picks db) :
    LeavesNoTrace record picks db ↔ ProjectKept record picks db ∧ TargetKept record picks db := by
  have hbindings := withProject_bindings record picks db
  obtain ⟨targets, hwith, happlied⟩ := applied_of_target h hworks hnot
  obtain ⟨e, hexec⟩ := exec_upsertBinding_of_refused
    (t := { withProject record picks db with targets := targets }) hbindings hrefused
  rw [hexec] at happlied
  rw [← withProject_projects_iff, ← withTarget_eq_self_iff, hwith, Option.some.injEq]
  constructor
  · intro hnoTrace
    have htables := hnoTrace _ _ happlied
    exact ⟨htables.1, htables.2.1⟩
  · intro hkept e' t ht
    rw [happlied] at ht
    cases ht
    exact ⟨hkept.1, hkept.2, hbindings⟩

/-- A record that is not refused is not rejected. -/
theorem leavesNoTrace_of_not_refused (h : record.key ≠ "")
    (hworks : (picks record.projectCall).fault = none) (hnot : ¬ TargetRefused record picks db)
    (hnot' : ¬ BindingRefused record picks db) : LeavesNoTrace record picks db := by
  obtain ⟨targets, hwith, happlied⟩ := applied_of_target h hworks hnot
  obtain ⟨t', hexec⟩ := exec_upsertBinding_of_not_refused
    (t := { withProject record picks db with targets := targets })
    (withProject_bindings record picks db) hnot'
  intro e t ht
  rw [happlied, hexec] at ht
  cases ht

/-- A record that is rejected leaves the tables as they were exactly when it
has no project key, or the first statement fails, or each statement that worked
before the one that failed has changed nothing. -/
theorem leavesNoTrace_iff : LeavesNoTrace record picks db ↔
    record.key = "" ∨ (picks record.projectCall).fault ≠ none ∨
      ((TargetRefused record picks db ∨ BindingRefused record picks db →
          ProjectKept record picks db) ∧
        (¬ TargetRefused record picks db → BindingRefused record picks db →
          TargetKept record picks db)) := by
  by_cases hblank : record.key = ""
  · exact iff_of_true (leavesNoTrace_of_nothing (applied_of_blank hblank)) (.inl hblank)
  rw [or_iff_right hblank]
  by_cases hfault : (picks record.projectCall).fault = none
  swap
  · obtain ⟨e, hfails⟩ := Option.ne_none_iff_exists'.mp hfault
    exact iff_of_true (leavesNoTrace_of_nothing (applied_of_fault hblank hfails)) (.inl hfault)
  rw [or_iff_right (not_not.mpr hfault)]
  by_cases hrefused : TargetRefused record picks db
  · rw [leavesNoTrace_iff_of_targetRefused hblank hfault hrefused, imp_iff_right (.inl hrefused),
      and_iff_left fun hnot => absurd hrefused hnot]
  · rw [or_iff_right hrefused, imp_iff_right hrefused, ← imp_and]
    by_cases hrefused' : BindingRefused record picks db
    · rw [imp_iff_right hrefused',
        leavesNoTrace_iff_of_bindingRefused hblank hfault hrefused hrefused']
    · exact iff_of_true (leavesNoTrace_of_not_refused hblank hfault hrefused hrefused')
        fun h => absurd h hrefused'

end Exec

/-- Nothing has been imported. -/
def nothing : Database where
  projects := KeyedTable.empty
  targets := KeyedTable.empty
  bindings := KeyedTable.empty
  jobs := KeyedTable.empty
  items := KeyedTable.empty
  outbox := KeyedTable.empty
  audit := []
  enqueued := []
  held := []

/-- The peer is found to be blank when the project has been written. -/
theorem not_everyRejectionTraceless :
    ¬ ∀ (record : BindingImportRecord) (picks : Call → Outcome) (db : Database),
      LeavesNoTrace record picks db := by
  intro h
  let record : BindingImportRecord :=
    ⟨"proj-a", "wechat", " ", "c1", "direct", "import", none, none⟩
  let picks : Call → Outcome := fun _ => ⟨none, 1700000000, ""⟩
  have herror : (applied record picks nothing).1 = some (.error "peer_id is empty") := by
    decide +kernel
  have hrows : (applied record picks nothing).2.projects.rows.length = 1 := by decide +kernel
  have hsame := (h record picks nothing _ _ (Prod.ext herror rfl)).1
  rw [hsame] at hrows
  exact absurd hrows (by decide)

/-! ## Records that are applied one after the other -/

/-- `apply_binding_record` on each of the records. -/
def applyRecords : List BindingImportRecord → Work (List (Except String Unit))
  | [] => pure []
  | record :: records => do
    let r ← applyBindingRecord record
    let rs ← applyRecords records
    return r :: rs

/-- `BindingRow` -/
structure BindingRow where
  targetId : String
  channel : String
  peerId : String
  conversationId : String
  conversationType : String
  bindSource : String
  status : BindingStatus

section Listing

variable (db : Database) (projectKey : String)

/-- `SELECT … FROM project_bindings b JOIN delivery_targets t ON t.target_id =
b.target_id WHERE b.project_key = ?1 AND b.status = 'active'`. -/
def boundPairs : List (ProjectBindingRow × DeliveryTargetRow) :=
  (activeBindings db projectKey).filterMap fun binding =>
    (db.targets.find? binding.targetId).map fun row => (binding, row)

/-- `ORDER BY t.channel, t.peer_id`. -/
def ordered (a b : ProjectBindingRow × DeliveryTargetRow) : Bool :=
  a.2.endpoint.channel < b.2.endpoint.channel ||
    (a.2.endpoint.channel = b.2.endpoint.channel && a.2.endpoint.peerId ≤ b.2.endpoint.peerId)

def toBindingRow (pair : ProjectBindingRow × DeliveryTargetRow) : BindingRow :=
  ⟨pair.2.targetId, pair.2.endpoint.channel, pair.2.endpoint.peerId, pair.2.endpoint.conversationId,
    pair.2.endpoint.conversationType, pair.1.bindSource, pair.1.status⟩

/-- `list_bindings` -/
def listBindings : List BindingRow :=
  ((boundPairs db projectKey).insertionSort fun a b => ordered a b).map toBindingRow

end Listing

/-- The row is an active one for the endpoint. -/
structure BindingRow.IsFor (e : Endpoint) (row : BindingRow) : Prop where
  targetId : row.targetId = e.targetId
  channel : row.channel = e.channel
  peerId : row.peerId = e.peerId
  conversationId : row.conversationId = e.conversationId
  conversationType : row.conversationType = e.conversationType
  status : row.status = .active

section Sets

variable (records : List BindingImportRecord)

/-- The rows are for the endpoints that the records give for the project, one
row for each. -/
def ListsExactly (projectKey : String) (rows : List BindingRow) : Prop :=
  ∃ es : List Endpoint, es.Nodup ∧
    (∀ e, e ∈ es ↔ ∃ record ∈ records, record.key = projectKey ∧ record.target.endpoint = e) ∧
      List.Forall₂ BindingRow.IsFor es rows

/-- Every record is applied, and the bindings of every project are the
endpoints that are given for it. -/
structure ImportsSet (results : List (Except String Unit)) (db : Database) : Prop where
  applied : ∀ r ∈ results, r = .ok ()
  listed : ∀ projectKey, ListsExactly records projectKey (listBindings db projectKey)

/-- The columns of a binding that a record gives. -/
def BindingImportRecord.pair (record : BindingImportRecord) : String × String :=
  (record.key, record.target.targetId)

/-- The joined keys of two records are the same only if their columns are. -/
structure Apart (a b : BindingImportRecord) : Prop where
  endpoint : a.target.targetId = b.target.targetId → a.target.endpoint = b.target.endpoint
  pair : bindingId a.pair = bindingId b.pair → a.pair = b.pair

instance (a b : BindingImportRecord) : Decidable (Apart a b) :=
  decidable_of_iff ((a.target.targetId = b.target.targetId → a.target.endpoint = b.target.endpoint) ∧
      (bindingId a.pair = bindingId b.pair → a.pair = b.pair))
    ⟨fun h => ⟨h.1, h.2⟩, fun h => ⟨h.endpoint, h.pair⟩⟩

def KeysApart : Prop := ∀ a ∈ records, ∀ b ∈ records, Apart a b

instance : Decidable (KeysApart records) :=
  inferInstanceAs (Decidable (∀ a ∈ records, ∀ b ∈ records, Apart a b))

/-- The required fields are not blank. -/
structure BindingImportRecord.Valid (record : BindingImportRecord) : Prop where
  projectKey : trim record.projectKey ≠ ""
  channel : trim record.channel ≠ ""
  peerId : trim record.peerId ≠ ""
  conversationId : trim record.conversationId ≠ ""
  conversationType : trim record.conversationType ≠ ""

instance (record : BindingImportRecord) : Decidable record.Valid :=
  decidable_of_iff (trim record.projectKey ≠ "" ∧ trim record.channel ≠ "" ∧
      trim record.peerId ≠ "" ∧ trim record.conversationId ≠ "" ∧ trim record.conversationType ≠ "")
    ⟨fun h => ⟨h.1, h.2.1, h.2.2.1, h.2.2.2.1, h.2.2.2.2⟩,
      fun h => ⟨h.projectKey, h.channel, h.peerId, h.conversationId, h.conversationType⟩⟩

/-- What applied records leave: their endpoints and their bindings, each
once. -/
structure Holding (db : Database) : Prop where
  targets : db.targets.Lists DeliveryTargetRow.endpoint Endpoint.targetId
    (fun row => row.status = .active) (records.map fun record => record.target.endpoint)
  bindings : db.bindings.Lists ProjectBindingRow.pair bindingId (fun row => row.status = .active)
    (records.map BindingImportRecord.pair)

end Sets

/-- No statement fails. -/
def noFault (_ : Database) (_ : Call) (f : Outcome) : Prop := f.fault = none

instance (db : Database) (c : Call) (f : Outcome) : Decidable (noFault db c f) :=
  inferInstanceAs (Decidable (f.fault = none))

section Import

variable {record : BindingImportRecord} {records : List BindingImportRecord} {db : Database}

theorem BindingImportRecord.Valid.validate (h : record.Valid) : record.target.validate = .ok () := by
  unfold DeliveryTarget.validate BindingImportRecord.target
  dsimp only
  rw [trim_trim, trim_trim, trim_trim, trim_trim, if_neg h.channel, if_neg h.peerId,
    if_neg h.conversationId, if_neg h.conversationType]

theorem Apart.symm {a b : BindingImportRecord} (h : Apart a b) : Apart b a :=
  ⟨fun hid => (h.endpoint hid.symm).symm, fun hid => (h.pair hid.symm).symm⟩

theorem alone_ensureProject (h : record.Valid) :
    wpi handle (alone noFault fun _ => True)
      (fun r t => r = .ok () ∧ t.targets = db.targets ∧ t.bindings = db.bindings)
      (ensureProject record.projectKey record.projectName) db := by
  unfold ensureProject
  dsimp only
  rw [if_neg h.projectKey]
  refine alone_call trivial fun f hf => ?_
  have hhandle : handle db f record.projectCall = (.ok (), ensureProjectRow db record.key
      record.insertName record.explicitName.isSome f.seconds) := attempt_of_fault_none hf _
  have htables : ∀ key insertName hasExplicit,
      (ensureProjectRow db key insertName hasExplicit f.seconds).targets = db.targets ∧
        (ensureProjectRow db key insertName hasExplicit f.seconds).bindings = db.bindings := by
    intro key insertName hasExplicit
    unfold ensureProjectRow
    split <;> exact ⟨rfl, rfl⟩
  unfold BindingImportRecord.projectCall BindingImportRecord.insertName
    BindingImportRecord.explicitName BindingImportRecord.key at hhandle
  rw [hhandle]
  exact alone_pure trivial ⟨rfl, htables _ _ _⟩

theorem alone_upsertDeliveryTarget (h : record.Valid) :
    wpi handle (alone noFault fun _ => True)
      (fun r t => ∃ ts, match targetsWith db.targets record.target ts with
        | some targets => r = .ok record.target.targetId ∧ t = { db with targets := targets }
        | none => ∃ e, r = .error e)
      (upsertDeliveryTarget record.target) db := by
  unfold upsertDeliveryTarget
  rw [h.validate]
  refine alone_call trivial fun f hf => ?_
  have hhandle : handle db f (.upsertDeliveryTarget record.target) =
      settle (upsertTargetRow db record.target f.seconds) db := attempt_of_fault_none hf _
  rw [hhandle, upsertTargetRow_eq]
  refine alone_pure trivial ⟨f.seconds, ?_⟩
  cases targetsWith db.targets record.target f.seconds with
  | some targets => exact ⟨rfl, rfl⟩
  | none => exact ⟨_, rfl⟩

theorem alone_upsertBinding (bindSource : String) :
    wpi handle (alone noFault fun _ => True)
      (fun r t => ∃ source ts,
        match bindingsWith db.bindings record.key record.target.targetId source ts with
        | some bindings => r = .ok () ∧ t = { db with bindings := bindings }
        | none => ∃ e, r = .error e)
      (upsertBinding (trim record.projectKey) record.target.targetId bindSource) db := by
  unfold upsertBinding
  rw [trim_trim]
  refine alone_call trivial fun f hf => ?_
  have hhandle : handle db f
      (.upsertBinding (trim record.projectKey) record.target.targetId (trim bindSource)) =
      settle (upsertBindingRow db (trim record.projectKey) record.target.targetId (trim bindSource)
        f.seconds) db := attempt_of_fault_none hf _
  rw [hhandle, upsertBindingRow_eq]
  refine alone_pure trivial ⟨trim bindSource, f.seconds, ?_⟩
  unfold BindingImportRecord.key
  cases bindingsWith db.bindings (trim record.projectKey) record.target.targetId (trim bindSource)
    f.seconds with
  | some bindings => exact ⟨rfl, rfl⟩
  | none => exact ⟨_, rfl⟩

theorem Holding.congr {given : List BindingImportRecord} {t : Database} (h : Holding given db)
    (htargets : t.targets = db.targets) (hbindings : t.bindings = db.bindings) :
    Holding given t := by
  constructor
  · rw [htargets]
    exact h.targets
  · rw [hbindings]
    exact h.bindings

/-- The target is refused exactly when a record that was applied has its id and
other columns. -/
theorem Holding.targetsWith_isSome_iff {given : List BindingImportRecord} (h : Holding given db)
    (record : BindingImportRecord) (ts : Int64) : (targetsWith db.targets record.target ts).isSome ↔
      ∀ d ∈ given, d.target.targetId = record.target.targetId →
        d.target.endpoint = record.target.endpoint :=
  (h.targets.upsertOn_isSome_iff rfl).trans List.forall_mem_map

theorem Holding.bindingsWith_isSome_iff {given : List BindingImportRecord} (h : Holding given db)
    (record : BindingImportRecord) (source : String) (ts : Int64) :
    (bindingsWith db.bindings record.key record.target.targetId source ts).isSome ↔
      ∀ d ∈ given, bindingId d.pair = bindingId record.pair → d.pair = record.pair :=
  (h.bindings.upsertOn_isSome_iff rfl).trans List.forall_mem_map

theorem Holding.targetsWith {given : List BindingImportRecord} (h : Holding given db) {ts : Int64}
    {targets : KeyedTable DeliveryTargetRow.targetId}
    (hwith : targetsWith db.targets record.target ts = some targets) :
    targets.Lists DeliveryTargetRow.endpoint Endpoint.targetId (fun row => row.status = .active)
      ((record :: given).map fun record => record.target.endpoint) := by
  unfold Push.targetsWith at hwith
  refine h.targets.upsertOn ?_ ?_ ?_ ?_ ?_ hwith
  · rfl
  · rfl
  · rfl
  · intro row
    rfl
  · intro row _
    rfl

theorem Holding.bindingsWith {given : List BindingImportRecord} (h : Holding given db)
    {source : String} {ts : Int64} {bindings : KeyedTable ProjectBindingRow.id}
    (hwith : bindingsWith db.bindings record.key record.target.targetId source ts = some bindings) :
    bindings.Lists ProjectBindingRow.pair bindingId (fun row => row.status = .active)
      ((record :: given).map BindingImportRecord.pair) := by
  unfold Push.bindingsWith at hwith
  refine h.bindings.upsertOn ?_ ?_ ?_ ?_ ?_ hwith
  · rfl
  · rfl
  · rfl
  · intro row
    rfl
  · intro row _
    rfl

/-- A record is applied exactly when it is apart from each that was applied
before it. -/
theorem alone_applyBindingRecord {given : List BindingImportRecord} (hheld : Holding given db)
    (h : record.Valid) :
    wpi handle (alone noFault fun _ => True)
      (fun r t => (r = .ok () ↔ ∀ d ∈ given, Apart d record) ∧
        (r = .ok () → Holding (record :: given) t))
      (applyBindingRecord record) db := by
  unfold applyBindingRecord
  rw [if_neg h.projectKey]
  refine wpi_bind alone_lawful (wpi_mono ?_ (alone_ensureProject h))
  intro r t hr
  obtain ⟨rfl, htargets, hbindings⟩ := hr
  have hheld : Holding given t := hheld.congr htargets hbindings
  refine wpi_bind alone_lawful (wpi_mono ?_ (alone_upsertDeliveryTarget h))
  intro r u hr
  obtain ⟨ts, hr⟩ := hr
  have hsome := hheld.targetsWith_isSome_iff record ts
  cases hwith : targetsWith t.targets record.target ts with
  | none =>
    rw [hwith] at hr hsome
    obtain ⟨e, rfl⟩ := hr
    have hnot : ¬ ∀ d ∈ given, Apart d record := fun hapart =>
      absurd (hsome.mpr fun d hd => (hapart d hd).endpoint) (by simp)
    exact alone_pure trivial ⟨iff_of_false (by simp) hnot, by simp⟩
  | some targets =>
    rw [hwith] at hr hsome
    obtain ⟨rfl, rfl⟩ := hr
    have hendpoints := hsome.mp rfl
    have hlists := hheld.targetsWith hwith
    refine wpi_mono ?_ (alone_upsertBinding _)
    intro r v hr
    obtain ⟨source, ts', hr⟩ := hr
    have hsome := hheld.bindingsWith_isSome_iff record source ts'
    cases hwith : bindingsWith t.bindings record.key record.target.targetId source ts' with
    | none =>
      simp only [hwith] at hr hsome
      obtain ⟨e, rfl⟩ := hr
      have hnot : ¬ ∀ d ∈ given, Apart d record := fun hapart =>
        absurd (hsome.mpr fun d hd => (hapart d hd).pair) (by simp)
      exact ⟨iff_of_false (by simp) hnot, by simp⟩
    | some bindings =>
      simp only [hwith] at hr hsome
      obtain ⟨rfl, rfl⟩ := hr
      have hpairs := hsome.mp rfl
      refine ⟨iff_of_true rfl fun d hd => ⟨hendpoints d hd, hpairs d hd⟩, fun _ => ⟨hlists, ?_⟩⟩
      exact hheld.bindingsWith hwith

/-- Records are all applied exactly when they are apart from those that were
applied before and from each other. -/
theorem alone_applyRecords {given : List BindingImportRecord} (hheld : Holding given db)
    (hvalid : ∀ record ∈ records, record.Valid) :
    wpi handle (alone noFault fun _ => True)
      (fun rs t => ((∀ r ∈ rs, r = .ok ()) ↔
          (∀ record ∈ records, ∀ d ∈ given, Apart d record) ∧ records.Pairwise Apart) ∧
        ((∀ r ∈ rs, r = .ok ()) → Holding (records.reverse ++ given) t))
      (applyRecords records) db := by
  induction records generalizing given db with
  | nil => exact alone_pure trivial ⟨by simp, fun _ => hheld⟩
  | cons record records ih =>
    rw [List.forall_mem_cons] at hvalid
    refine wpi_bind alone_lawful (wpi_mono ?_ (alone_applyBindingRecord hheld hvalid.1))
    intro r t hr
    obtain ⟨hok, hheld⟩ := hr
    by_cases happlied : r = .ok ()
    · refine wpi_bind alone_lawful (wpi_mono ?_ (ih (hheld happlied) hvalid.2))
      intro rs u hrs
      refine alone_pure trivial ⟨?_, fun hall => ?_⟩
      · have hfirst := hok.mp happlied
        rw [List.forall_mem_cons, and_iff_right happlied, hrs.1, List.forall_mem_cons,
          and_iff_right hfirst, List.pairwise_cons]
        simp only [List.forall_mem_cons, forall_and]
        tauto
      · rw [List.reverse_cons, List.append_assoc]
        exact hrs.2 (List.forall_mem_cons.mp hall).2
    · refine wpi_bind alone_lawful (wpi_mono ?_ (alone_true (fun _ => trivial) _ t))
      intro rs u _
      refine alone_pure trivial ⟨?_, fun hall => absurd (List.forall_mem_cons.mp hall).1 happlied⟩
      refine iff_of_false (fun hall => happlied (List.forall_mem_cons.mp hall).1) fun hapart => ?_
      exact happlied (hok.mpr (hapart.1 record List.mem_cons_self))

end Import

section Listed

variable {records : List BindingImportRecord} {db : Database} {projectKey : String}
  {pair : ProjectBindingRow × DeliveryTargetRow}

theorem columns_of_pair {row : ProjectBindingRow} {record : BindingImportRecord}
    (h : row.pair = record.pair) :
    row.projectKey = record.key ∧ row.targetId = record.target.targetId :=
  Prod.mk.inj h

theorem mem_boundPairs_iff : pair ∈ boundPairs db projectKey ↔
    pair.1 ∈ db.bindings.rows ∧ pair.1.projectKey = projectKey ∧ pair.1.status = .active ∧
      pair.2 ∈ db.targets.rows ∧ pair.2.targetId = pair.1.targetId := by
  unfold boundPairs activeBindings KeyedTable.select
  rw [List.mem_filterMap]
  constructor
  · intro h
    obtain ⟨binding, hbinding, hpair⟩ := h
    obtain ⟨row, hfind, rfl⟩ := Option.map_eq_some_iff.mp hpair
    obtain ⟨hmem, hactive⟩ := List.mem_filter.mp hbinding
    have hactive : binding.projectKey = projectKey ∧ binding.status = .active := by
      simpa using hactive
    exact ⟨hmem, hactive.1, hactive.2, KeyedTable.find?_eq_some_iff.mp hfind⟩
  · intro h
    obtain ⟨hmem, hkey, hactive, hfind⟩ := h
    refine ⟨pair.1, List.mem_filter.mpr ⟨hmem, by simp [hkey, hactive]⟩, ?_⟩
    rw [KeyedTable.find?_eq_some_iff.mpr hfind]
    rfl

/-- The bindings of a project that are listed have different endpoints. -/
theorem Holding.nodup (h : Holding records db) :
    ((boundPairs db projectKey).map fun pair => pair.2.endpoint).Nodup := by
  have hrows : db.bindings.rows.Nodup := h.bindings.nodup.of_map
  have hpairs : (boundPairs db projectKey).Nodup := by
    refine (hrows.filter _).filterMap fun binding binding' pair hpair hpair' => ?_
    obtain ⟨_, -, rfl⟩ := Option.map_eq_some_iff.mp hpair
    obtain ⟨_, -, heq⟩ := Option.map_eq_some_iff.mp hpair'
    exact (congrArg Prod.fst heq).symm
  refine hpairs.map_on fun a ha b hb hendpoint => ?_
  rw [mem_boundPairs_iff] at ha hb
  obtain ⟨hbinding, hkey, -, htarget, hid⟩ := ha
  obtain ⟨hbinding', hkey', -, htarget', hid'⟩ := hb
  have hrow : a.2 = b.2 := List.inj_on_of_nodup_map h.targets.nodup htarget htarget' hendpoint
  have hcolumns : a.1.pair = b.1.pair := by
    show (a.1.projectKey, a.1.targetId) = (b.1.projectKey, b.1.targetId)
    rw [hkey, hkey', ← hid, ← hid', hrow]
  have hbindings : a.1 = b.1 :=
    List.inj_on_of_nodup_map h.bindings.nodup hbinding hbinding' hcolumns
  exact Prod.ext hbindings hrow

/-- Their endpoints are those of the records of the project. -/
theorem Holding.mem_iff (h : Holding records db) (hapart : KeysApart records) {e : Endpoint} :
    e ∈ (boundPairs db projectKey).map (fun pair => pair.2.endpoint) ↔
      ∃ record ∈ records, record.key = projectKey ∧ record.target.endpoint = e := by
  rw [List.mem_map]
  constructor
  · intro hmem
    obtain ⟨pair, hpair, rfl⟩ := hmem
    obtain ⟨hbinding, hkey, -, htarget, hid⟩ := mem_boundPairs_iff.mp hpair
    obtain ⟨record, hrecord, hcolumns⟩ := List.mem_map.mp
      ((h.bindings.mem _).mp (List.mem_map_of_mem hbinding))
    obtain ⟨record', hrecord', hendpoint⟩ := List.mem_map.mp
      ((h.targets.mem _).mp (List.mem_map_of_mem htarget))
    have hcolumns := columns_of_pair hcolumns.symm
    have hids : record.target.targetId = record'.target.targetId :=
      calc record.target.targetId = pair.1.targetId := hcolumns.2.symm
        _ = pair.2.targetId := hid.symm
        _ = pair.2.endpoint.targetId := h.targets.derived _ htarget
        _ = record'.target.targetId := congrArg Endpoint.targetId hendpoint.symm
    refine ⟨record, hrecord, hcolumns.1.symm.trans hkey, ?_⟩
    exact ((hapart record hrecord record' hrecord').endpoint hids).trans hendpoint
  · intro hmem
    obtain ⟨record, hrecord, hkey, rfl⟩ := hmem
    obtain ⟨binding, hbinding, hcolumns⟩ := List.mem_map.mp
      ((h.bindings.mem record.pair).mpr (List.mem_map_of_mem hrecord))
    obtain ⟨row, hrow, hendpoint⟩ := List.mem_map.mp ((h.targets.mem record.target.endpoint).mpr
      (List.mem_map_of_mem (f := fun record => record.target.endpoint) hrecord))
    have hcolumns := columns_of_pair hcolumns
    have hid : row.targetId = binding.targetId :=
      calc row.targetId = row.endpoint.targetId := h.targets.derived row hrow
        _ = record.target.targetId := congrArg Endpoint.targetId hendpoint
        _ = binding.targetId := hcolumns.2.symm
    exact ⟨(binding, row), mem_boundPairs_iff.mpr ⟨hbinding, hcolumns.1.trans hkey,
      h.bindings.good binding hbinding, hrow, hid⟩, hendpoint⟩

/-- What is listed is what the records give, in some order. -/
theorem Holding.listsExactly (h : Holding records db) (hapart : KeysApart records)
    (projectKey : String) : ListsExactly records projectKey (listBindings db projectKey) := by
  have hperm : ((boundPairs db projectKey).insertionSort fun a b => ordered a b).Perm
      (boundPairs db projectKey) := List.perm_insertionSort _ _
  have hendpoints := hperm.map fun pair => pair.2.endpoint
  refine ⟨_, hendpoints.nodup_iff.mpr h.nodup, fun e => hendpoints.mem_iff.trans (h.mem_iff hapart),
    ?_⟩
  unfold listBindings
  rw [List.forall₂_map_left_iff, List.forall₂_map_right_iff, List.forall₂_same]
  intro pair hpair
  obtain ⟨-, -, hactive, htarget, -⟩ := mem_boundPairs_iff.mp (hperm.mem_iff.mp hpair)
  exact ⟨h.targets.derived _ htarget, rfl, rfl, rfl, rfl, hactive⟩

/-- What is listed depends on the records that are applied, not on their order
or how often they are given. -/
theorem Holding.of_mem_iff {given : List BindingImportRecord} (h : Holding given db)
    (hsame : ∀ record, record ∈ given ↔ record ∈ records) : Holding records db := by
  have hmem : ∀ {γ : Type} (f : BindingImportRecord → γ) (c : γ),
      c ∈ given.map f ↔ c ∈ records.map f := by
    intro γ f c
    simp only [List.mem_map, hsame]
  exact ⟨⟨h.targets.nodup, fun c => (h.targets.mem c).trans (hmem _ c), h.targets.derived,
      h.targets.good⟩,
    ⟨h.bindings.nodup, fun c => (h.bindings.mem c).trans (hmem _ c), h.bindings.derived,
      h.bindings.good⟩⟩

theorem pairwise_apart_iff : records.Pairwise Apart ↔ KeysApart records := by
  constructor
  · intro h
    exact h.forall_of_forall_of_flip (fun _ _ => ⟨fun _ => rfl, fun _ => rfl⟩) (h.imp Apart.symm)
  · intro h
    exact List.pairwise_of_forall_mem_list h

end Listed

section Results

variable {records : List BindingImportRecord} {db : Database}

/-- Valid records that are imported into empty tables, with storage that works,
leave the set of their endpoints exactly when their joined keys are as
different as their columns. -/
theorem importsSet_iff (htargets : db.targets.rows = []) (hbindings : db.bindings.rows = [])
    (hvalid : ∀ record ∈ records, record.Valid)
    {fs : Nat → Outcome} (hworks : Along handle noFault (applyRecords records) fs db) :
    ImportsSet records ((applyRecords records).play handle fs db).1
      ((applyRecords records).play handle fs db).2 ↔ KeysApart records := by
  have hheld : Holding [] db := ⟨KeyedTable.lists_nil htargets, KeyedTable.lists_nil hbindings⟩
  obtain ⟨happlied, hholding⟩ := post_of_along (alone_applyRecords hheld hvalid) hworks
  have hall : (∀ r ∈ ((applyRecords records).play handle fs db).1, r = .ok ()) ↔
      KeysApart records := by
    rw [happlied, pairwise_apart_iff]
    exact and_iff_right fun _ _ _ hd => absurd hd List.not_mem_nil
  constructor
  · intro h
    exact hall.mp h.applied
  · intro hapart
    have hholding : Holding records _ := (hholding (hall.mpr hapart)).of_mem_iff (by simp)
    exact ⟨hall.mpr hapart, fun projectKey => hholding.listsExactly hapart projectKey⟩

/-- A record of project `proj-a` with a direct conversation. -/
def direct (peerId conversationId : String) (accountScope : Option String) : BindingImportRecord :=
  ⟨"proj-a", "wechat", peerId, conversationId, "direct", "import", none, accountScope⟩

/-- The clock is all that a call gets. -/
def quiet : Nat → Outcome := fun _ => ⟨none, 1700000000, ""⟩

/-- Two scopes of one peer, one of them given twice. -/
def scopes : List BindingImportRecord :=
  [direct "alice" "c1" none, direct "alice" "c1" (some "team"), direct " alice" "c1" none]

theorem scopes_importsSet : ImportsSet scopes ((applyRecords scopes).play handle quiet nothing).1
    ((applyRecords scopes).play handle quiet nothing).2 :=
  (importsSet_iff rfl rfl (by decide +kernel) (by decide +kernel)).mpr (by decide +kernel)

/-- The ids of the two targets are the same, and the second is refused. -/
theorem not_everyImportSets :
    ¬ ∀ (records : List BindingImportRecord) (fs : Nat → Outcome),
      (∀ record ∈ records, record.Valid) →
        Along handle noFault (applyRecords records) fs nothing →
          ImportsSet records ((applyRecords records).play handle fs nothing).1
            ((applyRecords records).play handle fs nothing).2 := by
  intro h
  let records := [direct "a|b" "c" none, direct "a" "b|c" none]
  have hresults : ((applyRecords records).play handle quiet nothing).1 = [.ok (),
      .error ("upsert_delivery_target failed: " ++
        "UNIQUE constraint failed: delivery_targets.target_id")] := by
    decide +kernel
  have happlied := (h records quiet (by decide +kernel) (by decide +kernel)).applied
  rw [hresults] at happlied
  exact absurd (happlied _ (List.mem_cons_of_mem _ List.mem_cons_self)) (by simp)

end Results

end MagicLaw.Push
