import MagicLaw.Lib.Interference
import MagicLaw.Push.Authorization
import MagicLaw.Push.Files
import MagicLaw.Push.Outcomes

/-!
# The import of push jobs

`import_pushes` and `insert_push_item` of `application/push.rs`, on the
database of the push jobs, and `run_push_import` of `main.rs`.  A draw of an
id and a look at the clock are calls, like the statements.

* `importPushes_accounts`: whatever fails, each record becomes one pending item
  or one error, and nothing else is written.
* `pushImport_pending`: with storage that works, the pending items of the new
  job are the records of the file, in their order.
-/

namespace MagicLaw.Push

open Lib Lib.Program Lib.Interference
open Lib.Text (trim trim_trim)
open Lib.TextLines

/-! ## Calls -/

inductive ImportCall where
  /-- `new_id` -/
  | newId (kind : String)
  /-- `now_ts` -/
  | timestamp
  | insertJob (jobId sourceFormat sourcePath : String) (ts : Int64)
  | insertItem (itemId jobId projectKey messageText mode : String) (targetsJson : Option String)
      (ts : Int64)
  | setTotal (jobId : String) (total : Int64)

def ImportCall.Reply : ImportCall → Type
  | .newId _ => String
  | .timestamp => Int64
  | .insertJob _ _ _ _ | .insertItem _ _ _ _ _ _ _ | .setTotal _ _ => Except String Unit

/-- `UPDATE push_jobs SET total_items = ?1, updated_at = unixepoch()`. -/
def PushJobRow.setTotal (total unixepoch : Int64) (row : PushJobRow) : PushJobRow :=
  { row with
    totalItems := total
    updatedAt := unixepoch }

theorem PushJobRow.jobId_setTotal (total unixepoch : Int64) (row : PushJobRow) :
    (row.setTotal total unixepoch).jobId = row.jobId := rfl

/-- `INSERT INTO push_jobs`. -/
def insertJobRow (db : Database) (row : PushJobRow) : Except String Database :=
  match db.jobs.insert row with
  | some jobs => .ok { db with jobs := jobs }
  | none => .error "UNIQUE constraint failed: push_jobs.job_id"

/-- `INSERT INTO push_job_items`. -/
def insertItemRow (db : Database) (row : PushItemRow) : Except String Database :=
  match db.items.insert row with
  | some items => .ok { db with items := items }
  | none => .error "UNIQUE constraint failed: push_job_items.item_id"

/-- The id that is drawn. -/
def Outcome.drawn (f : Outcome) (kind : String) : String := s!"{kind}-{f.uuid}"

def ImportCall.handle (db : Database) (f : Outcome) : (c : ImportCall) → c.Reply × Database
  | .newId kind => (f.drawn kind, db)
  | .timestamp => (f.seconds, db)
  | .insertJob jobId _ _ ts =>
    f.attempt db (settle (insertJobRow db ⟨jobId, .pending, 0, 0, 0, ts⟩) db)
  | .insertItem itemId jobId projectKey messageText mode targetsJson ts =>
    f.attempt db (settle (insertItemRow db
      ⟨itemId, jobId, projectKey, messageText, mode, targetsJson, .pending, none, ts, ts⟩) db)
  | .setTotal jobId total =>
    f.attempt db (.ok (), { db with
      jobs := db.jobs.update jobId (PushJobRow.setTotal total f.seconds)
        (PushJobRow.jobId_setTotal total f.seconds) })

theorem ImportCall.handle_newId (db : Database) (f : Outcome) (kind : String) :
    ImportCall.handle db f (.newId kind) = (f.drawn kind, db) := rfl

theorem ImportCall.handle_timestamp (db : Database) (f : Outcome) :
    ImportCall.handle db f .timestamp = (f.seconds, db) := rfl

abbrev Importing := Prog ImportCall.Reply

section Calls

def importCall (c : ImportCall) : Importing c.Reply := .perform c

def newId (kind : String) : Importing String := importCall (.newId kind)

def nowTs : Importing Int64 := importCall .timestamp

def insertJob (jobId sourceFormat sourcePath : String) (ts : Int64) :
    Importing (Except String Unit) :=
  importCall (.insertJob jobId sourceFormat sourcePath ts)

def insertItem (itemId jobId projectKey messageText mode : String) (targetsJson : Option String)
    (ts : Int64) : Importing (Except String Unit) :=
  importCall (.insertItem itemId jobId projectKey messageText mode targetsJson ts)

def setTotal (jobId : String) (total : Int64) : Importing (Except String Unit) :=
  importCall (.setTotal jobId total)

end Calls

/-! ## The import -/

/-- `serde_json::to_string` on the targets of a record. -/
abbrev TargetsText := List DeliveryTarget → Except String String

def validateMode : String → Except String Unit
  | "broadcast" | "targeted" => .ok ()
  | other => .error s!"invalid mode: {other}"

/-- The column `target_targets_json`. -/
def targetsColumn (toText : TargetsText) (targets : List DeliveryTarget) :
    Except String (Option String) :=
  if targets = [] then .ok none else (toText targets).map some

/-- The checks of `insert_push_item`. -/
def PushImportRecord.validate (record : PushImportRecord) : Except String Unit :=
  if trim record.projectKey = "" then .error "project_key is empty"
  else if trim record.messageText = "" then .error "message_text is empty"
  else validateMode (trim record.mode)

@[irreducible]
def insertPushItem (toText : TargetsText) (jobId : String) (record : PushImportRecord) :
    Importing (Except String Unit) :=
  match record.validate with
  | .error e => pure (.error e)
  | .ok () => do
    let itemId ← newId "item"
    match targetsColumn toText record.targetTargets with
    | .error e => return .error e
    | .ok targetsJson => do
      let ts ← nowTs
      let r ← insertItem itemId jobId (trim record.projectKey) record.messageText
        (trim record.mode) targetsJson ts
      return orFailed "insert push item" r

/-- An error with the number of its record. -/
def atRecord {α : Type} (n : Nat) (result : Except String α) : Except String α :=
  result.mapError fun e => s!"record {n}: {e}"

/-- The loop over the numbered records. -/
def importItems (toText : TargetsText) (jobId : String) :
    List (PushImportRecord × Nat) → ImportSummary → Importing ImportSummary
  | [], summary => pure summary
  | (record, n) :: records, summary => do
    let r ← insertPushItem toText jobId record
    importItems toText jobId records (summary.add (atRecord n r))

@[irreducible]
def importPushes (toText : TargetsText) (sourceFormat path : String)
    (records : List PushImportRecord) : Importing (Except String (String × ImportSummary)) := do
  let jobId ← newId "job"
  let ts ← nowTs
  match orFailed "create push job" (← insertJob jobId sourceFormat path ts) with
  | .error e => return .error e
  | .ok () => do
    let summary ← importItems toText jobId (records.zipIdx 1) .default
    match orFailed "update push job totals" (← setTotal jobId (asI64 summary.total)) with
    | .error e => return .error e
    | .ok () => return .ok (jobId, summary)

/-- `run_push_import` for a CSV file. -/
@[irreducible]
def pushImport (toText : TargetsText) (path : String) (file : Except String String) :
    Importing (Except String (String × ImportSummary)) :=
  match parsePushesCsv path file with
  | .error e => pure (.error e)
  | .ok records => importPushes toText "csv" path records

/-! ## What becomes of a record -/

/-- The row of a record. -/
structure IsItemOf (toText : TargetsText) (jobId : String) (record : PushImportRecord)
    (row : PushItemRow) : Prop where
  valid : record.validate = .ok ()
  jobId : row.jobId = jobId
  projectKey : row.projectKey = trim record.projectKey
  messageText : row.messageText = record.messageText
  mode : row.mode = trim record.mode
  targets : targetsColumn toText record.targetTargets = .ok row.targetTargetsJson
  status : row.status = .pending
  error : row.error = none

/-- The record passes the checks, and its targets have a text. -/
structure Importable (toText : TargetsText) (record : PushImportRecord) : Prop where
  valid : record.validate = .ok ()
  targets : ∃ column, targetsColumn toText record.targetTargets = .ok column

/-- An id that is drawn is new, and the clock does not go back. -/
def Timely (db : Database) (f : Outcome) : ImportCall → Prop
  | .newId kind => db.items.find? (f.drawn kind) = none ∧ db.jobs.find? (f.drawn kind) = none ∧
      ∀ row ∈ db.items.rows, row.jobId ≠ f.drawn kind
  | .timestamp => ∀ row ∈ db.items.rows, row.createdAt ≤ f.seconds
  | .insertJob _ _ _ _ | .insertItem _ _ _ _ _ _ _ | .setTotal _ _ => True

instance (db : Database) (f : Outcome) : (c : ImportCall) → Decidable (Timely db f c)
  | .newId _ => inferInstanceAs (Decidable (_ ∧ _ ∧ _))
  | .timestamp => inferInstanceAs (Decidable (∀ row ∈ db.items.rows, row.createdAt ≤ f.seconds))
  | .insertJob _ _ _ _ | .insertItem _ _ _ _ _ _ _ | .setTotal _ _ => isTrue trivial

/-- The call does not fail, and what it draws is as it should be. -/
structure Clean (db : Database) (c : ImportCall) (f : Outcome) : Prop where
  fault : f.fault = none
  timely : Timely db f c

instance (db : Database) (c : ImportCall) (f : Outcome) : Decidable (Clean db c f) :=
  decidable_of_iff (f.fault = none ∧ Timely db f c) ⟨fun h => ⟨h.1, h.2⟩, fun h => ⟨h.fault, h.timely⟩⟩

variable {toText : TargetsText} {allowed : Database → ImportCall → Outcome → Prop}
  {jobId : String} {db t : Database}

/-- Every outcome is a clean one. -/
def AllClean (allowed : Database → ImportCall → Outcome → Prop) : Prop :=
  ∀ db c f, allowed db c f → Clean db c f

/-- What becomes of a record: its row, or an error that writes nothing. -/
structure Becomes (toText : TargetsText) (allowed : Database → ImportCall → Outcome → Prop)
    (jobId : String) (record : PushImportRecord) (db : Database)
    (outcome : Except String PushItemRow) (t : Database) : Prop where
  rows : t.items.rows = db.items.rows ++ outcome.toOption.toList
  rest : t = { db with items := t.items }
  item : ∀ row, outcome = .ok row → IsItemOf toText jobId record row
  complete : AllClean allowed → Importable toText record → ∃ row, outcome = .ok row
  latest : AllClean allowed → ∀ row, outcome = .ok row → ∀ old ∈ db.items.rows,
    old.createdAt ≤ row.createdAt

theorem becomes_error {record : PushImportRecord} {e : String}
    (h : AllClean allowed → ¬Importable toText record) :
    Becomes toText allowed jobId record db (.error e) db where
  rows := (List.append_nil _).symm
  rest := rfl
  item := nofun
  complete := fun hclean himportable => absurd himportable (h hclean)
  latest := nofun

/-- An insert of a row fails and writes nothing, or adds the row. -/
theorem insertItem_cases (db : Database) (f : Outcome) (row : PushItemRow) :
    (∃ e, f.attempt db (settle (insertItemRow db row) db) = (.error e, db) ∧
        ¬(f.fault = none ∧ db.items.find? row.itemId = none)) ∨
      ∃ t, f.attempt db (settle (insertItemRow db row) db) = (.ok (), t) ∧
        t.items.rows = db.items.rows ++ [row] ∧ t = { db with items := t.items } := by
  unfold Outcome.attempt
  cases hfault : f.fault with
  | some e => exact .inl ⟨e, rfl, fun h => nomatch h.1⟩
  | none =>
    by_cases hfree : db.items.find? row.itemId = none
    · refine .inr ⟨{ db with items := db.items.append row hfree }, ?_, rfl, rfl⟩
      unfold insertItemRow
      rw [KeyedTable.insert_eq_some hfree]
      rfl
    · refine .inl ⟨"UNIQUE constraint failed: push_job_items.item_id", ?_, fun h => hfree h.2⟩
      unfold insertItemRow
      rw [KeyedTable.insert_eq_none hfree]
      rfl

/-- `insert_push_item` -/
theorem wpi_insertPushItem (record : PushImportRecord) (db : Database) :
    wpi ImportCall.handle (alone allowed fun _ => True)
      (fun r t => ∃ outcome, r = outcome.map (fun _ => ()) ∧
        Becomes toText allowed jobId record db outcome t)
      (insertPushItem toText jobId record) db := by
  unfold insertPushItem
  cases hvalid : record.validate with
  | error e =>
    refine alone_pure trivial ⟨.error e, rfl, becomes_error fun _ h => ?_⟩
    exact nomatch hvalid.symm.trans h.valid
  | ok u =>
    refine alone_call trivial fun f hf => ?_
    cases hcolumn : targetsColumn toText record.targetTargets with
    | error e =>
      refine alone_pure trivial ⟨.error e, rfl, becomes_error fun _ h => ?_⟩
      obtain ⟨column, hsome⟩ := h.targets
      exact nomatch hcolumn.symm.trans hsome
    | ok column =>
      refine alone_call trivial fun g hg => alone_call trivial fun h hh => ?_
      let row : PushItemRow := ⟨f.drawn "item", jobId, trim record.projectKey, record.messageText,
        trim record.mode, column, .pending, none, g.seconds, g.seconds⟩
      have hhandle : ImportCall.handle db h (.insertItem (f.drawn "item") jobId
          (trim record.projectKey) record.messageText (trim record.mode) column g.seconds) =
          h.attempt db (settle (insertItemRow db row) db) := rfl
      refine alone_pure trivial ?_
      simp only [ImportCall.handle_newId, ImportCall.handle_timestamp]
      rw [hhandle]
      rcases insertItem_cases db h row with ⟨e, hinsert, hnot⟩ | ⟨t, hinsert, hrows, hrest⟩
      · rw [hinsert]
        refine ⟨.error s!"insert push item failed: {e}", rfl, becomes_error fun hclean _ => ?_⟩
        exact hnot ⟨(hclean _ _ _ hh).fault, (hclean _ _ _ hf).timely.1⟩
      · rw [hinsert]
        refine ⟨.ok row, rfl, hrows, hrest, ?_, fun _ _ => ⟨row, rfl⟩, ?_⟩
        · rintro _ ⟨⟩
          exact ⟨hvalid, rfl, rfl, rfl, rfl, hcolumn, rfl, rfl⟩
        · rintro hclean _ ⟨⟩
          exact (hclean _ _ _ hg).timely

/-- The rows that were written. -/
def added (outcomes : List (Except String PushItemRow)) : List PushItemRow :=
  outcomes.flatMap fun outcome => outcome.toOption.toList

/-- What becomes of the records of a file. -/
structure BecomeAll (toText : TargetsText) (allowed : Database → ImportCall → Outcome → Prop)
    (jobId : String) (records : List PushImportRecord) (db : Database)
    (outcomes : List (Except String PushItemRow)) (t : Database) : Prop where
  rows : t.items.rows = db.items.rows ++ added outcomes
  rest : t = { db with items := t.items }
  items : List.Forall₂ (fun record outcome => ∀ row, outcome = .ok row →
    IsItemOf toText jobId record row) records outcomes
  complete : AllClean allowed → (∀ record ∈ records, Importable toText record) →
    ∀ outcome ∈ outcomes, ∃ row, outcome = .ok row
  latest : AllClean allowed → ∀ row ∈ added outcomes, ∀ old ∈ db.items.rows,
    old.createdAt ≤ row.createdAt
  sorted : AllClean allowed → (added outcomes).Pairwise fun a b => a.createdAt ≤ b.createdAt

theorem becomeAll_nil : BecomeAll toText allowed jobId [] db [] db where
  rows := (List.append_nil _).symm
  rest := rfl
  items := .nil
  complete := nofun
  latest := nofun
  sorted := fun _ => .nil

theorem Becomes.cons {record : PushImportRecord} {records : List PushImportRecord}
    {outcome : Except String PushItemRow} {outcomes : List (Except String PushItemRow)}
    {u : Database} (hhead : Becomes toText allowed jobId record db outcome t)
    (htail : BecomeAll toText allowed jobId records t outcomes u) :
    BecomeAll toText allowed jobId (record :: records) db (outcome :: outcomes) u where
  rows := by rw [htail.rows, hhead.rows, List.append_assoc]; rfl
  rest := by rw [htail.rest, hhead.rest]
  items := .cons hhead.item htail.items
  complete := fun hclean hall => by
    rw [List.forall_mem_cons] at hall ⊢
    exact ⟨hhead.complete hclean hall.1, htail.complete hclean hall.2⟩
  latest := fun hclean row hrow old hold => by
    rcases List.mem_append.mp hrow with hrow | hrow
    · refine hhead.latest hclean row ?_ old hold
      cases outcome with
      | error e => cases hrow
      | ok new => rw [List.mem_singleton.mp hrow]
    · exact htail.latest hclean row hrow old (hhead.rows ▸ List.mem_append_left _ hold)
  sorted := fun hclean => by
    refine List.pairwise_append.mpr ⟨?_, htail.sorted hclean, fun old hold row hrow => ?_⟩
    · cases outcome with
      | error e => exact .nil
      | ok new => exact List.pairwise_singleton _ _
    · exact htail.latest hclean row hrow old (hhead.rows ▸ List.mem_append_right _ hold)

/-- What became of the records, with their numbers in the errors. -/
def recordResults (first : Nat) (outcomes : List (Except String PushItemRow)) :
    List (Except String Unit) :=
  (outcomes.zipIdx first).map fun (outcome, n) => atRecord n (outcome.map fun _ => ())

theorem wpi_importItems (records : List PushImportRecord) (first : Nat) (summary : ImportSummary)
    (db : Database) :
    wpi ImportCall.handle (alone allowed fun _ => True)
      (fun r t => ∃ outcomes, r = (recordResults first outcomes).foldl ImportSummary.add summary ∧
        BecomeAll toText allowed jobId records db outcomes t)
      (importItems toText jobId (records.zipIdx first) summary) db := by
  induction records generalizing first summary db with
  | nil => exact alone_pure trivial ⟨[], rfl, becomeAll_nil⟩
  | cons record records ih =>
    rw [List.zipIdx_cons, importItems]
    refine wpi_bind alone_lawful (wpi_mono ?_ (wpi_insertPushItem record db))
    rintro _ t ⟨outcome, rfl, hhead⟩
    refine wpi_mono ?_ (ih (first + 1) (summary.add (atRecord first (outcome.map fun _ => ()))) t)
    rintro _ u ⟨outcomes, rfl, htail⟩
    exact ⟨outcome :: outcomes, rfl, hhead.cons htail⟩

theorem countP_recordResults (first : Nat) (outcomes : List (Except String PushItemRow)) :
    ((recordResults first outcomes).countP fun r => r = .ok ()) = (added outcomes).length := by
  induction outcomes generalizing first with
  | nil => rfl
  | cons outcome outcomes ih =>
    show (_ :: recordResults (first + 1) outcomes).countP _ = (_ ++ added outcomes).length
    rw [List.countP_cons, List.length_append, ih]
    cases outcome with
    | ok row => exact Nat.add_comm _ _
    | error e => exact (Nat.zero_add _).symm

/-- The summary counts the records and the rows, and names each record that
failed. -/
structure Summarizes (records : List PushImportRecord) (outcomes : List (Except String PushItemRow))
    (summary : ImportSummary) : Prop where
  total : summary.total = records.length
  success : summary.success = (added outcomes).length
  failed : summary.success + summary.failed = summary.total
  errors : summary.errors = errorsOf (recordResults 1 outcomes)

theorem summarizes_foldl {records : List PushImportRecord} {outcomes : List (Except String PushItemRow)}
    (hlength : records.length = outcomes.length) :
    Summarizes records outcomes ((recordResults 1 outcomes).foldl ImportSummary.add .default) := by
  have hresults : (recordResults 1 outcomes).length = records.length := by
    simp [recordResults, hlength]
  have hcount := countP_recordResults 1 outcomes
  have hall := ok_or_error (recordResults 1 outcomes)
  rw [foldl_add]
  refine ⟨?_, ?_, ?_, List.nil_append _⟩
  · simp only [ImportSummary.default]
    omega
  · simp only [ImportSummary.default]
    omega
  · simp only [ImportSummary.default]
    omega

/-- What an import leaves once its job is there: its items, and nothing else.
The job has the total of its records, unless the import fails at the end. -/
structure Imports (toText : TargetsText) (records : List PushImportRecord) (jobId : String)
    (job : PushJobRow) (outcomes : List (Except String PushItemRow)) (db : Database)
    (result : Except String (String × ImportSummary)) (t : Database) : Prop where
  new : db.jobs.find? jobId = none
  stored : t.jobs.find? jobId = some job
  row : job = ⟨jobId, .pending, job.totalItems, 0, 0, job.updatedAt⟩
  others : ∀ other, other ≠ jobId → t.jobs.find? other = db.jobs.find? other
  rows : t.items.rows = db.items.rows ++ added outcomes
  rest : t = { db with
    jobs := t.jobs
    items := t.items }
  items : List.Forall₂ (fun record outcome => ∀ row, outcome = .ok row →
    IsItemOf toText jobId record row) records outcomes
  result : (∃ summary, result = .ok (jobId, summary) ∧ Summarizes records outcomes summary ∧
      job.totalItems = asI64 records.length) ∨
    ∃ e, result = .error e ∧ job.totalItems = 0

/-- What it leaves when storage works and every record can be imported. -/
structure ImportsAll (records : List PushImportRecord) (jobId : String)
    (outcomes : List (Except String PushItemRow)) (db : Database)
    (result : Except String (String × ImportSummary)) : Prop where
  fresh : ∀ row ∈ db.items.rows, row.jobId ≠ jobId
  ok : ∃ summary, result = .ok (jobId, summary)
  complete : ∀ outcome ∈ outcomes, ∃ row, outcome = .ok row
  sorted : (added outcomes).Pairwise fun a b => a.createdAt ≤ b.createdAt

/-- A job fails and writes nothing, or is there. -/
theorem insertJob_cases (db : Database) (f : Outcome) (row : PushJobRow) :
    (∃ e, f.attempt db (settle (insertJobRow db row) db) = (.error e, db) ∧
        ¬(f.fault = none ∧ db.jobs.find? row.jobId = none)) ∨
      ∃ hfree : db.jobs.find? row.jobId = none,
        f.attempt db (settle (insertJobRow db row) db) =
          (.ok (), { db with jobs := db.jobs.append row hfree }) := by
  unfold Outcome.attempt
  cases hfault : f.fault with
  | some e => exact .inl ⟨e, rfl, fun h => nomatch h.1⟩
  | none =>
    by_cases hfree : db.jobs.find? row.jobId = none
    · refine .inr ⟨hfree, ?_⟩
      unfold insertJobRow
      rw [KeyedTable.insert_eq_some hfree]
      rfl
    · refine .inl ⟨"UNIQUE constraint failed: push_jobs.job_id", ?_, fun h => hfree h.2⟩
      unfold insertJobRow
      rw [KeyedTable.insert_eq_none hfree]
      rfl

/-- The jobs of a database with one more, which gets its total or not. -/
theorem jobs_setTotal {row : PushJobRow} (hfree : db.jobs.find? row.jobId = none)
    (total unixepoch : Int64) (other : String) :
    ((db.jobs.append row hfree).update row.jobId (PushJobRow.setTotal total unixepoch)
      (PushJobRow.jobId_setTotal total unixepoch)).find? other =
      if other = row.jobId then some (row.setTotal total unixepoch) else db.jobs.find? other := by
  rw [KeyedTable.find?_update, KeyedTable.find?_append]
  by_cases hother : other = row.jobId
  · simp [hother]
  · simp [hother, KeyedTable.find?_append]

variable (toText allowed) in
/-- `import_pushes` -/
theorem wpi_importPushes (sourceFormat path : String) (records : List PushImportRecord)
    (db : Database) :
    wpi ImportCall.handle (alone allowed fun _ => True)
      (fun r t => ((∃ e, r = .error e) ∧ t = db ∧ ¬AllClean allowed) ∨
        ∃ jobId job outcomes, Imports toText records jobId job outcomes db r t ∧
          (AllClean allowed → (∀ record ∈ records, Importable toText record) →
            ImportsAll records jobId outcomes db r))
      (importPushes toText sourceFormat path records) db := by
  unfold importPushes
  refine alone_call trivial fun f hf => alone_call trivial fun g hg => alone_call trivial fun h hh => ?_
  let row : PushJobRow := ⟨f.drawn "job", .pending, 0, 0, 0, g.seconds⟩
  have hhandle : ImportCall.handle db h (.insertJob (f.drawn "job") sourceFormat path g.seconds) =
      h.attempt db (settle (insertJobRow db row) db) := rfl
  simp only [ImportCall.handle_newId, ImportCall.handle_timestamp]
  rw [hhandle]
  rcases insertJob_cases db h row with ⟨e, hinsert, hnot⟩ | ⟨hfree, hinsert⟩
  · rw [hinsert]
    refine alone_pure trivial (.inl ⟨⟨_, rfl⟩, rfl, fun hclean => ?_⟩)
    exact hnot ⟨(hclean _ _ _ hh).fault, (hclean _ _ _ hf).timely.2.1⟩
  rw [hinsert]
  dsimp only [orFailed, Except.mapError]
  refine wpi_bind alone_lawful (wpi_mono ?_ (wpi_importItems records 1 .default _))
  rintro _ u ⟨outcomes, rfl, hall⟩
  have hsummary := summarizes_foldl hall.items.length_eq
  refine alone_call trivial fun k hk => ?_
  have hfresh : AllClean allowed → ∀ old ∈ db.items.rows, old.jobId ≠ f.drawn "job" :=
    fun hclean => (hclean _ _ _ hf).timely.2.2
  have hattempt : ∀ total, ImportCall.handle u k (.setTotal (f.drawn "job") total) =
      k.attempt u (.ok (), { u with
        jobs := u.jobs.update (f.drawn "job") (PushJobRow.setTotal total k.seconds)
          (PushJobRow.jobId_setTotal total k.seconds) }) := fun _ => rfl
  have hjobs : u.jobs = db.jobs.append row hfree := congrArg Database.jobs hall.rest
  rw [hattempt]
  cases hfault : k.fault with
  | some e =>
    rw [attempt_of_fault hfault]
    refine alone_pure trivial (.inr ⟨f.drawn "job", row, outcomes, ?_, fun hclean => ?_⟩)
    · refine ⟨hfree, ?_, rfl, fun other hother => ?_, hall.rows, ?_, hall.items, .inr ⟨_, rfl, rfl⟩⟩
      · rw [hjobs, KeyedTable.find?_append, if_pos rfl]
      · rw [hjobs, KeyedTable.find?_append, if_neg hother]
      · rw [hall.rest]
    · exact nomatch (hclean _ _ _ hk).fault.symm.trans hfault
  | none =>
    rw [attempt_of_fault_none hfault]
    refine alone_pure trivial (.inr ⟨f.drawn "job", row.setTotal (asI64 records.length) k.seconds,
      outcomes, ?_, fun hclean himportable => ?_⟩)
    · refine ⟨hfree, ?_, rfl, fun other hother => ?_, hall.rows, ?_, hall.items,
        .inl ⟨_, rfl, hsummary, rfl⟩⟩
      · rw [hsummary.total]
        dsimp only
        rw [hjobs]
        exact (jobs_setTotal hfree _ _ _).trans (if_pos rfl)
      · dsimp only
        rw [hjobs]
        exact (jobs_setTotal hfree _ _ _).trans (if_neg hother)
      · rw [hall.rest]
    · exact ⟨hfresh hclean, ⟨_, rfl⟩, hall.complete hclean himportable, hall.sorted hclean⟩

/-- Whatever fails, an import writes nothing, or it leaves a job whose items are
the records that could be written, in their order, and an error with the number
of each of the others.  When the last statement fails the job is there with all
its items and with no total. -/
theorem importPushes_accounts (toText : TargetsText) (sourceFormat path : String)
    (records : List PushImportRecord) (fs : Nat → Outcome) (db : Database) :
    let (result, t) := (importPushes toText sourceFormat path records).play ImportCall.handle fs db
    ((∃ e, result = .error e) ∧ t = db) ∨
      ∃ jobId job outcomes, Imports toText records jobId job outcomes db result t := by
  have hwp := wpi_importPushes toText (fun _ _ _ => True) sourceFormat path records db
  rcases post_of_along hwp (along_of_forall (fun _ _ _ => trivial) _ fs db) with h | h
  · exact .inl ⟨h.1, h.2.1⟩
  · obtain ⟨jobId, job, outcomes, himports, -⟩ := h
    exact .inr ⟨jobId, job, outcomes, himports⟩

/-! ## From the file to the job -/

/-- The record has a mode and its texts are not blank, and its targets are
written and read back. -/
structure PushImportRecord.Sendable (toText : TargetsText) (serde : Serde)
    (record : PushImportRecord) : Prop where
  valid : record.trimmed.validate = .ok ()
  targets : ∃ text, toText record.targetTargets = .ok text ∧
    serde.targets text = .ok record.targetTargets

/-- The item that a job reads for the record. -/
structure IsPendingOf (serde : Serde) (record : PushImportRecord) (item : PendingItem) : Prop where
  projectKey : item.projectKey = trim record.projectKey
  messageText : item.messageText = trim record.messageText
  mode : item.mode = trim record.mode
  none : record.targetTargets = [] → item.targetTargetsJson = .none
  targets : record.targetTargets ≠ [] → item.requested serde = .ok record.targetTargets

variable {serde : Serde} {record : PushImportRecord}

theorem targetsColumn_nil {targets : List DeliveryTarget} (h : targets = []) :
    targetsColumn toText targets = .ok none := if_pos h

theorem targetsColumn_text {targets : List DeliveryTarget} {text : String} (h : targets ≠ [])
    (htext : toText targets = .ok text) : targetsColumn toText targets = .ok (some text) := by
  unfold targetsColumn
  rw [if_neg h, htext]
  rfl

theorem PushImportRecord.Sendable.importable (h : record.Sendable toText serde) :
    Importable toText record.trimmed := by
  obtain ⟨text, htext, -⟩ := h.targets
  refine ⟨h.valid, ?_⟩
  by_cases hnil : record.targetTargets = []
  · exact ⟨_, targetsColumn_nil hnil⟩
  · exact ⟨_, targetsColumn_text hnil htext⟩

theorem isPendingOf_toPending (h : record.Sendable toText serde) {row : PushItemRow}
    (hrow : IsItemOf toText jobId record.trimmed row) : IsPendingOf serde record row.toPending := by
  obtain ⟨text, htext, hread⟩ := h.targets
  refine ⟨hrow.projectKey.trans (trim_trim _), hrow.messageText, hrow.mode.trans (trim_trim _), ?_, ?_⟩
  · intro hnil
    exact (Except.ok.inj ((targetsColumn_nil hnil).symm.trans hrow.targets)).symm
  · intro hne
    have hjson : row.toPending.targetTargetsJson = some text :=
      (Except.ok.inj ((targetsColumn_text hne htext).symm.trans hrow.targets)).symm
    unfold PendingItem.requested
    rw [hjson]
    exact hread

/-- The items that a job reads after its import. -/
theorem pendingItems_imports {records : List PushImportRecord} {job : PushJobRow}
    {outcomes : List (Except String PushItemRow)} {result : Except String (String × ImportSummary)}
    (h : Imports toText records jobId job outcomes db result t)
    (hall : ImportsAll records jobId outcomes db result) :
    pendingItems t jobId = (added outcomes).map PushItemRow.toPending := by
  have hitem : ∀ row ∈ added outcomes, row.jobId = jobId ∧ row.status = .pending := by
    intro row hrow
    obtain ⟨outcome, houtcome, hrow⟩ := List.mem_flatMap.mp hrow
    obtain ⟨new, rfl⟩ := hall.complete outcome houtcome
    obtain rfl : row = new := List.mem_singleton.mp hrow
    obtain ⟨n, hn, hget⟩ := List.mem_iff_getElem.mp houtcome
    have hlength := h.items.length_eq
    have hitem := h.items.get (i := n) (by omega) hn row hget
    exact ⟨hitem.jobId, hitem.status⟩
  have hselect : (t.items.select fun row => row.jobId = jobId && row.status = .pending) =
      added outcomes := by
    unfold KeyedTable.select
    rw [h.rows, List.filter_append, List.filter_eq_nil_iff.mpr, List.nil_append,
      List.filter_eq_self.mpr]
    · intro row hrow
      simp [hitem row hrow]
    · intro row hrow
      simp [hall.fresh row hrow]
  unfold pendingItems
  rw [hselect, (hall.sorted).insertionSort_eq]

/-- Each record has its row. -/
theorem forall₂_added {records : List PushImportRecord} {outcomes : List (Except String PushItemRow)}
    {P : PushImportRecord → PushItemRow → Prop}
    (h : List.Forall₂ (fun record outcome => ∀ row, outcome = .ok row → P record row) records outcomes)
    (hall : ∀ outcome ∈ outcomes, ∃ row, outcome = .ok row) :
    List.Forall₂ P records (added outcomes) := by
  induction h with
  | nil => exact .nil
  | cons hhead _ ih =>
    rw [List.forall_mem_cons] at hall
    obtain ⟨⟨row, rfl⟩, htail⟩ := hall
    exact .cons (hhead row rfl) (ih htail)

theorem errorsOf_recordResults {outcomes : List (Except String PushItemRow)}
    (h : ∀ outcome ∈ outcomes, ∃ row, outcome = .ok row) (first : Nat) :
    errorsOf (recordResults first outcomes) = [] := by
  induction outcomes generalizing first with
  | nil => rfl
  | cons outcome outcomes ih =>
    rw [List.forall_mem_cons] at h
    obtain ⟨⟨row, rfl⟩, htail⟩ := h
    exact ih htail (first + 1)

/-- What an import leaves when every record could be written. -/
theorem pending_of_imports {records : List PushImportRecord} {job : PushJobRow}
    {outcomes : List (Except String PushItemRow)} {result : Except String (String × ImportSummary)}
    (hsendable : ∀ record ∈ records, record.Sendable toText serde)
    (h : Imports toText (records.map PushImportRecord.trimmed) jobId job outcomes db result t)
    (hall : ImportsAll (records.map PushImportRecord.trimmed) jobId outcomes db result) :
    result = .ok (jobId, ⟨records.length, records.length, 0, []⟩) ∧
      (t.jobs.find? jobId).map PushJobRow.totalItems = some (asI64 records.length) ∧
      List.Forall₂ (IsPendingOf serde) records (pendingItems t jobId) := by
  have hitems := List.forall₂_map_left_iff.mp (forall₂_added h.items hall.complete)
  rw [← and_assoc]
  constructor
  · obtain ⟨found, hok⟩ := hall.ok
    obtain ⟨summary, hresult, hsummary, hjob⟩ | ⟨e, he, -⟩ := h.result
    · constructor
      · obtain ⟨htotal, hsuccess, hfailed, herrors⟩ := hsummary
        rw [errorsOf_recordResults hall.complete] at herrors
        rw [List.length_map] at htotal
        rw [← hitems.length_eq] at hsuccess
        obtain ⟨total, success, failed, errors⟩ := summary
        simp only at htotal hsuccess hfailed herrors
        obtain rfl : failed = 0 := by omega
        rw [hresult, htotal, hsuccess, herrors]
      · rw [List.length_map] at hjob
        rw [h.stored, Option.map_some, hjob]
    · exact nomatch hok.symm.trans he
  · rw [pendingItems_imports h hall, List.forall₂_map_right_iff]
    refine List.Forall₂.imp ?_ ((List.forall₂_and_left _ _).mpr ⟨hsendable, hitems⟩)
    exact fun record row hrow => isPendingOf_toPending hrow.1 hrow.2

/-- A file of records that can be sent goes to the import. -/
theorem pushImport_pushesCsv {records : List PushImportRecord}
    (h : ∀ record ∈ records, record.Writable ∧ record.Own) (eol : LineEnd) (path : String) :
    pushImport toText path (.ok (pushesCsv eol records)) =
      importPushes toText "csv" path (records.map PushImportRecord.trimmed) := by
  unfold pushImport
  rw [parsePushesCsv_ok, csvRows_pushesCsv fun record hrecord => (h record hrecord).1,
    (parseRows_rows (fun record hrecord => (h record hrecord).1) 2).1
      fun record hrecord => (h record hrecord).2]

/-- Records that are written to a CSV file and imported while storage works, and
the clock does not go back, are the items that the new job reads, in their order
and with their targets, and the total of the job is their number. -/
theorem pushImport_pending {records : List PushImportRecord}
    (hwritable : ∀ record ∈ records, record.Writable ∧ record.Own)
    (hsendable : ∀ record ∈ records, record.Sendable toText serde) (eol : LineEnd) (path : String)
    {fs : Nat → Outcome}
    (hclean : Along ImportCall.handle Clean (pushImport toText path (.ok (pushesCsv eol records)))
      fs db) :
    let (result, t) := (pushImport toText path (.ok (pushesCsv eol records))).play
      ImportCall.handle fs db
    ∃ jobId, result = .ok (jobId, ⟨records.length, records.length, 0, []⟩) ∧
      db.jobs.find? jobId = none ∧
      (t.jobs.find? jobId).map PushJobRow.totalItems = some (asI64 records.length) ∧
      List.Forall₂ (IsPendingOf serde) records (pendingItems t jobId) := by
  rw [pushImport_pushesCsv hwritable] at hclean ⊢
  have himportable : ∀ record ∈ records.map PushImportRecord.trimmed, Importable toText record := by
    intro _ hmem
    obtain ⟨record, hrecord, rfl⟩ := List.mem_map.mp hmem
    exact (hsendable record hrecord).importable
  have hpost := post_of_along (wpi_importPushes toText _ "csv" path _ db) hclean
  generalize (importPushes toText "csv" path (records.map PushImportRecord.trimmed)).play
    ImportCall.handle fs db = left at hpost ⊢
  obtain ⟨result, t⟩ := left
  obtain ⟨-, -, hnot⟩ | ⟨jobId, job, outcomes, himports, hall⟩ := hpost
  · exact absurd (fun _ _ _ h => h) hnot
  · obtain ⟨hresult, hpending⟩ :=
      pending_of_imports hsendable himports (hall (fun _ _ _ h => h) himportable)
    exact ⟨jobId, hresult, himports.new, hpending⟩

/-- A database without rows. -/
def noRows : Database where
  projects := KeyedTable.empty
  targets := KeyedTable.empty
  bindings := KeyedTable.empty
  jobs := KeyedTable.empty
  items := KeyedTable.empty
  outbox := KeyedTable.empty
  audit := []
  enqueued := []
  held := []

theorem greetAlice_pending :
    ∃ jobId, ((pushImport (fun targets => .ok (targetsText targets)) "pushes.csv"
        (.ok (pushesCsv .newline [greetAlice]))).play ImportCall.handle drawing noRows).1 =
          .ok (jobId, ⟨1, 1, 0, []⟩) ∧
      noRows.jobs.find? jobId = none ∧
      (((pushImport (fun targets => .ok (targetsText targets)) "pushes.csv"
        (.ok (pushesCsv .newline [greetAlice]))).play ImportCall.handle drawing noRows).2.jobs.find?
          jobId).map PushJobRow.totalItems = some 1 ∧
      List.Forall₂ (IsPendingOf (serdeReading [[namedAlice]])) [greetAlice]
        (pendingItems ((pushImport (fun targets => .ok (targetsText targets)) "pushes.csv"
          (.ok (pushesCsv .newline [greetAlice]))).play ImportCall.handle drawing noRows).2 jobId) :=
  have hwritable : ∀ record ∈ [greetAlice], record.Writable ∧ record.Own :=
    List.forall_mem_singleton.mpr
      ⟨writable_greetAlice, List.forall_mem_singleton.mpr (by decide +kernel)⟩
  have hsendable : ∀ record ∈ [greetAlice], record.Sendable (fun targets => .ok (targetsText targets))
      (serdeReading [[namedAlice]]) :=
    List.forall_mem_singleton.mpr ⟨by decide +kernel, _, rfl, by decide +kernel⟩
  pushImport_pending hwritable hsendable .newline "pushes.csv"
    (by rw [pushImport_pushesCsv hwritable]; decide +kernel)

end MagicLaw.Push
