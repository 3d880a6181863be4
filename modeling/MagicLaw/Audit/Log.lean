import MagicLaw.Audit.Chain

/-!
# The audit log table and its writers

The `audit_log` table of `infrastructure/db.rs`, the two writers that append
to it (`SqliteAuditSink::record` of `adapters/sqlite_audit.rs` and
`write_audit` of `application/audit.rs`), the startup check `verify_chain`,
and the migration of a table that was created before the hash columns.

A SQL statement that can fail is an `Except` argument: the error text when it
fails, and what it yields otherwise.

`verified_insertRow` is the fact that every result about the log uses: one
more row keeps the log verified exactly when it names the hash of the last
row and carries its own hash.
-/

namespace MagicLaw.Audit

open Lib.HashChain

/-! ## The table -/

/-- A row of `audit_log`.  The hash columns may be NULL. -/
structure AuditRow where
  id : Int
  routeKey : Option String
  action : String
  result : String
  createdAt : Int64
  prevHash : Option String
  entryHash : Option String
  deriving DecidableEq

/-- The `audit_log` table: the rows in the order of their ids, and the
`AUTOINCREMENT` counter, which no id exceeds. -/
structure AuditLog where
  rows : List AuditRow
  seq : Int
  ascending : (rows.map AuditRow.id).Pairwise (· < ·)
  bounded : ∀ row ∈ rows, row.id ≤ seq

/-- The table that `init_db` creates. -/
def AuditLog.empty : AuditLog where
  rows := []
  seq := 0
  ascending := List.Pairwise.nil
  bounded := by simp

/-- `INSERT INTO audit_log`: the row gets the next id. -/
def AuditLog.insertRow (log : AuditLog) (routeKey : Option String) (action result : String)
    (createdAt : Int64) (prevHash entryHash : Option String) : AuditLog where
  rows := log.rows ++ [⟨log.seq + 1, routeKey, action, result, createdAt, prevHash, entryHash⟩]
  seq := log.seq + 1
  ascending := by
    rw [List.map_append, List.pairwise_append]
    refine ⟨log.ascending, by simp, ?_⟩
    intro id hid new hnew
    obtain ⟨row, hrow, rfl⟩ := List.mem_map.mp hid
    have := log.bounded row hrow
    simp only [List.map_singleton, List.mem_singleton] at hnew
    omega
  bounded := by
    intro row hrow
    rcases List.mem_append.mp hrow with hold | hnew
    · have := log.bounded row hold
      omega
    · have : row.id = log.seq + 1 := by rw [List.mem_singleton.mp hnew]
      omega

/-- The `entry_hash` of the last row, if there is a row and it has one. -/
def AuditLog.lastHash (log : AuditLog) : Option String :=
  log.rows.getLast?.bind AuditRow.entryHash

/-! ## `SqliteAuditSink::record` -/

/-- `SELECT entry_hash FROM audit_log ORDER BY id DESC LIMIT 1`.  The error of
an empty table is `QueryReturnedNoRows`. -/
def AuditLog.selectHead (log : AuditLog) : Except String (Option String) :=
  match log.rows.getLast? with
  | none => .error "Query returned no rows"
  | some row => .ok row.entryHash

/-- What the statements of one `record` call meet: whether the head query
fails, what SQLite's clock yields, what `chrono` reads when it yields nothing,
and whether the insert fails. -/
structure RecordEnv where
  head : Except String Unit
  clock : Except String Int64
  chronoNow : Int64
  insert : Except String Unit

/-- Every statement works, and the clock shows `now`. -/
def RecordEnv.working (now : Int64) : RecordEnv := ⟨.ok (), .ok now, now, .ok ()⟩

/-- The head that `record` goes on with: `unwrap_or(None)` turns a failed
query into an absent predecessor. -/
def readHead (head : Except String Unit) (log : AuditLog) : Option String :=
  match head with
  | .error _ => none
  | .ok () => log.selectHead.toOption.getD none

/-- The timestamp of the entry, from SQLite or else from `chrono`. -/
def readClock (env : RecordEnv) : Int64 :=
  match env.clock with
  | .ok now => now
  | .error _ => env.chronoNow

/-- The insert of `record`, for the head and the timestamp already read. -/
def insertEntry (sha256 : Sha256) (log : AuditLog) (routeKey : Option String)
    (action result : String) (prevHash : Option String) (now : Int64) : AuditLog :=
  let entryHash :=
    computeEntryHash sha256 (prevHash.getD "") (routeKey.getD "") action result now
  log.insertRow routeKey action result now prevHash (some entryHash)

/-- `SqliteAuditSink::record`.  A failed insert is logged and dropped. -/
def record (sha256 : Sha256) (env : RecordEnv) (log : AuditLog)
    (routeKey : Option String) (action result : String) : AuditLog :=
  let prevHash := readHead env.head log
  let now := readClock env
  match env.insert with
  | .error _ => log
  | .ok () => insertEntry sha256 log routeKey action result prevHash now

/-! ## `write_audit` -/

/-- `write_audit`: an insert that leaves the hash columns NULL. -/
def writeAudit (insert : Except String Unit) (unixepoch : Int64) (log : AuditLog)
    (routeKey : Option String) (action result : String) : Except String Unit × AuditLog :=
  match insert with
  | .error e => (.error s!"audit write error: {e}", log)
  | .ok () => (.ok (), log.insertRow routeKey action result unixepoch none none)

/-! ## `verify_chain` -/

/-- The decoding of one row.  `entry_hash` is read into a `String`, so a NULL
there is an error. -/
def AuditRow.decode (row : AuditRow) : Except String ChainRow :=
  match row.entryHash with
  | none => .error "Invalid column type Null at index: 2, name: entry_hash"
  | some entryHash =>
    .ok ⟨row.id, row.prevHash, entryHash, row.routeKey, row.action, row.result, row.createdAt⟩

/-- The loop that decodes the rows up to the first error. -/
def decodeRows : List AuditRow → Except String (List ChainRow)
  | [] => .ok []
  | row :: rows =>
    match row.decode, decodeRows rows with
    | .error e, _ => .error e
    | .ok _, .error e => .error e
    | .ok r, .ok rs => .ok (r :: rs)

/-- `verify_chain`: a failed query is reported as a head mismatch at id 0. -/
def verifyChain (sha256 : Sha256) (log : AuditLog) : Except ChainError (Option String) :=
  match decodeRows log.rows with
  | .error e => .error (.headMismatch 0 none (some e))
  | .ok rows => verify sha256 rows

/-- The startup check passes. -/
def Verified (sha256 : Sha256) (log : AuditLog) : Prop :=
  (verifyChain sha256 log).isOk

instance (sha256 : Sha256) (log : AuditLog) : Decidable (Verified sha256 log) :=
  inferInstanceAs (Decidable (_ = true))

/-! ## The migration -/

/-- A row of an `audit_log` without hash columns. -/
structure LegacyRow where
  id : Int
  routeKey : Option String
  action : String
  result : String
  createdAt : Int64

/-- An `audit_log` that was created before the hash columns. -/
structure LegacyLog where
  rows : List LegacyRow
  seq : Int
  ascending : (rows.map LegacyRow.id).Pairwise (· < ·)
  bounded : ∀ row ∈ rows, row.id ≤ seq

/-- `ALTER TABLE audit_log ADD COLUMN`, twice: NULL in every row. -/
def LegacyRow.addColumns (row : LegacyRow) : AuditRow :=
  ⟨row.id, row.routeKey, row.action, row.result, row.createdAt, none, none⟩

/-- `init_db` on an existing table: the columns are added and the rows are
not backfilled. -/
def initDb (legacy : LegacyLog) : AuditLog where
  rows := legacy.rows.map LegacyRow.addColumns
  seq := legacy.seq
  ascending := by
    rw [List.map_map]
    exact legacy.ascending
  bounded := by
    intro row hrow
    obtain ⟨old, hold, rfl⟩ := List.mem_map.mp hrow
    exact legacy.bounded old hold

/-! ## What one more row does to the check -/

theorem decodeRows_concat (rows : List AuditRow) (row : AuditRow) :
    decodeRows (rows ++ [row]) =
      match decodeRows rows, row.decode with
      | .error e, _ => .error e
      | .ok _, .error e => .error e
      | .ok rs, .ok r => .ok (rs ++ [r]) := by
  induction rows with
  | nil =>
    rw [List.nil_append, decodeRows, decodeRows]
    cases row.decode <;> rfl
  | cons r rows ih =>
    rw [List.cons_append, decodeRows, ih, decodeRows]
    cases r.decode <;> cases decodeRows rows <;> cases row.decode <;> rfl

/-- The head of the decoded rows is the hash of the last row. -/
theorem headHash_of_decodeRows {rows : List AuditRow} {decoded : List ChainRow}
    (h : decodeRows rows = .ok decoded) :
    headHash decoded = rows.getLast?.bind AuditRow.entryHash := by
  cases rows using List.reverseRecOn with
  | nil =>
    cases h
    rfl
  | append_singleton rows row =>
    rw [decodeRows_concat] at h
    rw [List.getLast?_concat]
    cases hrows : decodeRows rows with
    | error e => simp [hrows] at h
    | ok rs =>
      cases hash : row.entryHash with
      | none => simp [hrows, AuditRow.decode, hash] at h
      | some entryHash =>
        simp only [hrows, AuditRow.decode, hash, Except.ok.injEq] at h
        subst h
        rw [headHash, List.map_append, head_append]
        exact hash.symm

theorem verified_iff (sha256 : Sha256) (log : AuditLog) :
    Verified sha256 log ↔ ∃ rows, decodeRows log.rows = .ok rows ∧ Accepted sha256 rows := by
  unfold Verified verifyChain Accepted
  cases decodeRows log.rows with
  | error e => simp [Except.isOk, Except.toBool]
  | ok rows => simp

@[simp] theorem verified_empty (sha256 : Sha256) : Verified sha256 AuditLog.empty := by
  rw [verified_iff]
  exact ⟨[], rfl, rfl⟩

/-- One more row keeps the log verified exactly when it names the hash of the
last row and carries its own hash. -/
theorem verified_insertRow (sha256 : Sha256) (log : AuditLog) (routeKey : Option String)
    (action result : String) (createdAt : Int64) (prevHash entryHash : Option String) :
    Verified sha256 (log.insertRow routeKey action result createdAt prevHash entryHash) ↔
      Verified sha256 log ∧ prevHash = log.lastHash ∧
        entryHash = some (computeEntryHash sha256 (prevHash.getD "") (routeKey.getD "")
          action result createdAt) := by
  rw [verified_iff, verified_iff, AuditLog.insertRow, decodeRows_concat]
  cases hrows : decodeRows log.rows with
  | error e => simp
  | ok rs =>
    have hhead : headHash rs = log.lastHash := headHash_of_decodeRows hrows
    cases entryHash with
    | none => simp [AuditRow.decode]
    | some hash =>
      simp [AuditRow.decode, accepted_concat, ChainRow.computed, hhead]

/-- A verified log that is not empty has a head. -/
theorem lastHash_isSome_of_verified {sha256 : Sha256} {log : AuditLog}
    (h : Verified sha256 log) (hne : log.rows ≠ []) : log.lastHash.isSome := by
  obtain ⟨rows, hrows, _⟩ := (verified_iff sha256 log).mp h
  obtain ⟨init, row, hlast⟩ := (List.eq_nil_or_concat' log.rows).resolve_left hne
  rw [hlast, decodeRows_concat] at hrows
  rw [AuditLog.lastHash, hlast, List.getLast?_concat]
  cases hash : row.entryHash with
  | some entryHash => simp [hash]
  | none =>
    cases hinit : decodeRows init <;> simp [hinit, AuditRow.decode, hash] at hrows

theorem lastHash_eq_none_iff_of_verified {sha256 : Sha256} {log : AuditLog}
    (h : Verified sha256 log) : log.lastHash = none ↔ log.rows = [] := by
  constructor
  · intro hnone
    by_contra hne
    have := lastHash_isSome_of_verified h hne
    rw [hnone] at this
    simp at this
  · intro hnil
    rw [AuditLog.lastHash, hnil]
    rfl

/-- A query that works yields the hash of the last row, and the error of an
empty table becomes the absent predecessor that the first row needs. -/
theorem readHead_ok (log : AuditLog) : readHead (.ok ()) log = log.lastHash := by
  rw [readHead, AuditLog.selectHead, AuditLog.lastHash]
  cases log.rows.getLast? <;> rfl

theorem readHead_error (e : String) (log : AuditLog) : readHead (.error e) log = none := rfl

/-- The insert of `record` keeps the log verified exactly when the head it
was given is the hash of the last row. -/
theorem verified_insertEntry (sha256 : Sha256) (log : AuditLog) (routeKey : Option String)
    (action result : String) (prevHash : Option String) (now : Int64) :
    Verified sha256 (insertEntry sha256 log routeKey action result prevHash now) ↔
      Verified sha256 log ∧ prevHash = log.lastHash := by
  rw [insertEntry, verified_insertRow]
  simp

/-- The row of `write_audit` never verifies. -/
theorem not_verified_writeAudit (sha256 : Sha256) (unixepoch : Int64) (log : AuditLog)
    (routeKey : Option String) (action result : String) :
    ¬ Verified sha256 (writeAudit (.ok ()) unixepoch log routeKey action result).2 := by
  rw [writeAudit, verified_insertRow]
  simp

end MagicLaw.Audit
