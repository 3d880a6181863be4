import MagicLaw.Audit.Log
import MagicLaw.Lib.Machine
import MagicLaw.Lib.Sha256

/-!
# Which sequences of audit writes keep the log verified

Three questions about whole sequences of writes, each answered exactly.

* Writes through both writers, all statements working
  (`mixed_writes_verified_iff`): the check passes when no write went through
  `write_audit`, whose rows carry no hash.
* Writes through the sink with failing statements
  (`faulty_records_verified_iff`): the check passes when no entry was
  inserted into a nonempty log after its head query had failed.
* Writes through the sink after the migration of an old log
  (`migrated_verified_iff`): the check passes when the old log was empty.

Each answer is `Lib.Machine.good_iff_everyStep` for the effect of one write.
-/

namespace MagicLaw.Audit

open Lib.Machine

/-- What a caller wants recorded, and the time at which it happens. -/
structure Entry where
  routeKey : Option String
  action : String
  result : String
  now : Int64

/-- `record` where every statement works. -/
def recordEntry (sha256 : Sha256) (log : AuditLog) (e : Entry) : AuditLog :=
  record sha256 (.working e.now) log e.routeKey e.action e.result

@[simp] theorem verified_recordEntry (sha256 : Sha256) (log : AuditLog) (e : Entry) :
    Verified sha256 (recordEntry sha256 log e) ↔ Verified sha256 log := by
  simp only [recordEntry, record, RecordEnv.working, verified_insertEntry, readHead_ok, and_true]

/-! ## Both writers -/

/-- One audit write, through the sink or through `write_audit`. -/
inductive AuditWrite where
  | viaSink (e : Entry)
  | viaWriteAudit (e : Entry)

def AuditWrite.isViaSink : AuditWrite → Bool
  | .viaSink _ => true
  | .viaWriteAudit _ => false

/-- The log after one write, all statements working. -/
def AuditWrite.apply (sha256 : Sha256) (log : AuditLog) : AuditWrite → AuditLog
  | .viaSink e => recordEntry sha256 log e
  | .viaWriteAudit e => (writeAudit (.ok ()) e.now log e.routeKey e.action e.result).2

theorem verified_apply (sha256 : Sha256) (log : AuditLog) (w : AuditWrite) :
    Verified sha256 (w.apply sha256 log) ↔ Verified sha256 log ∧ w.isViaSink = true := by
  cases w with
  | viaSink e => simp [AuditWrite.apply, AuditWrite.isViaSink]
  | viaWriteAudit e =>
    have := not_verified_writeAudit sha256 e.now log e.routeKey e.action e.result
    simp [AuditWrite.apply, AuditWrite.isViaSink, this]

/-- A mixture of writes into an empty log verifies exactly when none of them
went through `write_audit`. -/
theorem mixed_writes_verified_iff (sha256 : Sha256) (writes : List AuditWrite) :
    Verified sha256 (writes.foldl (AuditWrite.apply sha256) AuditLog.empty) ↔
      ∀ w ∈ writes, w.isViaSink = true := by
  have hrun := run_total (AuditWrite.apply sha256) AuditLog.empty writes
  have hstep : ∀ log w next, total (AuditWrite.apply sha256) log w = some next →
      (Verified sha256 next ↔ Verified sha256 log ∧ w.isViaSink = true) := by
    intro log w _ h
    cases h
    exact verified_apply sha256 log w
  rw [good_iff_everyStep hstep hrun, everyStep_iff_forall_mem hrun,
    and_iff_right (verified_empty sha256)]

/-- Everything the program writes to the audit log verifies. -/
def EveryMixtureVerifies (sha256 : Sha256) : Prop :=
  ∀ writes : List AuditWrite,
    Verified sha256 (writes.foldl (AuditWrite.apply sha256) AuditLog.empty)

/-- It does not: the entry that `run_push_job` writes for a queued item is
enough. -/
theorem not_everyMixtureVerifies : ¬ EveryMixtureVerifies Lib.Sha256.digest := by
  intro h
  have := h [.viaWriteAudit ⟨some "demo", "project_push", "queued broadcast (1 targets)",
    1700000000⟩]
  exact absurd this (by decide)

/-! ## Failing statements -/

/-- One call of `record`, with what its statements meet. -/
structure RecordCall where
  env : RecordEnv
  routeKey : Option String
  action : String
  result : String

/-- The log after one call. -/
def RecordCall.apply (sha256 : Sha256) (log : AuditLog) (c : RecordCall) : AuditLog :=
  record sha256 c.env log c.routeKey c.action c.result

/-- The call inserts an entry after its head query has failed, although the
log has a head. -/
def LosesHead (log : AuditLog) (c : RecordCall) : Prop :=
  (∃ e, c.env.head = .error e) ∧ c.env.insert = .ok () ∧ log.rows ≠ []

theorem verified_recordCall (sha256 : Sha256) (log : AuditLog) (c : RecordCall) :
    Verified sha256 (c.apply sha256 log) ↔ Verified sha256 log ∧ ¬ LosesHead log c := by
  unfold LosesHead RecordCall.apply record
  cases hinsert : c.env.insert with
  | error e => simp
  | ok =>
    simp only [verified_insertEntry]
    refine and_congr_right fun hverified => ?_
    cases hhead : c.env.head with
    | ok u =>
      have hread : readHead (.ok u) log = log.lastHash := readHead_ok log
      simp [hread]
    | error e =>
      rw [readHead_error, eq_comm, lastHash_eq_none_iff_of_verified hverified]
      simp

/-- A sequence of `record` calls into an empty log verifies exactly when no
call of it inserted an entry into a nonempty log after its head query had
failed. -/
theorem faulty_records_verified_iff (sha256 : Sha256) (calls : List RecordCall) :
    Verified sha256 (calls.foldl (RecordCall.apply sha256) AuditLog.empty) ↔
      EveryStep (total (RecordCall.apply sha256)) (fun log c => ¬ LosesHead log c)
        AuditLog.empty calls := by
  have hrun := run_total (RecordCall.apply sha256) AuditLog.empty calls
  have hstep : ∀ log c next, total (RecordCall.apply sha256) log c = some next →
      (Verified sha256 next ↔ Verified sha256 log ∧ ¬ LosesHead log c) := by
    intro log c _ h
    cases h
    exact verified_recordCall sha256 log c
  rw [good_iff_everyStep hstep hrun, and_iff_right (verified_empty sha256)]

/-- A failing statement loses at most its own entry and never breaks the
chain. -/
def FaultsKeepChain (sha256 : Sha256) : Prop :=
  ∀ calls : List RecordCall,
    Verified sha256 (calls.foldl (RecordCall.apply sha256) AuditLog.empty)

/-- It does break the chain: the second entry is inserted as if it were the
first one when only its head query fails. -/
theorem not_faultsKeepChain : ¬ FaultsKeepChain Lib.Sha256.digest := by
  intro h
  have := h [
    ⟨.working 1700000000, some "wechat/c1", "send", "sent"⟩,
    ⟨{ RecordEnv.working 1700000001 with head := .error "database is locked" },
      some "wechat/c1", "send", "sent"⟩]
  exact absurd this (by decide +kernel)

/-! ## After the migration -/

theorem verified_initDb (sha256 : Sha256) (legacy : LegacyLog) :
    Verified sha256 (initDb legacy) ↔ legacy.rows = [] := by
  rw [verified_iff]
  show (∃ rows, decodeRows (legacy.rows.map LegacyRow.addColumns) = .ok rows ∧ _) ↔ _
  cases legacy.rows with
  | nil => exact iff_of_true ⟨[], rfl, rfl⟩ rfl
  | cons row rows => simp [decodeRows, AuditRow.decode, LegacyRow.addColumns]

/-- After the migration of an old log and any number of `record` calls, the
check passes exactly when the old log had no row. -/
theorem migrated_verified_iff (sha256 : Sha256) (legacy : LegacyLog) (entries : List Entry) :
    Verified sha256 (entries.foldl (recordEntry sha256) (initDb legacy)) ↔
      legacy.rows = [] := by
  have hrun := run_total (recordEntry sha256) (initDb legacy) entries
  have hstep : ∀ log e next, total (recordEntry sha256) log e = some next →
      (Verified sha256 next ↔ Verified sha256 log ∧ True) := by
    intro log e _ h
    cases h
    rw [verified_recordEntry, and_true]
  rw [good_iff_everyStep hstep hrun, everyStep_iff_forall_mem hrun, verified_initDb]
  simp

/-- The chain starts at the first row written after the migration. -/
def MigrationStartsChain (sha256 : Sha256) : Prop :=
  ∀ (legacy : LegacyLog) (entries : List Entry),
    Verified sha256 (entries.foldl (recordEntry sha256) (initDb legacy))

/-- It does not: one old row is enough for the check to fail. -/
theorem not_migrationStartsChain : ¬ MigrationStartsChain Lib.Sha256.digest := by
  intro h
  have := h ⟨[⟨1, some "wechat/c1", "send", "sent", 1700000000⟩], 1, by decide, by decide⟩
    [⟨some "wechat/c1", "send", "sent", 1700000001⟩]
  exact absurd this (by decide +kernel)

end MagicLaw.Audit
