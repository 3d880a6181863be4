import MagicLaw.Audit.Log
import MagicLaw.Lib.Machine
import MagicLaw.Lib.Sha256

/-!
# Concurrent audit writes

`SqliteAuditSink::record` runs inside `DbPool::execute`: it waits for a pooled
connection, reads the chain head, reads the clock, inserts its row and gives
the connection back.  Every SQL statement is atomic, and nothing keeps the
statements of two calls apart, so the model is a machine whose actions move
one call from one statement to the next.

* `concurrent_records_verified_iff`: after a run the log verifies exactly when
  every insert of the run found the head that its call had read still in
  place.
* `single_connection_verified`: a pool with one connection serialises the
  calls, and every run of it keeps the log verified.
-/

namespace MagicLaw.Audit

open Lib.Machine

/-! ## The calls and the pool -/

/-- How far a call of `record` is. -/
inductive RecordPc where
  /-- waits in `with_conn` for a connection -/
  | waiting
  /-- has a connection, before the head query -/
  | connected
  | headRead (prevHash : Option String)
  | clockRead (prevHash : Option String) (now : Int64)
  /-- the row is inserted, the connection not yet given back -/
  | inserted
  | finished

/-- One call of `record`. -/
structure RecordTask where
  routeKey : Option String
  action : String
  result : String
  pc : RecordPc

/-- The table, the number of idle connections of the pool, and the calls that
have been made so far. -/
structure AuditDb where
  log : AuditLog
  free : Nat
  tasks : List RecordTask

/-- A pool of `capacity` connections over an empty table. -/
def AuditDb.init (capacity : Nat) : AuditDb := ⟨AuditLog.empty, capacity, []⟩

/-- The next statement of a call.  A call that waits goes on when a connection
is idle. -/
def RecordTask.advance (sha256 : Sha256) (unixNow : Int64) (log : AuditLog) (free : Nat)
    (task : RecordTask) : Option (AuditLog × Nat × RecordPc) :=
  match task.pc with
  | .waiting => if 0 < free then some (log, free - 1, .connected) else none
  | .connected => some (log, free, .headRead (readHead (.ok ()) log))
  | .headRead prevHash => some (log, free, .clockRead prevHash unixNow)
  | .clockRead prevHash now =>
    some (insertEntry sha256 log task.routeKey task.action task.result prevHash now,
      free, .inserted)
  | .inserted => some (log, free + 1, .finished)
  | .finished => none

inductive AuditAction where
  /-- some thread calls `record` -/
  | call (routeKey : Option String) (action result : String)
  /-- the call with this number runs its next statement; the clock shows
  `unixNow` -/
  | advance (i : Nat) (unixNow : Int64)

def AuditDb.step (sha256 : Sha256) (db : AuditDb) : AuditAction → Option AuditDb
  | .call routeKey action result =>
    some { db with tasks := db.tasks ++ [⟨routeKey, action, result, .waiting⟩] }
  | .advance i unixNow =>
    match db.tasks[i]? with
    | none => none
    | some task =>
      match task.advance sha256 unixNow db.log db.free with
      | none => none
      | some (log, free, pc) =>
        some ⟨log, free, db.tasks.set i { task with pc := pc }⟩

theorem step_advance_eq_some {sha256 : Sha256} {db db' : AuditDb} {i : Nat} {unixNow : Int64}
    (h : db.step sha256 (.advance i unixNow) = some db') :
    ∃ task log free pc, db.tasks[i]? = some task ∧
      task.advance sha256 unixNow db.log db.free = some (log, free, pc) ∧
      db' = ⟨log, free, db.tasks.set i { task with pc := pc }⟩ := by
  unfold AuditDb.step at h
  cases htask : db.tasks[i]? with
  | none => simp [htask] at h
  | some task =>
    cases hadv : task.advance sha256 unixNow db.log db.free with
    | none => simp [htask, hadv] at h
    | some r =>
      obtain ⟨log, free, pc⟩ := r
      simp only [htask, hadv, Option.some.injEq] at h
      exact ⟨task, log, free, pc, rfl, hadv, h.symm⟩

/-! ## Any number of connections -/

/-- If the next statement of the call inserts its row, then the head that the
call has read is still the hash of the last row. -/
def RecordPc.HeadInPlace (log : AuditLog) : RecordPc → Prop
  | .clockRead prevHash _ => prevHash = log.lastHash
  | _ => True

instance (log : AuditLog) : (pc : RecordPc) → Decidable (pc.HeadInPlace log)
  | .clockRead prevHash _ => inferInstanceAs (Decidable (prevHash = log.lastHash))
  | .waiting | .connected | .headRead _ | .inserted | .finished => isTrue trivial

/-- The action inserts no row after the head has moved on. -/
def HeadInPlace (db : AuditDb) : AuditAction → Prop
  | .call _ _ _ => True
  | .advance i _ => ∀ task ∈ db.tasks[i]?, task.pc.HeadInPlace db.log

instance (db : AuditDb) : (a : AuditAction) → Decidable (HeadInPlace db a)
  | .call _ _ _ => isTrue trivial
  | .advance i _ => inferInstanceAs (Decidable (∀ task ∈ db.tasks[i]?, task.pc.HeadInPlace db.log))

theorem verified_advance (sha256 : Sha256) {unixNow : Int64} {log log' : AuditLog}
    {free free' : Nat} {task : RecordTask} {pc : RecordPc}
    (h : task.advance sha256 unixNow log free = some (log', free', pc)) :
    Verified sha256 log' ↔ Verified sha256 log ∧ task.pc.HeadInPlace log := by
  unfold RecordTask.advance at h
  cases hpc : task.pc with
  | clockRead prevHash now =>
    simp only [hpc, Option.some.injEq, Prod.mk.injEq] at h
    rw [← h.1]
    exact verified_insertEntry _ _ _ _ _ _ _
  | waiting =>
    by_cases hfree : 0 < free
    · simp only [hpc, hfree, if_true, Option.some.injEq, Prod.mk.injEq] at h
      simp [h.1, RecordPc.HeadInPlace]
    · simp [hpc, hfree] at h
  | finished => simp [hpc] at h
  | connected | headRead prevHash | inserted =>
    simp only [hpc, Option.some.injEq, Prod.mk.injEq] at h
    simp [h.1, RecordPc.HeadInPlace]

theorem verified_step (sha256 : Sha256) (db : AuditDb) (a : AuditAction) (db' : AuditDb)
    (h : db.step sha256 a = some db') :
    Verified sha256 db'.log ↔ Verified sha256 db.log ∧ HeadInPlace db a := by
  cases a with
  | call routeKey action result =>
    cases h
    simp [HeadInPlace]
  | advance i unixNow =>
    obtain ⟨task, log, free, pc, htask, hadv, rfl⟩ := step_advance_eq_some h
    rw [verified_advance sha256 hadv, HeadInPlace, htask]
    simp

/-- After a run of concurrent calls the log verifies exactly when every insert
of the run found the head that its call had read still in place. -/
theorem concurrent_records_verified_iff (sha256 : Sha256) (capacity : Nat)
    {actions : List AuditAction} {db : AuditDb}
    (hrun : run (AuditDb.step sha256) (AuditDb.init capacity) actions = some db) :
    Verified sha256 db.log ↔
      EveryStep (AuditDb.step sha256) HeadInPlace (AuditDb.init capacity) actions := by
  rw [good_iff_everyStep (verified_step sha256) hrun]
  exact and_iff_right (verified_empty sha256)

/-- Two calls that hold a connection at the same time, the second one reading
the head after the insert of the first. -/
def overlapInTurn : List AuditAction :=
  [.call (some "wechat/c1") "send" "sent", .call (some "wechat/c1") "send" "sent",
    .advance 0 0, .advance 1 0, .advance 0 0, .advance 0 1700000000, .advance 0 0,
    .advance 1 0, .advance 1 1700000001, .advance 1 0]

theorem overlapInTurn_verified :
    Verified Lib.Sha256.digest ((run (AuditDb.step Lib.Sha256.digest) (AuditDb.init 2)
      overlapInTurn).get (by decide +kernel)).log :=
  (concurrent_records_verified_iff Lib.Sha256.digest 2 (Option.some_get _).symm).mpr
    (by decide +kernel)

/-- However the statements of concurrent calls interleave, the log verifies. -/
def EveryInterleavingVerifies (sha256 : Sha256) : Prop :=
  ∀ (capacity : Nat) (actions : List AuditAction) (db : AuditDb),
    run (AuditDb.step sha256) (AuditDb.init capacity) actions = some db →
    Verified sha256 db.log

/-- It does not: two calls that both read the head before one of them inserts
fork the chain. -/
theorem not_everyInterleavingVerifies : ¬ EveryInterleavingVerifies Lib.Sha256.digest := by
  intro h
  refine absurd (h 2
    [.call (some "wechat/c1") "send" "sent", .call (some "wechat/c2") "send" "sent",
      .advance 0 0, .advance 1 0, .advance 0 0, .advance 1 0,
      .advance 0 1700000000, .advance 1 1700000000, .advance 0 0, .advance 1 0]
    (Option.get _ ?_) (Option.some_get ?_).symm) ?_
  · decide +kernel
  · decide +kernel
  · decide +kernel

/-! ## One connection -/

/-- The call holds a connection. -/
def RecordPc.holdsConn : RecordPc → Bool
  | .waiting | .finished => false
  | .connected | .headRead _ | .clockRead _ _ | .inserted => true

/-- The head that the call has read and not yet used. -/
def RecordPc.head? : RecordPc → Option (Option String)
  | .headRead prevHash | .clockRead prevHash _ => some prevHash
  | .waiting | .connected | .inserted | .finished => none

/-- What one connection enforces: the calls take turns, and what the call that
holds the connection has read of the log is still so. -/
structure InTurn (db : AuditDb) : Prop where
  free_le : db.free ≤ 1
  free_eq : ∀ (i : Nat) (task : RecordTask), db.tasks[i]? = some task → task.pc.holdsConn → db.free = 0
  unique : ∀ (i j : Nat) (task task' : RecordTask), db.tasks[i]? = some task →
    db.tasks[j]? = some task' → task.pc.holdsConn → task'.pc.holdsConn → i = j
  head_eq : ∀ (i : Nat) (task : RecordTask), db.tasks[i]? = some task →
    ∀ prevHash ∈ task.pc.head?, prevHash = db.log.lastHash

theorem inTurn_init : InTurn (AuditDb.init 1) := by
  constructor <;> simp [AuditDb.init]

theorem holdsConn_of_head? {pc : RecordPc} {prevHash : Option String}
    (h : prevHash ∈ pc.head?) : pc.holdsConn := by
  cases pc <;> simp_all [RecordPc.head?, RecordPc.holdsConn]

/-- The other calls hold no connection while this one runs a statement. -/
theorem InTurn.others {sha256 : Sha256} {db : AuditDb} (hdb : InTurn db) {i : Nat}
    {task : RecordTask} (htask : db.tasks[i]? = some task) {unixNow : Int64}
    {r : AuditLog × Nat × RecordPc}
    (hadv : task.advance sha256 unixNow db.log db.free = some r)
    {j : Nat} {other : RecordTask} (hother : db.tasks[j]? = some other) (hj : j ≠ i) :
    ¬ other.pc.holdsConn := by
  intro hholds
  have hfree : db.free = 0 := hdb.free_eq j other hother hholds
  have hi : ¬ task.pc.holdsConn := fun hi => hj (hdb.unique j i other task hother htask hholds hi)
  unfold RecordTask.advance at hadv
  cases hpc : task.pc <;> simp_all [RecordPc.holdsConn]

/-- What the statement leaves for the call that ran it. -/
theorem RecordTask.advance_inTurn {sha256 : Sha256} {unixNow : Int64} {log log' : AuditLog}
    {free free' : Nat} {task : RecordTask} {pc : RecordPc}
    (h : task.advance sha256 unixNow log free = some (log', free', pc)) (hle : free ≤ 1)
    (hfree : task.pc.holdsConn → free = 0)
    (hhead : ∀ prevHash ∈ task.pc.head?, prevHash = log.lastHash) :
    free' ≤ 1 ∧ (pc.holdsConn → free' = 0) ∧ ∀ prevHash ∈ pc.head?, prevHash = log'.lastHash := by
  unfold RecordTask.advance at h
  cases hpc : task.pc with
  | waiting =>
    by_cases hpos : 0 < free
    · simp only [hpc, hpos, if_true, Option.some.injEq, Prod.mk.injEq] at h
      obtain ⟨-, rfl, rfl⟩ := h
      refine ⟨by omega, fun _ => by omega, by simp [RecordPc.head?]⟩
    · simp [hpc, hpos] at h
  | connected =>
    simp only [hpc, Option.some.injEq, Prod.mk.injEq] at h
    obtain ⟨rfl, rfl, rfl⟩ := h
    have h0 : free = 0 := hfree (by rw [hpc]; rfl)
    refine ⟨hle, fun _ => h0, ?_⟩
    simp [RecordPc.head?, readHead_ok]
  | headRead prevHash =>
    simp only [hpc, Option.some.injEq, Prod.mk.injEq] at h
    obtain ⟨rfl, rfl, rfl⟩ := h
    have h0 : free = 0 := hfree (by rw [hpc]; rfl)
    rw [hpc] at hhead
    exact ⟨hle, fun _ => h0, hhead⟩
  | clockRead prevHash now =>
    simp only [hpc, Option.some.injEq, Prod.mk.injEq] at h
    obtain ⟨-, rfl, rfl⟩ := h
    have h0 : free = 0 := hfree (by rw [hpc]; rfl)
    exact ⟨hle, fun _ => h0, by simp [RecordPc.head?]⟩
  | inserted =>
    simp only [hpc, Option.some.injEq, Prod.mk.injEq] at h
    obtain ⟨-, rfl, rfl⟩ := h
    have h0 : free = 0 := hfree (by rw [hpc]; rfl)
    exact ⟨by omega, by simp [RecordPc.holdsConn], by simp [RecordPc.head?]⟩
  | finished => simp [hpc] at h

theorem inTurn_step (sha256 : Sha256) (db : AuditDb) (a : AuditAction) (db' : AuditDb)
    (hdb : InTurn db) (h : db.step sha256 a = some db') : InTurn db' := by
  cases a with
  | call routeKey action result =>
    cases h
    have hold : ∀ (i : Nat) (task : RecordTask),
        (db.tasks ++ [⟨routeKey, action, result, .waiting⟩])[i]? = some task →
        task.pc.holdsConn → db.tasks[i]? = some task := by
      intro i task hi hholds
      rw [List.getElem?_append] at hi
      by_cases hlt : i < db.tasks.length
      · rwa [if_pos hlt] at hi
      · rw [if_neg hlt] at hi
        have := List.mem_singleton.mp (List.mem_of_getElem? hi)
        rw [this] at hholds
        exact absurd hholds (by simp [RecordPc.holdsConn])
    refine ⟨hdb.free_le, ?_, ?_, ?_⟩
    · intro i task hi hholds
      exact hdb.free_eq i task (hold i task hi hholds) hholds
    · intro i j task task' hi hj hholds hholds'
      exact hdb.unique i j task task' (hold i task hi hholds) (hold j task' hj hholds') hholds hholds'
    · intro i task hi prevHash hprev
      exact hdb.head_eq i task (hold i task hi (holdsConn_of_head? hprev)) prevHash hprev
  | advance i unixNow =>
    obtain ⟨task, log, free, pc, htask, hadv, rfl⟩ := step_advance_eq_some h
    obtain ⟨hle, hfree, hhead⟩ := RecordTask.advance_inTurn hadv hdb.free_le
      (hdb.free_eq i task htask) (hdb.head_eq i task htask)
    -- only the call that ran the statement can hold the connection afterwards
    have hself : ∀ (j : Nat) (t : RecordTask),
        (db.tasks.set i { task with pc := pc })[j]? = some t → t.pc.holdsConn → j = i ∧ t.pc = pc := by
      intro j t hj hholds
      by_cases hij : i = j
      · subst hij
        rw [List.getElem?_set_self', htask] at hj
        cases hj
        exact ⟨rfl, rfl⟩
      · rw [List.getElem?_set_ne hij] at hj
        exact absurd hholds (hdb.others htask hadv hj (Ne.symm hij))
    refine ⟨hle, ?_, ?_, ?_⟩
    · intro j t hj hholds
      exact hfree ((hself j t hj hholds).2 ▸ hholds)
    · intro j k t t' hj hk hholds hholds'
      rw [(hself j t hj hholds).1, (hself k t' hk hholds').1]
    · intro j t hj prevHash hprev
      exact hhead prevHash ((hself j t hj (holdsConn_of_head? hprev)).2 ▸ hprev)

theorem InTurn.headInPlace {db : AuditDb} (hdb : InTurn db) (a : AuditAction) :
    HeadInPlace db a := by
  cases a with
  | call routeKey action result => trivial
  | advance i unixNow =>
    intro task htask
    cases hpc : task.pc with
    | clockRead prevHash now =>
      refine hdb.head_eq i task htask prevHash ?_
      rw [hpc]
      rfl
    | waiting | connected | headRead _ | inserted | finished => trivial

/-- With one connection every run in which the statements work keeps the log
verified. -/
theorem single_connection_verified (sha256 : Sha256) {actions : List AuditAction} {db : AuditDb}
    (hrun : run (AuditDb.step sha256) (AuditDb.init 1) actions = some db) :
    Verified sha256 db.log := by
  have hinv : ∀ db a db', (InTurn db ∧ Verified sha256 db.log) → db.step sha256 a = some db' →
      InTurn db' ∧ Verified sha256 db'.log := by
    intro db a db' hdb hstep
    refine ⟨inTurn_step sha256 db a db' hdb.1 hstep, ?_⟩
    exact (verified_step sha256 db a db' hstep).mpr ⟨hdb.2, hdb.1.headInPlace a⟩
  exact (run_invariant hinv ⟨inTurn_init, verified_empty sha256⟩ hrun).2

/-- Two calls for the one connection. -/
def queuedCalls : List AuditAction :=
  [.call (some "wechat/c1") "send" "sent", .call (some "wechat/c2") "send" "sent",
    .advance 0 0, .advance 0 0, .advance 0 1700000000, .advance 0 0, .advance 0 0,
    .advance 1 0, .advance 1 0, .advance 1 1700000001, .advance 1 0, .advance 1 0]

theorem queuedCalls_verified :
    Verified Lib.Sha256.digest ((run (AuditDb.step Lib.Sha256.digest) (AuditDb.init 1)
      queuedCalls).get (by decide +kernel)).log :=
  single_connection_verified Lib.Sha256.digest (Option.some_get _).symm

end MagicLaw.Audit
