import MagicLaw.Outbox.Accounting

/-!
# The replay of a dead letter

`replay` takes a message out of the dead letter table and back into the outbox
with four statements and no transaction around them.

* `replay_atomic_iff`: a replay that returns an error leaves the tables as they
  were exactly when nothing fails after the dead letter has been deleted.
* `replay_undoes`: in every state that the process can reach, the replay of a
  message that has a dead letter puts its row back as it was enqueued.
-/

namespace MagicLaw.Outbox

open Lib Lib.Program Lib.Machine

/-! ## What a replay does -/

section Play

variable {w : World} {id : String} (payload : String) (fs : Nat → Outcome)

/-- The message has no dead letter, or it cannot be read. -/
theorem play_replay_of_unread (h : w.deadLetter.find? id = none ∨ (fs 0).fault ≠ none) :
    ∃ e, (replay id).play handle fs w = (.error e, w) := by
  simp only [replay, selectDeadLetter, call, Prog.perform, Bind.bind, Prog.bind, Prog.play, handle]
  cases hfind : w.deadLetter.find? id with
  | none => exact ⟨_, rfl⟩
  | some dl =>
    obtain ⟨e, he⟩ := Option.ne_none_iff_exists'.mp (h.resolve_left (by simp [hfind]))
    simp only [statement, he]
    exact ⟨e, rfl⟩

/-- The dead letter is read. -/
theorem play_replay_of_read {dl : DeadLetterEntry} (hfind : w.deadLetter.find? id = some dl)
    (hselect : (fs 0).fault = none) :
    (replay id).play handle fs w =
      match (fs 1).fault with
      | some e => (.error e, w)
      | none => (requeue id dl.payload).play handle (fun n => fs (n + 2))
          { w with deadLetter := w.deadLetter.delete id } := by
  simp only [replay, selectDeadLetter, deleteDeadLetter, call, Prog.perform, Bind.bind, Prog.bind,
    Prog.play, handle, hfind, statement, hselect]
  cases (fs 1).fault with
  | some e => rfl
  | none => rfl

/-- The statement that puts the message back into its row. -/
def World.requeued (w : World) (id payload : String) (now : Int64) : World :=
  { w.updateRow id (.reset payload now) (OutboxEntry.reset_id payload now) with
    trace := .replayed id :: w.trace }

theorem play_requeue_of_row {row : OutboxEntry} (hrow : w.outbox.find? id = some row) :
    (requeue id payload).play handle fs w =
      match (fs 1).fault, (fs 2).fault with
      | some e, _ => (.error e, w)
      | none, some e => (.error e, w)
      | none, none => (.ok (OutboxEntry.new id row.routeKey payload (fs 0).seconds),
          w.requeued id payload (fs 0).seconds) := by
  simp only [requeue, timestamp, selectRouteKey, resetForReplay, call, Prog.perform, Bind.bind,
    Prog.bind, Prog.play, handle, statement, hrow]
  cases (fs 1).fault with
  | some e => rfl
  | none =>
    cases hwrite : (fs 2).fault with
    | some e => simp [Prog.play, handle, statement, hwrite, pure]
    | none => simp [Prog.play, handle, statement, hwrite, pure, World.requeued]

/-- Without a row the message is inserted, and nothing is in the way. -/
theorem play_requeue_of_no_row (hrow : w.outbox.find? id = none) :
    ∃ w', (requeue id payload).play handle fs w =
      match (fs 1).fault, (fs 2).fault with
      | some e, _ => (.error e, w)
      | none, some e => (.error e, w)
      | none, none => (.ok (OutboxEntry.new id "replayed" payload (fs 0).seconds), w') := by
  have hinsert : w.outbox.insert (OutboxEntry.new id "replayed" payload (fs 0).seconds) =
      some (w.outbox.append _ hrow) := KeyedTable.insert_eq_some hrow
  simp only [requeue, timestamp, selectRouteKey, insertReplayed, call, Prog.perform, Bind.bind,
    Prog.bind, Prog.play, handle, statement, hrow]
  cases (fs 1).fault with
  | some e => exact ⟨w, rfl⟩
  | none =>
    cases hwrite : (fs 2).fault with
    | some e =>
      exact ⟨w, by simp [Prog.play, handle, statement, hinsert, hwrite, pure]⟩
    | none =>
      exact ⟨_, by simp [Prog.play, handle, statement, hinsert, hwrite, pure]; rfl⟩

end Play

/-! ## Replay and errors -/

/-- The two tables are as they were. -/
def SameTables (w w' : World) : Prop := w'.outbox = w.outbox ∧ w'.deadLetter = w.deadLetter

/-- A replay that returns an error leaves the tables as they were. -/
def ReplayAtomic (w : World) (id : String) (fs : Nat → Outcome) : Prop :=
  ((replay id).play handle fs w).1.isOk = false → SameTables w ((replay id).play handle fs w).2

/-- The message has no dead letter, or it is not read or not deleted, or both
statements after that work. -/
def NothingFailsLate (w : World) (id : String) (fs : Nat → Outcome) : Prop :=
  w.deadLetter.find? id = none ∨ (fs 0).fault ≠ none ∨ (fs 1).fault ≠ none ∨
    ((fs 3).fault = none ∧ (fs 4).fault = none)

/-- The part after the delete returns an error exactly when one of its
statements fails, and then it has written nothing. -/
theorem play_requeue_isOk (w : World) (id payload : String) (fs : Nat → Outcome) :
    (((requeue id payload).play handle fs w).1.isOk = true ↔
      (fs 1).fault = none ∧ (fs 2).fault = none) ∧
    (((requeue id payload).play handle fs w).1.isOk = false →
      ((requeue id payload).play handle fs w).2 = w) := by
  cases hrow : w.outbox.find? id with
  | none =>
    obtain ⟨w', hplay⟩ := play_requeue_of_no_row payload fs hrow
    rw [hplay]
    cases (fs 1).fault <;> cases (fs 2).fault <;> simp [Except.isOk, Except.toBool]
  | some row =>
    rw [play_requeue_of_row payload fs hrow]
    cases (fs 1).fault <;> cases (fs 2).fault <;> simp [Except.isOk, Except.toBool]

theorem replay_atomic_iff (w : World) (id : String) (fs : Nat → Outcome) :
    ReplayAtomic w id fs ↔ NothingFailsLate w id fs := by
  by_cases hunread : w.deadLetter.find? id = none ∨ (fs 0).fault ≠ none
  · obtain ⟨e, hplay⟩ := play_replay_of_unread fs hunread
    refine iff_of_true ?_ (hunread.imp_right Or.inl)
    intro _
    rw [hplay]
    exact ⟨rfl, rfl⟩
  · obtain ⟨hfound, hselect⟩ := not_or.mp hunread
    obtain ⟨dl, hfind⟩ := Option.ne_none_iff_exists'.mp hfound
    have hplay := play_replay_of_read fs hfind (not_not.mp hselect)
    cases hdelete : (fs 1).fault with
    | some e =>
      rw [hdelete] at hplay
      refine iff_of_true ?_ (Or.inr (Or.inr (Or.inl (by simp [hdelete]))))
      intro _
      rw [hplay]
      exact ⟨rfl, rfl⟩
    | none =>
      rw [hdelete] at hplay
      obtain ⟨hok, hsame⟩ := play_requeue_isOk { w with deadLetter := w.deadLetter.delete id } id
        dl.payload (fun n => fs (n + 2))
      have hlate : NothingFailsLate w id fs ↔ (fs 3).fault = none ∧ (fs 4).fault = none := by
        simp [NothingFailsLate, hfound, hselect, hdelete]
      rw [hlate, ← hok]
      unfold ReplayAtomic
      rw [hplay]
      constructor
      · intro hatomic
        rw [← Bool.not_eq_false]
        intro herror
        -- the dead letter is gone
        obtain ⟨_, hdeadLetter⟩ := hatomic herror
        have hgone := congrArg (KeyedTable.find? · id) hdeadLetter
        rw [hsame herror] at hgone
        have hnone : (w.deadLetter.delete id).find? id = none := by
          rw [KeyedTable.find?_delete, if_pos rfl]
        exact hfound (hgone.symm.trans hnone)
      · intro hisOk herror
        rw [hisOk] at herror
        exact absurd herror (by decide)

/-- A replay is atomic, whatever is in the tables and whatever fails. -/
def ReplaysAtomic : Prop := ∀ w id fs, ReplayAtomic w id fs

/-- The message `m1` is in the dead letter table. -/
def m1Dead : World :=
  { World.init with
    outbox := KeyedTable.empty.insertOrIgnore
      { OutboxEntry.new "m1" "wechat/c1" "hi" 1700000000 with
        status := .deadLetter
        retryCount := 4 }
    deadLetter := KeyedTable.empty.insertOrIgnore
      (DeadLetterEntry.new "m1" "outbox" "hi" "max retries (5): timeout" 1700000060) }

/-- The last statement fails, and the dead letter is gone. -/
theorem not_replaysAtomic : ¬ ReplaysAtomic := by
  intro h
  have hsame := h m1Dead "m1" (fun n => if n = 4 then fails "database is locked" else works)
    (by rfl)
  have hfind := congrArg (KeyedTable.find? · "m1") hsame.2
  exact absurd (congrArg Option.isSome hfind) (by decide +kernel)

/-! ## What a message was enqueued as -/

structure Enqueued where
  routeKey : String
  payload : String
  createdAt : Int64

def OutboxEntry.enqueued (row : OutboxEntry) : Enqueued :=
  ⟨row.routeKey, row.payload, row.createdAt⟩

/-- What the action enqueues under the id. -/
def Action.enqueues (id : String) : Action → Option Enqueued
  | .enqueue id' routeKey payload nowTs =>
    if id' = id then some ⟨routeKey, payload, nowTs⟩ else none
  | _ => none

/-- What the run enqueues under the id first. -/
def enqueuedAs (id : String) (actions : List Action) : Option Enqueued :=
  actions.findSome? (Action.enqueues id)

/-- The row has what the message was enqueued with, if it was, and a dead
letter has its payload. -/
structure StoredAs (id : String) (message : Option Enqueued) (w : World) : Prop where
  row : (w.outbox.find? id).map OutboxEntry.enqueued = message
  deadLetter : ∀ dl, w.deadLetter.find? id = some dl →
    message.map Enqueued.payload = some dl.payload

section StoredAs

variable {id : String} {message : Option Enqueued} {w : World}

/-- The payload is that of the message, if the id is. -/
def PayloadOf (id : String) (message : Option Enqueued) (id' payload : String) : Prop :=
  id' = id → message.map Enqueued.payload = some payload

/-- What the programs write under an id is its payload. -/
def FitsMessage (id : String) (message : Option Enqueued) : Call → Prop
  | .insertDeadLetter entry => PayloadOf id message entry.id entry.payload
  | .resetForReplay id' payload _ | .insertReplayed id' payload _ =>
    PayloadOf id message id' payload
  | _ => True

/-- What the programs read of an id is its payload. -/
def ToldOfMessage (id : String) (message : Option Enqueued) : (c : Call) → c.Reply → Prop
  | .fetchPending _, (r : Except String (List OutboxEntry))
  | .fetchRetryable _ _, (r : Except String (List OutboxEntry))
  | .fetchInFlight, (r : Except String (List OutboxEntry)) =>
    ∀ entries, r = .ok entries → ∀ entry ∈ entries, PayloadOf id message entry.id entry.payload
  | .selectDeadLetter id', (r : Except String DeadLetterEntry) =>
    ∀ dl, r = .ok dl → PayloadOf id message id' dl.payload
  | _, _ => True

/-- What is stored under the id, and what may be stored under it later: a message
that is not there may still be enqueued. -/
def Extends (message message' : Option Enqueued) : Prop := message = none ∨ message' = message

theorem PayloadOf.extends {message' : Option Enqueued} (hext : Extends message message')
    {id' payload : String} (h : PayloadOf id message id' payload) :
    PayloadOf id message' id' payload := by
  intro hid
  rcases hext with rfl | rfl
  · exact absurd (h hid) (by simp)
  · exact h hid

theorem ToldOfMessage.extends {message' : Option Enqueued} (hext : Extends message message')
    {c : Call} {r : c.Reply} (h : ToldOfMessage id message c r) : ToldOfMessage id message' c r := by
  cases c with
  | fetchPending | fetchRetryable | fetchInFlight =>
    exact fun entries hr entry hentry => (h entries hr entry hentry).extends hext
  | selectDeadLetter => exact fun dl hr => (h dl hr).extends hext
  | _ => trivial

/-! ### One call -/

/-- A row that is in the table has the payload of its message. -/
theorem StoredAs.payloadOf (h : StoredAs id message w) {row : OutboxEntry}
    (hrow : w.outbox.find? row.id = some row) : PayloadOf id message row.id row.payload := by
  intro hid
  rw [hid] at hrow
  rw [← h.row, hrow]
  rfl

/-- A query of rows of the table. -/
theorem StoredAs.fetch (h : StoredAs id message w) (o : Outcome) {rows : List OutboxEntry}
    (hrows : ∀ row ∈ rows, w.outbox.find? row.id = some row) :
    (∀ entries, (statement w o rows w).1 = .ok entries →
      ∀ entry ∈ entries, PayloadOf id message entry.id entry.payload) ∧
      StoredAs id message (statement w o rows w).2 := by
  unfold statement
  cases o.fault with
  | some e =>
    refine ⟨fun entries hok => ?_, h⟩
    cases hok
  | none =>
    refine ⟨fun entries hok => ?_, h⟩
    cases hok
    exact fun entry hentry => h.payloadOf (hrows entry hentry)

/-- An update that leaves what the message was enqueued with. -/
theorem StoredAs.updateRow (h : StoredAs id message w) (k : String)
    {f : OutboxEntry → OutboxEntry} (hf : ∀ row, (f row).id = row.id)
    (hsame : ∀ row, w.outbox.find? id = some row → k = id → (f row).enqueued = row.enqueued) :
    StoredAs id message (w.updateRow k f hf) := by
  refine ⟨?_, h.deadLetter⟩
  by_cases hk : id = k
  · rw [← h.row]
    cases hrow : w.outbox.find? k with
    | none =>
      have hnone : (w.updateRow k f hf).outbox.find? k = none := by
        unfold World.updateRow
        rw [KeyedTable.find?_update, if_pos rfl, hrow]
        rfl
      rw [hk, hrow, hnone]
    | some row =>
      rw [hk, hrow, find?_updateRow_self w k f hf hrow]
      exact congrArg some (hsame row (hk ▸ hrow) hk.symm)
  · rw [find?_updateRow_of_ne w k f hf hk]
    exact h.row

/-- A statement that writes what keeps the message. -/
theorem StoredAs.write {α : Type} (h : StoredAs id message w) (o : Outcome) (a : α) {w' : World}
    (h' : StoredAs id message w') : StoredAs id message (statement w o a w').2 := by
  unfold statement
  cases o.fault with
  | some e => exact h
  | none => exact h'

theorem StoredAs.insertDeadLetter (h : StoredAs id message w) (o : Outcome)
    {entry : DeadLetterEntry} (hpayload : PayloadOf id message entry.id entry.payload) :
    StoredAs id message (handle w o (.insertDeadLetter entry)).2 := by
  by_cases hfree : w.deadLetter.find? entry.id = none
  · simp only [handle, KeyedTable.insert_eq_some hfree]
    refine h.write o () ⟨h.row, fun dl hdl => ?_⟩
    rw [KeyedTable.find?_append] at hdl
    by_cases hid : id = entry.id
    · rw [if_pos hid, Option.some.injEq] at hdl
      exact hdl ▸ hpayload hid.symm
    · rw [if_neg hid] at hdl
      exact h.deadLetter dl hdl
  · simp only [handle, KeyedTable.insert_eq_none hfree]
    exact h

theorem StoredAs.selectDeadLetter (h : StoredAs id message w) (o : Outcome) (id' : String) :
    ToldOfMessage id message (.selectDeadLetter id') (handle w o (.selectDeadLetter id')).1 ∧
      StoredAs id message (handle w o (.selectDeadLetter id')).2 := by
  simp only [handle]
  cases hfind : w.deadLetter.find? id' with
  | none =>
    refine ⟨fun dl hok => ?_, h⟩
    cases hok
  | some dl =>
    refine ⟨fun dl' hok => ?_, h.write o dl h⟩
    unfold statement at hok
    cases hfault : o.fault with
    | some e =>
      rw [hfault] at hok
      cases hok
    | none =>
      rw [hfault] at hok
      cases hok
      intro hid
      exact h.deadLetter dl (hid ▸ hfind)

theorem StoredAs.deleteDeadLetter (h : StoredAs id message w) (id' : String) :
    StoredAs id message { w with deadLetter := w.deadLetter.delete id' } := by
  refine ⟨h.row, fun dl hdl => ?_⟩
  rw [KeyedTable.find?_delete] at hdl
  by_cases hid : id = id'
  · rw [if_pos hid] at hdl
    cases hdl
  · rw [if_neg hid] at hdl
    exact h.deadLetter dl hdl

/-- The payload that is written back is that of the row. -/
theorem StoredAs.resetForReplay (h : StoredAs id message w) {id' payload : String} (now : Int64)
    (hpayload : PayloadOf id message id' payload) :
    StoredAs id message (w.requeued id' payload now) := by
  have hupdate : StoredAs id message
      (w.updateRow id' (.reset payload now) (OutboxEntry.reset_id payload now)) := by
    refine h.updateRow id' _ fun row hrow hid => ?_
    have hsame : some row.payload = some payload := by
      rw [← hpayload hid, ← h.row, hrow]
      rfl
    rw [Option.some.injEq] at hsame
    subst hsame
    rfl
  exact ⟨hupdate.row, hupdate.deadLetter⟩

/-- A message that has a payload has a row, so the insert is refused. -/
theorem StoredAs.insertReplayed (h : StoredAs id message w) (o : Outcome) {id' payload : String}
    (now : Int64) (hpayload : PayloadOf id message id' payload) :
    StoredAs id message (handle w o (.insertReplayed id' payload now)).2 := by
  by_cases hfree : w.outbox.find? id' = none
  · have hne : id ≠ id' := by
      intro hid
      have hmessage := hpayload hid.symm
      rw [← h.row, hid, hfree] at hmessage
      cases hmessage
    have hinsert : w.outbox.insert (OutboxEntry.new id' "replayed" payload now) =
        some (w.outbox.append _ hfree) := KeyedTable.insert_eq_some hfree
    simp only [handle, hinsert]
    have hother := (KeyedTable.find?_append w.outbox
      (OutboxEntry.new id' "replayed" payload now) hfree id).trans (if_neg hne)
    have hrow := (congrArg (Option.map OutboxEntry.enqueued) hother).trans h.row
    exact h.write o () ⟨hrow, h.deadLetter⟩
  · have hinsert : w.outbox.insert (OutboxEntry.new id' "replayed" payload now) = none :=
      KeyedTable.insert_eq_none hfree
    simp only [handle, hinsert]
    exact h

theorem StoredAs.call (h : StoredAs id message w) (o : Outcome) {c : Call}
    (hfits : FitsMessage id message c) :
    ToldOfMessage id message c (handle w o c).1 ∧ StoredAs id message (handle w o c).2 := by
  cases c with
  | fetchPending limit =>
    exact h.fetch o fun row hrow => (mem_orderedSelect.mp (mem_limitRows hrow)).1
  | fetchRetryable nowTs limit =>
    exact h.fetch o fun row hrow => (mem_orderedSelect.mp (mem_limitRows hrow)).1
  | fetchInFlight => exact h.fetch o fun row hrow => (mem_orderedSelect.mp hrow).1
  | markStatus id' status error =>
    exact ⟨trivial, h.write o () (h.updateRow id' _ fun _ _ _ => rfl)⟩
  | markRetrying id' retryCount nextRetryAt error =>
    exact ⟨trivial, h.write o () (h.updateRow id' _ fun _ _ _ => rfl)⟩
  | insertDeadLetter entry => exact ⟨trivial, h.insertDeadLetter o hfits⟩
  | selectDeadLetter id' => exact h.selectDeadLetter o id'
  | deleteDeadLetter id' => exact ⟨trivial, h.write o () (h.deleteDeadLetter id')⟩
  | selectRouteKey id' => exact ⟨trivial, h.write o _ h⟩
  | resetForReplay id' payload now => exact ⟨trivial, h.write o () (h.resetForReplay now hfits)⟩
  | insertReplayed id' payload now => exact ⟨trivial, h.insertReplayed o now hfits⟩
  | send entry =>
    refine ⟨trivial, ?_⟩
    simp only [handle]
    cases o.fault with
    | some e => exact ⟨h.row, h.deadLetter⟩
    | none => exact ⟨h.row, h.deadLetter⟩
  | record routeKey action result => exact ⟨trivial, h.row, h.deadLetter⟩
  | timestamp => exact ⟨trivial, h⟩
  | timestampMillis => exact ⟨trivial, h⟩

/-! ### The programs -/

theorem careful_moveToDeadLetter {entry : OutboxEntry} (newCount : UInt32) (err : String)
    (h : PayloadOf id message entry.id entry.payload) :
    Careful (FitsMessage id message) (ToldOfMessage id message)
      (moveToDeadLetter entry newCount err) := by
  refine careful_perform_bind trivial fun _ _ => ?_
  refine careful_perform_bind trivial fun now _ => ?_
  refine careful_perform_bind h fun _ _ => ?_
  exact careful_perform trivial

theorem careful_scheduleRetry (retry : RetryConfig) (entry : OutboxEntry) (newCount : UInt32)
    (err : String) : Careful (FitsMessage id message) (ToldOfMessage id message)
      (scheduleRetry retry entry newCount err) := by
  refine careful_perform_bind trivial fun now _ => ?_
  refine careful_perform_bind trivial fun _ _ => ?_
  exact careful_perform trivial

theorem careful_deliver (retry : RetryConfig) {entry : OutboxEntry}
    (h : PayloadOf id message entry.id entry.payload) :
    Careful (FitsMessage id message) (ToldOfMessage id message) (deliver retry entry) := by
  refine careful_perform_bind trivial fun r _ => ?_
  match r with
  | .error e => exact careful_pure _
  | .ok () =>
    refine careful_perform_bind trivial fun r _ => ?_
    match r with
    | .ok () =>
      refine careful_perform_bind trivial fun _ _ => ?_
      exact careful_perform trivial
    | .error err =>
      show Careful _ _ (if retry.maxRetries ≤ entry.retryCount + 1 then
        moveToDeadLetter entry (entry.retryCount + 1) err
        else scheduleRetry retry entry (entry.retryCount + 1) err)
      by_cases hlast : retry.maxRetries ≤ entry.retryCount + 1
      · rw [if_pos hlast]
        exact careful_moveToDeadLetter _ err h
      · rw [if_neg hlast]
        exact careful_scheduleRetry retry entry _ err

theorem careful_processPending (retry : RetryConfig) (batchSize : UInt64) :
    Careful (FitsMessage id message) (ToldOfMessage id message)
      (processPending retry batchSize) := by
  refine careful_perform_bind trivial fun r hr => ?_
  match r with
  | .error e => exact careful_pure _
  | .ok entries =>
    exact careful_forEach fun entry hentry => careful_deliver retry (hr _ rfl entry hentry)

theorem careful_processRetries (retry : RetryConfig) (batchSize : UInt64) :
    Careful (FitsMessage id message) (ToldOfMessage id message)
      (processRetries retry batchSize) := by
  refine careful_perform_bind trivial fun nowTs _ => ?_
  refine careful_perform_bind trivial fun r hr => ?_
  match r with
  | .error e => exact careful_pure _
  | .ok entries =>
    exact careful_forEach fun entry hentry => careful_deliver retry (hr _ rfl entry hentry)

theorem careful_resetInFlight (entries : List OutboxEntry) :
    Careful (FitsMessage id message) (ToldOfMessage id message) (resetInFlight entries) := by
  induction entries with
  | nil => exact careful_pure _
  | cons entry entries ih =>
    refine careful_perform_bind trivial fun r _ => ?_
    match r with
    | .error e => exact careful_pure _
    | .ok () => exact ih

theorem careful_recoverAfterCrash :
    Careful (FitsMessage id message) (ToldOfMessage id message) recoverAfterCrash := by
  refine careful_perform_bind trivial fun r _ => ?_
  match r with
  | .error e => exact careful_pure _
  | .ok entries =>
    refine careful_bind (careful_resetInFlight entries) fun r => ?_
    match r with
    | .error e => exact careful_pure _
    | .ok () => exact careful_pure _

theorem careful_replay (id' : String) :
    Careful (FitsMessage id message) (ToldOfMessage id message) (replay id') := by
  refine careful_perform_bind trivial fun r hr => ?_
  match r with
  | .error e => exact careful_pure _
  | .ok dl =>
    have hpayload : PayloadOf id message id' dl.payload := hr dl rfl
    refine careful_perform_bind trivial fun r _ => ?_
    match r with
    | .error e => exact careful_pure _
    | .ok () =>
      refine careful_perform_bind trivial fun now _ => ?_
      refine careful_perform_bind trivial fun r _ => ?_
      match r with
      | .error e => exact careful_pure _
      | .ok (some routeKey) =>
        refine careful_perform_bind hpayload fun r _ => ?_
        match r with
        | .error e => exact careful_pure _
        | .ok () => exact careful_pure _
      | .ok none =>
        refine careful_perform_bind hpayload fun r _ => ?_
        match r with
        | .error e => exact careful_pure _
        | .ok () => exact careful_pure _

/-! ### Runs -/

/-- The program keeps to the message, also to one that is enqueued while it runs. -/
def KeepsMessage {α : Type} (id : String) (message : Option Enqueued) (p : Work α) : Prop :=
  ∀ message', Extends message message' →
    Careful (FitsMessage id message') (ToldOfMessage id message') p

def Phase.Keeps (id : String) (message : Option Enqueued) : Phase → Prop
  | .ticking work => KeepsMessage id message work
  | .replaying work => KeepsMessage id message work
  | .recovering work => KeepsMessage id message work
  | .crashed => True

/-- The message is stored, and what runs keeps to it. -/
structure Stored (id : String) (message : Option Enqueued) (s : Process) : Prop where
  world : StoredAs id message s.world
  phase : s.phase.Keeps id message

/-- One call of a program that keeps to the message. -/
theorem StoredAs.step (h : StoredAs id message w) {α : Type} {p p' : Work α} {o : Outcome}
    {w' : World} (hp : KeepsMessage id message p) (hstep : p.step handle o w = some (p', w')) :
    StoredAs id message w' ∧ KeepsMessage id message p' := by
  cases p with
  | ret a => cases hstep
  | call c next =>
    cases hstep
    have hfits := (careful_call_iff.mp (hp message (.inr rfl))).1
    obtain ⟨htold, hw'⟩ := h.call o hfits
    exact ⟨hw', fun message' hext =>
      (careful_call_iff.mp (hp message' hext)).2 _ (htold.extends hext)⟩

/-- A message that is new gets a row, and the row of one that is not stays. -/
theorem StoredAs.enqueue (h : StoredAs id message w) (id' routeKey payload : String)
    (nowTs : Int64) :
    StoredAs id (message.or (Action.enqueues id (.enqueue id' routeKey payload nowTs)))
      (w.enqueue (OutboxEntry.new id' routeKey payload nowTs)) := by
  have hfind : (w.enqueue (OutboxEntry.new id' routeKey payload nowTs)).outbox.find? id =
      if id = id' then some ((w.outbox.find? id).getD (OutboxEntry.new id' routeKey payload nowTs))
      else w.outbox.find? id :=
    KeyedTable.find?_insertOrIgnore w.outbox (OutboxEntry.new id' routeKey payload nowTs) id
  have hmessage := h.row
  by_cases hid : id = id'
  · subst hid
    rw [if_pos rfl] at hfind
    constructor
    · rw [hfind, ← hmessage]
      cases w.outbox.find? id with
      | none => simp [Action.enqueues, OutboxEntry.enqueued, OutboxEntry.new]
      | some row => rfl
    · intro dl hdl
      rw [Option.map_or, h.deadLetter dl hdl]
      rfl
  · rw [if_neg hid] at hfind
    have hnone : Action.enqueues id (.enqueue id' routeKey payload nowTs) = none :=
      if_neg (Ne.symm hid)
    rw [hnone, Option.or_none]
    exact ⟨hfind.symm ▸ hmessage, h.deadLetter⟩

theorem KeepsMessage.or {α : Type} {p : Work α} (h : KeepsMessage id message p)
    (new : Option Enqueued) : KeepsMessage id (message.or new) p := by
  cases message with
  | none => exact fun message' _ => h message' (.inl rfl)
  | some m => exact h

theorem stored_call {retry : RetryConfig} {s s' : Process} {o : Outcome} (h : Stored id message s)
    (hstep : s.step retry (.call o) = some s') : Stored id message s' := by
  obtain ⟨w, phase⟩ := s
  unfold Process.step Phase.call at hstep
  cases phase with
  | crashed => simp at hstep
  | ticking work | replaying work | recovering work =>
    cases hwork : work.step handle o w with
    | none => simp [hwork] at hstep
    | some r =>
      obtain ⟨work', w'⟩ := r
      simp only [hwork, Option.map_some, Option.some.injEq] at hstep
      subst hstep
      have hworks : StoredAs id message w' ∧ KeepsMessage id message work' :=
        h.world.step h.phase hwork
      exact ⟨hworks.1, hworks.2⟩

theorem stored_step (retry : RetryConfig) {s s' : Process} {a : Action} (h : Stored id message s)
    (hstep : s.step retry a = some s') : Stored id (message.or (a.enqueues id)) s' := by
  have hkept : a.enqueues id = none → Stored id message s' →
      Stored id (message.or (a.enqueues id)) s' := by
    intro hnone hkept
    rwa [hnone, Option.or_none]
  cases a with
  | enqueue id' routeKey payload nowTs =>
    cases hstep
    refine ⟨h.world.enqueue id' routeKey payload nowTs, ?_⟩
    have hphase := h.phase
    show s.phase.Keeps id _
    cases hs : s.phase with
    | crashed => trivial
    | ticking work | replaying work | recovering work =>
      rw [hs] at hphase
      exact KeepsMessage.or hphase _
  | startPending batchSize =>
    obtain ⟨-, rfl⟩ := Process.whenIdle_eq_some.mp hstep
    exact hkept rfl ⟨h.world, fun _ _ => careful_processPending retry batchSize⟩
  | startRetries batchSize =>
    obtain ⟨-, rfl⟩ := Process.whenIdle_eq_some.mp hstep
    exact hkept rfl ⟨h.world, fun _ _ => careful_processRetries retry batchSize⟩
  | startReplay id' =>
    obtain ⟨-, rfl⟩ := Process.whenIdle_eq_some.mp hstep
    exact hkept rfl ⟨h.world, fun _ _ => careful_replay id'⟩
  | call o => exact hkept rfl (stored_call h hstep)
  | finish =>
    refine hkept rfl ?_
    simp only [Process.step, Option.map_eq_some_iff] at hstep
    obtain ⟨phase', hphase', rfl⟩ := hstep
    refine ⟨h.world, ?_⟩
    unfold Phase.finish at hphase'
    split at hphase'
    · cases hphase'
      exact fun _ _ => careful_pure _
    · cases hphase'
      exact fun _ _ => careful_pure _
    · cases hphase'
      trivial
    · cases hphase'
  | crash =>
    cases hstep
    exact hkept rfl ⟨h.world, trivial⟩
  | restart =>
    apply hkept rfl
    obtain ⟨w, phase⟩ := s
    cases phase with
    | crashed =>
      cases hstep
      exact ⟨h.world, fun _ _ => careful_recoverAfterCrash⟩
    | ticking work | replaying work | recovering work => simp [Process.step] at hstep

theorem stored_run (retry : RetryConfig) {s s' : Process} {actions : List Action}
    (h : Stored id message s) (hrun : run (Process.step retry) s actions = some s') :
    Stored id (message.or (enqueuedAs id actions)) s' := by
  induction actions generalizing s message with
  | nil =>
    rw [run_nil, Option.some.injEq] at hrun
    rw [enqueuedAs, List.findSome?_nil, Option.or_none]
    exact hrun ▸ h
  | cons a actions ih =>
    obtain ⟨t, ht, hrest⟩ := run_cons_eq_some.mp hrun
    have hcons : enqueuedAs id (a :: actions) = (a.enqueues id).or (enqueuedAs id actions) := by
      unfold enqueuedAs
      rw [List.findSome?_cons]
      cases a.enqueues id <;> rfl
    rw [hcons, ← Option.or_assoc]
    exact ih (stored_step retry h ht) hrest

/-- Before the first action nothing is stored. -/
theorem stored_init (id : String) : Stored id none Process.init :=
  ⟨⟨rfl, fun _ hdl => nomatch hdl⟩, fun _ _ => careful_pure _⟩

end StoredAs

/-! ## Replay after a dead letter -/

/-- The message is back in the outbox as it was enqueued, and its dead letter
is gone. -/
structure Requeued (id : String) (message : Enqueued) (w w' : World) : Prop where
  row : ∃ row, w'.outbox.find? id = some row ∧ row.id = id ∧ row.enqueued = message ∧
    row.status = .pending ∧ row.retryCount = 0 ∧ row.nextRetryAt = none ∧ row.lastError = none
  deadLetter : w'.deadLetter.find? id = none
  outbox_eq : ∀ id', id' ≠ id → w'.outbox.find? id' = w.outbox.find? id'
  deadLetter_eq : ∀ id', id' ≠ id → w'.deadLetter.find? id' = w.deadLetter.find? id'

theorem StoredAs.replay {id : String} {message : Option Enqueued} {w : World}
    (h : StoredAs id message w) {dl : DeadLetterEntry} (hdl : w.deadLetter.find? id = some dl)
    {fs : Nat → Outcome} (hworks : ∀ n, (fs n).fault = none) :
    ∃ m, message = some m ∧ ((replay id).play handle fs w).1.isOk = true ∧
      Requeued id m w ((replay id).play handle fs w).2 := by
  have hpayload := h.deadLetter dl hdl
  have hmessage := h.row
  cases hrow : w.outbox.find? id with
  | none =>
    rw [hrow] at hmessage
    rw [← hmessage] at hpayload
    cases hpayload
  | some row =>
    rw [hrow] at hmessage
    refine ⟨row.enqueued, hmessage.symm, ?_⟩
    have hplay := play_replay_of_read fs hdl (hworks 0)
    have hrow' : { w with deadLetter := w.deadLetter.delete id }.outbox.find? id = some row := hrow
    have hrequeue := play_requeue_of_row dl.payload (fun n => fs (n + 2)) hrow'
    simp only [hworks, Nat.zero_add] at hplay hrequeue
    rw [hplay, hrequeue]
    have hsame : row.payload = dl.payload := by
      rw [← hmessage] at hpayload
      exact Option.some.inj hpayload
    have hreset := OutboxEntry.reset_id dl.payload (fs 2).seconds
    have hfind := find?_updateRow_self _ id _ hreset hrow
    refine ⟨rfl, ⟨_, hfind, ?_, ?_, rfl, rfl, rfl, rfl⟩, ?_, ?_, ?_⟩
    · show row.id = id
      exact KeyedTable.key_of_find? hrow
    · show (⟨row.routeKey, dl.payload, row.createdAt⟩ : Enqueued) = row.enqueued
      rw [← hsame]
      rfl
    · exact (KeyedTable.find?_delete w.deadLetter id id).trans (if_pos rfl)
    · exact fun id' hne => find?_updateRow_of_ne _ id _ hreset hne
    · exact fun id' hne => (KeyedTable.find?_delete w.deadLetter id id').trans (if_neg hne)

/-! ### A second replay -/

/-- The action inserts a dead letter of the message. -/
def DeadLetters (id : String) (s : Process) : Action → Prop
  | .call _ => ∃ entry, s.phase.nextCall? = some (.insertDeadLetter entry) ∧ entry.id = id
  | _ => False

/-- No other call brings a dead letter of the message. -/
theorem find?_deadLetter_handle {w : World} {id : String} (hnone : w.deadLetter.find? id = none)
    (o : Outcome) {c : Call} (hc : ∀ entry, c = .insertDeadLetter entry → entry.id ≠ id) :
    (handle w o c).2.deadLetter.find? id = none := by
  cases c with
  | insertDeadLetter entry =>
    have hne : id ≠ entry.id := (hc entry rfl).symm
    simp only [handle]
    cases hinsert : w.deadLetter.insert entry with
    | none => exact hnone
    | some deadLetter =>
      obtain ⟨hfree, rfl⟩ := KeyedTable.eq_append_of_insert hinsert
      simp only [statement]
      cases o.fault with
      | some e => exact hnone
      | none =>
        have hother := KeyedTable.find?_append w.deadLetter entry hfree id
        exact hother.trans ((if_neg hne).trans hnone)
  | selectDeadLetter id' =>
    simp only [handle]
    cases w.deadLetter.find? id' with
    | none => exact hnone
    | some entry =>
      simp only [statement]
      cases o.fault <;> exact hnone
  | deleteDeadLetter id' =>
    simp only [handle, statement]
    cases o.fault with
    | some e => exact hnone
    | none =>
      show (w.deadLetter.delete id').find? id = none
      rw [KeyedTable.find?_delete, hnone, ite_self]
  | insertReplayed id' payload now =>
    simp only [handle]
    cases w.outbox.insert (OutboxEntry.new id' "replayed" payload now) with
    | none => exact hnone
    | some outbox =>
      simp only [statement]
      cases o.fault <;> exact hnone
  | fetchPending _ | fetchRetryable _ _ | fetchInFlight | markStatus _ _ _ | markRetrying _ _ _ _
  | selectRouteKey _ | resetForReplay _ _ _ =>
    simp only [handle, statement]
    cases o.fault <;> exact hnone
  | send entry =>
    simp only [handle]
    cases o.fault <;> exact hnone
  | record _ _ _ | timestamp | timestampMillis => exact hnone

/-- A call of the program that runs is handled in the world of the process. -/
theorem Process.world_of_call {retry : RetryConfig} {s s' : Process} {o : Outcome}
    (h : s.step retry (.call o) = some s') :
    ∃ c, s.phase.nextCall? = some c ∧ s'.world = (handle s.world o c).2 := by
  obtain ⟨w, phase⟩ := s
  unfold Process.step Phase.call at h
  cases phase with
  | crashed => simp at h
  | ticking work | replaying work | recovering work =>
    cases work with
    | ret r => cases h
    | call c next =>
      cases h
      exact ⟨c, rfl, rfl⟩

theorem no_deadLetter_step (retry : RetryConfig) (id : String) (s : Process) (a : Action)
    (s' : Process) (h : s.world.deadLetter.find? id = none) (hnot : ¬ DeadLetters id s a)
    (hstep : s.step retry a = some s') : s'.world.deadLetter.find? id = none := by
  cases a with
  | call o =>
    obtain ⟨c, hnext, hworld⟩ := Process.world_of_call hstep
    rw [hworld]
    refine find?_deadLetter_handle h o fun entry hc hid => hnot ⟨entry, ?_, hid⟩
    rw [hnext, hc]
  | finish =>
    simp only [Process.step, Option.map_eq_some_iff] at hstep
    obtain ⟨phase', _, rfl⟩ := hstep
    exact h
  | crash =>
    cases hstep
    exact h
  | restart =>
    obtain ⟨w, phase⟩ := s
    cases phase with
    | crashed =>
      cases hstep
      exact h
    | ticking work | replaying work | recovering work => simp [Process.step] at hstep
  | enqueue id' routeKey payload nowTs =>
    cases hstep
    exact h
  | startPending batchSize | startRetries batchSize | startReplay id' =>
    obtain ⟨_, rfl⟩ := Process.whenIdle_eq_some.mp hstep
    exact h

/-! ### The replay -/

/-- The replay of the message succeeds and puts it back as it was enqueued, and
after it no replay succeeds until there is a new dead letter. -/
def ReplayUndoes (retry : RetryConfig) (actions : List Action) (w : World) (id : String)
    (fs : Nat → Outcome) : Prop :=
  ∃ message, enqueuedAs id actions = some message ∧
    ((replay id).play handle fs w).1.isOk = true ∧
    Requeued id message w ((replay id).play handle fs w).2 ∧
    ∀ (later : List Action) (s' : Process),
      run (Process.step retry) ⟨((replay id).play handle fs w).2, .ticking (.ret ())⟩ later =
        some s' →
      EveryStep (Process.step retry) (fun s a => ¬ DeadLetters id s a)
        ⟨((replay id).play handle fs w).2, .ticking (.ret ())⟩ later →
      ∀ gs, ((replay id).play handle gs s'.world).1.isOk = false

/-- In every state that the process can reach, whatever failed and wherever it
crashed before, the replay of a message that has a dead letter undoes the dead
letter, if the storage works.  As long as only sends have failed, every message
that was moved to the dead letters has one. -/
theorem replay_undoes (retry : RetryConfig) {actions : List Action} {s : Process}
    (hrun : run (Process.step retry) Process.init actions = some s)
    (hidle : s.phase.isIdle = true) (id : String) :
    (EveryStep (Process.step retry) (Meets sendsMayFail) Process.init actions →
      HasStatus s.world id .deadLetter → (s.world.deadLetter.find? id).isSome) ∧
    ((s.world.deadLetter.find? id).isSome → ∀ fs : Nat → Outcome, (∀ n, (fs n).fault = none) →
      ReplayUndoes retry actions s.world id fs) := by
  constructor
  · intro hworks hdead
    have haccounted :=
      run_keeps (keeps_accounted retry) (accounted_init retry.limit) hrun hworks hidle
    exact (haccounted.deadLetter id).mpr hdead
  · intro hsome fs hworks
    have hstored : StoredAs id (enqueuedAs id actions) s.world :=
      (stored_run retry (stored_init id) hrun).world
    obtain ⟨dl, hdl⟩ := Option.isSome_iff_exists.mp hsome
    obtain ⟨message, hmessage, hok, hrequeued⟩ := hstored.replay hdl hworks
    refine ⟨message, hmessage, hok, hrequeued, fun later s' hlater hnew gs => ?_⟩
    have hnone := run_invariant_of_everyStep (no_deadLetter_step retry id)
      hrequeued.deadLetter hnew hlater
    obtain ⟨e, hplay⟩ := play_replay_of_unread gs (Or.inl hnone)
    rw [hplay]
    rfl

/-- The message fails twice and is moved. -/
def failsTwice : List Action := deadLetteredAndReplayed.take 18

theorem failsTwice_replay_undoes :
    ReplayUndoes { fiveRetries with maxRetries := 2 } failsTwice
      ((run (Process.step { fiveRetries with maxRetries := 2 }) Process.init failsTwice).get
        (by decide +kernel)).world "m1" (fun _ => works) :=
  (replay_undoes { fiveRetries with maxRetries := 2 } (Option.some_get _).symm (by decide +kernel)
    "m1").2 (by decide +kernel) _ fun _ => rfl

end MagicLaw.Outbox
