import MagicLaw.Lib.KeyedTable
import MagicLaw.Lib.Program
import MagicLaw.Routing.ReorderWindow

/-!
# The two duplicate filters of the inbound path

`process_inbound` of `application/inbox_processor.rs` and `route_message` of
`application/route_message.rs`, one after the other, as the webhook handler
and the inbound loop of `infrastructure/runtime.rs` run them for each message
that is delivered.

The first filter is the `inbox` table of `adapters/sqlite_inbox.rs`, which
survives a restart.  The second one is the cache of `adapters/moka_dedup.rs`,
which does not, and whose entries expire.

`handle` says what one call does to the two, where the environment picks the
error of a call that fails and whether the queue of the conversation is full.
`World.deliver` is one delivery from its start to its end, or to a crash.
-/

namespace MagicLaw.Inbound

open Lib Lib.Program
open MagicLaw.Routing (ChannelId RouteKey Message)

/-! ## The records of the filters -/

inductive InboxStatus where
  | pending | processing | processed
  deriving DecidableEq, Repr

/-- `InboxEntry`, a row of `inbox`.  Its payload is not read by any code. -/
structure InboxEntry where
  id : String
  channel : String
  conversationId : String
  status : InboxStatus
  createdAt : Int64
  updatedAt : Int64

def InboxEntry.new (id channel conversationId : String) (nowTs : Int64) : InboxEntry where
  id := id
  channel := channel
  conversationId := conversationId
  status := .pending
  createdAt := nowTs
  updatedAt := nowTs

/-- What an entry of the cache was set for.  The cache itself has the key
only. -/
structure DedupEntry where
  channel : String
  msgId : String
  deriving DecidableEq

/-- `format!("{}:{}", channel, msg_id)` -/
def DedupEntry.key (entry : DedupEntry) : String := entry.channel ++ ":" ++ entry.msgId

/-- The table, the cache, and the messages that were put into a conversation,
the newest first. -/
structure World where
  inbox : KeyedTable InboxEntry.id
  dedup : KeyedTable DedupEntry.key
  enqueued : List Message

def World.init : World := ⟨KeyedTable.empty, KeyedTable.empty, []⟩

/-! ## The calls -/

inductive Call where
  | inboxExists (id : String)
  | inboxInsert (entry : InboxEntry)
  | inboxMarkStatus (id : String) (status : InboxStatus)
  | checkAndSet (channel msgId : String)
  | enqueue (key : RouteKey) (msg : Message)
  /-- `Utc::now().timestamp()` -/
  | timestamp

/-- `EnqueueError::QueueFull` -/
structure QueueFull where
  messageId : String

def Call.Reply : Call → Type
  | .inboxExists _ => Except String Bool
  | .inboxInsert _ | .inboxMarkStatus _ _ => Except String Unit
  | .checkAndSet _ _ => Bool
  | .enqueue _ _ => Except QueueFull Unit
  | .timestamp => Int64

/-- What the environment picks for a call: the error of a statement, the time,
and whether the queue has no room. -/
structure Outcome where
  fault : Option String
  seconds : Int64
  queueFull : Bool

/-- `UPDATE inbox SET status = ?1, updated_at = unixepoch()`. -/
def InboxEntry.setStatus (status : InboxStatus) (unixepoch : Int64) (row : InboxEntry) :
    InboxEntry :=
  { row with status := status, updatedAt := unixepoch }

theorem InboxEntry.setStatus_id (status : InboxStatus) (unixepoch : Int64) (row : InboxEntry) :
    (row.setStatus status unixepoch).id = row.id :=
  rfl

/-- `INSERT OR IGNORE INTO inbox`. -/
def World.insert (w : World) (entry : InboxEntry) : World :=
  { w with inbox := w.inbox.insertOrIgnore entry }

/-- `UPDATE inbox … WHERE id = ?2`. -/
def World.markStatus (w : World) (id : String) (status : InboxStatus) (unixepoch : Int64) :
    World :=
  { w with
    inbox := w.inbox.update id (.setStatus status unixepoch)
      (InboxEntry.setStatus_id status unixepoch) }

/-- A statement that yields `a` and leaves `w'`, or fails. -/
def statement {α : Type} (w : World) (o : Outcome) (a : α) (w' : World) :
    Except String α × World :=
  match o.fault with
  | some e => (.error e, w)
  | none => (.ok a, w')

/-- What a call yields and leaves behind. -/
def handle (w : World) (o : Outcome) : (call : Call) → call.Reply × World
  | .inboxExists id => statement w o (w.inbox.find? id).isSome w
  | .inboxInsert entry => statement w o () (w.insert entry)
  | .inboxMarkStatus id status => statement w o () (w.markStatus id status o.seconds)
  | .checkAndSet channel msgId =>
    -- `get_with` is one step: it looks the key up and sets it
    match w.dedup.insert ⟨channel, msgId⟩ with
    | none => (false, w)
    | some dedup => (true, { w with dedup := dedup })
  | .enqueue _ msg =>
    if o.queueFull then (.error ⟨msg.id⟩, w)
    else (.ok (), { w with enqueued := msg :: w.enqueued })
  | .timestamp => (o.seconds, w)

/-! ## The programs -/

abbrev Work := Prog Call.Reply

def call (c : Call) : Work c.Reply := .perform c

inductive InboxResult where
  | processed | duplicate
  deriving DecidableEq

/-- `process_inbound` -/
def processInbound (msg : Message) : Work (Except String InboxResult) := do
  match ← call (.inboxExists msg.id) with
  | .error e => pure (.error e)
  | .ok true => pure (.ok .duplicate)
  | .ok false =>
    let now ← call .timestamp
    let entry := InboxEntry.new msg.id msg.routeKey.channel.name msg.routeKey.conversationId now
    match ← call (.inboxInsert entry) with
    | .error e => pure (.error e)
    | .ok () =>
      match ← call (.inboxMarkStatus msg.id .processing) with
      | .error e => pure (.error e)
      | .ok () =>
        match ← call (.inboxMarkStatus msg.id .processed) with
        | .error e => pure (.error e)
        | .ok () => pure (.ok .processed)

inductive RouteOutcome where
  | enqueued
  | duplicate
  | dropped (messageId : String)
  deriving DecidableEq

/-- `route_message` -/
def routeMessage (msg : Message) : Work RouteOutcome := do
  match ← call (.checkAndSet msg.routeKey.channel.name msg.id) with
  | false => pure .duplicate
  | true =>
    match ← call (.enqueue msg.routeKey msg) with
    | .ok () => pure .enqueued
    | .error full => pure (.dropped full.messageId)

/-- What becomes of a delivery. -/
inductive Answer where
  | storageError (e : String)
  | duplicate
  | enqueued
  | dropped (messageId : String)
  deriving DecidableEq

/-- What the webhook handler and the inbound loop do with a message. -/
def handleInbound (msg : Message) : Work Answer := do
  match ← processInbound msg with
  | .error e => pure (.storageError e)
  | .ok .duplicate => pure .duplicate
  | .ok .processed =>
    match ← routeMessage msg with
    | .enqueued => pure .enqueued
    | .duplicate => pure .duplicate
    | .dropped messageId => pure (.dropped messageId)

/-! ## Deliveries -/

/-- A message that comes in, and how each call goes that is made for it.  No
call is made twice.  The process stops at the call for which there is no
outcome. -/
structure Delivery where
  msg : Message
  env : Call → Option Outcome

def dedupEntry (msg : Message) : DedupEntry := ⟨msg.routeKey.channel.name, msg.id⟩

/-- The process starts again: the cache is empty, the table is as it was. -/
def World.restart (w : World) : World := { w with dedup := KeyedTable.empty }

/-- What is answered to a delivery, if it comes to an answer. -/
def World.answer (w : World) (d : Delivery) : Option Answer :=
  ((handleInbound d.msg).exec handle d.env w).1

/-- What a delivery leaves behind. -/
def World.deliver (w : World) (d : Delivery) : World :=
  match (handleInbound d.msg).exec handle d.env w with
  | (some _, w') => w'
  | (none, w') => w'.restart

/-- What happens to the filters. -/
inductive Event where
  | deliver (d : Delivery)
  /-- the time to live of an entry of the cache is over, or it is evicted -/
  | expire (key : String)

def World.after (w : World) : Event → World
  | .deliver d => w.deliver d
  | .expire key => { w with dedup := w.dedup.delete key }

/-! ## What the table records -/

/-- The channel under which the table has an id. -/
def World.recorded (w : World) (id : String) : Option String :=
  (w.inbox.find? id).map InboxEntry.channel

theorem isSome_find?_eq (w : World) (id : String) :
    (w.inbox.find? id).isSome = (w.recorded id).isSome := by
  simp [World.recorded]

/-- An insert records an id that was not recorded. -/
theorem recorded_insert (w : World) (entry : InboxEntry) (id : String) :
    (w.insert entry).recorded id =
      if id = entry.id then some ((w.recorded id).getD entry.channel) else w.recorded id := by
  have hfind := KeyedTable.find?_insertOrIgnore w.inbox entry id
  show ((w.inbox.insertOrIgnore entry).find? id).map InboxEntry.channel = _
  rw [hfind]
  by_cases hid : id = entry.id
  · rw [if_pos hid, if_pos hid]
    unfold World.recorded
    cases w.inbox.find? id <;> rfl
  · rw [if_neg hid, if_neg hid]
    rfl

/-- An update of the status records nothing. -/
theorem recorded_markStatus (w : World) (k : String) (status : InboxStatus) (seconds : Int64)
    (id : String) : (w.markStatus k status seconds).recorded id = w.recorded id := by
  unfold World.recorded World.markStatus
  rw [KeyedTable.find?_update]
  by_cases hid : id = k
  · subst hid
    rw [if_pos rfl]
    cases w.inbox.find? id <;> rfl
  · rw [if_neg hid]

@[simp] theorem recorded_restart (w : World) (id : String) :
    w.restart.recorded id = w.recorded id := rfl

/-! ## How far a delivery gets -/

/-- The call is made, and works. -/
def Delivery.Works (d : Delivery) (c : Call) : Prop := ∃ o, d.env c = some o ∧ o.fault = none

/-- The entry that is inserted for a message. -/
def inboxEntry (msg : Message) (now : Int64) : InboxEntry :=
  InboxEntry.new msg.id msg.routeKey.channel.name msg.routeKey.conversationId now

/-- The lookup in the table works. -/
def Delivery.LooksUp (d : Delivery) : Prop := d.Works (.inboxExists d.msg.id)

/-- The clock is read, and the insert works. -/
def Delivery.Inserts (d : Delivery) : Prop :=
  ∃ o, d.env .timestamp = some o ∧ d.Works (.inboxInsert (inboxEntry d.msg o.seconds))

/-- Both updates of the status work. -/
def Delivery.Marks (d : Delivery) : Prop :=
  d.Works (.inboxMarkStatus d.msg.id .processing) ∧ d.Works (.inboxMarkStatus d.msg.id .processed)

/-- The cache is asked. -/
def Delivery.Checks (d : Delivery) : Prop :=
  (d.env (.checkAndSet d.msg.routeKey.channel.name d.msg.id)).isSome

/-- `w'` is `w` with a message recorded in the table. -/
structure RecordedIn (msg : Message) (w w' : World) : Prop where
  recorded : ∀ id, w'.recorded id =
    if id = msg.id then some msg.routeKey.channel.name else w.recorded id
  dedup_eq : w'.dedup = w.dedup

theorem statement_of_works {α : Type} {o : Outcome} (h : o.fault = none) (w : World) (a : α)
    (w' : World) : statement w o a w' = (.ok a, w') := by
  rw [statement, h]

theorem statement_of_fails {α : Type} {o : Outcome} {e : String} (h : o.fault = some e)
    (w : World) (a : α) (w' : World) : statement w o a w' = (.error e, w) := by
  rw [statement, h]

/-- The call is not made, or fails. -/
theorem Delivery.not_works {d : Delivery} {c : Call} (h : ¬ d.Works c) :
    d.env c = none ∨ ∃ o e, d.env c = some o ∧ o.fault = some e := by
  cases ho : d.env c with
  | none => exact Or.inl rfl
  | some o =>
    cases hfault : o.fault with
    | none => exact absurd ⟨o, ho, hfault⟩ h
    | some e => exact Or.inr ⟨o, e, rfl, hfault⟩

/-- `process_inbound` came to no result but an error. -/
def Failed (r : Option (Except String InboxResult)) : Prop := ∀ result, r ≠ some (.ok result)

theorem failed_none : Failed none := by
  intro result h
  exact absurd h (by simp)

theorem failed_error (e : String) : Failed (some (.error e)) := by
  intro result h
  exact absurd h (by simp)

section ProcessInbound

variable {d : Delivery}

/-- The lookup does not come to an answer. -/
theorem exec_of_not_looksUp (h : ¬ d.LooksUp) :
    ∃ r, Failed r ∧ ∀ w, (processInbound d.msg).exec handle d.env w = (r, w) := by
  rcases Delivery.not_works h with ho | ⟨o, e, ho, hfault⟩
  · refine ⟨none, failed_none, fun w => ?_⟩
    simp [processInbound, call, exec_bind, exec_perform, ho]
  · refine ⟨some (.error e), failed_error e, fun w => ?_⟩
    simp [processInbound, call, exec_bind, exec_perform, ho, handle, statement_of_fails hfault]

/-- The message is recorded already. -/
theorem exec_of_recorded {w : World} (h : d.LooksUp) (hrec : w.recorded d.msg.id ≠ none) :
    (processInbound d.msg).exec handle d.env w = (some (.ok .duplicate), w) := by
  obtain ⟨o, ho, hfault⟩ := h
  have hfound : (w.inbox.find? d.msg.id).isSome = true := by
    rw [isSome_find?_eq]
    exact Option.isSome_iff_ne_none.mpr hrec
  simp [processInbound, call, exec_bind, exec_perform, ho, handle, statement_of_works hfault, hfound]

/-- The message does not come into the table. -/
theorem exec_of_not_inserts (hlook : d.LooksUp) (h : ¬ d.Inserts) :
    ∃ r, Failed r ∧ ∀ w, w.recorded d.msg.id = none →
      (processInbound d.msg).exec handle d.env w = (r, w) := by
  obtain ⟨o, ho, hfault⟩ := hlook
  have hfree : ∀ w : World, w.recorded d.msg.id = none → (w.inbox.find? d.msg.id).isSome = false := by
    intro w hrec
    rw [isSome_find?_eq, hrec]
    rfl
  cases hclock : d.env .timestamp with
  | none =>
    refine ⟨none, failed_none, fun w hrec => ?_⟩
    simp [processInbound, call, exec_bind, exec_perform, ho, handle, statement_of_works hfault,
      hfree w hrec, hclock]
  | some o' =>
    have hinsert : ¬ d.Works (.inboxInsert (inboxEntry d.msg o'.seconds)) := fun hw => h ⟨o', hclock, hw⟩
    unfold inboxEntry at hinsert
    rcases Delivery.not_works hinsert with ho' | ⟨o'', e, ho', hfault'⟩
    · refine ⟨none, failed_none, fun w hrec => ?_⟩
      simp [processInbound, call, exec_bind, exec_perform, ho, handle, statement_of_works hfault,
        hfree w hrec, hclock, ho']
    · refine ⟨some (.error e), failed_error e, fun w hrec => ?_⟩
      simp [processInbound, call, exec_bind, exec_perform, ho, handle, statement_of_works hfault,
        hfree w hrec, hclock, ho', statement_of_fails hfault']

theorem recordedIn_insert {msg : Message} {w : World} (hfree : w.recorded msg.id = none)
    (now : Int64) : RecordedIn msg w (w.insert (inboxEntry msg now)) := by
  refine ⟨fun id => ?_, rfl⟩
  have hins := recorded_insert w (inboxEntry msg now) id
  by_cases hid : id = msg.id
  · subst hid
    rw [hins, hfree]
    rfl
  · rw [hins, if_neg hid]
    exact if_neg hid

theorem RecordedIn.markStatus {msg : Message} {w w' : World} (h : RecordedIn msg w w') (k : String)
    (status : InboxStatus) (seconds : Int64) :
    RecordedIn msg w (w'.markStatus k status seconds) := by
  refine ⟨fun id => ?_, h.dedup_eq⟩
  rw [recorded_markStatus, h.recorded]

/-- The end of `process_inbound`: the two updates of the status. -/
def markInbound (msg : Message) : Work (Except String InboxResult) := do
  match ← call (.inboxMarkStatus msg.id .processing) with
  | .error e => pure (.error e)
  | .ok () =>
    match ← call (.inboxMarkStatus msg.id .processed) with
    | .error e => pure (.error e)
    | .ok () => pure (.ok .processed)

theorem exec_markInbound (d : Delivery) :
    ∃ r, (d.Marks → r = some (.ok .processed)) ∧ (¬ d.Marks → Failed r) ∧
      ∀ w₀ w, RecordedIn d.msg w₀ w →
        ∃ w', (markInbound d.msg).exec handle d.env w = (r, w') ∧ RecordedIn d.msg w₀ w' := by
  by_cases hfirst : d.Works (.inboxMarkStatus d.msg.id .processing)
  · obtain ⟨o, ho, hfault⟩ := hfirst
    by_cases hsecond : d.Works (.inboxMarkStatus d.msg.id .processed)
    · have hmarks : d.Marks := ⟨⟨o, ho, hfault⟩, hsecond⟩
      obtain ⟨o', ho', hfault'⟩ := hsecond
      refine ⟨_, fun _ => rfl, fun hnot => absurd hmarks hnot, fun w₀ w hw => ⟨_, ?_,
        (hw.markStatus d.msg.id .processing o.seconds).markStatus d.msg.id .processed o'.seconds⟩⟩
      simp [markInbound, call, exec_bind, exec_perform, ho, handle, statement_of_works hfault, ho',
        statement_of_works hfault']
    · have hmarks : ¬ d.Marks := fun hm => hsecond hm.2
      rcases Delivery.not_works hsecond with ho' | ⟨o', e, ho', hfault'⟩
      · refine ⟨none, fun hm => absurd hm hmarks, fun _ => failed_none, fun w₀ w hw => ⟨_, ?_,
          hw.markStatus d.msg.id .processing o.seconds⟩⟩
        simp [markInbound, call, exec_bind, exec_perform, ho, handle, statement_of_works hfault, ho']
      · refine ⟨_, fun hm => absurd hm hmarks, fun _ => failed_error e, fun w₀ w hw => ⟨_, ?_,
          hw.markStatus d.msg.id .processing o.seconds⟩⟩
        simp [markInbound, call, exec_bind, exec_perform, ho, handle, statement_of_works hfault, ho',
          statement_of_fails hfault']
  · have hmarks : ¬ d.Marks := fun hm => hfirst hm.1
    rcases Delivery.not_works hfirst with ho | ⟨o, e, ho, hfault⟩
    · refine ⟨none, fun hm => absurd hm hmarks, fun _ => failed_none, fun w₀ w hw => ⟨w, ?_, hw⟩⟩
      simp [markInbound, call, exec_bind, exec_perform, ho]
    · refine ⟨_, fun hm => absurd hm hmarks, fun _ => failed_error e, fun w₀ w hw => ⟨w, ?_, hw⟩⟩
      simp [markInbound, call, exec_bind, exec_perform, ho, handle, statement_of_fails hfault]

/-- The message comes into the table, and its status is updated or not. -/
theorem exec_of_inserts (hlook : d.LooksUp) (h : d.Inserts) :
    ∃ r, (d.Marks → r = some (.ok .processed)) ∧ (¬ d.Marks → Failed r) ∧
      ∀ w, w.recorded d.msg.id = none →
        ∃ w', (processInbound d.msg).exec handle d.env w = (r, w') ∧ RecordedIn d.msg w w' := by
  obtain ⟨o, ho, hfault⟩ := hlook
  obtain ⟨o₁, hclock, o₂, hinsert, hfault₂⟩ := h
  obtain ⟨r, hmarks, hfails, hexec⟩ := exec_markInbound d
  refine ⟨r, hmarks, hfails, fun w hrec => ?_⟩
  have hfree : (w.inbox.find? d.msg.id).isSome = false := by
    rw [isSome_find?_eq, hrec]
    rfl
  have hrest : (processInbound d.msg).exec handle d.env w =
      (markInbound d.msg).exec handle d.env (w.insert (inboxEntry d.msg o₁.seconds)) := by
    unfold inboxEntry at hinsert
    simp [processInbound, markInbound, call, exec_bind, exec_perform, ho, handle,
      statement_of_works hfault, hfree, hclock, hinsert, statement_of_works hfault₂, inboxEntry]
  rw [hrest]
  exact hexec w _ (recordedIn_insert hrec o₁.seconds)

/-- A message that is not recorded is not taken for a duplicate. -/
theorem ne_duplicate_of_not_recorded {w : World} (hrec : w.recorded d.msg.id = none) :
    ((processInbound d.msg).exec handle d.env w).1 ≠ some (.ok .duplicate) := by
  by_cases hlook : d.LooksUp
  · by_cases hinserts : d.Inserts
    · obtain ⟨r, hmarks, hfails, hexec⟩ := exec_of_inserts hlook hinserts
      obtain ⟨w', hw', _⟩ := hexec w hrec
      rw [hw']
      by_cases hm : d.Marks
      · rw [hmarks hm]
        simp
      · exact hfails hm .duplicate
    · obtain ⟨r, hr, hexec⟩ := exec_of_not_inserts hlook hinserts
      rw [hexec w hrec]
      exact hr .duplicate
  · obtain ⟨r, hr, hexec⟩ := exec_of_not_looksUp hlook
    rw [hexec w]
    exact hr .duplicate

end ProcessInbound

/-! ## What a delivery does -/

section HandleInbound

variable {d : Delivery} {w w' : World}

/-- The cache has the key of the message. -/
def World.Marked (w : World) (msg : Message) : Prop := w.dedup.find? (dedupEntry msg).key ≠ none

/-- The delivery gets to the cache. -/
def Delivery.Reaches (d : Delivery) : Prop := d.Inserts ∧ d.Marks ∧ d.Checks

/-- The answer to a delivery that `process_inbound` ends with an error or a
crash. -/
def failedAnswer : Option (Except String InboxResult) → Option Answer
  | some (.error e) => some (.storageError e)
  | _ => none

theorem failedAnswer_ne (r : Option (Except String InboxResult)) :
    failedAnswer r ≠ some .duplicate := by
  unfold failedAnswer
  split <;> simp

theorem exec_handle_of_failed {r : Option (Except String InboxResult)} (hr : Failed r)
    (h : (processInbound d.msg).exec handle d.env w = (r, w')) :
    (handleInbound d.msg).exec handle d.env w = (failedAnswer r, w') := by
  unfold handleInbound
  rw [exec_bind, h]
  match r, hr with
  | none, _ => rfl
  | some (.error e), _ => rfl
  | some (.ok result), hr => exact absurd rfl (hr result)

theorem exec_handle_of_duplicate
    (h : (processInbound d.msg).exec handle d.env w = (some (.ok .duplicate), w')) :
    (handleInbound d.msg).exec handle d.env w = (some .duplicate, w') := by
  unfold handleInbound
  rw [exec_bind, h]
  rfl

/-- The cache is not asked. -/
theorem exec_handle_of_not_checks (hchecks : ¬ d.Checks)
    (h : (processInbound d.msg).exec handle d.env w = (some (.ok .processed), w')) :
    (handleInbound d.msg).exec handle d.env w = (none, w') := by
  have ho : d.env (.checkAndSet d.msg.routeKey.channel.name d.msg.id) = none := by
    simpa [Delivery.Checks] using hchecks
  unfold handleInbound
  rw [exec_bind, h]
  simp [routeMessage, call, exec_bind, exec_perform, ho]

/-- The cache has the key. -/
theorem exec_handle_of_marked (hchecks : d.Checks) (hmarked : w'.Marked d.msg)
    (h : (processInbound d.msg).exec handle d.env w = (some (.ok .processed), w')) :
    (handleInbound d.msg).exec handle d.env w = (some .duplicate, w') := by
  obtain ⟨o, ho⟩ := Option.isSome_iff_exists.mp hchecks
  have hinsert : w'.dedup.insert ⟨d.msg.routeKey.channel.name, d.msg.id⟩ = none :=
    KeyedTable.insert_eq_none hmarked
  unfold handleInbound
  rw [exec_bind, h]
  simp [routeMessage, call, exec_bind, exec_perform, ho, handle, hinsert]

/-- The cache does not have the key. -/
theorem exec_handle_of_not_marked (hchecks : d.Checks) :
    ∃ a, a ≠ some .duplicate ∧ ∀ w w', ¬ w'.Marked d.msg →
      (processInbound d.msg).exec handle d.env w = (some (.ok .processed), w') →
      ∃ w'', (handleInbound d.msg).exec handle d.env w = (a, w'') ∧ w''.inbox = w'.inbox ∧
        ∀ entry ∈ w''.dedup.rows, entry ∈ w'.dedup.rows ∨ entry = dedupEntry d.msg := by
  obtain ⟨o, ho⟩ := Option.isSome_iff_exists.mp hchecks
  have hinsert : ∀ w' : World, ¬ w'.Marked d.msg → ∃ dedup,
      w'.dedup.insert ⟨d.msg.routeKey.channel.name, d.msg.id⟩ = some dedup ∧
      dedup.rows = w'.dedup.rows ++ [dedupEntry d.msg] := fun w' hfree =>
    ⟨_, KeyedTable.insert_eq_some (not_not.mp hfree), rfl⟩
  have hrows : ∀ {rows rows' : List DedupEntry}, rows' = rows ++ [dedupEntry d.msg] →
      ∀ entry ∈ rows', entry ∈ rows ∨ entry = dedupEntry d.msg := by
    intro rows rows' heq entry hentry
    rw [heq] at hentry
    rcases List.mem_append.mp hentry with hentry | hentry
    · exact Or.inl hentry
    · exact Or.inr (List.mem_singleton.mp hentry)
  cases ho' : d.env (.enqueue d.msg.routeKey d.msg) with
  | none =>
    refine ⟨none, by simp, fun w w' hfree h => ?_⟩
    obtain ⟨dedup, hset, heq⟩ := hinsert w' hfree
    refine ⟨{ w' with dedup := dedup }, ?_, rfl, hrows heq⟩
    unfold handleInbound
    rw [exec_bind, h]
    simp [routeMessage, call, exec_bind, exec_perform, ho, handle, hset, ho']
  | some o' =>
    by_cases hfull : o'.queueFull = true
    · refine ⟨some (.dropped d.msg.id), by simp, fun w w' hfree h => ?_⟩
      obtain ⟨dedup, hset, heq⟩ := hinsert w' hfree
      refine ⟨{ w' with dedup := dedup }, ?_, rfl, hrows heq⟩
      unfold handleInbound
      rw [exec_bind, h]
      simp [routeMessage, call, exec_bind, exec_perform, ho, handle, hset, ho', hfull]
    · refine ⟨some .enqueued, by simp, fun w w' hfree h => ?_⟩
      obtain ⟨dedup, hset, heq⟩ := hinsert w' hfree
      refine ⟨{ w' with dedup := dedup, enqueued := d.msg :: w'.enqueued }, ?_, rfl, hrows heq⟩
      unfold handleInbound
      rw [exec_bind, h]
      simp [routeMessage, call, exec_bind, exec_perform, ho, handle, hset, ho', hfull]

/-- The delivery is answered as a duplicate. -/
def World.Repeats (w : World) (d : Delivery) : Prop :=
  d.LooksUp ∧ (w.recorded d.msg.id ≠ none ∨ (d.Reaches ∧ w.Marked d.msg))

/-- The message comes into the table with this delivery. -/
def World.Stores (w : World) (d : Delivery) : Prop :=
  d.LooksUp ∧ d.Inserts ∧ w.recorded d.msg.id = none

/-- What is left in the table and the cache after a delivery, or at its
crash. -/
structure LeftBy (d : Delivery) (w w' : World) : Prop where
  stored : w.Stores d → ∀ id, w'.recorded id =
    if id = d.msg.id then some d.msg.routeKey.channel.name else w.recorded id
  kept : ¬ w.Stores d → ∀ id, w'.recorded id = w.recorded id
  dedup : ∀ entry ∈ w'.dedup.rows, entry ∈ w.dedup.rows ∨ (entry = dedupEntry d.msg ∧ w.Stores d)

/-- Nothing has changed. -/
theorem leftBy_self (h : ¬ w.Stores d) : LeftBy d w w :=
  ⟨fun hs => absurd hs h, fun _ _ => rfl, fun _ hentry => Or.inl hentry⟩

theorem RecordedIn.leftBy (hrec : RecordedIn d.msg w w') (hstores : w.Stores d) {w'' : World}
    (hinbox : w''.inbox = w'.inbox)
    (hdedup : ∀ entry ∈ w''.dedup.rows, entry ∈ w'.dedup.rows ∨ entry = dedupEntry d.msg) :
    LeftBy d w w'' := by
  refine ⟨fun _ id => ?_, fun hs => absurd hstores hs, fun entry hentry => ?_⟩
  · have : w''.recorded id = w'.recorded id := by
      unfold World.recorded
      rw [hinbox]
    rw [this, hrec.recorded]
  · rw [← hrec.dedup_eq]
    exact (hdedup entry hentry).imp id fun heq => ⟨heq, hstores⟩

/-- The effect of a delivery of a message that is not recorded, when the
lookup works. -/
theorem exec_handle_of_free (hlook : d.LooksUp) :
    ∃ a, a ≠ some .duplicate ∧ ∀ w : World, w.recorded d.msg.id = none → ∃ w', LeftBy d w w' ∧
      (d.Reaches ∧ w.Marked d.msg →
        (handleInbound d.msg).exec handle d.env w = (some .duplicate, w')) ∧
      (¬ (d.Reaches ∧ w.Marked d.msg) → (handleInbound d.msg).exec handle d.env w = (a, w')) := by
  by_cases hinserts : d.Inserts
  · obtain ⟨r, hmarks, hfailed, hexec⟩ := exec_of_inserts hlook hinserts
    by_cases hm : d.Marks
    · rw [hmarks hm] at hexec
      by_cases hchecks : d.Checks
      · obtain ⟨a, ha, hfree⟩ := exec_handle_of_not_marked hchecks
        refine ⟨a, ha, fun w hrec => ?_⟩
        obtain ⟨w', hw', hrecorded⟩ := hexec w hrec
        have hstores : w.Stores d := ⟨hlook, hinserts, hrec⟩
        have hsame : w'.Marked d.msg ↔ w.Marked d.msg := by
          unfold World.Marked
          rw [hrecorded.dedup_eq]
        by_cases hmarked : w.Marked d.msg
        · refine ⟨w', hrecorded.leftBy hstores rfl fun _ h => Or.inl h, fun _ => ?_, fun hn => ?_⟩
          · exact exec_handle_of_marked hchecks (hsame.mpr hmarked) hw'
          · exact absurd ⟨⟨hinserts, hm, hchecks⟩, hmarked⟩ hn
        · obtain ⟨w'', hw'', hinbox, hdedup⟩ := hfree w w' (fun h => hmarked (hsame.mp h)) hw'
          refine ⟨w'', hrecorded.leftBy hstores hinbox hdedup, fun h => ?_, fun _ => hw''⟩
          exact absurd h.2 hmarked
      · refine ⟨none, by simp, fun w hrec => ?_⟩
        obtain ⟨w', hw', hrecorded⟩ := hexec w hrec
        refine ⟨w', hrecorded.leftBy ⟨hlook, hinserts, hrec⟩ rfl fun _ h => Or.inl h, fun h => ?_,
          fun _ => exec_handle_of_not_checks hchecks hw'⟩
        exact absurd h.1.2.2 hchecks
    · refine ⟨failedAnswer r, failedAnswer_ne r, fun w hrec => ?_⟩
      obtain ⟨w', hw', hrecorded⟩ := hexec w hrec
      refine ⟨w', hrecorded.leftBy ⟨hlook, hinserts, hrec⟩ rfl fun _ h => Or.inl h, fun h => ?_,
        fun _ => exec_handle_of_failed (hfailed hm) hw'⟩
      exact absurd h.1.2.1 hm
  · obtain ⟨r, hr, hexec⟩ := exec_of_not_inserts hlook hinserts
    refine ⟨failedAnswer r, failedAnswer_ne r, fun w hrec => ⟨w, ?_, fun h => ?_, fun _ => ?_⟩⟩
    · exact leftBy_self fun hs => hinserts hs.2.1
    · exact absurd h.1.1 hinserts
    · exact exec_handle_of_failed hr (hexec w hrec)

/-- The whole effect of a delivery.  What the table and the cache hold matters
for the answer only where it is that the message is a duplicate. -/
theorem exec_handle_cases (d : Delivery) :
    ∃ a, a ≠ some .duplicate ∧ ∀ w : World, ∃ w', LeftBy d w w' ∧
      (w.Repeats d → (handleInbound d.msg).exec handle d.env w = (some .duplicate, w')) ∧
      (¬ w.Repeats d → (handleInbound d.msg).exec handle d.env w = (a, w')) := by
  by_cases hlook : d.LooksUp
  · obtain ⟨a, ha, hfree⟩ := exec_handle_of_free hlook
    refine ⟨a, ha, fun w => ?_⟩
    by_cases hrec : w.recorded d.msg.id = none
    · obtain ⟨w', hleft, hdup, hnot⟩ := hfree w hrec
      refine ⟨w', hleft, fun h => hdup (h.2.resolve_left fun hn => hn hrec), fun h => hnot fun hr => ?_⟩
      exact h ⟨hlook, Or.inr hr⟩
    · have hrepeats : w.Repeats d := ⟨hlook, Or.inl hrec⟩
      refine ⟨w, leftBy_self fun hs => hrec hs.2.2, fun _ => ?_, fun hn => absurd hrepeats hn⟩
      exact exec_handle_of_duplicate (exec_of_recorded hlook hrec)
  · obtain ⟨r, hr, hexec⟩ := exec_of_not_looksUp hlook
    refine ⟨failedAnswer r, failedAnswer_ne r, fun w => ⟨w, leftBy_self fun hs => hlook hs.1, ?_, ?_⟩⟩
    · exact fun hrepeats => absurd hrepeats.1 hlook
    · exact fun _ => exec_handle_of_failed hr (hexec w)

theorem answer_eq_duplicate_iff (w : World) (d : Delivery) :
    w.answer d = some .duplicate ↔ w.Repeats d := by
  obtain ⟨a, ha, hcases⟩ := exec_handle_cases d
  obtain ⟨w', _, hdup, hnot⟩ := hcases w
  unfold World.answer
  by_cases h : w.Repeats d
  · rw [hdup h]
    exact iff_of_true rfl h
  · rw [hnot h]
    exact iff_of_false ha h

/-- Two states that do not have the message as a duplicate give the same
answer. -/
theorem answer_eq_of_not_repeats {w v : World} (hw : ¬ w.Repeats d) (hv : ¬ v.Repeats d) :
    w.answer d = v.answer d := by
  obtain ⟨a, _, hcases⟩ := exec_handle_cases d
  obtain ⟨_, _, _, hnot⟩ := hcases w
  obtain ⟨_, _, _, hnot'⟩ := hcases v
  unfold World.answer
  rw [hnot hw, hnot' hv]

theorem LeftBy.restart {w' : World} (h : LeftBy d w w') : LeftBy d w w'.restart :=
  ⟨h.stored, h.kept, fun _ hentry => absurd hentry List.not_mem_nil⟩

theorem leftBy_deliver (w : World) (d : Delivery) : LeftBy d w (w.deliver d) := by
  obtain ⟨a, _, hcases⟩ := exec_handle_cases d
  obtain ⟨w', hleft, hdup, hnot⟩ := hcases w
  unfold World.deliver
  by_cases h : w.Repeats d
  · rw [hdup h]
    exact hleft
  · rw [hnot h]
    cases a with
    | none => exact hleft.restart
    | some a => exact hleft

end HandleInbound

/-! ## Ingredients of concrete runs -/

/-- The outcome of a call that works. -/
def works : Outcome := ⟨none, 1700000000, false⟩

/-- Every call works. -/
def allWork (_ : Call) : Option Outcome := some works

/-- A message to the default account. -/
def hello : Message :=
  .newInbound "om_1" ⟨⟨"feishu"⟩, "oc_1", "ou_1", .group⟩ none 1700000000000 (.text "hello")

end MagicLaw.Inbound
