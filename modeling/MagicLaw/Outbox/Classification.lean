import MagicLaw.Outbox.Worker
import MagicLaw.Routing.ReorderWindow

/-!
# Terminal errors and the outbox

The errors of `domain/error.rs` that a channel returns, and the way they take
to the outbox worker: `send_via` of `channels/registry.rs`, the
`RegistryOutboxSender` of `infrastructure/runtime.rs`, which turns the error
into its text, and the `ResilientOutboxSender` of
`application/resilient_sender.rs`.

The worker sees the text only, so whether it tries again depends on the retry
count and not on the error.  `classified_iff` says for which attempts the
entry is still treated as the error's class asks.
-/

namespace MagicLaw.Outbox

open Lib Lib.Program
open MagicLaw.Routing (ChannelId RouteKey MessageContent)

/-! ## The errors of a channel -/

inductive ChannelError where
  | transport (detail : String)
  | authExpired (errcode : Int64) (detail : String)
  | rateLimited (retryAfterSecs : UInt64)
  | invalidRecipient (detail : String)
  | contentRejected (detail : String)
  | unsupported (detail : String)
  | internal (detail : String)
  deriving DecidableEq, Repr

/-- `Display`, as `thiserror` derives it. -/
def ChannelError.toString : ChannelError → String
  | .transport detail => s!"transport error: {detail}"
  | .authExpired errcode detail => s!"authentication expired (errcode={errcode}): {detail}"
  | .rateLimited retryAfterSecs => s!"rate limited, retry after {retryAfterSecs}s"
  | .invalidRecipient detail => s!"invalid recipient: {detail}"
  | .contentRejected detail => s!"content rejected: {detail}"
  | .unsupported detail => s!"unsupported operation: {detail}"
  | .internal detail => s!"internal error: {detail}"

def ChannelError.isRetryable : ChannelError → Bool
  | .transport _ | .rateLimited _ => true
  | _ => false

def ChannelError.isTerminal : ChannelError → Bool
  | .authExpired _ _ | .invalidRecipient _ | .contentRejected _ | .unsupported _
  | .internal _ => true
  | _ => false

/-- The two classes share no error and leave none out. -/
theorem ChannelError.isTerminal_eq (e : ChannelError) : e.isTerminal = !e.isRetryable := by
  cases e <;> rfl

/-! ## The way of an error to the worker -/

structure SendReceipt where
  messageId : String
  platformMsgId : Option String
  timestampMs : Int64

/-- `ChannelRegistry`: what `send_message` of each registered channel returns
for a recipient and a content. -/
structure ChannelRegistry where
  channels : ChannelId → Option (String → MessageContent → Except ChannelError SendReceipt)

def ChannelRegistry.sendVia (registry : ChannelRegistry) (channelId : ChannelId)
    (recipient : String) (content : MessageContent) : Except ChannelError SendReceipt :=
  match registry.channels channelId with
  | none => .error (.invalidRecipient s!"channel not found: {channelId.name}")
  | some sendMessage => sendMessage recipient content

/-- What `serde_json::from_str` reads from the columns of a row. -/
structure RowCodec where
  routeKey : String → Except String RouteKey
  payload : String → Except String MessageContent

/-- `RegistryOutboxSender::send`. -/
def registrySend (codec : RowCodec) (registry : ChannelRegistry) (entry : OutboxEntry) :
    Except String Unit := do
  let routeKey ← (codec.routeKey entry.routeKey).mapError
    fun e => s!"invalid route_key payload: {e}"
  let payload ← (codec.payload entry.payload).mapError
    fun e => s!"invalid message payload: {e}"
  match registry.sendVia routeKey.channel routeKey.peerId payload with
  | .error e => .error e.toString
  | .ok _ => pure ()

/-- `ResilientOutboxSender::send`: what the gate refuses is not sent. -/
def resilientSend (refusal : Option String) (codec : RowCodec) (registry : ChannelRegistry)
    (entry : OutboxEntry) : Except String Unit :=
  match refusal with
  | some e => .error e
  | none => registrySend codec registry entry

/-- The channel's send of an entry, through `send_via`, returns an error. -/
def ChannelFails (codec : RowCodec) (registry : ChannelRegistry) (entry : OutboxEntry)
    (e : ChannelError) : Prop :=
  ∃ routeKey payload, codec.routeKey entry.routeKey = .ok routeKey ∧
    codec.payload entry.payload = .ok payload ∧
    registry.sendVia routeKey.channel routeKey.peerId payload = .error e

/-- The worker gets the text of the error. -/
theorem resilientSend_of_channelFails {codec : RowCodec} {registry : ChannelRegistry}
    {entry : OutboxEntry} {e : ChannelError} (h : ChannelFails codec registry entry e) :
    resilientSend none codec registry entry = .error e.toString := by
  obtain ⟨routeKey, payload, hroute, hpayload, hvia⟩ := h
  unfold resilientSend registrySend
  rw [hroute, hpayload]
  show (match registry.sendVia routeKey.channel routeKey.peerId payload with
    | .error e => Except.error e.toString
    | .ok _ => pure ()) = _
  rw [hvia]

/-! ## An attempt -/

/-- The call is made, and does not fail. -/
def CallWorks (env : Call → Option Outcome) (c : Call) : Prop :=
  ∃ o, env c = some o ∧ o.fault = none

/-- An attempt to deliver an entry that gets as far as the channel, whose send
fails with `e`.  What comes after the send, and whether it comes at all, is
left to the environment. -/
structure FailedAttempt (codec : RowCodec) (registry : ChannelRegistry) (entry : OutboxEntry)
    (e : ChannelError) (env : Call → Option Outcome) : Prop where
  channelFails : ChannelFails codec registry entry e
  marked : CallWorks env (.markStatus entry.id .sending none)
  sent : ∃ o, env (.send entry) = some o ∧
    (match o.fault with
      | some err => Except.error err
      | none => .ok ()) = resilientSend none codec registry entry

theorem FailedAttempt.exists_fault {codec : RowCodec} {registry : ChannelRegistry}
    {entry : OutboxEntry} {e : ChannelError} {env : Call → Option Outcome}
    (h : FailedAttempt codec registry entry e env) :
    ∃ o, env (.send entry) = some o ∧ o.fault = some e.toString := by
  obtain ⟨o, ho, hsend⟩ := h.sent
  refine ⟨o, ho, ?_⟩
  rw [resilientSend_of_channelFails h.channelFails] at hsend
  cases hfault : o.fault with
  | none => simp [hfault] at hsend
  | some err => simpa [hfault] using hsend

/-- By the count that the worker makes, there is another attempt left. -/
def RetriesRemain (retry : RetryConfig) (entry : OutboxEntry) : Prop :=
  entry.retryCount + 1 < retry.maxRetries

/-- After the attempt the entry is retrying only if the error is retryable and
retries remain, and an error that is not retryable has left it in
`dead_letter`. -/
def Classified (retry : RetryConfig) (entry : OutboxEntry) (e : ChannelError) (w' : World) :
    Prop :=
  (HasStatus w' entry.id .retrying → e.isRetryable = true ∧ RetriesRemain retry entry) ∧
    (e.isRetryable = false → HasStatus w' entry.id .deadLetter)

/-! ## What an attempt leaves -/

section Attempt

variable {env : Call → Option Outcome} {w : World}

theorem handle_insertDeadLetter_outbox (w : World) (o : Outcome) (dl : DeadLetterEntry) :
    (handle w o (.insertDeadLetter dl)).2.outbox = w.outbox := by
  cases hinsert : w.deadLetter.insert dl with
  | none => simp only [handle, hinsert]
  | some deadLetter =>
    simp only [handle, hinsert, statement]
    cases o.fault with
    | none => rfl
    | some err => rfl

/-- The status of a row after a statement that sets it: the new one if the
statement works, and else the old one. -/
theorem hasStatus_markStatus {id : String} {old : OutboxStatus} (h : HasStatus w id old)
    (status : OutboxStatus) (error : Option String) (o : Outcome) :
    HasStatus (handle w o (.markStatus id status error)).2 id
      (if o.fault = none then status else old) := by
  obtain ⟨row, hrow, hstatus⟩ := h
  show HasStatus (statement w o () (w.updateRow id _ _)).2 id _
  unfold statement
  cases o.fault with
  | some err => exact ⟨row, hrow, hstatus⟩
  | none => exact ⟨_, find?_updateRow_self _ _ _ _ hrow, rfl⟩

theorem hasStatus_markRetrying {id : String} {old : OutboxStatus} (h : HasStatus w id old)
    (retryCount : UInt32) (nextRetryAt : Int64) (error : String) (o : Outcome) :
    HasStatus (handle w o (.markRetrying id retryCount nextRetryAt error)).2 id
      (if o.fault = none then .retrying else old) := by
  obtain ⟨row, hrow, hstatus⟩ := h
  show HasStatus (statement w o () (w.updateRow id _ _)).2 id _
  unfold statement
  cases o.fault with
  | some err => exact ⟨row, hrow, hstatus⟩
  | none => exact ⟨_, find?_updateRow_self _ _ _ _ hrow, rfl⟩

/-- A row has one status. -/
theorem hasStatus_unique {id : String} {status status' : OutboxStatus}
    (h : HasStatus w id status) (h' : HasStatus w id status') : status = status' := by
  obtain ⟨row, hrow, rfl⟩ := h
  obtain ⟨row', hrow', rfl⟩ := h'
  rw [hrow, Option.some.injEq] at hrow'
  rw [hrow']

theorem hasStatus_insertDeadLetter {id : String} {status : OutboxStatus}
    (h : HasStatus w id status) (o : Outcome) (dl : DeadLetterEntry) :
    HasStatus (handle w o (.insertDeadLetter dl)).2 id status := by
  unfold HasStatus
  rw [handle_insertDeadLetter_outbox]
  exact h

/-- An attempt that fails for the last time: the row is in `dead_letter` if the
statement that moves it there works, and else the row is still being sent. -/
theorem wp_moveToDeadLetter {entry : OutboxEntry} {newCount : UInt32} {err : String}
    (h : HasStatus w entry.id .sending) :
    let P := fun w' =>
      (CallWorks env (.markStatus entry.id .deadLetter (some err)) ∧
        HasStatus w' entry.id .deadLetter) ∨
      (¬ CallWorks env (.markStatus entry.id .deadLetter (some err)) ∧
        HasStatus w' entry.id .sending)
    wp handle (following env P) (fun _ => P) (moveToDeadLetter entry newCount err) w := by
  intro P
  refine wp_bind.mpr (wp_perform.mpr
    ⟨fun (hnone : env (.markStatus entry.id .deadLetter (some err)) = none) => ?_,
      fun o (ho : env (.markStatus entry.id .deadLetter (some err)) = some o) => ?_⟩)
  · refine .inr ⟨fun hworks => ?_, h⟩
    obtain ⟨o, ho, -⟩ := hworks
    simp [hnone] at ho
  · -- the calls after the statement leave the outbox alone
    have hmarked : P (handle w o (.markStatus entry.id .deadLetter (some err))).2 := by
      have hstatus := hasStatus_markStatus h .deadLetter (some err) o
      by_cases hfault : o.fault = none
      · rw [if_pos hfault] at hstatus
        exact .inl ⟨⟨o, ho, hfault⟩, hstatus⟩
      · rw [if_neg hfault] at hstatus
        refine .inr ⟨fun hworks => ?_, hstatus⟩
        obtain ⟨o', ho', hfault'⟩ := hworks
        obtain rfl : o = o' := Option.some.inj (ho.symm.trans ho')
        exact hfault hfault'
    refine wp_bind.mpr (wp_timestamp (fun _ => hmarked) fun now => ?_)
    refine wp_bind.mpr (wp_perform.mpr ⟨fun _ => hmarked, fun o' _ => ?_⟩)
    have hinserted : P (handle _ o' (.insertDeadLetter (DeadLetterEntry.new entry.id "outbox"
        entry.payload s!"max retries ({newCount}): {err}" now))).2 :=
      hmarked.imp (And.imp_right fun hs => hasStatus_insertDeadLetter hs o' _)
        (And.imp_right fun hs => hasStatus_insertDeadLetter hs o' _)
    exact wp_record (fun _ => hinserted) hinserted

/-- An attempt that fails and is tried again does not end in `dead_letter`. -/
theorem wp_scheduleRetry {retry : RetryConfig} {entry : OutboxEntry} {newCount : UInt32}
    {err : String} (h : HasStatus w entry.id .sending) :
    let P := fun w' => HasStatus w' entry.id .sending ∨ HasStatus w' entry.id .retrying
    wp handle (following env P) (fun _ => P) (scheduleRetry retry entry newCount err) w := by
  intro P
  refine wp_bind.mpr (wp_timestampMillis (fun _ => .inl h) fun now => ?_)
  refine wp_bind.mpr (wp_perform.mpr ⟨fun _ => .inl h, fun o _ => ?_⟩)
  have hmarked : P (handle w o (.markRetrying entry.id newCount
      (now + (retry.nextDelayMs newCount).toInt64) err)).2 := by
    have hstatus := hasStatus_markRetrying h newCount
      (now + (retry.nextDelayMs newCount).toInt64) err o
    by_cases hfault : o.fault = none
    · rw [if_pos hfault] at hstatus
      exact .inr hstatus
    · rw [if_neg hfault] at hstatus
      exact .inl hstatus
  exact wp_record (fun _ => hmarked) hmarked

/-- An attempt whose send fails gets as far as the branch of the failure, with
the row in `sending`. -/
theorem wp_deliver {codec : RowCodec} {registry : ChannelRegistry} (retry : RetryConfig)
    {entry : OutboxEntry} {e : ChannelError} {P : World → Prop}
    (hattempt : FailedAttempt codec registry entry e env)
    (hrow : w.outbox.find? entry.id ≠ none)
    (hfailed : ∀ w', HasStatus w' entry.id .sending →
      wp handle (following env P) (fun _ => P)
        (if retry.maxRetries ≤ entry.retryCount + 1 then
          moveToDeadLetter entry (entry.retryCount + 1) e.toString
        else scheduleRetry retry entry (entry.retryCount + 1) e.toString) w') :
    wp handle (following env P) (fun _ => P) (deliver retry entry) w := by
  obtain ⟨om, hom, hmarked⟩ := hattempt.marked
  obtain ⟨os, hos, hfault⟩ := hattempt.exists_fault
  obtain ⟨row, hrow⟩ := Option.ne_none_iff_exists'.mp hrow
  refine wp_bind.mpr (wp_perform.mpr
    ⟨fun (hnone : env (.markStatus entry.id .sending none) = none) => ?_,
      fun o (ho : env (.markStatus entry.id .sending none) = some o) => ?_⟩)
  · simp [hnone] at hom
  obtain rfl : o = om := Option.some.inj (ho.symm.trans hom)
  have hsending := hasStatus_markStatus ⟨row, hrow, rfl⟩ .sending none o
  rw [if_pos hmarked] at hsending
  have hok : (handle w o (.markStatus entry.id .sending none)).1 = .ok () := by
    simp only [handle, statement, hmarked]
    rfl
  rw [hok]
  refine wp_bind.mpr (wp_perform.mpr
    ⟨fun (hnone : env (.send entry) = none) => ?_,
      fun o' (ho' : env (.send entry) = some o') => ?_⟩)
  · simp [hnone] at hos
  obtain rfl : o' = os := Option.some.inj (ho'.symm.trans hos)
  have herror : ∀ w', (handle w' o' (.send entry)).1 = .error e.toString := by
    intro w'
    simp only [handle, hfault]
    rfl
  have hsent : ∀ w', HasStatus w' entry.id .sending →
      HasStatus (handle w' o' (.send entry)).2 entry.id .sending := by
    intro w' h
    simp only [handle, hfault]
    exact h
  rw [herror]
  exact hfailed _ (hsent _ hsending)

end Attempt

/-! ## The class of the error and the fate of the entry -/

/-- A failed attempt treats the entry as the class of the error asks exactly
when the error is retryable, or the attempt is the last one and the statement
that moves the entry to `dead_letter` works. -/
theorem classified_iff (codec : RowCodec) (registry : ChannelRegistry) (retry : RetryConfig)
    (w : World) (entry : OutboxEntry) (e : ChannelError) (env : Call → Option Outcome)
    (hrow : w.outbox.find? entry.id ≠ none)
    (hattempt : FailedAttempt codec registry entry e env) :
    Classified retry entry e ((deliver retry entry).exec handle env w).2 ↔
      e.isRetryable = true ∨ (retry.maxRetries ≤ entry.retryCount + 1 ∧
        CallWorks env (.markStatus entry.id .deadLetter (some e.toString))) := by
  by_cases hlast : retry.maxRetries ≤ entry.retryCount + 1
  · have hleft := exec_of_wp (wp_deliver retry hattempt hrow fun w' hw' => by
      rw [if_pos hlast]
      exact wp_moveToDeadLetter hw')
    rcases hleft with ⟨hworks, hdead⟩ | ⟨hfails, hsending⟩
    · refine ⟨fun _ => .inr ⟨hlast, hworks⟩, fun _ => ⟨fun hretrying => ?_, fun _ => hdead⟩⟩
      exact absurd (hasStatus_unique hretrying hdead) (by decide)
    · refine ⟨fun hclass => ?_, fun h => ⟨fun hretrying => ?_, fun hterminal => ?_⟩⟩
      · refine .inl (Bool.eq_true_of_not_eq_false fun hterminal => ?_)
        exact absurd (hasStatus_unique (hclass.2 hterminal) hsending) (by decide)
      · exact absurd (hasStatus_unique hretrying hsending) (by decide)
      · rcases h with hretryable | ⟨-, hworks⟩
        · exact absurd (hretryable.symm.trans hterminal) (by decide)
        · exact absurd hworks hfails
  · have hleft := exec_of_wp (wp_deliver retry hattempt hrow fun w' hw' => by
      rw [if_neg hlast]
      exact wp_scheduleRetry hw')
    have hnotDead : ¬ HasStatus ((deliver retry entry).exec handle env w).2 entry.id
        .deadLetter := by
      intro hdead
      rcases hleft with hsending | hretrying
      · exact absurd (hasStatus_unique hdead hsending) (by decide)
      · exact absurd (hasStatus_unique hdead hretrying) (by decide)
    constructor
    · intro hclass
      exact .inl (Bool.eq_true_of_not_eq_false fun hterminal => hnotDead (hclass.2 hterminal))
    · intro h
      have hretryable : e.isRetryable = true := h.resolve_right fun h => hlast h.1
      refine ⟨fun _ => ⟨hretryable, UInt32.not_le.mp hlast⟩, fun hterminal => ?_⟩
      exact absurd (hretryable.symm.trans hterminal) (by decide)

/-! ## A rejected content -/

/-- The columns of a text to a Feishu chat. -/
def rejectedRoute : String :=
  "\x7b\"channel\":\"feishu\",\"conversation_id\":\"oc_1\",\"peer_id\":\"ou_1\"," ++
    "\"conversation_type\":\"Direct\"\x7d"

def rejectedPayload : String := "\x7b\"Text\":\"hello\"\x7d"

def rejectedCodec : RowCodec where
  routeKey text :=
    if text = rejectedRoute then .ok ⟨⟨"feishu"⟩, "oc_1", "ou_1", .direct⟩
    else .error "expected value at line 1 column 1"
  payload text :=
    if text = rejectedPayload then .ok (.text "hello")
    else .error "expected value at line 1 column 1"

/-- What the Feishu channel makes of the platform's refusal of the content. -/
def feishuRejects : ChannelError :=
  .contentRejected "feishu send rejected: status=400 Bad Request code=230028 msg=blocked"

def rejectingRegistry : ChannelRegistry where
  channels id := if id = ⟨"feishu"⟩ then some fun _ _ => .error feishuRejects else none

def rejectedEntry : OutboxEntry := .new "m1" rejectedRoute rejectedPayload 1700000000

def rejectedWorld : World := World.init.enqueue rejectedEntry

/-- Every call works, only the send fails. -/
def onlySendFails : Call → Option Outcome
  | .send _ => some (fails feishuRejects.toString)
  | _ => some works

theorem rejected_channelFails :
    ChannelFails rejectedCodec rejectingRegistry rejectedEntry feishuRejects :=
  ⟨⟨⟨"feishu"⟩, "oc_1", "ou_1", .direct⟩, .text "hello", by decide, by decide, rfl⟩

theorem rejected_failedAttempt :
    FailedAttempt rejectedCodec rejectingRegistry rejectedEntry feishuRejects onlySendFails where
  channelFails := rejected_channelFails
  marked := ⟨works, rfl, rfl⟩
  sent := ⟨fails feishuRejects.toString, rfl,
    (resilientSend_of_channelFails rejected_channelFails).symm⟩

/-- With one retry configured the attempt is the last one, and the entry goes
to `dead_letter`. -/
theorem rejectedLast_classified :
    Classified ⟨1, 1000, 60000, fun _ => 0⟩ rejectedEntry feishuRejects
      ((deliver ⟨1, 1000, 60000, fun _ => 0⟩ rejectedEntry).exec handle onlySendFails
        rejectedWorld).2 :=
  (classified_iff rejectedCodec rejectingRegistry ⟨1, 1000, 60000, fun _ => 0⟩ rejectedWorld
    rejectedEntry feishuRejects onlySendFails (by decide) rejected_failedAttempt).mpr
      (.inr ⟨by decide, works, rfl, rfl⟩)

/-- Every attempt whose send fails treats the entry as the class of the error
asks. -/
def ErrorsClassified : Prop :=
  ∀ (codec : RowCodec) (registry : ChannelRegistry) (retry : RetryConfig) (w : World)
    (entry : OutboxEntry) (e : ChannelError) (env : Call → Option Outcome),
    w.outbox.find? entry.id ≠ none → FailedAttempt codec registry entry e env →
    Classified retry entry e ((deliver retry entry).exec handle env w).2

/-- It does not: a content that Feishu rejects is scheduled for a retry. -/
theorem not_errorsClassified : ¬ ErrorsClassified := by
  intro h
  have hclass := h rejectedCodec rejectingRegistry fiveRetries rejectedWorld rejectedEntry
    feishuRejects onlySendFails (by decide) rejected_failedAttempt
  have hretrying : HasStatus ((deliver fiveRetries rejectedEntry).exec handle onlySendFails
      rejectedWorld).2 rejectedEntry.id .retrying := by
    refine ⟨_, rfl, rfl⟩
  exact absurd (hclass.1 hretrying).1 (by decide)

end MagicLaw.Outbox
