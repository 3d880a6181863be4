import MagicLaw.Outbox.Worker

/-!
# No message of the outbox is lost

A delivery is a sequence of separate writes, and each of them may fail or be
the last one before a crash.  This file says which faults and crashes lose
nothing (`harmless`), and proves that runs which meet only those keep every
message: `outbox_messages_kept`.

* Before a crash a row may be `sending`; the recovery resets it.  Every other
  row must be settled (`Recoverable`).
* In an idle process every row is settled (`NoLoss`).

A fault is not harmless where nothing does the failed write again: the three
writes that end an attempt, and the insert of the dead letter.  A crash is not
harmless between the two writes that move a message from one table to the
other, since the recovery looks at `sending` and `retrying` rows only
(`not_outboxKeepsMessages`).
-/

namespace MagicLaw.Outbox

open Lib Lib.Program Lib.Machine

/-! ## Settled rows -/

/-- What a row with this status needs in order to be settled. -/
def SettledAs (w : World) (row : OutboxEntry) : OutboxStatus → Prop
  | .pending => True
  | .retrying => row.nextRetryAt.isSome
  | .sent => .attempted row.id true ∈ w.trace
  | .deadLetter => (w.deadLetter.find? row.id).isSome
  | .sending => False

instance (w : World) (row : OutboxEntry) : (status : OutboxStatus) →
    Decidable (SettledAs w row status)
  | .pending => isTrue trivial
  | .retrying => inferInstanceAs (Decidable (row.nextRetryAt.isSome = true))
  | .sent => inferInstanceAs (Decidable (.attempted row.id true ∈ w.trace))
  | .deadLetter => inferInstanceAs (Decidable ((w.deadLetter.find? row.id).isSome = true))
  | .sending => isFalse not_false

/-- The row is where a message may rest: it is pending, it waits for a retry
with a time, it was sent, or it is in the dead letter table. -/
abbrev Settled (w : World) (row : OutboxEntry) : Prop := SettledAs w row row.status

theorem SettledAs.mono {w w' : World} {row : OutboxEntry} {status : OutboxStatus}
    (h : SettledAs w row status)
    (hsent : .attempted row.id true ∈ w.trace → .attempted row.id true ∈ w'.trace)
    (hdead : status = .deadLetter → (w.deadLetter.find? row.id).isSome →
      (w'.deadLetter.find? row.id).isSome) : SettledAs w' row status := by
  cases status with
  | pending => trivial
  | sending => exact h
  | sent => exact hsent h
  | retrying => exact h
  | deadLetter => exact hdead rfl h

/-- The tables are in order, except that the rows of `busy` ids need not be
settled. -/
structure InOrder (busy : String → Prop) (w : World) : Prop where
  kept : ∀ id, .enqueued id ∈ w.trace → ∃ row, w.outbox.find? id = some row
  settled : ∀ id row, w.outbox.find? id = some row → ¬ busy id → Settled w row
  deadLetter : ∀ id, (w.deadLetter.find? id).isSome →
    ∃ row, w.outbox.find? id = some row ∧ row.status = .deadLetter

/-- No message is lost: every row is settled. -/
abbrev NoLoss (w : World) : Prop := InOrder (fun _ => False) w

/-- The recovery can settle every row: those that are not settled are being
sent. -/
abbrev Recoverable (w : World) : Prop := InOrder (fun id => HasStatus w id .sending) w

theorem InOrder.mono {busy busy' : String → Prop} {w : World} (h : InOrder busy w)
    (hbusy : ∀ id, busy id → busy' id) : InOrder busy' w where
  kept := h.kept
  settled id row hrow hnot := h.settled id row hrow fun hb => hnot (hbusy id hb)
  deadLetter := h.deadLetter

theorem noLoss_init : NoLoss World.init := by
  constructor <;> simp [World.init]

/-- What happens to the row of one id leaves the others in order. -/
theorem InOrder.at_id {busy busy' : String → Prop} {w w' : World} (h : InOrder busy w)
    (k : String) {row : OutboxEntry}
    (houtbox : ∀ id, id ≠ k → w'.outbox.find? id = w.outbox.find? id)
    (hdead : ∀ id, id ≠ k → w'.deadLetter.find? id = w.deadLetter.find? id)
    (hsent : ∀ id, .attempted id true ∈ w.trace → .attempted id true ∈ w'.trace)
    (henqueued : ∀ id, id ≠ k → .enqueued id ∈ w'.trace → .enqueued id ∈ w.trace)
    (hbusy : ∀ id, id ≠ k → busy id → busy' id)
    (hrow : w'.outbox.find? k = some row)
    (hsettled : ¬ busy' k → Settled w' row)
    (hstatus : (w'.deadLetter.find? k).isSome → row.status = .deadLetter) :
    InOrder busy' w' := by
  refine ⟨?_, ?_, ?_⟩
  · intro id hid
    by_cases hk : id = k
    · exact ⟨row, hk ▸ hrow⟩
    · rw [houtbox id hk]
      exact h.kept id (henqueued id hk hid)
  · intro id row' hrow' hnot
    by_cases hk : id = k
    · subst hk
      rw [hrow, Option.some.injEq] at hrow'
      exact hrow' ▸ hsettled hnot
    · rw [houtbox id hk] at hrow'
      have hold := h.settled id row' hrow' fun hb => hnot (hbusy id hk hb)
      have hid : row'.id = id := KeyedTable.key_of_find? hrow'
      refine hold.mono (hsent row'.id) fun _ hsome => ?_
      rw [hid] at hsome ⊢
      rwa [hdead id hk]
  · intro id hid
    by_cases hk : id = k
    · subst hk
      exact ⟨row, hrow, hstatus hid⟩
    · rw [hdead id hk] at hid
      rw [houtbox id hk]
      exact h.deadLetter id hid

/-- A message that is new is pending, and the row of one that is not stays. -/
theorem stable_inOrder (busy : String → Prop) : Stable World.enqueueNew (InOrder busy) := by
  intro new w h
  have hfind : ∀ id, (w.enqueueNew new).outbox.find? id =
      if id = new.id then some ((w.outbox.find? id).getD _) else w.outbox.find? id :=
    fun id => KeyedTable.find?_insertOrIgnore w.outbox
      (OutboxEntry.new new.id new.routeKey new.payload new.nowTs) id
  have hne : ∀ id, id ≠ new.id → (w.enqueueNew new).outbox.find? id = w.outbox.find? id :=
    fun id hid => (hfind id).trans (if_neg hid)
  cases hold : w.outbox.find? new.id with
  | some row =>
    have htrace : (w.enqueueNew new).trace = w.trace := by
      simp [World.enqueueNew, World.enqueue, OutboxEntry.new, hold]
    refine h.at_id new.id hne (fun _ _ => rfl) (fun _ ht => htrace ▸ ht)
      (fun _ _ ht => htrace ▸ ht) (fun _ _ hb => hb) (find?_enqueueNew_of_eq_some hold)
      (fun hn => ?_) (fun hdl => ?_)
    · exact (h.settled new.id row hold hn).mono (fun ht => htrace ▸ ht) fun _ hs => hs
    · obtain ⟨row', hrow', hstatus⟩ := h.deadLetter new.id hdl
      rw [hold, Option.some.injEq] at hrow'
      exact hrow' ▸ hstatus
  | none =>
    have htrace : (w.enqueueNew new).trace = .enqueued new.id :: w.trace := by
      simp [World.enqueueNew, World.enqueue, OutboxEntry.new, hold]
    have hself := hfind new.id
    rw [if_pos rfl, hold, Option.getD_none] at hself
    refine h.at_id new.id hne (fun _ _ => rfl)
      (fun _ ht => htrace ▸ List.mem_cons_of_mem _ ht) (fun id hid ht => ?_) (fun _ _ hb => hb)
      hself (fun _ => trivial) (fun hdl => ?_)
    · rw [htrace] at ht
      simpa [hid] using ht
    · obtain ⟨row', hrow', _⟩ := h.deadLetter new.id hdl
      rw [hold] at hrow'
      exact absurd hrow' (by simp)

theorem stable_recoverable : Stable World.enqueueNew Recoverable := fun new w h =>
  (stable_inOrder _ new w h).mono fun id hid => stable_hasStatus id .sending new w hid

/-! ## The entries of a tick -/

/-- A tick still holds `entries`: their rows are as fetched, and the tables
are in order but for the `busy` ids. -/
structure Batch (busy : String → Prop) (entries : List OutboxEntry) (w : World) : Prop where
  inOrder : InOrder busy w
  nodup : (entries.map OutboxEntry.id).Nodup
  fetched : ∀ entry ∈ entries, HasStatus w entry.id .pending ∨ HasStatus w entry.id .retrying

theorem stable_batch (busy : String → Prop) (entries : List OutboxEntry) :
    Stable World.enqueueNew (Batch busy entries) := fun new w h =>
  ⟨stable_inOrder busy new w h.inOrder, h.nodup, fun entry hentry =>
    (h.fetched entry hentry).imp (stable_hasStatus _ _ new w) (stable_hasStatus _ _ new w)⟩

/-- An update of a row that the tick no longer holds. -/
theorem Batch.update {busy busy' : String → Prop} {entries : List OutboxEntry} {w : World}
    (h : Batch busy entries w) {k : String} (hk : k ∉ entries.map OutboxEntry.id)
    {f : OutboxEntry → OutboxEntry} (hf : ∀ row, (f row).id = row.id) {row : OutboxEntry}
    (hrow : w.outbox.find? k = some row) (hbusy : ∀ id, id ≠ k → busy id → busy' id)
    (hsettled : ¬ busy' k → Settled w (f row))
    (hstatus : (w.deadLetter.find? k).isSome → (f row).status = .deadLetter) :
    Batch busy' entries (w.updateRow k f hf) := by
  have hne : ∀ id, id ≠ k → (w.updateRow k f hf).outbox.find? id = w.outbox.find? id := by
    intro id hid
    exact find?_updateRow_of_ne w k f hf hid
  refine ⟨?_, h.nodup, ?_⟩
  · exact h.inOrder.at_id k hne (fun _ _ => rfl) (fun _ ht => ht) (fun _ _ ht => ht) hbusy
      (find?_updateRow_self w k f hf hrow) hsettled hstatus
  · intro entry hentry
    have hid : entry.id ≠ k := fun heq => hk (heq ▸ List.mem_map_of_mem hentry)
    unfold HasStatus
    rw [hne entry.id hid]
    exact h.fetched entry hentry

/-- A message that is pending, retrying or being sent has no dead letter. -/
theorem InOrder.deadLetter_eq_none {busy : String → Prop} {w : World} (h : InOrder busy w)
    {id : String} {status : OutboxStatus} (hs : HasStatus w id status)
    (hne : status ≠ .deadLetter) : w.deadLetter.find? id = none := by
  cases hdl : w.deadLetter.find? id with
  | none => rfl
  | some entry =>
    obtain ⟨row, hrow, hdead⟩ := h.deadLetter id (by rw [hdl]; rfl)
    obtain ⟨row', hrow', hstatus⟩ := hs
    rw [hrow, Option.some.injEq] at hrow'
    exact absurd (hstatus.symm.trans (hrow' ▸ hdead)) hne

/-- `entry` is being worked on and its row has this status. -/
structure Working (entry : OutboxEntry) (entries : List OutboxEntry) (status : OutboxStatus)
    (w : World) : Prop where
  batch : Batch (fun id => id = entry.id) entries w
  notMem : entry.id ∉ entries.map OutboxEntry.id
  status : HasStatus w entry.id status

theorem stable_working (entry : OutboxEntry) (entries : List OutboxEntry)
    (status : OutboxStatus) : Stable World.enqueueNew (Working entry entries status) :=
  fun new w h =>
    ⟨stable_batch _ entries new w h.batch, h.notMem, stable_hasStatus _ status new w h.status⟩

theorem Working.recoverable {entry : OutboxEntry} {entries : List OutboxEntry} {w : World}
    (h : Working entry entries .sending w) : Recoverable w :=
  h.batch.inOrder.mono fun _ hid => hid ▸ h.status

theorem Batch.recoverable {entries : List OutboxEntry} {w : World}
    (h : Batch (fun _ => False) entries w) : Recoverable w :=
  h.inOrder.mono fun _ hf => hf.elim

theorem NoLoss.recoverable {w : World} (h : NoLoss w) : Recoverable w :=
  h.mono fun _ hf => hf.elim

/-- `sending` is marked. -/
theorem Batch.markSending {entry : OutboxEntry} {entries : List OutboxEntry} {w : World}
    (h : Batch (fun _ => False) (entry :: entries) w) {f : OutboxEntry → OutboxEntry}
    (hf : ∀ row, (f row).id = row.id) (hsending : ∀ row, (f row).status = .sending) :
    Working entry entries .sending (w.updateRow entry.id f hf) := by
  obtain ⟨hnotMem, hnodup⟩ := List.nodup_cons.mp h.nodup
  have hrest : Batch (fun _ => False) entries w :=
    ⟨h.inOrder, hnodup, fun e he => h.fetched e (List.mem_cons_of_mem _ he)⟩
  have hdead : w.deadLetter.find? entry.id = none := by
    rcases h.fetched entry List.mem_cons_self with hs | hs
    · exact h.inOrder.deadLetter_eq_none hs (by decide)
    · exact h.inOrder.deadLetter_eq_none hs (by decide)
  obtain ⟨row, hrow⟩ : ∃ row, w.outbox.find? entry.id = some row := by
    rcases h.fetched entry List.mem_cons_self with ⟨row, hrow, _⟩ | ⟨row, hrow, _⟩ <;>
      exact ⟨row, hrow⟩
  refine ⟨?_, hnotMem, ?_⟩
  · refine hrest.update hnotMem hf hrow (fun _ _ hfalse => hfalse.elim) (fun hn => ?_) ?_
    · exact absurd rfl hn
    · rw [hdead]
      simp
  · exact ⟨f row, find?_updateRow_self w entry.id f hf hrow, hsending row⟩

/-- An update that settles the row of `entry`. -/
theorem Working.settle {entry : OutboxEntry} {entries : List OutboxEntry} {w : World}
    {status : OutboxStatus} (h : Working entry entries status w) (hne : status ≠ .deadLetter)
    {f : OutboxEntry → OutboxEntry} (hf : ∀ row, (f row).id = row.id)
    (hsettled : ∀ row, row.id = entry.id → Settled w (f row)) :
    Batch (fun _ => False) entries (w.updateRow entry.id f hf) := by
  have hdead := h.batch.inOrder.deadLetter_eq_none h.status hne
  obtain ⟨row, hrow, _⟩ := h.status
  refine h.batch.update h.notMem hf hrow (fun _ hid hb => hid hb) (fun _ => ?_) ?_
  · exact hsettled row (KeyedTable.key_of_find? hrow)
  · rw [hdead]
    simp

/-- An audit record. -/
theorem Batch.record {busy : String → Prop} {entries : List OutboxEntry} {w : World}
    (h : Batch busy entries w) (audit : List (Option String × String × String)) :
    Batch busy entries { w with audit := audit } :=
  ⟨⟨h.inOrder.kept, h.inOrder.settled, h.inOrder.deadLetter⟩, h.nodup, h.fetched⟩

/-- An attempt to send. -/
theorem Working.attempted {entry : OutboxEntry} {entries : List OutboxEntry} {w : World}
    {status : OutboxStatus} (h : Working entry entries status w) (id : String)
    (delivered : Bool) :
    Working entry entries status { w with trace := .attempted id delivered :: w.trace } := by
  refine ⟨⟨⟨?_, ?_, h.batch.inOrder.deadLetter⟩, h.batch.nodup, h.batch.fetched⟩, h.notMem,
    h.status⟩
  · intro id' hid'
    exact h.batch.inOrder.kept id' (by simpa using hid')
  · intro id' row hrow hne
    exact (h.batch.inOrder.settled id' row hrow hne).mono (List.mem_cons_of_mem _) fun _ hs => hs

/-- `dead_letter` is marked: the row of `entry` has no dead letter yet. -/
theorem Working.markDeadLetter {entry : OutboxEntry} {entries : List OutboxEntry} {w : World}
    (h : Working entry entries .sending w) {f : OutboxEntry → OutboxEntry}
    (hf : ∀ row, (f row).id = row.id) (hdead : ∀ row, (f row).status = .deadLetter) :
    Working entry entries .deadLetter (w.updateRow entry.id f hf) ∧
      w.deadLetter.find? entry.id = none := by
  have hnone := h.batch.inOrder.deadLetter_eq_none h.status (by decide)
  obtain ⟨row, hrow, _⟩ := h.status
  refine ⟨⟨?_, h.notMem, f row, find?_updateRow_self w entry.id f hf hrow, hdead row⟩, hnone⟩
  refine h.batch.update h.notMem hf hrow (fun _ _ hb => hb) (fun hn => ?_) (fun _ => hdead row)
  exact absurd rfl hn

/-- The dead letter is inserted. -/
theorem Working.insertDeadLetter {entry : OutboxEntry} {entries : List OutboxEntry} {w : World}
    (h : Working entry entries .deadLetter w) {dlEntry : DeadLetterEntry}
    (hid : dlEntry.id = entry.id) (hfree : w.deadLetter.find? dlEntry.id = none) :
    Batch (fun _ => False) entries
      { w with deadLetter := w.deadLetter.append dlEntry hfree } := by
  obtain ⟨row, hrow, hstatus⟩ := h.status
  refine ⟨?_, h.batch.nodup, h.batch.fetched⟩
  refine h.batch.inOrder.at_id entry.id (fun _ _ => rfl) (fun id hne => ?_) (fun _ ht => ht)
    (fun _ _ ht => ht) (fun _ hne hb => hne hb) hrow (fun _ => ?_) (fun _ => hstatus)
  · show (w.deadLetter.append dlEntry hfree).find? id = w.deadLetter.find? id
    rw [KeyedTable.find?_append, hid, if_neg hne]
  · unfold Settled
    rw [hstatus]
    show ((w.deadLetter.append dlEntry hfree).find? row.id).isSome
    rw [KeyedTable.key_of_find? hrow, KeyedTable.find?_append, hid, if_pos rfl]
    rfl

/-! ## Faults that lose nothing -/

/-- The call may fail without a loss: what it leaves undone is done later. -/
def Call.mayFail : Call → Bool
  | .fetchPending _ | .fetchRetryable _ _ | .fetchInFlight => true
  | .markStatus _ .sending _ | .markStatus _ .pending _ => true
  | .markStatus _ _ _ | .markRetrying _ _ _ _ | .insertDeadLetter _ => false
  | .selectDeadLetter _ | .deleteDeadLetter _ => true
  | .selectRouteKey _ | .resetForReplay _ _ _ | .insertReplayed _ _ _ => false
  | .send _ | .record _ _ _ | .timestamp | .timestampMillis => true

/-- A crash may come before the call without a loss.  The calls where it may
not are those between the two writes that move a message from one table to
the other. -/
def Call.mayCrash : Call → Bool
  | .timestamp | .insertDeadLetter _ => false
  | .selectRouteKey _ | .resetForReplay _ _ _ | .insertReplayed _ _ _ => false
  | _ => true

/-- The faults and crashes that lose nothing. -/
def harmless : Faults Call World Outcome where
  allowed call o := o.fault = none ∨ call.mayFail = true
  mayCrash call := ∀ c ∈ call, c.mayCrash = true
  atCrash := Recoverable

instance (s : Process) : (a : Action) → Decidable (Meets harmless s a)
  | .call o => inferInstanceAs (Decidable (∀ c ∈ s.phase.nextCall?, o.fault = none ∨ c.mayFail = true))
  | .crash => inferInstanceAs (Decidable (∀ c ∈ s.phase.nextCall?, c.mayCrash = true))
  | .enqueue _ _ _ _ | .startPending _ | .startRetries _ | .startReplay _ | .finish | .restart =>
    isTrue trivial

theorem no_fault {call : Call} {o : Outcome} (h : harmless.allowed call o)
    {e : String} (he : o.fault = some e) : call.mayFail = true := by
  rcases h with h | h
  · rw [h] at he
    exact absurd he (by simp)
  · exact h

/-- A delivery is not forgotten. -/
theorem stable_delivered (entry : OutboxEntry) (entries : List OutboxEntry) :
    Stable World.enqueueNew fun w =>
      Working entry entries .sending w ∧ .attempted entry.id true ∈ w.trace := by
  rintro new w ⟨hworking, h⟩
  refine ⟨stable_working entry entries .sending new w hworking, ?_⟩
  rcases trace_enqueueNew_cases w new with htrace | ⟨-, htrace⟩
  · rwa [htrace]
  · rw [htrace]
    exact List.mem_cons_of_mem _ h

section Deliver

variable {retry : RetryConfig} {entry : OutboxEntry} {entries : List OutboxEntry} {w : World}

theorem keeps_record {routeKey : Option String} {action result : String}
    (h : Batch (fun _ => False) entries w) :
    wp sharing harmless.amid (fun _ w' => Batch (fun _ => False) entries w')
      (record routeKey action result) w := by
  refine wp_amid fun news => ?_
  replace h := (stable_batch _ entries).moved news h
  exact wp_record (fun _ => h.recoverable) (h.record _)

theorem keeps_moveToDeadLetter {newCount : UInt32} {err : String}
    (h : Working entry entries .sending w) :
    wp sharing harmless.amid (fun _ w' => Batch (fun _ => False) entries w')
      (moveToDeadLetter entry newCount err) w := by
  unfold moveToDeadLetter
  rw [wp_bind]
  refine wp_amid fun news => ?_
  replace h := (stable_working entry entries .sending).moved news h
  refine wp_markStatus (fun _ => h.recoverable) ?_ fun seconds => ?_
  · intro o e ho he
    exact absurd (no_fault ho he) (by simp [Call.mayFail])
  obtain ⟨hworking, hfree⟩ := h.markDeadLetter
    (OutboxEntry.setStatus_id .deadLetter (some err) seconds) (fun _ => rfl)
  rw [wp_bind]
  refine wp_amid fun news' => ?_
  replace hworking := (stable_working entry entries .deadLetter).moved news' hworking
  refine wp_timestamp (fun hcrash => absurd hcrash (by simp [harmless, Call.mayCrash])) fun now => ?_
  rw [wp_bind]
  refine wp_amid fun news'' => ?_
  replace hworking := (stable_working entry entries .deadLetter).moved news'' hworking
  refine wp_insertDeadLetter (fun hcrash => absurd hcrash (by simp [harmless, Call.mayCrash]))
    ?_ ?_ ?_
  · rw [moved_enqueueNew_deadLetter, moved_enqueueNew_deadLetter]
    exact hfree
  · intro o e ho he
    exact absurd (no_fault ho he) (by simp [Call.mayFail])
  · refine keeps_record ?_
    exact hworking.insertDeadLetter rfl _

theorem keeps_scheduleRetry {newCount : UInt32} {err : String}
    (h : Working entry entries .sending w) :
    wp sharing harmless.amid (fun _ w' => Batch (fun _ => False) entries w')
      (scheduleRetry retry entry newCount err) w := by
  unfold scheduleRetry
  rw [wp_bind]
  refine wp_amid fun news => ?_
  replace h := (stable_working entry entries .sending).moved news h
  refine wp_timestampMillis (fun _ => h.recoverable) fun now => ?_
  rw [wp_bind]
  refine wp_amid fun news' => ?_
  replace h := (stable_working entry entries .sending).moved news' h
  refine wp_markRetrying (fun _ => h.recoverable) ?_ fun seconds => ?_
  · intro o e ho he
    exact absurd (no_fault ho he) (by simp [Call.mayFail])
  · exact keeps_record (h.settle (by decide) _ fun _ _ => rfl)

/-- One entry is delivered, scheduled or moved, whatever happens. -/
theorem keeps_deliver (h : Batch (fun _ => False) (entry :: entries) w) :
    wp sharing harmless.amid (fun _ w' => Batch (fun _ => False) entries w')
      (deliver retry entry) w := by
  unfold deliver
  rw [wp_bind]
  refine wp_amid fun news => ?_
  replace h := (stable_batch _ (entry :: entries)).moved news h
  refine wp_markStatus (fun _ => h.recoverable) ?_ fun seconds => ?_
  · intro o e _ _
    exact ⟨h.inOrder, (List.nodup_cons.mp h.nodup).2,
      fun e he => h.fetched e (List.mem_cons_of_mem _ he)⟩
  have hsending := h.markSending (OutboxEntry.setStatus_id .sending none seconds) fun _ => rfl
  rw [wp_bind]
  refine wp_amid fun news' => ?_
  replace hsending := (stable_working entry entries .sending).moved news' hsending
  refine wp_send (fun _ => hsending.recoverable) ?_ ?_
  · intro err
    have hfailed := hsending.attempted entry.id false
    show wp sharing harmless.amid _ (if retry.maxRetries ≤ entry.retryCount + 1 then
      moveToDeadLetter entry (entry.retryCount + 1) err
      else scheduleRetry retry entry (entry.retryCount + 1) err) _
    by_cases hlast : retry.maxRetries ≤ entry.retryCount + 1
    · rw [if_pos hlast]
      exact keeps_moveToDeadLetter hfailed
    · rw [if_neg hlast]
      exact keeps_scheduleRetry hfailed
  · have hsent := hsending.attempted entry.id true
    rw [wp_bind]
    refine wp_amid fun news'' => ?_
    obtain ⟨hsent, hdelivered⟩ :=
      (stable_delivered entry entries).moved news'' ⟨hsent, List.mem_cons_self⟩
    refine wp_markStatus (fun _ => hsent.recoverable) ?_ fun seconds' => ?_
    · intro o e ho he
      exact absurd (no_fault ho he) (by simp [Call.mayFail])
    · refine keeps_record (hsent.settle (by decide) _ fun row hid => ?_)
      show Event.attempted row.id true ∈ _
      rw [hid]
      exact hdelivered

/-- The loop over the fetched entries. -/
theorem keeps_forEach (h : Batch (fun _ => False) entries w) :
    wp sharing harmless.amid (fun _ w' => NoLoss w') (.forEach (deliver retry) entries) w := by
  have hbody : ∀ e es w', Batch (fun _ => False) (e :: es) w' →
      wp sharing harmless.amid (fun _ => Batch (fun _ => False) es) (deliver retry e) w' :=
    fun _ _ _ => keeps_deliver
  exact wp_mono (fun _ _ hdone => hdone.inOrder) (wp_forEach hbody entries h)

/-- A tick may hold any rows of the outbox that are pending or retrying. -/
theorem NoLoss.batch (h : NoLoss w) {rows : List OutboxEntry} (limit : UInt64)
    (hnodup : (rows.map OutboxEntry.id).Nodup)
    (hrows : ∀ row ∈ rows, w.outbox.find? row.id = some row ∧
      (row.status = .pending ∨ row.status = .retrying)) :
    Batch (fun _ => False) (limitRows limit rows) w := by
  refine ⟨h, nodup_limitRows hnodup, fun row hrow => ?_⟩
  obtain ⟨hfind, hstatus⟩ := hrows row (mem_limitRows hrow)
  exact hstatus.imp (fun hs => ⟨row, hfind, hs⟩) (fun hs => ⟨row, hfind, hs⟩)

theorem keeps_processPending (batchSize : UInt64) (h : NoLoss w) :
    wp sharing harmless.amid (fun _ w' => NoLoss w') (processPending retry batchSize) w := by
  unfold processPending
  rw [wp_bind]
  refine wp_amid fun news => ?_
  replace h : NoLoss _ := (stable_inOrder _).moved news h
  refine wp_fetchPending (fun _ => h.recoverable) (fun _ => h) ?_
  refine keeps_forEach (h.batch batchSize (nodup_orderedSelect _ _ _) fun row hrow => ?_)
  obtain ⟨hfind, hstatus⟩ := mem_orderedSelect.mp hrow
  exact ⟨hfind, Or.inl (by simpa using hstatus)⟩

theorem keeps_processRetries (batchSize : UInt64) (h : NoLoss w) :
    wp sharing harmless.amid (fun _ w' => NoLoss w') (processRetries retry batchSize) w := by
  unfold processRetries
  rw [wp_bind]
  refine wp_amid fun news => ?_
  replace h : NoLoss _ := (stable_inOrder _).moved news h
  refine wp_timestampMillis (fun _ => h.recoverable) fun nowTs => ?_
  rw [wp_bind]
  refine wp_amid fun news' => ?_
  replace h : NoLoss _ := (stable_inOrder _).moved news' h
  refine wp_fetchRetryable (fun _ => h.recoverable) (fun _ => h) ?_
  refine keeps_forEach (h.batch batchSize (nodup_orderedSelect _ _ _) fun row hrow => ?_)
  obtain ⟨hfind, hstatus⟩ := mem_orderedSelect.mp hrow
  rw [Bool.and_eq_true] at hstatus
  exact ⟨hfind, Or.inr (by simpa using hstatus.1)⟩

end Deliver

/-! ## The recovery -/

/-- The recovery still has to reset `entries`: every row that is being sent
is one of them, and none of them is dead. -/
structure Resetting (entries : List OutboxEntry) (w : World) : Prop where
  recoverable : Recoverable w
  covered : ∀ id, HasStatus w id .sending → id ∈ entries.map OutboxEntry.id
  alive : ∀ entry ∈ entries, ∃ status, HasStatus w entry.id status ∧ status ≠ .deadLetter

theorem stable_resetting (entries : List OutboxEntry) :
    Stable World.enqueueNew (Resetting entries) := by
  intro new w h
  refine ⟨stable_recoverable new w h.recoverable, ?_, fun entry hentry => ?_⟩
  · rintro id ⟨row, hrow, hsending⟩
    rcases find?_enqueueNew_cases hrow with hold | hpending
    · exact h.covered id ⟨row, hold, hsending⟩
    · exact absurd (hsending.symm.trans hpending) (by decide)
  · obtain ⟨status, hs, hne⟩ := h.alive entry hentry
    exact ⟨status, stable_hasStatus _ status new w hs, hne⟩

theorem Resetting.noLoss {w : World} (h : Resetting [] w) : NoLoss w :=
  h.recoverable.mono fun id hid => absurd (h.covered id hid) (by simp)

theorem Resetting.reset {entry : OutboxEntry} {entries : List OutboxEntry} {w : World}
    (h : Resetting (entry :: entries) w) {f : OutboxEntry → OutboxEntry}
    (hf : ∀ row, (f row).id = row.id) (hpending : ∀ row, (f row).status = .pending) :
    Resetting entries (w.updateRow entry.id f hf) := by
  obtain ⟨status, hs, hne⟩ := h.alive entry List.mem_cons_self
  have hdead := h.recoverable.deadLetter_eq_none hs hne
  obtain ⟨row, hrow, _⟩ := hs
  have hself := find?_updateRow_self w entry.id f hf hrow
  refine ⟨?_, ?_, ?_⟩
  · refine h.recoverable.at_id entry.id (fun _ hid => find?_updateRow_of_ne w entry.id f hf hid)
      (fun _ _ => rfl) (fun _ ht => ht) (fun _ _ ht => ht)
      (fun _ hid hb => (hasStatus_updateRow_of_ne hid .sending).mpr hb) hself (fun _ => ?_) ?_
    · unfold Settled
      rw [hpending]
      trivial
    · rw [updateRow_deadLetter, hdead]
      simp
  · intro id hid
    by_cases hk : id = entry.id
    · subst hk
      obtain ⟨row', hrow', hsending⟩ := hid
      rw [hself, Option.some.injEq] at hrow'
      rw [← hrow', hpending] at hsending
      exact absurd hsending (by decide)
    · have := h.covered id ((hasStatus_updateRow_of_ne hk .sending).mp hid)
      exact (List.mem_cons.mp this).resolve_left hk
  · intro e he
    by_cases hk : e.id = entry.id
    · exact ⟨.pending, ⟨f row, hk ▸ hself, hpending row⟩, by decide⟩
    · obtain ⟨status', hs', hne'⟩ := h.alive e (List.mem_cons_of_mem _ he)
      exact ⟨status', (hasStatus_updateRow_of_ne hk status').mpr hs', hne'⟩

/-- What a recovery leaves behind: no loss when it went through. -/
def Recovered {α : Type} (r : Except String α) (w : World) : Prop :=
  if r.isOk then NoLoss w else Recoverable w

theorem keeps_resetInFlight {entries : List OutboxEntry} {w : World}
    (h : Resetting entries w) :
    wp sharing harmless.amid Recovered (resetInFlight entries) w := by
  induction entries generalizing w with
  | nil => exact h.noLoss
  | cons entry entries ih =>
    unfold resetInFlight
    rw [wp_bind]
    refine wp_amid fun news => ?_
    replace h := (stable_resetting (entry :: entries)).moved news h
    refine wp_markStatus (fun _ => h.recoverable) (fun _ _ _ _ => h.recoverable) fun seconds => ?_
    exact ih (h.reset (OutboxEntry.setStatus_id .pending none seconds) fun _ => rfl)

theorem keeps_recoverAfterCrash {w : World} (h : Recoverable w) :
    wp sharing harmless.amid Recovered recoverAfterCrash w := by
  unfold recoverAfterCrash
  rw [wp_bind]
  refine wp_amid fun news => ?_
  replace h := stable_recoverable.moved news h
  generalize moved World.enqueueNew news w = w at h ⊢
  refine wp_fetchInFlight (fun _ => h) (fun _ => h) ?_
  rw [wp_bind]
  have hresetting : Resetting w.inFlightRows w := by
    refine ⟨h, ?_, ?_⟩
    · intro id hs
      obtain ⟨row, hrow, hsending⟩ := hs
      have hid : row.id = id := KeyedTable.key_of_find? hrow
      refine hid ▸ List.mem_map_of_mem (mem_orderedSelect.mpr ⟨hid.symm ▸ hrow, ?_⟩)
      simp [hsending]
    · intro row hrow
      obtain ⟨hfind, hstatus⟩ := mem_orderedSelect.mp hrow
      refine ⟨row.status, ⟨row, hfind, rfl⟩, ?_⟩
      intro hdead
      simp [hdead] at hstatus
  refine wp_mono (fun r w' hr => ?_) (keeps_resetInFlight hresetting)
  cases r with
  | ok => exact hr
  | error e => exact hr

/-! ## The replay -/

/-- The dead letter of `id` is deleted and its row not yet reset. -/
theorem NoLoss.delete {w : World} (h : NoLoss w) (id : String) :
    InOrder (fun id' => id' = id) { w with deadLetter := w.deadLetter.delete id } := by
  refine ⟨h.kept, ?_, ?_⟩
  · intro id' row hrow hne
    refine (h.settled id' row hrow fun hf => hf).mono (fun ht => ht) fun _ hsome => ?_
    show ((w.deadLetter.delete id).find? row.id).isSome
    rw [KeyedTable.find?_delete, if_neg]
    · exact hsome
    · rwa [KeyedTable.key_of_find? hrow]
  · intro id' hid'
    rw [KeyedTable.find?_delete] at hid'
    by_cases hk : id' = id
    · simp [hk] at hid'
    · rw [if_neg hk] at hid'
      exact h.deadLetter id' hid'

/-- The dead letter of `id` is gone, and its row is still as it was. -/
structure HalfReplayed (id : String) (row : OutboxEntry) (w : World) : Prop where
  inOrder : InOrder (fun id' => id' = id) w
  row : w.outbox.find? id = some row
  deadLetter : w.deadLetter.find? id = none

theorem stable_half (id : String) (row : OutboxEntry) :
    Stable World.enqueueNew (HalfReplayed id row) := fun new w h =>
  ⟨stable_inOrder _ new w h.inOrder, find?_enqueueNew_of_eq_some h.row, h.deadLetter⟩

theorem keeps_requeue {w : World} {id payload : String}
    (h : InOrder (fun id' => id' = id) w) {row : OutboxEntry}
    (hrow : w.outbox.find? id = some row) (hdead : w.deadLetter.find? id = none) :
    wp sharing harmless.amid (fun _ w' => NoLoss w') (requeue id payload) w := by
  unfold requeue
  have hstable := stable_half id row
  replace h : HalfReplayed id row w := ⟨h, hrow, hdead⟩
  rw [wp_bind]
  refine wp_amid fun news => ?_
  replace h := hstable.moved news h
  refine wp_timestamp (fun hcrash => absurd hcrash (by simp [harmless, Call.mayCrash])) fun now => ?_
  rw [wp_bind]
  refine wp_amid fun news' => ?_
  replace h := hstable.moved news' h
  refine wp_selectRouteKey (fun hcrash => absurd hcrash (by simp [harmless, Call.mayCrash])) ?_ ?_
  · intro o e ho he
    exact absurd (no_fault ho he) (by simp [Call.mayFail])
  rw [h.row, Option.map_some]
  show wp sharing harmless.amid _ (resetForReplay id payload now >>= _) _
  rw [wp_bind]
  refine wp_amid fun news'' => ?_
  obtain ⟨h, hrow, hdead⟩ := hstable.moved news'' h
  generalize moved World.enqueueNew news'' _ = w at h hrow hdead ⊢
  refine wp_resetForReplay (fun hcrash => absurd hcrash (by simp [harmless, Call.mayCrash])) ?_ ?_
  · intro o e ho he
    exact absurd (no_fault ho he) (by simp [Call.mayFail])
  have hself := find?_updateRow_self w id _ (OutboxEntry.reset_id payload now) hrow
  refine h.at_id id
    (fun _ hid => find?_updateRow_of_ne w id _ (OutboxEntry.reset_id payload now) hid)
    (fun _ _ => rfl) (fun _ ht => List.mem_cons_of_mem _ ht) (fun _ _ ht => by simpa using ht)
    (fun _ hid hb => hid hb) hself (fun _ => trivial) ?_
  show (w.deadLetter.find? id).isSome → _
  rw [hdead]
  simp

theorem keeps_replay {w : World} (h : NoLoss w) (id : String) :
    wp sharing harmless.amid (fun _ w' => NoLoss w') (replay id) w := by
  unfold replay
  rw [wp_bind]
  refine wp_amid fun news => ?_
  replace h : NoLoss _ := (stable_inOrder _).moved news h
  refine wp_selectDeadLetter (fun _ => h.recoverable) (fun _ => h) fun entry hentry => ?_
  rw [wp_bind]
  refine wp_amid fun news' => ?_
  replace h : NoLoss _ := (stable_inOrder _).moved news' h
  rw [← moved_enqueueNew_deadLetter news'] at hentry
  generalize moved World.enqueueNew news' _ = w at h hentry ⊢
  refine wp_deleteDeadLetter (fun _ => h.recoverable) (fun _ => h) ?_
  obtain ⟨row, hrow, _⟩ := h.deadLetter id (by rw [hentry]; rfl)
  refine keeps_requeue (h.delete id) hrow ?_
  show (w.deadLetter.delete id).find? id = none
  rw [KeyedTable.find?_delete, if_pos rfl]

/-! ## Runs -/

theorem keeps_noLoss (retry : RetryConfig) : Keeps retry harmless NoLoss where
  atCrash _ _ h := h.recoverable
  enqueue := stable_inOrder _
  crashed := stable_recoverable
  pending batchSize _ h := keeps_processPending batchSize h
  retries batchSize _ h := keeps_processRetries batchSize h
  replay id _ h := keeps_replay h id
  recover _ h := keeps_recoverAfterCrash h

/-- Every message that was ever enqueued has a row, and the row is settled. -/
def MessagesKept (w : World) : Prop :=
  ∀ id, .enqueued id ∈ w.trace → ∃ row ∈ w.outbox.find? id, Settled w row

theorem NoLoss.messagesKept {w : World} (h : NoLoss w) : MessagesKept w := by
  intro id hid
  obtain ⟨row, hrow⟩ := h.kept id hid
  exact ⟨row, hrow, h.settled id row hrow fun hf => hf⟩

/-- In a run whose faults and crashes are harmless, no message is lost: in
every state in which the process is idle, so after every tick that did not
crash and after every recovery, each message ever enqueued is settled. -/
theorem outbox_messages_kept (retry : RetryConfig) {actions : List Action} {s : Process}
    (hrun : run (Process.step retry) Process.init actions = some s)
    (hharmless : EveryStep (Process.step retry) (Meets harmless) Process.init actions)
    (hidle : s.phase.isIdle = true) : MessagesKept s.world :=
  (run_keeps (keeps_noLoss retry) noLoss_init hrun hharmless hidle).messagesKept

/-- A send fails, and the process crashes before the retry is scheduled.  In
between a second message is enqueued. -/
theorem crashed_message_kept :
    MessagesKept ((run (Process.step fiveRetries) Process.init
      [.enqueue "m1" "wechat/c1" "hi" 1700000000, .startPending 64, .call works,
        .enqueue "m2" "wechat/c2" "hello" 1700000001, .call works, .call (fails "timeout"),
        .crash, .restart, .call works, .call works, .finish]).get (by decide +kernel)).world :=
  outbox_messages_kept fiveRetries (Option.some_get _).symm (by decide +kernel) (by decide +kernel)

/-- The action starts no replay. -/
def Action.isReplay : Action → Bool
  | .startReplay _ => true
  | _ => false

/-- Whatever fails and wherever the process crashes, ticks and recoveries
lose no message. -/
def OutboxKeepsMessages (retry : RetryConfig) : Prop :=
  ∀ (actions : List Action) (s : Process), (∀ a ∈ actions, a.isReplay = false) →
    run (Process.step retry) Process.init actions = some s → s.phase.isIdle = true →
    MessagesKept s.world

/-- They do lose one: the process crashes after the last failure, when the row
is already marked `dead_letter` and the dead letter not yet inserted.  The
recovery does not look at such a row. -/
theorem not_outboxKeepsMessages : ¬ OutboxKeepsMessages { fiveRetries with maxRetries := 1 } := by
  intro h
  refine absurd (h
    [.enqueue "m1" "wechat/c1" "hi" 1700000000, .startPending 64,
      .call works, .call works, .call (fails "timeout"), .call works, .crash,
      .restart, .call works, .finish]
    (Option.get _ ?_) ?_ (Option.some_get ?_).symm ?_ "m1" ?_) ?_
  · decide +kernel
  · decide
  · decide +kernel
  · decide +kernel
  · decide +kernel
  · decide +kernel

end MagicLaw.Outbox
