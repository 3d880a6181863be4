import MagicLaw.Push.Jobs

/-!
# What the statements of a job do

A statement fails and changes nothing, or does what it says
(`attempt_cases`, `attempt_post`).  The insert of a row is looked at by itself
(`insertOutbox_cases`, `addsRow_of_insert`), and so are the items that a job
reads and the check of their targets.
-/

namespace MagicLaw.Push

open Lib
open MagicLaw.Outbox (OutboxEntry)

/-! ## Statements that may fail -/

/-- The statement does not fail, and the id that is drawn is new. -/
structure Works (db : Database) (f : Outcome) : Prop where
  fault : f.fault = none
  uuid : db.outbox.find? s!"push-{f.uuid}" = none

/-- A statement that does not fault. -/
theorem attempt_of_fault_none {α : Type} {f : Outcome} {db : Database} (h : f.fault = none)
    (statement : Except String α × Database) : f.attempt db statement = statement := by
  unfold Outcome.attempt
  rw [h]

theorem attempt_of_fault {α : Type} {f : Outcome} {db : Database} {e : String}
    (h : f.fault = some e) (statement : Except String α × Database) :
    f.attempt db statement = (.error e, db) := by
  unfold Outcome.attempt
  rw [h]

/-- What holds when a statement fails and when it works holds after it. -/
theorem attempt_post {α : Type} {P : Except String α → Database → Prop} {f : Outcome} {db : Database}
    {statement : Except String α × Database} (hfails : ∀ e, P (.error e) db)
    (hworks : P statement.1 statement.2) :
    P (f.attempt db statement).1 (f.attempt db statement).2 := by
  unfold Outcome.attempt
  cases f.fault with
  | none => exact hworks
  | some e => exact hfails e

theorem settle_post {P : Except String Unit → Database → Prop} {result : Except String Database}
    {db : Database} (hfails : ∀ e, P (.error e) db)
    (hworks : ∀ db', result = .ok db' → P (.ok ()) db') :
    P (settle result db).1 (settle result db).2 := by
  cases result with
  | ok db' => exact hworks db' rfl
  | error e => exact hfails e

/-- A statement fails and changes nothing, which it does not when everything
works. -/
theorem attempt_cases {α : Type} (f : Outcome) (t : Database)
    (statement : Except String α × Database) :
    (∃ e, f.attempt t statement = (.error e, t) ∧ ¬ Works t f) ∨
      f.attempt t statement = statement := by
  unfold Outcome.attempt
  cases hfault : f.fault with
  | some e => exact .inl ⟨e, rfl, fun hworks => absurd hworks.fault (by simp [hfault])⟩
  | none => exact .inr rfl

/-- A row for the item and the endpoint, and nothing else that is read. -/
structure AddsRow (t t' : Database) (itemId : String) (endpoint : Endpoint) : Prop where
  enqueued : ∃ rowId, t'.enqueued = ⟨itemId, endpoint, rowId⟩ :: t.enqueued
  targets : t'.targets = t.targets
  bindings : t'.bindings = t.bindings
  items : t'.items = t.items
  held : t'.held = t.held

theorem addsRow_of_insert {t t' : Database} {itemId routeKeyJson payloadJson uuid : String}
    {endpoint : Endpoint} {ts : Int64}
    (h : insertOutboxRow t itemId endpoint routeKeyJson payloadJson uuid ts = .ok t') :
    AddsRow t t' itemId endpoint := by
  unfold insertOutboxRow at h
  dsimp only at h
  split at h
  · cases h
    exact ⟨⟨_, rfl⟩, rfl, rfl, rfl, rfl⟩
  · cases h

/-- A row is added, or the statement fails. -/
theorem insertOutbox_cases (t : Database) (f : Outcome) (itemId : String) (endpoint : Endpoint)
    (routeKeyJson payloadJson : String) :
    (∃ e, handle t f (.insertOutbox itemId endpoint routeKeyJson payloadJson) = (.error e, t) ∧
      ¬ Works t f) ∨
    ∃ t', handle t f (.insertOutbox itemId endpoint routeKeyJson payloadJson) = (.ok (), t') ∧
      AddsRow t t' itemId endpoint := by
  have hhandle : handle t f (.insertOutbox itemId endpoint routeKeyJson payloadJson) = f.attempt t
      (settle (insertOutboxRow t itemId endpoint routeKeyJson payloadJson f.uuid f.seconds) t) := rfl
  rw [hhandle]
  rcases attempt_cases f t (settle _ t) with hfails | hruns
  · exact .inl hfails
  · rw [hruns]
    cases hinsert : insertOutboxRow t itemId endpoint routeKeyJson payloadJson f.uuid f.seconds with
    | ok t' => exact .inr ⟨t', rfl, addsRow_of_insert hinsert⟩
    | error e =>
      refine .inl ⟨e, rfl, fun hworks => ?_⟩
      unfold insertOutboxRow at hinsert
      dsimp only at hinsert
      rw [KeyedTable.insert_eq_some hworks.uuid] at hinsert
      cases hinsert

/-- The row that a statement which worked has added, and its record. -/
theorem exists_row_of_insertOutbox {t t' : Database} {f : Outcome}
    {itemId routeKeyJson payloadJson : String} {endpoint : Endpoint}
    (h : handle t f (.insertOutbox itemId endpoint routeKeyJson payloadJson) = (.ok (), t')) :
    ∃ row : OutboxEntry, t'.outbox.rows = t.outbox.rows ++ [row] ∧
      t'.enqueued = ⟨itemId, endpoint, row.id⟩ :: t.enqueued ∧ row.routeKey = routeKeyJson ∧
      row.payload = payloadJson ∧ row.status = .pending := by
  have hhandle : f.attempt t
      (settle (insertOutboxRow t itemId endpoint routeKeyJson payloadJson f.uuid f.seconds) t) =
        (.ok (), t') := h
  cases hfault : f.fault with
  | some e =>
    rw [attempt_of_fault hfault] at hhandle
    cases hhandle
  | none =>
    rw [attempt_of_fault_none hfault] at hhandle
    cases hinsert : insertOutboxRow t itemId endpoint routeKeyJson payloadJson f.uuid f.seconds with
    | error e =>
      rw [hinsert] at hhandle
      cases hhandle
    | ok u =>
      rw [hinsert] at hhandle
      cases hhandle
      unfold insertOutboxRow at hinsert
      dsimp only at hinsert
      split at hinsert
      · next outbox houtbox =>
        obtain ⟨hfree, rfl⟩ := KeyedTable.eq_append_of_insert houtbox
        cases hinsert
        exact ⟨_, rfl, rfl, rfl, rfl, rfl⟩
      · cases hinsert

/-! ## The items of a job -/

/-- No two pending items of a job have one id. -/
theorem nodup_pendingItems (db : Database) (jobId : String) :
    ((pendingItems db jobId).map PendingItem.itemId).Nodup := by
  have hperm := (List.perm_insertionSort (fun a b : PushItemRow => a.createdAt ≤ b.createdAt)
    (db.items.select fun row => row.jobId = jobId && row.status = .pending)).map PushItemRow.itemId
  unfold pendingItems
  rw [List.map_map]
  exact hperm.nodup_iff.mpr (KeyedTable.nodup_select db.items _)

theorem eq_of_itemId {db : Database} {jobId : String} {a b : PendingItem}
    (ha : a ∈ pendingItems db jobId) (hb : b ∈ pendingItems db jobId) (h : a.itemId = b.itemId) :
    a = b :=
  List.inj_on_of_nodup_map (nodup_pendingItems db jobId) ha hb h

/-! ## Requested targets -/

/-- The targets that the item asks for, if its text can be read. -/
def requestedTargets (serde : Serde) (item : PendingItem) : List DeliveryTarget :=
  match item.requested serde with
  | .ok requested => requested
  | .error _ => []

theorem requestedTargets_of_ok {serde : Serde} {item : PendingItem} {targets : List DeliveryTarget}
    (h : item.requested serde = .ok targets) : requestedTargets serde item = targets := by
  unfold requestedTargets
  rw [h]

theorem validated_eq_ok_iff {requested targets : List DeliveryTarget} {allowed : List String} :
    validated requested allowed = .ok targets ↔
      targets = requested ∧ ∀ target ∈ requested, target.targetId ∈ allowed := by
  unfold validated
  rw [List.partition_eq_filter_filter]
  by_cases hall : ∀ target ∈ requested, target.targetId ∈ allowed
  · have hvalid : requested.filter (fun t => decide (t.targetId ∈ allowed)) = requested := by
      rw [List.filter_eq_self]
      simpa using hall
    have hinvalid :
        requested.filter (not ∘ fun t => decide (t.targetId ∈ allowed)) = [] := by
      rw [List.filter_eq_nil_iff]
      simpa using hall
    simp only [hvalid, hinvalid, ne_eq, not_true_eq_false, if_false, Except.ok.injEq]
    exact ⟨fun h => ⟨h.symm, hall⟩, fun h => h.1.symm⟩
  · have hinvalid :
        requested.filter (not ∘ fun t => decide (t.targetId ∈ allowed)) ≠ [] := by
      rw [ne_eq, List.filter_eq_nil_iff]
      simpa using hall
    dsimp only
    rw [if_pos hinvalid]
    exact iff_of_false (fun h => by cases h) fun h => hall h.2

end MagicLaw.Push
