import Mathlib.Data.Set.Finite.Basic
import MagicLaw.Lib.Bytes
import MagicLaw.Pipeline.Replies
import MagicLaw.Push.Bindings

/-!
# What a targeted item may address

The check of a targeted item compares the joined ids of the requested targets
with those of the project's bindings.  `Grants` is what the check says, and
`Traced` and `Settled` are what a run of the job makes of it: every row for
the item has the route of a target that was granted, and a run in which every
call works enqueues a row for each of them, or marks the item failed.

A joined id may be that of another endpoint, so an item is authorized exactly
when it `Fits`.
-/

namespace MagicLaw.Push

open Lib Lib.Program Lib.Machine Lib.Interference
open MagicLaw.Outbox (OutboxEntry)

/-! ## The check of the ids -/

section Items

variable (serde : Serde) (db : Database)

/-- The check of the ids lets the item address these targets. -/
structure Grants (item : PendingItem) (targets : List DeliveryTarget) : Prop where
  requested : item.requested serde = .ok targets
  nonempty : targets ≠ []
  allowed : ∀ target ∈ targets, target.targetId ∈ activeIds db item.projectKey

/-- Either every requested target is bound, or one of them has the id of no
bound endpoint. -/
def Fits (item : PendingItem) : Prop :=
  (∀ target ∈ requestedTargets serde item, Bound db item.projectKey target.endpoint) ∨
    ∃ target ∈ requestedTargets serde item,
      ∀ e, Bound db item.projectKey e → e.targetId ≠ target.targetId

end Items

/-! ## Targets without a bar -/

/-- The mark that joins the columns is not in them, except perhaps in the
last. -/
structure Endpoint.Plain (e : Endpoint) : Prop where
  channel : '|' ∉ e.channel.toList
  peerId : '|' ∉ e.peerId.toList
  conversationId : '|' ∉ e.conversationId.toList
  conversationType : '|' ∉ e.conversationType.toList

theorem toList_targetId (e : Endpoint) :
    e.targetId.toList = e.channel.toList ++ '|' :: (e.peerId.toList ++ '|' ::
      (e.conversationId.toList ++ '|' :: (e.conversationType.toList ++ '|' ::
        e.accountScope.toList))) := by
  simp [Endpoint.targetId, String.toList_append, toString]

/-- The ids of plain endpoints tell them apart. -/
theorem eq_of_targetId {e e' : Endpoint} (he : e.Plain) (he' : e'.Plain)
    (h : e.targetId = e'.targetId) : e = e' := by
  have hlists := congrArg String.toList h
  rw [toList_targetId, toList_targetId] at hlists
  obtain ⟨hchannel, hlists⟩ := Bytes.eq_of_separated he.channel he'.channel hlists
  obtain ⟨hpeer, hlists⟩ := Bytes.eq_of_separated he.peerId he'.peerId hlists
  obtain ⟨hconversation, hlists⟩ :=
    Bytes.eq_of_separated he.conversationId he'.conversationId hlists
  obtain ⟨htype, hscope⟩ := Bytes.eq_of_separated he.conversationType he'.conversationType hlists
  obtain ⟨channel, peerId, conversationId, conversationType, accountScope⟩ := e
  obtain ⟨channel', peerId', conversationId', conversationType', accountScope'⟩ := e'
  simp only [String.toList_inj] at hchannel hpeer hconversation htype hscope
  subst hchannel hpeer hconversation htype hscope
  rfl

/-- An item fits when the targets it asks for and those of its project are
plain. -/
theorem fits_of_plain {serde : Serde} {db : Database} {item : PendingItem}
    (hrequested : ∀ target ∈ requestedTargets serde item, target.endpoint.Plain)
    (hbound : ∀ e, Bound db item.projectKey e → e.Plain) : Fits serde db item := by
  by_cases hall : ∀ target ∈ requestedTargets serde item, Bound db item.projectKey target.endpoint
  · exact .inl hall
  · push Not at hall
    obtain ⟨target, htarget, hunbound⟩ := hall
    refine .inr ⟨target, htarget, fun e he hid => hunbound ?_⟩
    obtain rfl := eq_of_targetId (hbound e he) (hrequested target htarget) hid
    exact he

/-! ## Pending items -/

/-- The status of an item. -/
def statusOf (db : Database) (itemId : String) : Option ItemStatus :=
  (db.items.find? itemId).map PushItemRow.status

theorem statusOf_pending {db : Database} {jobId : String} {item : PendingItem}
    (h : item ∈ pendingItems db jobId) : statusOf db item.itemId = some .pending := by
  obtain ⟨row, hrow, rfl⟩ := List.mem_map.mp h
  rw [List.mem_insertionSort] at hrow
  obtain ⟨hfind, hcolumns⟩ := KeyedTable.mem_select.mp hrow
  simp only [Bool.and_eq_true, decide_eq_true_eq] at hcolumns
  show (db.items.find? row.itemId).map PushItemRow.status = some .pending
  rw [hfind, Option.map_some, hcolumns.2]

/-! ## What a run leaves -/

/-- The items with the ids have been given the status. -/
def Marks (t t' : Database) (itemId : String) (status : ItemStatus) : Prop :=
  ∀ id, statusOf t' id =
    if id = itemId then (statusOf t id).map fun _ => status else statusOf t id

/-- A pending row with the text, for the route of the target. -/
structure IsRowFor (serde : Serde) (messageText : String) (target : DeliveryTarget)
    (row : OutboxEntry) : Prop where
  routeKey : serde.routeKey target.routeKey = .ok row.routeKey
  payload : serde.content (.text messageText) = .ok row.payload
  status : row.status = .pending

/-- The rows that have been added to the outbox, each with the record of the
item and the endpoint that it is for. -/
structure Adds (db t : Database) (added : List (Enqueued × OutboxEntry)) : Prop where
  rows : t.outbox.rows = db.outbox.rows ++ added.map Prod.snd
  records : t.enqueued = (added.map Prod.fst).reverse ++ db.enqueued
  ids : ∀ pair ∈ added, pair.1.rowId = pair.2.id

/-- The row is one of the item, for the endpoint of its record, and the item
was granted a target with this endpoint. -/
structure RowGranted (serde : Serde) (db : Database) (item : PendingItem)
    (pair : Enqueued × OutboxEntry) : Prop where
  row : IsRowFor serde item.messageText pair.1.endpoint.toTarget pair.2
  granted : item.mode = "targeted" → ∃ targets, Grants serde db item targets ∧
    ∃ target ∈ targets, target.endpoint = pair.1.endpoint

/-- What the items are resolved by has not changed, and every row for an item
is one for a target that was granted to it. -/
structure Traced (serde : Serde) (db : Database) (jobId : String) (t : Database) : Prop where
  targets : t.targets = db.targets
  bindings : t.bindings = db.bindings
  added : ∃ added, Adds db t added ∧ ∀ pair ∈ added, ∀ item ∈ pendingItems db jobId,
    pair.1.itemId = item.itemId → RowGranted serde db item pair

/-- There is a row for the item and the target. -/
def HasRow (t : Database) (item : PendingItem) (target : DeliveryTarget) : Prop :=
  ∃ e ∈ t.enqueued, e.itemId = item.itemId ∧ e.endpoint = target.endpoint

/-- There is a row for every target that was granted to the item, and without
any it is marked failed. -/
structure Settled (serde : Serde) (db : Database) (item : PendingItem) (t : Database) : Prop where
  granted : ∀ targets, Grants serde db item targets → ∀ target ∈ targets,
    HasRow t item target
  refused : (∀ targets, ¬ Grants serde db item targets) → statusOf t item.itemId = some .failed

section Run

variable {serde : Serde} {db t t' : Database} {jobId : String} {item : PendingItem}
  {allowed : Database → Call → Outcome → Prop}

theorem Adds.congr {added : List (Enqueued × OutboxEntry)} (h : Adds db t added)
    (houtbox : t'.outbox = t.outbox) (henqueued : t'.enqueued = t.enqueued) : Adds db t' added := by
  refine ⟨?_, henqueued.trans h.records, h.ids⟩
  rw [houtbox]
  exact h.rows

theorem Traced.congr (h : Traced serde db jobId t) (htargets : t'.targets = t.targets)
    (hbindings : t'.bindings = t.bindings) (houtbox : t'.outbox = t.outbox)
    (henqueued : t'.enqueued = t.enqueued) : Traced serde db jobId t' := by
  obtain ⟨added, hadds, hgranted⟩ := h.added
  exact ⟨htargets.trans h.targets, hbindings.trans h.bindings, added,
    hadds.congr houtbox henqueued, hgranted⟩

theorem Settled.mono (h : Settled serde db item t)
    (henqueued : ∀ e ∈ t.enqueued, e ∈ t'.enqueued)
    (hstatus : statusOf t' item.itemId = statusOf t item.itemId) : Settled serde db item t' := by
  constructor
  · intro targets hgrants target htarget
    obtain ⟨e, he, hrow⟩ := h.granted targets hgrants target htarget
    exact ⟨e, henqueued e he, hrow⟩
  · intro hnone
    rw [hstatus]
    exact h.refused hnone

theorem activeIds_congr (h : t.bindings = db.bindings) (projectKey : String) :
    activeIds t projectKey = activeIds db projectKey := by
  unfold activeIds activeBindings
  rw [h]

/-- Every outcome is one in which the call works. -/
def AllWork (allowed : Database → Call → Outcome → Prop) : Prop :=
  ∀ db c f, allowed db c f → Works db f

/-- A statement that only reads. -/
theorem attempt_read {α : Type} {r : Except String α} (f : Outcome) :
    (f.attempt t (r, t)).2 = t := by
  unfold Outcome.attempt
  cases f.fault <;> rfl

/-- A targeted item is resolved to targets that it was granted, and to them
when everything works. -/
structure Resolves (serde : Serde) (db : Database) (allowed : Database → Call → Outcome → Prop)
    (item : PendingItem) (r : Except String (List DeliveryTarget)) : Prop where
  sound : ∀ targets, r = .ok targets → Grants serde db item targets
  complete : AllWork allowed → ∀ targets, Grants serde db item targets → r = .ok targets

theorem resolves_error {e : String}
    (hnone : AllWork allowed → ∀ targets, ¬ Grants serde db item targets) :
    Resolves serde db allowed item (.error e) := by
  constructor
  · intro targets hr
    cases hr
  · intro hwork targets hgrants
    exact absurd hgrants (hnone hwork targets)

theorem resolves_validated {requested : List DeliveryTarget}
    (hrequested : item.requested serde = .ok requested) (hnonempty : requested ≠ []) :
    Resolves serde db allowed item (validated requested (activeIds db item.projectKey)) := by
  constructor
  · intro targets hr
    obtain ⟨rfl, hallowed⟩ := validated_eq_ok_iff.mp hr
    exact ⟨hrequested, hnonempty, hallowed⟩
  · intro _ targets hgrants
    rw [hgrants.requested, Except.ok.injEq] at hrequested
    subst hrequested
    exact validated_eq_ok_iff.mpr ⟨rfl, hgrants.allowed⟩

/-- The items are read, and nothing is changed. -/
theorem wpi_resolveItemTargets (h : Traced serde db jobId t) :
    wpi handle (alone allowed (Traced serde db jobId))
      (fun r t' => t = t' ∧ (item.mode = "targeted" → Resolves serde db allowed item r))
      (resolveItemTargets serde item) t := by
  unfold resolveItemTargets
  split
  · next hbroadcast =>
    have hother : item.mode ≠ "targeted" := by
      rw [hbroadcast]
      decide
    refine alone_call h fun f _ => ?_
    have hstate : (handle t f (.resolveBroadcastTargets item.projectKey)).2 = t := attempt_read _
    rw [hstate]
    split
    · exact alone_pure h ⟨rfl, fun hmode => absurd hmode hother⟩
    · split
      · exact alone_pure h ⟨rfl, fun hmode => absurd hmode hother⟩
      · exact alone_pure h ⟨rfl, fun hmode => absurd hmode hother⟩
  · split
    · next e hrequested =>
      refine alone_pure h ⟨rfl, fun _ => resolves_error fun _ targets hgrants => ?_⟩
      cases hrequested.symm.trans hgrants.requested
    · next requested hrequested =>
      split
      · next hempty =>
        refine alone_pure h ⟨rfl, fun _ => resolves_error fun _ targets hgrants => ?_⟩
        rw [hempty] at hrequested
        exact hgrants.nonempty (Except.ok.inj (hgrants.requested.symm.trans hrequested))
      · next hnonempty =>
        refine alone_call h fun f hf => ?_
        rcases attempt_cases f t (.ok (activeIds t item.projectKey), t) with
          ⟨e, hfails, hnot⟩ | hreads
        · rw [show handle t f (.activeTargetIds item.projectKey) = (.error e, t) from hfails]
          exact alone_pure h ⟨rfl, fun _ => resolves_error fun hwork => absurd (hwork t _ f hf) hnot⟩
        · rw [show handle t f (.activeTargetIds item.projectKey) =
            (.ok (activeIds t item.projectKey), t) from hreads, activeIds_congr h.bindings]
          exact alone_pure h ⟨rfl, fun _ => resolves_validated hrequested hnonempty⟩
  · next hmode =>
    exact alone_pure h ⟨rfl, fun htargeted => absurd htargeted hmode⟩

/-- One more row and its record. -/
theorem Adds.concat {added : List (Enqueued × OutboxEntry)} (h : Adds db t added) {e : Enqueued}
    {row : OutboxEntry} (hrows : t'.outbox.rows = t.outbox.rows ++ [row])
    (hrecords : t'.enqueued = e :: t.enqueued) (hid : e.rowId = row.id) :
    Adds db t' (added ++ [(e, row)]) := by
  constructor
  · rw [hrows, h.rows, List.map_append, List.append_assoc]
    rfl
  · rw [hrecords, h.records, List.map_append, List.reverse_append]
    rfl
  · exact forall_mem_concat h.ids hid

/-- The row for a target of an item that was resolved may be added. -/
theorem Traced.addsRow (h : Traced serde db jobId t) (hitem : item ∈ pendingItems db jobId)
    {target : DeliveryTarget} (hgranted : item.mode = "targeted" →
      ∃ targets, Grants serde db item targets ∧ target ∈ targets)
    (hadds : AddsRow t t' item.itemId target.endpoint) {row : OutboxEntry}
    (hrows : t'.outbox.rows = t.outbox.rows ++ [row])
    (hrecords : t'.enqueued = ⟨item.itemId, target.endpoint, row.id⟩ :: t.enqueued)
    (hrow : IsRowFor serde item.messageText target row) : Traced serde db jobId t' := by
  obtain ⟨added, hold, hall⟩ := h.added
  refine ⟨hadds.targets.trans h.targets, hadds.bindings.trans h.bindings, _,
    hold.concat hrows hrecords rfl, ?_⟩
  apply forall_mem_concat hall
  intro other hother hid
  obtain rfl := eq_of_itemId hitem hother hid
  constructor
  · exact ⟨hrow.routeKey, hrow.payload, hrow.status⟩
  · intro hmode
    obtain ⟨targets, hgrants, htarget⟩ := hgranted hmode
    exact ⟨targets, hgrants, target, htarget, rfl⟩

/-- Rows may have been added, and nothing else has changed that matters. -/
structure Grows (serde : Serde) (db : Database) (jobId : String) (t t' : Database) : Prop where
  traced : Traced serde db jobId t'
  items : t'.items = t.items
  enqueued : ∀ e ∈ t.enqueued, e ∈ t'.enqueued

/-- The row for one target. -/
theorem wpi_enqueueOutbox (hserde : serde.Total) (h : Traced serde db jobId t)
    (hitem : item ∈ pendingItems db jobId) {target : DeliveryTarget}
    (hgranted : item.mode = "targeted" →
      ∃ targets, Grants serde db item targets ∧ target ∈ targets) :
    wpi handle (alone allowed (Traced serde db jobId))
      (fun r t' => Grows serde db jobId t t' ∧
        (AllWork allowed → r = .ok () ∧ HasRow t' item target))
      (enqueueOutbox serde item.itemId target item.messageText) t := by
  obtain ⟨routeKeyJson, hroute⟩ := hserde.routeKey target.routeKey
  obtain ⟨payloadJson, hcontent⟩ := hserde.content (.text item.messageText)
  unfold enqueueOutbox
  rw [hroute, hcontent]
  refine alone_call h fun f hf => ?_
  rcases insertOutbox_cases t f item.itemId target.endpoint routeKeyJson payloadJson with
    ⟨e, hresult, hnot⟩ | ⟨t', hresult, hadds⟩
  · rw [hresult]
    exact alone_pure h ⟨⟨h, rfl, fun _ he => he⟩, fun hwork => absurd (hwork t _ f hf) hnot⟩
  · obtain ⟨row, hrows, henqueued, hroute', hpayload, hstatus⟩ := exists_row_of_insertOutbox hresult
    rw [hresult]
    have hrow : IsRowFor serde item.messageText target row := by
      refine ⟨?_, ?_, hstatus⟩
      · rw [hroute, hroute']
      · rw [hcontent, hpayload]
    have htraced := h.addsRow hitem hgranted hadds hrows henqueued hrow
    refine alone_pure htraced ⟨⟨htraced, hadds.items, ?_⟩, fun _ => ⟨rfl, ?_⟩⟩
    · intro e he
      rw [henqueued]
      exact List.mem_cons_of_mem _ he
    · refine ⟨⟨item.itemId, target.endpoint, row.id⟩, ?_, rfl, rfl⟩
      rw [henqueued]
      exact List.mem_cons_self

theorem Grows.trans {t u v : Database} (htu : Grows serde db jobId t u)
    (huv : Grows serde db jobId u v) : Grows serde db jobId t v :=
  ⟨huv.traced, huv.items.trans htu.items, fun e he => huv.enqueued e (htu.enqueued e he)⟩

/-- The rows for all targets.  When everything works they are counted. -/
theorem wpi_enqueueAll (hserde : serde.Total) (hitem : item ∈ pendingItems db jobId)
    (targets : List DeliveryTarget)
    (hgranted : item.mode = "targeted" → ∀ target ∈ targets,
      ∃ targets, Grants serde db item targets ∧ target ∈ targets)
    (enqueued : Nat) (firstError : Option String) (h : Traced serde db jobId t) :
    wpi handle (alone allowed (Traced serde db jobId))
      (fun r t' => Grows serde db jobId t t' ∧ (AllWork allowed →
        r = (enqueued + targets.length, firstError) ∧ ∀ target ∈ targets, HasRow t' item target))
      (enqueueAll serde item.itemId item.messageText targets enqueued firstError) t := by
  induction targets generalizing enqueued firstError t with
  | nil =>
    refine alone_pure h ⟨⟨h, rfl, fun _ he => he⟩, fun _ => ⟨rfl, ?_⟩⟩
    exact fun _ htarget => absurd htarget List.not_mem_nil
  | cons target targets ih =>
    have hrest := fun hmode other hother => hgranted hmode other (List.mem_cons_of_mem _ hother)
    refine wpi_bind alone_lawful (wpi_mono ?_ (wpi_enqueueOutbox hserde h hitem
      fun hmode => hgranted hmode target List.mem_cons_self))
    intro r t' hrow
    obtain ⟨hgrows, hworks⟩ := hrow
    cases r with
    | error e =>
      refine wpi_mono ?_ (ih hrest enqueued (firstError.or (some e)) hgrows.traced)
      intro r t'' hall
      refine ⟨hgrows.trans hall.1, fun hwork => ?_⟩
      cases (hworks hwork).1
    | ok u =>
      refine wpi_mono ?_ (ih hrest (enqueued + 1) firstError hgrows.traced)
      intro r t'' hall
      refine ⟨hgrows.trans hall.1, fun hwork => ?_⟩
      obtain ⟨hcount, hrows⟩ := hall.2 hwork
      refine ⟨?_, ?_⟩
      · rw [hcount, List.length_cons]
        congr 1
        omega
      · intro other hother
        rcases List.mem_cons.mp hother with rfl | hother
        · obtain ⟨e, he, hrow⟩ := (hworks hwork).2
          exact ⟨e, hall.1.enqueued e he, hrow⟩
        · exact hrows other hother

theorem statusOf_update (t : Database) (itemId : String) (status : ItemStatus)
    (error : Option String) (ts : Int64) :
    Marks t { t with items := t.items.update itemId (PushItemRow.mark status error ts) fun _ => rfl }
      itemId status := by
  intro id
  have hfind := KeyedTable.find?_update t.items itemId (PushItemRow.mark status error ts)
    (fun _ => rfl) id
  refine (congrArg (Option.map PushItemRow.status) hfind).trans ?_
  unfold statusOf
  split
  · next hid =>
    rw [hid, Option.map_map, Option.map_map]
    rfl
  · rfl

/-- The mark of an item. -/
theorem wpi_markItem (run : Nat) (status : ItemStatus) (error : Option String) (result : String)
    (h : Traced serde db jobId t) :
    wpi handle (alone allowed (Traced serde db jobId))
      (fun r t' => Traced serde db jobId t' ∧ (AllWork allowed → r = .ok () ∧
        t'.enqueued = t.enqueued ∧ Marks t t' item.itemId status))
      (markItem run item status error result) t := by
  unfold markItem
  refine alone_call h fun f hf => ?_
  cases hfault : f.fault with
  | some e =>
    have hhandle : handle t f (.markItem run item.itemId status error) =
        (.error e, dropRun t run) := by
      simp only [handle, hfault]
    rw [hhandle]
    have htraced : Traced serde db jobId (dropRun t run) := h.congr rfl rfl rfl rfl
    refine alone_pure htraced ⟨htraced, fun hwork => ?_⟩
    exact absurd (hwork t _ f hf).fault (by simp [hfault])
  | none =>
    let marked : Database := { t with
      items := t.items.update item.itemId (PushItemRow.mark status error f.seconds) fun _ => rfl
      held := t.held.filter fun h => h ≠ (run, item.itemId) }
    have hhandle : handle t f (.markItem run item.itemId status error) = (.ok (), marked) := by
      simp only [handle, hfault]
      rfl
    rw [hhandle]
    have htraced : Traced serde db jobId marked := h.congr rfl rfl rfl rfl
    refine alone_call htraced fun g _ => ?_
    have haudit : ∃ audit,
        (handle marked g (.writeAudit (some item.projectKey) "project_push" result)).2 =
          { marked with audit := audit } := by
      cases hg : g.fault with
      | some e => exact ⟨marked.audit, by simp only [handle, hg]⟩
      | none => exact ⟨_, by simp only [handle, hg]; rfl⟩
    obtain ⟨audit, haudit⟩ := haudit
    rw [haudit]
    have htraced' : Traced serde db jobId { marked with audit := audit } := htraced.congr rfl rfl rfl rfl
    refine alone_pure htraced' ⟨htraced', fun _ => ⟨rfl, rfl, ?_⟩⟩
    exact statusOf_update t item.itemId status error f.seconds

/-- The items have been settled, and those with other ids are as before. -/
structure Handled (serde : Serde) (db : Database) (items : List PendingItem) (t t' : Database) :
    Prop where
  enqueued : ∀ e ∈ t.enqueued, e ∈ t'.enqueued
  others : ∀ id, id ∉ items.map PendingItem.itemId → statusOf t' id = statusOf t id
  settled : ∀ item ∈ items, item.mode = "targeted" → Settled serde db item t'

theorem Handled.cons {u : Database} {items : List PendingItem}
    (hitem : Handled serde db [item] t u) (hitems : Handled serde db items u t')
    (hnew : item.itemId ∉ items.map PendingItem.itemId) :
    Handled serde db (item :: items) t t' := by
  constructor
  · exact fun e he => hitems.enqueued e (hitem.enqueued e he)
  · intro id hid
    rw [List.map_cons, List.mem_cons, not_or] at hid
    rw [hitems.others id hid.2]
    exact hitem.others id (by simpa using hid.1)
  · intro other hother hmode
    rcases List.mem_cons.mp hother with rfl | hother
    · exact (hitem.settled other List.mem_cons_self hmode).mono hitems.enqueued
        (hitems.others other.itemId hnew)
    · exact hitems.settled other hother hmode

/-- An item whose rows have been added and that has been marked is handled, if
the rows and the mark are the right ones. -/
theorem handled_of_marks {u : Database} {status : ItemStatus} (hgrows : Grows serde db jobId t u)
    (henqueued : t'.enqueued = u.enqueued) (hmarks : Marks u t' item.itemId status)
    (hsettled : item.mode = "targeted" → Settled serde db item t') :
    Handled serde db [item] t t' := by
  constructor
  · rw [henqueued]
    exact hgrows.enqueued
  · intro id hid
    rw [hmarks id, if_neg (by simpa using hid)]
    unfold statusOf
    rw [hgrows.items]
  · intro other hother hmode
    rw [List.mem_singleton] at hother
    subst hother
    exact hsettled hmode

theorem settled_of_rows {targets : List DeliveryTarget} (hgrants : Grants serde db item targets)
    (hrows : ∀ target ∈ targets, HasRow t item target) : Settled serde db item t := by
  constructor
  · intro others hothers
    obtain rfl : targets = others :=
      Except.ok.inj (hgrants.requested.symm.trans hothers.requested)
    exact hrows
  · exact fun hnone => absurd hgrants (hnone targets)

theorem settled_of_refused (hnone : ∀ targets, ¬ Grants serde db item targets)
    (hstatus : statusOf t item.itemId = some .failed) : Settled serde db item t :=
  ⟨fun targets hgrants => absurd hgrants (hnone targets), fun _ => hstatus⟩

/-- The mark of an item, after which its outcome is yielded. -/
theorem wpi_finishItem (run : Nat) {u : Database} (hgrows : Grows serde db jobId t u)
    {status : ItemStatus} (error : Option String) (result : String) (outcome : Option Nat)
    (hsettled : AllWork allowed → ∀ t', t'.enqueued = u.enqueued → Marks u t' item.itemId status →
      item.mode = "targeted" → Settled serde db item t') :
    wpi handle (alone allowed (Traced serde db jobId))
      (fun r t' => Traced serde db jobId t' ∧
        (AllWork allowed → (∃ outcome, r = .ok outcome) ∧ Handled serde db [item] t t'))
      (markItem run item status error result >>= fun r => pure (r.map fun _ => outcome)) u := by
  refine wpi_bind alone_lawful (wpi_mono ?_ (wpi_markItem run status error result hgrows.traced))
  intro r t' hmark
  refine alone_pure hmark.1 ⟨hmark.1, fun hwork => ?_⟩
  obtain ⟨rfl, henqueued, hmarks⟩ := hmark.2 hwork
  exact ⟨⟨outcome, rfl⟩,
    handled_of_marks hgrows henqueued hmarks (hsettled hwork t' henqueued hmarks)⟩

/-- One item. -/
theorem wpi_pushItem (hserde : serde.Total) (run : Nat) (hitem : item ∈ pendingItems db jobId)
    (h : Traced serde db jobId t)
    (hpending : AllWork allowed → statusOf t item.itemId = some .pending) :
    wpi handle (alone allowed (Traced serde db jobId))
      (fun r t' => Traced serde db jobId t' ∧
        (AllWork allowed → (∃ outcome, r = .ok outcome) ∧ Handled serde db [item] t t'))
      (pushItem serde run item) t := by
  unfold pushItem
  refine wpi_bind alone_lawful (wpi_mono ?_ (wpi_resolveItemTargets h))
  intro r _ hresult
  obtain ⟨rfl, hresolves⟩ := hresult
  cases r with
  | error e =>
    refine wpi_finishItem run ⟨h, rfl, fun _ he => he⟩ _ _ _ fun hwork t' _ hmarks hmode => ?_
    refine settled_of_refused (fun targets hgrants => ?_) ?_
    · cases (hresolves hmode).complete hwork targets hgrants
    · rw [hmarks, if_pos rfl, hpending hwork, Option.map_some]
  | ok targets =>
    have hgrants : item.mode = "targeted" → Grants serde db item targets :=
      fun hmode => (hresolves hmode).sound targets rfl
    have hgranted : item.mode = "targeted" → ∀ target ∈ targets,
        ∃ targets, Grants serde db item targets ∧ target ∈ targets :=
      fun hmode target htarget => ⟨targets, hgrants hmode, htarget⟩
    refine wpi_bind alone_lawful
      (wpi_mono ?_ (wpi_enqueueAll hserde hitem targets hgranted 0 none h))
    intro r u hresult
    obtain ⟨enqueued, firstError⟩ := r
    obtain ⟨hgrows, hrows⟩ := hresult
    -- whichever mark the item gets, its rows are there
    have hsettled : ∀ status, AllWork allowed → ∀ t', t'.enqueued = u.enqueued →
        Marks u t' item.itemId status → item.mode = "targeted" → Settled serde db item t' := by
      intro _ hwork t' henqueued _ hmode
      refine settled_of_rows (hgrants hmode) fun target htarget => ?_
      obtain ⟨e, he, hrow⟩ := (hrows hwork).2 target htarget
      exact ⟨e, henqueued ▸ he, hrow⟩
    dsimp only
    split
    · exact wpi_finishItem run hgrows _ _ _ (hsettled _)
    · split
      · exact wpi_finishItem run hgrows _ _ _ (hsettled _)
      · exact wpi_finishItem run hgrows _ _ _ (hsettled _)

/-- The loop over pending items. -/
theorem wpi_pushItems (hserde : serde.Total) (run : Nat) (items : List PendingItem)
    (hitems : ∀ item ∈ items, item ∈ pendingItems db jobId)
    (hnodup : (items.map PendingItem.itemId).Nodup) (summary : RunSummary)
    (h : Traced serde db jobId t)
    (hpending : AllWork allowed → ∀ item ∈ items, statusOf t item.itemId = some .pending) :
    wpi handle (alone allowed (Traced serde db jobId))
      (fun r t' => Traced serde db jobId t' ∧
        (AllWork allowed → (∃ summary, r = .ok summary) ∧ Handled serde db items t t'))
      (pushItems serde run items summary) t := by
  induction items generalizing summary t with
  | nil =>
    refine alone_pure h ⟨h, fun _ => ⟨⟨summary, rfl⟩, fun _ he => he, fun _ _ => rfl, ?_⟩⟩
    exact fun _ hitem => absurd hitem List.not_mem_nil
  | cons item items ih =>
    rw [List.map_cons, List.nodup_cons] at hnodup
    have hone := wpi_pushItem hserde run (hitems item List.mem_cons_self) h
      fun hwork => hpending hwork item List.mem_cons_self
    refine wpi_bind alone_lawful (wpi_mono ?_ hone)
    intro r u hboth
    obtain ⟨htraced, hworks⟩ := hboth
    cases r with
    | error e =>
      refine alone_pure htraced ⟨htraced, fun hwork => ?_⟩
      obtain ⟨⟨_, hr⟩, -⟩ := hworks hwork
      cases hr
    | ok outcome =>
      have hrest : AllWork allowed → ∀ other ∈ items, statusOf u other.itemId = some .pending := by
        intro hwork other hother
        have hne : other.itemId ≠ item.itemId := fun hid =>
          hnodup.1 (hid ▸ List.mem_map_of_mem hother)
        rw [(hworks hwork).2.others other.itemId (by simpa using hne)]
        exact hpending hwork other (List.mem_cons_of_mem _ hother)
      refine wpi_mono ?_ (ih (fun other hother => hitems other (List.mem_cons_of_mem _ hother))
        hnodup.2 (summary.add outcome) htraced hrest)
      intro r v hboth
      obtain ⟨htraced', hall⟩ := hboth
      refine ⟨htraced', fun hwork => ⟨(hall hwork).1, ?_⟩⟩
      exact (hworks hwork).2.cons (hall hwork).2 hnodup.1

/-- Every targeted item is settled. -/
def AllSettled (serde : Serde) (db : Database) (jobId : String) (t : Database) : Prop :=
  ∀ item ∈ pendingItems db jobId, item.mode = "targeted" → Settled serde db item t

/-- The last statement of a run leaves the items as they are. -/
theorem wpi_finalizeJob (h : Traced serde db jobId t)
    (hsettled : AllWork allowed → AllSettled serde db jobId t) (summary : RunSummary)
    (status : JobStatus) (success failed : Int64) :
    wpi handle (alone allowed (Traced serde db jobId))
      (fun _ t' => AllWork allowed → AllSettled serde db jobId t')
      (finalizeJob jobId status success failed >>= fun r =>
        pure ((orFailed "finalize job" r).map fun _ => summary)) t := by
  refine alone_call h fun f _ => ?_
  let finished : Database := { t with
    jobs := t.jobs.update jobId (PushJobRow.finish status success failed f.seconds) fun _ => rfl }
  rcases attempt_cases f t (.ok (), finished) with ⟨e, hfails, -⟩ | hworks
  · rw [show handle t f (.finalizeJob jobId status success failed) = (.error e, t) from hfails]
    exact alone_pure h hsettled
  · rw [show handle t f (.finalizeJob jobId status success failed) = (.ok (), finished) from hworks]
    refine alone_pure (h.congr rfl rfl rfl rfl) fun hwork item hitem hmode => ?_
    exact (hsettled hwork item hitem hmode).mono (fun _ he => he) rfl

/-- A run of the job traces its rows, and when everything works it settles
every pending item. -/
theorem wpi_runPushJob (hserde : serde.Total) (run : Nat) (jobId : String) :
    wpi handle (alone allowed (Traced serde db jobId))
      (fun _ t' => AllWork allowed → AllSettled serde db jobId t')
      (runPushJob serde run jobId) db := by
  have hstart : Traced serde db jobId db := by
    refine ⟨rfl, rfl, [], ⟨?_, rfl, fun pair hpair => absurd hpair List.not_mem_nil⟩, ?_⟩
    · rw [List.map_nil, List.append_nil]
    · exact fun pair hpair => absurd hpair List.not_mem_nil
  unfold runPushJob
  refine alone_call hstart fun f hf => ?_
  let started : Database := { db with
    jobs := db.jobs.update jobId (PushJobRow.start f.seconds) fun _ => rfl }
  have hstarted : Traced serde db jobId started := hstart.congr rfl rfl rfl rfl
  rcases attempt_cases f db (.ok (), started) with ⟨e, hfails, hnot⟩ | hworks
  · rw [show handle db f (.markJobRunning jobId) = (.error e, db) from hfails]
    exact alone_pure hstart fun hwork => absurd (hwork db _ f hf) hnot
  · rw [show handle db f (.markJobRunning jobId) = (.ok (), started) from hworks]
    refine alone_call hstarted fun g hg => ?_
    let fetched : Database := { started with
      held := (pendingItems db jobId).map (fun item => (run, item.itemId)) ++ db.held }
    have hfetched : Traced serde db jobId fetched := hstarted.congr rfl rfl rfl rfl
    rcases attempt_cases g started (.ok (pendingItems db jobId), fetched) with
      ⟨e, hfails, hnot⟩ | hworks
    · rw [show handle started g (.fetchPendingItems run jobId) = (.error e, started) from hfails]
      exact alone_pure hstarted fun hwork => absurd (hwork _ _ g hg) hnot
    · rw [show handle started g (.fetchPendingItems run jobId) =
        (.ok (pendingItems db jobId), fetched) from hworks]
      refine wpi_bind alone_lawful (wpi_mono ?_ (wpi_pushItems hserde run (pendingItems db jobId)
        (fun _ hitem => hitem) (nodup_pendingItems db jobId) _ hfetched
        fun _ item hitem => statusOf_pending hitem))
      intro r u hboth
      obtain ⟨htraced, hall⟩ := hboth
      cases r with
      | error e =>
        refine alone_pure htraced fun hwork => ?_
        obtain ⟨⟨_, hr⟩, -⟩ := hall hwork
        cases hr
      | ok summary =>
        exact wpi_finalizeJob htraced (fun hwork => (hall hwork).2.settled) summary _ _ _

end Run

/-! ## When an item is authorized -/

/-- Whatever the calls of the run come to, every row of the outbox that is for
the item is for an endpoint that is bound to its project, and has the route of
this endpoint and the text of the item.  If a requested target is not bound,
none of the rows is for the item, and a run in which every call works marks the
item failed. -/
structure Authorized (serde : Serde) (db : Database) (run : Nat) (jobId : String)
    (item : PendingItem) : Prop where
  bound : ∀ p t, Leads handle (fun _ _ _ => True) (runPushJob serde run jobId) db p t →
    ∃ added, Adds db t added ∧ ∀ pair ∈ added, pair.1.itemId = item.itemId →
      Bound db item.projectKey pair.1.endpoint ∧
        IsRowFor serde item.messageText pair.1.endpoint.toTarget pair.2
  refused : (∃ target ∈ requestedTargets serde item, ¬ Bound db item.projectKey target.endpoint) →
    (∀ p t, Leads handle (fun _ _ _ => True) (runPushJob serde run jobId) db p t →
      ∃ added, Adds db t added ∧ ∀ pair ∈ added, pair.1.itemId ≠ item.itemId) ∧
    ∀ r t, Leads handle (fun db _ f => Works db f) (runPushJob serde run jobId) db (.ret r) t →
      statusOf t item.itemId = some .failed

/-- An id can be drawn that no row has. -/
theorem exists_works (db : Database) : ∃ f, Works db f := by
  let f : String → String := fun uuid => s!"push-{uuid}"
  have hinj : Function.Injective f := fun a b h => (String.append_right_inj _).mp h
  obtain ⟨_, ⟨uuid, rfl⟩, hnew⟩ := (Set.infinite_range_of_injective hinj).exists_notMem_finset
    (db.outbox.rows.map OutboxEntry.id).toFinset
  refine ⟨⟨none, 0, uuid⟩, rfl, KeyedTable.find?_eq_none_iff.mpr fun row hrow hid => hnew ?_⟩
  rw [List.mem_toFinset]
  exact List.mem_map.mpr ⟨row, hrow, hid⟩

section Items

variable {serde : Serde} {db : Database} {jobId : String} {item : PendingItem}

/-- An item that fits is granted bound targets only, and none if a requested
target is not bound. -/
theorem Fits.bound (h : Fits serde db item) (hprepared : Prepared db)
    {targets : List DeliveryTarget} (hgrants : Grants serde db item targets) :
    ∀ target ∈ requestedTargets serde item, Bound db item.projectKey target.endpoint := by
  rcases h with hbound | ⟨target, htarget, hother⟩
  · exact hbound
  · rw [requestedTargets_of_ok hgrants.requested] at htarget
    obtain ⟨e, hbound, hid⟩ :=
      (mem_activeIds_iff hprepared.registered).mp (hgrants.allowed target htarget)
    exact absurd hid (hother e hbound)

theorem authorized_of_fits (hserde : serde.Total) (hprepared : Prepared db) (run : Nat)
    (hitem : item ∈ pendingItems db jobId) (hmode : item.mode = "targeted")
    (h : Fits serde db item) : Authorized serde db run jobId item := by
  have htrace : ∀ p t, Leads handle (fun _ _ _ => True) (runPushJob serde run jobId) db p t →
      ∃ added, Adds db t added ∧ ∀ pair ∈ added, pair.1.itemId = item.itemId →
        RowGranted serde db item pair := by
    intro p t hleads
    have htraced := always_of_leads (wpi_runPushJob hserde run jobId) hleads
    obtain ⟨added, hadds, hall⟩ := htraced.added
    exact ⟨added, hadds, fun pair hpair hid => hall pair hpair item hitem hid⟩
  constructor
  · intro p t hleads
    obtain ⟨added, hadds, hall⟩ := htrace p t hleads
    refine ⟨added, hadds, fun pair hpair hid => ⟨?_, (hall pair hpair hid).row⟩⟩
    obtain ⟨targets, hgrants, target, htarget, hendpoint⟩ := (hall pair hpair hid).granted hmode
    rw [← hendpoint]
    apply h.bound hprepared hgrants
    rw [requestedTargets_of_ok hgrants.requested]
    exact htarget
  · intro hexists
    obtain ⟨target, htarget, hunbound⟩ := hexists
    have hnone : ∀ targets, ¬ Grants serde db item targets := fun targets hgrants =>
      hunbound (h.bound hprepared hgrants target htarget)
    constructor
    · intro p t hleads
      obtain ⟨added, hadds, hall⟩ := htrace p t hleads
      refine ⟨added, hadds, fun pair hpair hid => ?_⟩
      obtain ⟨targets, hgrants, -⟩ := (hall pair hpair hid).granted hmode
      exact hnone targets hgrants
    · intro r t hleads
      have hsettled := post_of_leads (wpi_runPushJob hserde run jobId) hleads
      exact (hsettled (fun _ _ _ h => h) item hitem hmode).refused hnone

/-- A target that is not bound gets a row, if the ids of all are those of bound
endpoints. -/
theorem fits_of_authorized (hserde : serde.Total) (hprepared : Prepared db) {run : Nat}
    (hitem : item ∈ pendingItems db jobId) (hmode : item.mode = "targeted")
    (h : Authorized serde db run jobId item) : Fits serde db item := by
  by_contra hnot
  unfold Fits at hnot
  push Not at hnot
  obtain ⟨⟨target, htarget, hunbound⟩, hids⟩ := hnot
  have hrequested : item.requested serde = .ok (requestedTargets serde item) := by
    unfold requestedTargets at htarget ⊢
    cases hrequest : item.requested serde with
    | ok requested => rfl
    | error e =>
      rw [hrequest] at htarget
      exact absurd htarget List.not_mem_nil
  have hgrants : Grants serde db item (requestedTargets serde item) := by
    refine ⟨hrequested, List.ne_nil_of_mem htarget, fun other hother => ?_⟩
    exact (mem_activeIds_iff hprepared.registered).mpr (hids other hother)
  have hworks : ∀ (db : Database) (_ : Call), ∃ f, Works db f := fun db _ => exists_works db
  obtain ⟨r, t, hleads, hsettled⟩ := exists_leads hworks (wpi_runPushJob hserde run jobId)
  obtain ⟨e, he, hid, hendpoint⟩ :=
    (hsettled (fun _ _ _ h => h) item hitem hmode).granted _ hgrants target htarget
  obtain ⟨added, hadds, hall⟩ := h.bound _ _ (hleads.mono fun _ _ _ _ => trivial)
  rw [hadds.records, hprepared.enqueued, List.append_nil, List.mem_reverse] at he
  obtain ⟨pair, hpair, rfl⟩ := List.mem_map.mp he
  have hbound := (hall pair hpair hid).1
  rw [hendpoint] at hbound
  exact hunbound hbound

/-- Of what imports have left, the pending items of a job that are authorized
are those that fit. -/
theorem authorized_iff_fits (hserde : serde.Total) (himported : Imported db) (run : Nat)
    (hitem : item ∈ pendingItems db jobId) (hmode : item.mode = "targeted") :
    Authorized serde db run jobId item ↔ Fits serde db item :=
  ⟨fits_of_authorized hserde (prepared_of_imported himported) hitem hmode,
    authorized_of_fits hserde (prepared_of_imported himported) run hitem hmode⟩

end Items

/-! ## A bar in a name -/

instance Bound.decidable (db : Database) (projectKey : String) (e : Endpoint) :
    Decidable (Bound db projectKey e) :=
  decidable_of_iff (∃ binding ∈ activeBindings db projectKey,
    ((db.targets.find? binding.targetId).any fun row => row.status = .active && row.endpoint = e) =
      true) <| by
    unfold Bound
    simp [Option.any_eq_true]

/-- The text of a list of targets. -/
def targetsText (targets : List DeliveryTarget) : String :=
  "[" ++ ",".intercalate (targets.map fun target => Pipeline.objectText
    [("channel", Pipeline.quote target.channel), ("peer_id", Pipeline.quote target.peerId),
      ("conversation_id", Pipeline.quote target.conversationId),
      ("conversation_type", Pipeline.quote target.conversationType),
      ("account_scope", (target.accountScope.map Pipeline.quote).getD "null")]) ++ "]"

/-- `serde_json`, which can read the texts of these lists. -/
def serdeReading (lists : List (List DeliveryTarget)) : Serde where
  toSerdeText := Pipeline.derivedText
  targets raw :=
    match lists.find? fun targets => targetsText targets = raw with
    | some targets => .ok targets
    | none => .error "expected value at line 1 column 1"

/-- A peer with a bar in its name, and the target that has the same joined
id. -/
def barred : DeliveryTarget := ⟨"wechat", "a|b", "c", "direct", none⟩

def shifted : DeliveryTarget := ⟨"wechat", "a", "b|c", "direct", none⟩

def barredRecord : BindingImportRecord :=
  ⟨"proj-a", "wechat", "a|b", "c", "direct", "import", none, none⟩

/-- A job with one item, for one target. -/
def pendingFor (target : DeliveryTarget) : Database where
  projects := KeyedTable.empty
  targets := KeyedTable.empty
  bindings := KeyedTable.empty
  jobs := .single ⟨"job1", .pending, 1, 0, 0, 1700000000⟩
  items := .single ⟨"item1", "job1", "proj-a", "hello", "targeted", some (targetsText [target]),
    .pending, none, 1700000000, 1700000000⟩
  outbox := KeyedTable.empty
  audit := []
  enqueued := []
  held := []

/-- The import of the record: three statements that work. -/
def importEvents : List (Processes.Event Nat (Nat × List BindingImportRecord) Empty Outcome) :=
  .start (0, [barredRecord]) :: List.replicate 3 (.call 0 ⟨none, 1700000000, ""⟩)

def importedFor (target : DeliveryTarget) : Database :=
  ((run (Processes.System.step importPlan) (Processes.System.init (pendingFor target))
    importEvents).map Processes.System.shared).getD (pendingFor target)

def itemFor (target : DeliveryTarget) : PendingItem :=
  ⟨"item1", "proj-a", "hello", "targeted", some (targetsText [target])⟩

theorem imported_importedFor {target : DeliveryTarget}
    (h : (run (Processes.System.step importPlan) (Processes.System.init (pendingFor target))
      importEvents).isSome = true) : Imported (importedFor target) := by
  obtain ⟨s', hrun⟩ := Option.isSome_iff_exists.mp h
  refine ⟨pendingFor target, ⟨rfl, rfl, rfl, rfl⟩, importEvents, s', hrun, ?_⟩
  unfold importedFor
  rw [hrun]
  rfl

/-- An item for the bound target is authorized. -/
theorem barred_authorized :
    Authorized (serdeReading [[barred]]) (importedFor barred) 0 "job1" (itemFor barred) :=
  (authorized_iff_fits Pipeline.derivedText_total (imported_importedFor (by decide +kernel)) 0
    (by decide +kernel) rfl).mpr (.inl (by decide +kernel))

/-- An item for the target with the same id is not, though nobody has bound
it. -/
theorem shifted_not_authorized :
    ¬ ∀ (serde : Serde) (db : Database) (run : Nat) (jobId : String) (item : PendingItem),
      serde.Total → Imported db → item ∈ pendingItems db jobId → item.mode = "targeted" →
        Authorized serde db run jobId item := by
  intro h
  have himported : Imported (importedFor shifted) := imported_importedFor (by decide +kernel)
  have hitem : itemFor shifted ∈ pendingItems (importedFor shifted) "job1" := by decide +kernel
  have hfits := fits_of_authorized Pipeline.derivedText_total (prepared_of_imported himported) hitem
    rfl (h (serdeReading [[shifted]]) _ 0 "job1" _ Pipeline.derivedText_total himported hitem rfl)
  rcases hfits with hbound | ⟨target, htarget, hother⟩
  · exact absurd hbound (by decide +kernel)
  · have hrequested : requestedTargets (serdeReading [[shifted]]) (itemFor shifted) = [shifted] := by
      decide +kernel
    rw [hrequested, List.mem_singleton] at htarget
    subst htarget
    exact hother barred.endpoint (by decide +kernel) (by decide +kernel)

end MagicLaw.Push
