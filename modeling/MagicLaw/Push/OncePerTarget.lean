import MagicLaw.Lib.Owners
import MagicLaw.Pipeline.Replies
import MagicLaw.Push.Statements

/-!
# One row per item and target

Runs of push jobs and imports on one database, call by call, where a run may
be dropped anywhere.  A run enqueues the rows of an item and marks it
afterwards, so it counts on being the only one that works on the item, from
the moment it fetches it (`relies`).

`triple_runPushJob` says that a run enqueues at most one row for a pair of an
item and a target, if what it fetches is `Fresh`: not fetched by a run that
still works on it, without a row, and with each target once.
-/

namespace MagicLaw.Push

open Lib Lib.Program Lib.Machine Lib.Owners
open MagicLaw.Outbox (OutboxEntry)

/-! ## The columns that are unique together -/

/-- `UNIQUE (channel, …)` of `delivery_targets` and
`UNIQUE (project_key, target_id)` of `project_bindings`. -/
structure UniqueColumns (db : Database) : Prop where
  endpoints : (db.targets.rows.map DeliveryTargetRow.endpoint).Nodup
  bindings : (db.bindings.rows.map fun row => (row.projectKey, row.targetId)).Nodup

/-- A step that enqueues nothing and lets nobody take or leave an item. -/
structure Quiet (db db' : Database) : Prop where
  unique : UniqueColumns db → UniqueColumns db'
  enqueued : db'.enqueued = db.enqueued
  held : db'.held = db.held

theorem quiet_refl (db : Database) : Quiet db db := ⟨fun h => h, rfl, rfl⟩

theorem quiet_of_tables {db db' : Database} (htargets : db'.targets = db.targets)
    (hbindings : db'.bindings = db.bindings) (henqueued : db'.enqueued = db.enqueued)
    (hheld : db'.held = db.held) : Quiet db db' := by
  refine ⟨fun h => ⟨?_, ?_⟩, henqueued, hheld⟩
  · rw [htargets]
    exact h.endpoints
  · rw [hbindings]
    exact h.bindings

theorem quiet_upsertTargetRow {db db' : Database} {target : DeliveryTarget} {ts : Int64}
    (hresult : upsertTargetRow db target ts = .ok db') : Quiet db db' := by
  unfold upsertTargetRow at hresult
  split at hresult
  · cases hresult
    let activate := DeliveryTargetRow.activate ts
    refine ⟨fun h => ⟨?_, h.bindings⟩, rfl, rfl⟩
    exact KeyedTable.nodup_map_update activate (fun _ => rfl) (fun _ => rfl) h.endpoints
  · next hnone =>
    split at hresult
    · next targets hinsert =>
      cases hresult
      refine ⟨fun h => ⟨KeyedTable.nodup_map_insert h.endpoints hinsert ?_, h.bindings⟩, rfl, rfl⟩
      intro old hold
      simpa using List.find?_eq_none.mp hnone old hold
    · cases hresult

theorem quiet_upsertBindingRow {db db' : Database} {projectKey targetId bindSource : String}
    {ts : Int64} (hresult : upsertBindingRow db projectKey targetId bindSource ts = .ok db') :
    Quiet db db' := by
  unfold upsertBindingRow at hresult
  split at hresult
  · cases hresult
    let activate := ProjectBindingRow.activate bindSource ts
    refine ⟨fun h => ⟨h.endpoints, ?_⟩, rfl, rfl⟩
    exact KeyedTable.nodup_map_update activate (fun _ => rfl) (fun _ => rfl) h.bindings
  · next hnone =>
    split at hresult
    · next bindings hinsert =>
      cases hresult
      refine ⟨fun h => ⟨h.endpoints, KeyedTable.nodup_map_insert h.bindings hinsert ?_⟩, rfl, rfl⟩
      intro old hold
      simpa using List.find?_eq_none.mp hnone old hold
    · cases hresult

theorem endpoint_toTarget (e : Endpoint) : e.toTarget.endpoint = e := by
  obtain ⟨channel, peerId, conversationId, conversationType, accountScope⟩ := e
  unfold Endpoint.toTarget DeliveryTarget.endpoint DeliveryTarget.accountScopeValue
  dsimp only
  split
  · next hempty => simp [hempty]
  · simp

/-- A broadcast goes to each endpoint once. -/
theorem nodup_broadcastTargets {db : Database} (h : UniqueColumns db) (projectKey : String) :
    ((broadcastTargets db projectKey).map DeliveryTarget.endpoint).Nodup := by
  let endpoint? : String → Option Endpoint := fun id =>
    ((db.targets.find? id).filter fun row => row.status = .active).map DeliveryTargetRow.endpoint
  have hids : ((activeBindings db projectKey).map ProjectBindingRow.targetId).Nodup := by
    have hpairs : ((activeBindings db projectKey).map fun row =>
        (row.projectKey, row.targetId)).Nodup := h.bindings.sublist (List.filter_sublist.map _)
    have hsame : ((activeBindings db projectKey).map fun row => (row.projectKey, row.targetId)) =
        ((activeBindings db projectKey).map ProjectBindingRow.targetId).map (Prod.mk projectKey) := by
      rw [List.map_map]
      refine List.map_congr_left fun row hrow => ?_
      have hcolumns := List.of_mem_filter hrow
      simp only [Bool.and_eq_true, decide_eq_true_eq] at hcolumns
      exact Prod.ext hcolumns.1 rfl
    rw [hsame] at hpairs
    exact hpairs.of_map _
  have hendpoints : (broadcastTargets db projectKey).map DeliveryTarget.endpoint =
      ((activeBindings db projectKey).map ProjectBindingRow.targetId).filterMap endpoint? := by
    unfold broadcastTargets
    rw [List.map_filterMap, List.filterMap_map]
    refine congrArg (List.filterMap · _) (funext fun binding => ?_)
    show Option.map _ (Option.map _ _) = Option.map _ _
    rw [Option.map_map]
    refine congrArg (Option.map · _) (funext fun row => ?_)
    exact endpoint_toTarget row.endpoint
  rw [hendpoints]
  refine hids.filterMap fun id id' e he he' => ?_
  obtain ⟨row, hrow, hendpoint⟩ := Option.map_eq_some_iff.mp he
  obtain ⟨row', hrow', hendpoint'⟩ := Option.map_eq_some_iff.mp he'
  obtain ⟨hmem, hid⟩ := KeyedTable.find?_eq_some_iff.mp (Option.filter_eq_some_iff.mp hrow).1
  obtain ⟨hmem', hid'⟩ := KeyedTable.find?_eq_some_iff.mp (Option.filter_eq_some_iff.mp hrow').1
  rw [← hid, ← hid',
    List.inj_on_of_nodup_map h.endpoints hmem hmem' (hendpoint.trans hendpoint'.symm)]

/-! ## What runs count on -/

/-- The item may be worked on: it has no row, no run works on it, and the text
of a targeted one lists no target twice. -/
structure Fresh (serde : Serde) (db : Database) (item : PendingItem) : Prop where
  enqueued : ∀ e ∈ db.enqueued, e.itemId ≠ item.itemId
  held : ∀ h ∈ db.held, h.2 ≠ item.itemId
  targets : item.mode = "targeted" →
    ((requestedTargets serde item).map DeliveryTarget.endpoint).Nodup

/-- The items that a run fetches may be worked on. -/
def FetchesFresh (serde : Serde) (db : Database) : Call → Outcome → Prop
  | .fetchPendingItems _ jobId, f => f.fault = none → ∀ item ∈ pendingItems db jobId,
      Fresh serde db item
  | _, _ => True

/-- The pairs of the rows differ, and each item is held by one run. -/
structure Once (db : Database) : Prop where
  unique : UniqueColumns db
  pairs : (db.enqueued.map fun e => (e.itemId, e.endpoint)).Nodup
  held : (db.held.map Prod.snd).Nodup

/-- What a run holds stays its own and gets no row. -/
def relies (run : Nat) (s t : Database) : Prop :=
  ∀ itemId, (run, itemId) ∈ s.held →
    (run, itemId) ∈ t.held ∧ ∀ e ∈ t.enqueued, e.itemId = itemId → e ∈ s.enqueued

def pushRegime (serde : Serde) : Regime Nat Call Database Outcome :=
  ⟨FetchesFresh serde, relies, Once⟩

theorem pushRegime_lawful (serde : Serde) : (pushRegime serde).Lawful where
  refl _ _ _ hheld := ⟨hheld, fun _ he _ => he⟩
  trans run s t u hst htu itemId hheld := by
    obtain ⟨hheld', hold⟩ := hst itemId hheld
    obtain ⟨hheld'', hold'⟩ := htu itemId hheld'
    exact ⟨hheld'', fun e he hid => hold e (hold' e he hid) hid⟩

/-- The run holds the item, and no row of it is for one of the endpoints. -/
structure Holds (run : Nat) (itemId : String) (endpoints : Endpoint → Prop) (db : Database) :
    Prop where
  held : (run, itemId) ∈ db.held
  rows : ∀ e ∈ db.enqueued, e.itemId = itemId → ¬ endpoints e.endpoint

theorem Holds.stable {run : Nat} {itemId : String} {endpoints : Endpoint → Prop} {s t : Database}
    (h : Holds run itemId endpoints s) (hst : relies run s t) : Holds run itemId endpoints t := by
  obtain ⟨hheld, hold⟩ := hst itemId h.held
  exact ⟨hheld, fun e he hid => h.rows e (hold e he hid) hid⟩

section Run

variable {serde : Serde} {run : Nat}

/-- The run holds the items, and they have no row. -/
def waiting (serde : Serde) (run : Nat) (items : List PendingItem) :
    Assert (pushRegime serde) run where
  holds db := ∀ item ∈ items, Holds run item.itemId (fun _ => True) db
  stable _ _ hst h item hitem := (h item hitem).stable hst

/-- The run works on an item that has no row for the targets that are left. -/
def serving (serde : Serde) (run : Nat) (item : PendingItem) (targets : List DeliveryTarget)
    (items : List PendingItem) : Assert (pushRegime serde) run where
  holds db := Holds run item.itemId (· ∈ targets.map DeliveryTarget.endpoint) db ∧
    (waiting serde run items).holds db
  stable s t hst h := ⟨h.1.stable hst, (waiting serde run items).stable s t hst h.2⟩

/-- A quiet step is one that every run counts on. -/
theorem Quiet.relies {s t : Database} (h : Quiet s t) (run : Nat) : relies run s t := by
  intro itemId hheld
  rw [h.held, h.enqueued]
  exact ⟨hheld, fun _ he _ => he⟩

theorem Quiet.once {s t : Database} (h : Quiet s t) (honce : Once s) : Once t := by
  refine ⟨h.unique honce.unique, ?_, ?_⟩
  · rw [h.enqueued]
    exact honce.pairs
  · rw [h.held]
    exact honce.held

theorem Quiet.keeps {s t : Database} (h : Quiet s t) (honce : Once s) :
    (pushRegime serde).Keeps run s t :=
  ⟨h.once honce, fun run' _ => h.relies run'⟩

/-- A statement that is quiet when it works. -/
theorem quiet_attempt {α : Type} {f : Outcome} {s : Database}
    {statement : Except String α × Database} (h : Quiet s statement.2) : Quiet s (f.attempt s statement).2 :=
  attempt_post (P := fun _ t => Quiet s t) (fun _ => quiet_refl s) h

/-- A call that is quiet, whatever comes of it. -/
theorem triple_quiet {α : Type} {A : Assert (pushRegime serde) run} {c : Call}
    {next : c.Reply → Work α} {Q : α → Assert (pushRegime serde) run}
    (hquiet : ∀ s f, Quiet s (handle s f c).2) (hnext : ∀ r, Triple handle A (next r) Q) :
    Triple handle A (Prog.perform c >>= next) Q := by
  refine triple_call (B := fun _ => A) (fun s hA honce f _ => ⟨?_, ?_⟩) hnext
  · exact (hquiet s f).keeps honce
  · exact A.stable s _ ((hquiet s f).relies run) hA

/-! ## The rows of an item -/

/-- A run may add a row to an item that it holds. -/
theorem keeps_of_addsRow {s t : Database} {itemId : String} {endpoint : Endpoint}
    {endpoints : Endpoint → Prop} (honce : Once s) (hholds : Holds run itemId endpoints s)
    (hnew : endpoints endpoint) (hadds : AddsRow s t itemId endpoint) :
    (pushRegime serde).Keeps run s t := by
  obtain ⟨rowId, henqueued⟩ := hadds.enqueued
  constructor
  · refine ⟨⟨?_, ?_⟩, ?_, ?_⟩
    · rw [hadds.targets]
      exact honce.unique.endpoints
    · rw [hadds.bindings]
      exact honce.unique.bindings
    · rw [henqueued, List.map_cons, List.nodup_cons]
      refine ⟨fun hmem => ?_, honce.pairs⟩
      obtain ⟨e, he, hpair⟩ := List.mem_map.mp hmem
      obtain ⟨hid, hendpoint⟩ := Prod.mk.inj hpair
      exact hholds.rows e he hid (hendpoint ▸ hnew)
    · rw [hadds.held]
      exact honce.held
  · intro run' hrun itemId' hheld
    refine ⟨hadds.held ▸ hheld, fun e he hid => ?_⟩
    rw [henqueued] at he
    rcases List.mem_cons.mp he with rfl | he
    · -- the item would be held by two runs
      have hsame := List.inj_on_of_nodup_map honce.held hheld hholds.held hid.symm
      exact absurd (congrArg Prod.fst hsame) hrun
    · exact he

theorem serving_of_addsRow {s t : Database} {item : PendingItem} {target : DeliveryTarget}
    {targets : List DeliveryTarget} {items : List PendingItem}
    (htarget : target.endpoint ∉ targets.map DeliveryTarget.endpoint)
    (hitem : item.itemId ∉ items.map PendingItem.itemId)
    (hadds : AddsRow s t item.itemId target.endpoint)
    (h : (serving serde run item (target :: targets) items).holds s) :
    (serving serde run item targets items).holds t := by
  obtain ⟨rowId, henqueued⟩ := hadds.enqueued
  obtain ⟨⟨hheld, hrows⟩, hwaiting⟩ := h
  refine ⟨⟨hadds.held ▸ hheld, fun e he hid hmem => ?_⟩, fun other hother => ?_⟩
  · rw [henqueued] at he
    rcases List.mem_cons.mp he with rfl | he
    · exact htarget hmem
    · exact hrows e he hid (List.mem_cons_of_mem _ hmem)
  · obtain ⟨hheld', hrows'⟩ := hwaiting other hother
    refine ⟨hadds.held ▸ hheld', fun e he hid _ => ?_⟩
    rw [henqueued] at he
    rcases List.mem_cons.mp he with rfl | he
    · exact hitem (List.mem_map.mpr ⟨other, hother, hid.symm⟩)
    · exact hrows' e he hid trivial

theorem serving_tail {item : PendingItem} {target : DeliveryTarget} {targets : List DeliveryTarget}
    {items : List PendingItem} {s : Database}
    (h : (serving serde run item (target :: targets) items).holds s) :
    (serving serde run item targets items).holds s :=
  ⟨⟨h.1.held, fun e he hid hmem => h.1.rows e he hid (List.mem_cons_of_mem _ hmem)⟩, h.2⟩

theorem triple_enqueueOutbox {item : PendingItem} {target : DeliveryTarget}
    {targets : List DeliveryTarget} {items : List PendingItem}
    (htarget : target.endpoint ∉ targets.map DeliveryTarget.endpoint)
    (hitem : item.itemId ∉ items.map PendingItem.itemId) (messageText : String) :
    Triple handle (serving serde run item (target :: targets) items)
      (enqueueOutbox serde item.itemId target messageText)
      fun _ => serving serde run item targets items := by
  unfold enqueueOutbox
  split
  · exact triple_pure fun _ h => serving_tail h
  · split
    · exact triple_pure fun _ h => serving_tail h
    · next routeKeyJson _ _ payloadJson _ =>
      refine triple_call (B := fun _ => serving serde run item targets items) ?_
        fun _ => triple_pure fun _ h => h
      intro s hserving honce f _
      rcases insertOutbox_cases s f item.itemId target.endpoint routeKeyJson payloadJson with
        ⟨e, hresult, -⟩ | ⟨t, hresult, hadds⟩
      · rw [hresult]
        exact ⟨(quiet_refl s).keeps honce, serving_tail hserving⟩
      · rw [hresult]
        refine ⟨keeps_of_addsRow honce hserving.1 ?_ hadds, ?_⟩
        · exact List.mem_cons_self
        · exact serving_of_addsRow htarget hitem hadds hserving

theorem triple_enqueueAll {item : PendingItem} {items : List PendingItem}
    (hitem : item.itemId ∉ items.map PendingItem.itemId) (messageText : String)
    (targets : List DeliveryTarget) (hnodup : (targets.map DeliveryTarget.endpoint).Nodup)
    (enqueued : Nat) (firstError : Option String) :
    Triple handle (serving serde run item targets items)
      (enqueueAll serde item.itemId messageText targets enqueued firstError)
      fun _ => waiting serde run items := by
  induction targets generalizing enqueued firstError with
  | nil => exact triple_pure fun _ h => h.2
  | cons target targets ih =>
    rw [List.map_cons, List.nodup_cons] at hnodup
    refine triple_bind (pushRegime_lawful serde)
      (triple_enqueueOutbox hnodup.1 hitem messageText) fun r => ?_
    cases r with
    | ok u => exact ih hnodup.2 (enqueued + 1) firstError
    | error e => exact ih hnodup.2 enqueued (firstError.or (some e))

/-! ## One item after the other -/

/-- An item is resolved to targets of which no two are the same. -/
theorem triple_resolveItemTargets {A : Assert (pushRegime serde) run} {item : PendingItem}
    (hrequested : item.mode = "targeted" →
      ((requestedTargets serde item).map DeliveryTarget.endpoint).Nodup) :
    Triple handle A (resolveItemTargets serde item) fun r => A.and (.pure _ _ (∀ targets,
      r = .ok targets → (targets.map DeliveryTarget.endpoint).Nodup)) := by
  have herror : ∀ e : String, Triple handle A (pure (.error e) : Work (Except String _)) fun r =>
      A.and (.pure _ _ (∀ targets : List DeliveryTarget, r = .ok targets →
        (targets.map DeliveryTarget.endpoint).Nodup)) :=
    fun e => triple_pure fun _ h => ⟨h, fun targets hr => by cases hr⟩
  unfold resolveItemTargets
  split
  · refine triple_call (B := fun r => A.and (.pure _ _ (∀ targets, r = .ok targets →
      (targets.map DeliveryTarget.endpoint).Nodup))) ?_ fun r => ?_
    · intro s hA honce f _
      have hquiet : Quiet s (handle s f (.resolveBroadcastTargets item.projectKey)).2 :=
        quiet_attempt (quiet_refl s)
      refine ⟨hquiet.keeps honce, A.stable s _ (hquiet.relies run) hA, fun targets hreply => ?_⟩
      rcases attempt_cases f s (.ok (broadcastTargets s item.projectKey), s) with
        ⟨e, hfails, -⟩ | hworks
      · cases (congrArg Prod.fst hfails).symm.trans hreply
      · have hsame := (congrArg Prod.fst hworks).symm.trans hreply
        rw [← Except.ok.inj hsame]
        exact nodup_broadcastTargets honce.unique item.projectKey
    · cases r with
      | error e => exact triple_of_pure fun _ => herror _
      | ok targets =>
        refine triple_of_pure fun hnodup => ?_
        dsimp only [orFailed, Except.mapError]
        split
        · exact herror _
        · refine triple_pure fun _ h => ⟨h, fun targets' hr => ?_⟩
          rw [← Except.ok.inj hr]
          exact hnodup targets rfl
  · next hmode =>
    split
    · exact herror _
    · next requested hok =>
      split
      · exact herror _
      · refine triple_quiet (fun s f => quiet_attempt (quiet_refl s)) fun r => ?_
        cases r with
        | error e => exact herror _
        | ok allowed =>
          refine triple_pure fun _ h => ⟨h, fun targets hr => ?_⟩
          obtain ⟨rfl, -⟩ := validated_eq_ok_iff.mp hr
          rw [← requestedTargets_of_ok hok]
          exact hrequested hmode
  · exact herror _

/-- A run may let go of what it holds. -/
theorem keeps_of_release {s t : Database} (honce : Once s) (htargets : t.targets = s.targets)
    (hbindings : t.bindings = s.bindings) (henqueued : t.enqueued = s.enqueued)
    (hsub : t.held.Sublist s.held) (hothers : ∀ h ∈ s.held, h.1 ≠ run → h ∈ t.held) :
    (pushRegime serde).Keeps run s t := by
  constructor
  · refine ⟨⟨?_, ?_⟩, ?_, honce.held.sublist (hsub.map _)⟩
    · rw [htargets]
      exact honce.unique.endpoints
    · rw [hbindings]
      exact honce.unique.bindings
    · rw [henqueued]
      exact honce.pairs
  · intro run' hrun itemId hheld
    refine ⟨hothers _ hheld hrun, fun e he _ => ?_⟩
    rw [← henqueued]
    exact he

theorem keeps_dropRun {s : Database} (honce : Once s) :
    (pushRegime serde).Keeps run s (dropRun s run) := by
  refine keeps_of_release honce rfl rfl rfl List.filter_sublist fun h hheld hrun => ?_
  exact List.mem_filter.mpr ⟨hheld, decide_eq_true hrun⟩

/-- The mark of an item, which leaves the ones that wait. -/
theorem triple_markItem {item : PendingItem} {items : List PendingItem}
    (hitem : item.itemId ∉ items.map PendingItem.itemId) (status : ItemStatus)
    (error : Option String) (result : String) :
    Triple handle (waiting serde run items) (markItem run item status error result) fun r =>
      match r with
      | .ok () => waiting serde run items
      | .error _ => .pure _ _ True := by
  unfold markItem
  refine triple_call (B := fun r =>
    match r with
    | .ok () => waiting serde run items
    | .error _ => .pure _ _ True) ?_ fun r => ?_
  · intro s hwaiting honce f _
    cases hfault : f.fault with
    | some e =>
      have hhandle : handle s f (.markItem run item.itemId status error) =
          (.error e, dropRun s run) := by
        simp only [handle, hfault]
      rw [hhandle]
      exact ⟨keeps_dropRun honce, trivial⟩
    | none =>
      have hhandle : handle s f (.markItem run item.itemId status error) = (.ok (), { s with
          items := s.items.update item.itemId (PushItemRow.mark status error f.seconds) fun _ => rfl
          held := s.held.filter fun h => h ≠ (run, item.itemId) }) := by
        simp only [handle, hfault]
      rw [hhandle]
      refine ⟨keeps_of_release honce rfl rfl rfl List.filter_sublist ?_, fun other hother => ?_⟩
      · intro h hheld hrun
        refine List.mem_filter.mpr ⟨hheld, decide_eq_true fun hsame => hrun ?_⟩
        rw [hsame]
      · obtain ⟨hheld, hrows⟩ := hwaiting other hother
        refine ⟨List.mem_filter.mpr ⟨hheld, decide_eq_true fun hsame => hitem ?_⟩, hrows⟩
        exact List.mem_map.mpr ⟨other, hother, congrArg Prod.snd hsame⟩
  · cases r with
    | error e => exact triple_pure fun _ _ => trivial
    | ok u =>
      refine triple_quiet (fun s f => ?_) fun _ => triple_pure fun _ h => h
      unfold handle
      cases f.fault with
      | some e => exact quiet_refl s
      | none => exact quiet_of_tables rfl rfl rfl rfl

theorem triple_pushItem {item : PendingItem} {items : List PendingItem}
    (hitem : item.itemId ∉ items.map PendingItem.itemId)
    (hrequested : item.mode = "targeted" →
      ((requestedTargets serde item).map DeliveryTarget.endpoint).Nodup) :
    Triple handle (waiting serde run (item :: items)) (pushItem serde run item) fun r =>
      match r with
      | .ok _ => waiting serde run items
      | .error _ => .pure _ _ True := by
  have hE := pushRegime_lawful serde
  have hrest : ∀ s, (waiting serde run (item :: items)).holds s →
      (waiting serde run items).holds s :=
    fun _ h other hother => h other (List.mem_cons_of_mem _ hother)
  -- whichever mark the item gets
  have hmark : ∀ (status : ItemStatus) (error : Option String) (result : String)
      (outcome : Option Nat), Triple handle (waiting serde run items)
        (markItem run item status error result >>= fun r => pure (r.map fun _ => outcome)) fun r =>
          match r with
          | .ok _ => waiting serde run items
          | .error _ => .pure _ _ True := by
    intro status error result outcome
    refine triple_bind hE (triple_markItem hitem status error result) fun r => ?_
    cases r with
    | ok u => exact triple_pure fun _ h => h
    | error e => exact triple_pure fun _ _ => trivial
  unfold pushItem
  refine triple_bind hE (triple_resolveItemTargets hrequested) fun r => ?_
  cases r with
  | error e =>
    exact triple_weaken (hmark _ _ _ _) (fun s h => hrest s h.1) fun _ _ h => h
  | ok targets =>
    refine triple_of_pure fun hnodup => ?_
    refine triple_bind hE (triple_weaken (triple_enqueueAll hitem item.messageText targets
      (hnodup targets rfl) 0 none) ?_ fun _ _ h => h) fun r => ?_
    · intro s h
      refine ⟨⟨(h item List.mem_cons_self).held, fun e he hid _ => ?_⟩, hrest s h⟩
      exact (h item List.mem_cons_self).rows e he hid trivial
    · obtain ⟨enqueued, firstError⟩ := r
      dsimp only
      split
      · exact hmark _ _ _ _
      · split
        · exact hmark _ _ _ _
        · exact hmark _ _ _ _

/-- The loop over items that wait. -/
theorem triple_pushItems (items : List PendingItem)
    (hnodup : (items.map PendingItem.itemId).Nodup)
    (hrequested : ∀ item ∈ items, item.mode = "targeted" →
      ((requestedTargets serde item).map DeliveryTarget.endpoint).Nodup) (summary : RunSummary) :
    Triple handle (waiting serde run items) (pushItems serde run items summary)
      fun _ => .pure _ _ True := by
  induction items generalizing summary with
  | nil => exact triple_pure fun _ _ => trivial
  | cons item items ih =>
    rw [List.map_cons, List.nodup_cons] at hnodup
    refine triple_bind (pushRegime_lawful serde)
      (triple_pushItem hnodup.1 (hrequested item List.mem_cons_self)) fun r => ?_
    cases r with
    | error e => exact triple_pure fun _ _ => trivial
    | ok outcome =>
      exact ih hnodup.2 (fun other hother => hrequested other (List.mem_cons_of_mem _ hother))
        (summary.add outcome)

/-- What a run gets that fetches fresh items. -/
def fetched (serde : Serde) (run : Nat) :
    Except String (List PendingItem) → Assert (pushRegime serde) run
  | .ok items => (waiting serde run items).and (.pure _ _ ((items.map PendingItem.itemId).Nodup ∧
      ∀ item ∈ items, item.mode = "targeted" →
        ((requestedTargets serde item).map DeliveryTarget.endpoint).Nodup))
  | .error _ => .pure _ _ True

theorem fetch_keeps {s : Database} (honce : Once s) (f : Outcome) (jobId : String)
    (hfresh : FetchesFresh serde s (.fetchPendingItems run jobId) f) :
    (pushRegime serde).Keeps run s (handle s f (.fetchPendingItems run jobId)).2 ∧
      (fetched serde run (handle s f (.fetchPendingItems run jobId)).1).holds
        (handle s f (.fetchPendingItems run jobId)).2 := by
  cases hfault : f.fault with
  | some e =>
    have hhandle : handle s f (.fetchPendingItems run jobId) = (.error e, s) := by
      simp only [handle, Outcome.attempt, hfault]
      rfl
    rw [hhandle]
    exact ⟨(quiet_refl s).keeps honce, trivial⟩
  | none =>
    have hfresh' : ∀ item ∈ pendingItems s jobId, Fresh serde s item := hfresh hfault
    let taken := (pendingItems s jobId).map fun item => (run, item.itemId)
    have hhandle : handle s f (.fetchPendingItems run jobId) =
        (.ok (pendingItems s jobId), { s with held := taken ++ s.held }) := by
      simp only [handle, Outcome.attempt, hfault, taken]
      rfl
    rw [hhandle]
    have hids : taken.map Prod.snd = (pendingItems s jobId).map PendingItem.itemId := by
      simp [taken]
    refine ⟨⟨⟨⟨honce.unique.endpoints, honce.unique.bindings⟩, honce.pairs, ?_⟩, ?_⟩, ?_, ?_⟩
    · show ((taken ++ s.held).map Prod.snd).Nodup
      rw [List.map_append, hids]
      refine (nodup_pendingItems s jobId).append honce.held fun id hid hheld => ?_
      obtain ⟨item, hitem, rfl⟩ := List.mem_map.mp hid
      obtain ⟨h, hh, hsame⟩ := List.mem_map.mp hheld
      exact (hfresh' item hitem).held h hh hsame
    · exact fun run' _ itemId hheld => ⟨List.mem_append_right _ hheld, fun _ he _ => he⟩
    · intro item hitem
      refine ⟨List.mem_append_left _ (List.mem_map_of_mem hitem), fun e he hid _ => ?_⟩
      exact (hfresh' item hitem).enqueued e he hid
    · exact ⟨nodup_pendingItems s jobId, fun item hitem => (hfresh' item hitem).targets⟩

/-- One run of a job. -/
theorem triple_runPushJob (jobId : String) :
    Triple handle (.pure (pushRegime serde) run True) (runPushJob serde run jobId)
      fun _ => .pure _ _ True := by
  have hE := pushRegime_lawful serde
  unfold runPushJob
  refine triple_quiet (fun s f => quiet_attempt (quiet_of_tables rfl rfl rfl rfl)) fun r => ?_
  cases r with
  | error e => exact triple_pure fun _ _ => trivial
  | ok u =>
    refine triple_call (B := fetched serde run) ?_ fun r => ?_
    · exact fun s _ honce f hfresh => fetch_keeps honce f jobId hfresh
    · cases r with
      | error e => exact triple_pure fun _ _ => trivial
      | ok items =>
        refine triple_of_pure fun hitems => ?_
        refine triple_bind hE (triple_pushItems items hitems.1 hitems.2 _) fun r => ?_
        cases r with
        | error e => exact triple_pure fun _ _ => trivial
        | ok summary =>
          refine triple_quiet (fun s f => quiet_attempt (quiet_of_tables rfl rfl rfl rfl)) ?_
          exact fun _ => triple_pure fun _ _ => trivial

end Run

/-! ## Every run -/

/-- The statements of a binding import. -/
inductive ImportStatement where
  | ensureProject (key insertName : String) (hasExplicit : Bool)
  | upsertDeliveryTarget (target : DeliveryTarget)
  | upsertBinding (projectKey targetId bindSource : String)

def ImportStatement.call : ImportStatement → Call
  | .ensureProject key insertName hasExplicit => .ensureProject key insertName hasExplicit
  | .upsertDeliveryTarget target => .upsertDeliveryTarget target
  | .upsertBinding projectKey targetId bindSource => .upsertBinding projectKey targetId bindSource

/-- Runs with their numbers and their jobs, among the statements of imports.  A
run that is dropped holds nothing any more. -/
def pushPlan (serde : Serde) :
    Plan Nat String (ImportStatement × Outcome) Call.Reply Database Outcome where
  handle := handle
  body := fun run jobId => do let _ ← runPushJob serde run jobId
  other := fun (statement, f) db => (handle db f statement.call).2
  reset := fun run db => dropRun db run

theorem quiet_importStatement (db : Database) (statement : ImportStatement) (f : Outcome) :
    Quiet db (handle db f statement.call).2 := by
  cases statement with
  | ensureProject key insertName hasExplicit =>
    refine quiet_attempt ?_
    unfold ensureProjectRow
    split <;> exact quiet_of_tables rfl rfl rfl rfl
  | upsertDeliveryTarget target =>
    refine quiet_attempt (settle_post (P := fun _ db' => Quiet db db') (fun _ => quiet_refl db) ?_)
    exact fun db' hresult => quiet_upsertTargetRow hresult
  | upsertBinding projectKey targetId bindSource =>
    refine quiet_attempt (settle_post (P := fun _ db' => Quiet db db') (fun _ => quiet_refl db) ?_)
    exact fun db' hresult => quiet_upsertBindingRow hresult

theorem pushPlan_respectful (serde : Serde) : (pushPlan serde).Respectful (pushRegime serde) where
  lawful := pushRegime_lawful serde
  body run jobId s := by
    have htriple : Triple handle (.pure (pushRegime serde) run True)
        ((pushPlan serde).body run jobId) fun _ => .pure _ _ True :=
      triple_bind (pushRegime_lawful serde) (triple_runPushJob jobId) fun _ =>
        triple_pure fun _ _ => trivial
    exact htriple s trivial
  other db e honce := by
    have hquiet := quiet_importStatement db e.1 e.2
    exact ⟨hquiet.once honce, hquiet.relies⟩
  reset db run honce := keeps_dropRun honce

/-- The outbox has one row at most that was enqueued for the item and the
endpoint. -/
def AtMostOnce (db : Database) : Prop :=
  ∀ itemId endpoint, (db.outbox.rows.filter fun row =>
    ⟨itemId, endpoint, row.id⟩ ∈ db.enqueued).length ≤ 1

/-- Keys that differ and are all the same are one at most. -/
theorem length_le_one {α β : Type} {key : α → β} {l : List α} (hnodup : (l.map key).Nodup)
    (hsame : ∀ a ∈ l, ∀ b ∈ l, key a = key b) : l.length ≤ 1 := by
  match l with
  | [] => exact Nat.zero_le 1
  | [a] => exact Nat.le_refl 1
  | a :: b :: rest =>
    rw [List.map_cons, List.nodup_cons] at hnodup
    refine absurd ?_ hnodup.1
    rw [hsame a List.mem_cons_self b (List.mem_cons_of_mem _ List.mem_cons_self)]
    exact List.mem_cons_self

theorem atMostOnce_of_once {db : Database} (h : Once db) : AtMostOnce db := by
  intro itemId endpoint
  refine length_le_one (db.outbox.nodup.sublist (List.filter_sublist.map _)) ?_
  intro row hrow row' hrow'
  have he := of_decide_eq_true (List.mem_filter.mp hrow).2
  have he' := of_decide_eq_true (List.mem_filter.mp hrow').2
  exact congrArg Enqueued.rowId (List.inj_on_of_nodup_map h.pairs he he' rfl)

/-- Before the first run: the unique columns are, and nothing has been
enqueued. -/
structure Database.Unpushed (db : Database) : Prop where
  unique : UniqueColumns db
  enqueued : db.enqueued = []
  held : db.held = []

/-- In every run in which what is fetched is fresh, the outbox has one row at
most for an item and a target. -/
theorem atMostOnce_of_fetchesFresh (serde : Serde) {start : Database} (hstart : start.Unpushed)
    {events : List (Event Nat String (ImportStatement × Outcome) Outcome)}
    {s' : System Nat Call.Reply Database}
    (hrun : run (System.step (pushPlan serde)) (System.init start) events = some s')
    (hfresh : EveryStep (System.step (pushPlan serde)) (System.Meets (FetchesFresh serde))
      (System.init start) events) : AtMostOnce s'.shared := by
  have honce : Once start := by
    refine ⟨hstart.unique, ?_, ?_⟩
    · rw [hstart.enqueued]
      exact List.nodup_nil
    · rw [hstart.held]
      exact List.nodup_nil
  exact atMostOnce_of_once (run_always (pushPlan_respectful serde) honce hrun hfresh)

/-! ## A run that is dropped -/

instance Fresh.decidable (serde : Serde) (db : Database) (item : PendingItem) :
    Decidable (Fresh serde db item) :=
  decidable_of_iff ((∀ e ∈ db.enqueued, e.itemId ≠ item.itemId) ∧
    (∀ h ∈ db.held, h.2 ≠ item.itemId) ∧ (item.mode = "targeted" →
      ((requestedTargets serde item).map DeliveryTarget.endpoint).Nodup))
    ⟨fun h => ⟨h.1, h.2.1, h.2.2⟩, fun h => ⟨h.enqueued, h.held, h.targets⟩⟩

instance FetchesFresh.decidable (serde : Serde) (db : Database) :
    (c : Call) → (f : Outcome) → Decidable (FetchesFresh serde db c f)
  | .fetchPendingItems _ jobId, f => inferInstanceAs (Decidable (f.fault = none →
      ∀ item ∈ pendingItems db jobId, Fresh serde db item))
  | .ensureProject _ _ _, _ | .upsertDeliveryTarget _, _ | .upsertBinding _ _ _, _
  | .markJobRunning _, _ | .resolveBroadcastTargets _, _ | .activeTargetIds _, _
  | .insertOutbox _ _ _ _, _ | .markItem _ _ _ _, _ | .writeAudit _ _ _, _
  | .finalizeJob _ _ _ _, _ => isTrue trivial

def readsNothing : Serde where
  toSerdeText := Pipeline.derivedText
  targets _ := .error "expected value at line 1 column 1"

def alice : Endpoint := ⟨"wechat", "alice", "c1", "direct", ""⟩

/-- A project with one binding, and a job with one broadcast. -/
def oneBroadcast : Database where
  projects := .single ⟨"proj-a", "proj-a", 1700000000, 1700000000⟩
  targets := .single ⟨alice.targetId, alice, .active, 1700000000, 1700000000⟩
  bindings := .single ⟨"proj-a|wechat|alice|c1|direct|", "proj-a", alice.targetId, "import", .active,
    1700000000, none, 1700000000, 1700000000⟩
  jobs := .single ⟨"job1", .pending, 1, 0, 0, 1700000000⟩
  items := .single ⟨"item1", "job1", "proj-a", "hello", "broadcast", none, .pending, none,
    1700000000, 1700000000⟩
  outbox := KeyedTable.empty
  audit := []
  enqueued := []
  held := []

theorem oneBroadcast_unpushed : oneBroadcast.Unpushed :=
  ⟨⟨List.nodup_singleton _, List.nodup_singleton _⟩, rfl, rfl⟩

/-- A run makes so many calls that work. -/
def startsAndCalls (run calls : Nat) (uuid : String) :
    List (Event Nat String (ImportStatement × Outcome) Outcome) :=
  .start run "job1" :: List.replicate calls (.call run ⟨none, 1700000000, uuid⟩)

/-- The process dies after the fetch, and the job is run again. -/
theorem rerun_atMostOnce :
    ∃ s', run (System.step (pushPlan readsNothing)) (System.init oneBroadcast)
      (startsAndCalls 0 2 "a" ++ .stop 0 :: startsAndCalls 1 7 "b") = some s' ∧
        AtMostOnce s'.shared := by
  have hsome : (run (System.step (pushPlan readsNothing)) (System.init oneBroadcast)
      (startsAndCalls 0 2 "a" ++ .stop 0 :: startsAndCalls 1 7 "b")).isSome = true := by
    decide +kernel
  obtain ⟨s', hrun⟩ := Option.isSome_iff_exists.mp hsome
  exact ⟨s', hrun, atMostOnce_of_fetchesFresh readsNothing oneBroadcast_unpushed hrun
    (by decide +kernel)⟩

/-- The process dies after the row and before the mark, and the job is run
again: there are two rows for one target. -/
theorem crash_not_atMostOnce :
    ¬ ∀ (serde : Serde) (start : Database)
      (events : List (Event Nat String (ImportStatement × Outcome) Outcome))
      (s' : System Nat Call.Reply Database), start.Unpushed →
        run (System.step (pushPlan serde)) (System.init start) events = some s' →
          AtMostOnce s'.shared := by
  intro h
  have htwo : (run (System.step (pushPlan readsNothing)) (System.init oneBroadcast)
      (startsAndCalls 0 4 "a" ++ .stop 0 :: startsAndCalls 1 4 "b")).map (fun s' =>
        (s'.shared.outbox.rows.filter fun row =>
          ⟨"item1", alice, row.id⟩ ∈ s'.shared.enqueued).length) = some 2 := by
    decide +kernel
  obtain ⟨s', hrun, hlength⟩ := Option.map_eq_some_iff.mp htwo
  have hone := h readsNothing oneBroadcast _ s' oneBroadcast_unpushed hrun "item1" alice
  omega

end MagicLaw.Push
