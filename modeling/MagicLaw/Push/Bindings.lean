import MagicLaw.Lib.Processes
import MagicLaw.Push.Statements

/-!
# What the binding import leaves

An endpoint is bound to a project when an active binding of the project names
the id of its active target.  In every database that imports have left, also
ones that were interrupted or ran at the same time, the ids of the active
bindings are those of the bound endpoints (`mem_activeIds_iff`).
-/

namespace MagicLaw.Push

open Lib Lib.Program Lib.Machine Lib.Interference Lib.Processes

/-- The endpoint is actively bound to the project. -/
def Bound (db : Database) (projectKey : String) (e : Endpoint) : Prop :=
  ∃ binding ∈ activeBindings db projectKey, ∃ row, db.targets.find? binding.targetId = some row ∧
    row.status = .active ∧ row.endpoint = e

/-- A target has the id. -/
def Known (db : Database) (id : String) : Prop := ∃ row ∈ db.targets.rows, row.targetId = id

/-- Targets are active and have the id of their endpoint, and bindings are
active and have a target. -/
structure Registered (db : Database) : Prop where
  targets : ∀ row ∈ db.targets.rows, row.targetId = row.endpoint.targetId ∧ row.status = .active
  bindings : ∀ row ∈ db.bindings.rows, row.status = .active ∧ Known db row.targetId

theorem known_iff_find? {db : Database} {id : String} :
    Known db id ↔ ∃ row, db.targets.find? id = some row := by
  constructor
  · intro hexists
    obtain ⟨row, hrow, hid⟩ := hexists
    exact ⟨row, KeyedTable.find?_eq_some_iff.mpr ⟨hrow, hid⟩⟩
  · intro hexists
    obtain ⟨row, hfind⟩ := hexists
    obtain ⟨hrow, hid⟩ := KeyedTable.find?_eq_some_iff.mp hfind
    exact ⟨row, hrow, hid⟩

/-- The ids of the active bindings are those of the bound endpoints. -/
theorem mem_activeIds_iff {db : Database} (h : Registered db) {projectKey id : String} :
    id ∈ activeIds db projectKey ↔ ∃ e, Bound db projectKey e ∧ e.targetId = id := by
  constructor
  · intro hid
    obtain ⟨binding, hbinding, rfl⟩ := List.mem_map.mp hid
    have hmem : binding ∈ db.bindings.rows := List.mem_of_mem_filter hbinding
    obtain ⟨row, hfind⟩ := known_iff_find?.mp (h.bindings binding hmem).2
    obtain ⟨hrow, hkey⟩ := KeyedTable.find?_eq_some_iff.mp hfind
    obtain ⟨hendpoint, hactive⟩ := h.targets row hrow
    exact ⟨row.endpoint, ⟨binding, hbinding, row, hfind, hactive, rfl⟩, hendpoint.symm.trans hkey⟩
  · intro hexists
    obtain ⟨e, ⟨binding, hbinding, row, hfind, -, rfl⟩, rfl⟩ := hexists
    obtain ⟨hrow, hkey⟩ := KeyedTable.find?_eq_some_iff.mp hfind
    rw [← (h.targets row hrow).1, hkey]
    exact List.mem_map_of_mem hbinding

/-! ## The statements -/

/-- No target is deleted, what is registered stays so, and no row is
enqueued. -/
structure Extends (db db' : Database) : Prop where
  known : ∀ id, Known db id → Known db' id
  registered : Registered db → Registered db'
  enqueued : db'.enqueued = db.enqueued

theorem extends_refl (db : Database) : Extends db db := ⟨fun _ h => h, fun h => h, rfl⟩

theorem extends_trans {a b c : Database} (hab : Extends a b) (hbc : Extends b c) : Extends a c :=
  ⟨fun id h => hbc.known id (hab.known id h), fun h => hbc.registered (hab.registered h),
    hbc.enqueued.trans hab.enqueued⟩

/-- A change of the targets that keeps their ids. -/
theorem extends_of_targets {db db' : Database} (hbindings : db'.bindings = db.bindings)
    (henqueued : db'.enqueued = db.enqueued)
    (hids : ∀ row ∈ db.targets.rows, ∃ row' ∈ db'.targets.rows, row'.targetId = row.targetId)
    (hrows : (∀ row ∈ db.targets.rows,
        row.targetId = row.endpoint.targetId ∧ row.status = .active) →
      ∀ row ∈ db'.targets.rows, row.targetId = row.endpoint.targetId ∧ row.status = .active) :
    Extends db db' := by
  have hknown : ∀ id, Known db id → Known db' id := by
    intro id hexists
    obtain ⟨row, hrow, rfl⟩ := hexists
    exact hids row hrow
  refine ⟨hknown, fun h => ⟨hrows h.targets, ?_⟩, henqueued⟩
  rw [hbindings]
  exact fun row hrow => ⟨(h.bindings row hrow).1, hknown _ (h.bindings row hrow).2⟩

/-- A change of the bindings, each of which has a target. -/
theorem extends_of_bindings {db db' : Database} (htargets : db'.targets = db.targets)
    (henqueued : db'.enqueued = db.enqueued)
    (hrows : Registered db → ∀ row ∈ db'.bindings.rows, row.status = .active ∧
      Known db row.targetId) : Extends db db' := by
  have hknown : ∀ id, Known db id → Known db' id := by
    intro id h
    unfold Known
    rw [htargets]
    exact h
  refine ⟨hknown, fun h => ⟨?_, fun row hrow => ?_⟩, henqueued⟩
  · rw [htargets]
    exact h.targets
  · exact ⟨(hrows h row hrow).1, hknown _ (hrows h row hrow).2⟩

theorem upsertTargetRow_spec {db db' : Database} {target : DeliveryTarget} {ts : Int64}
    (h : upsertTargetRow db target ts = .ok db') :
    Extends db db' ∧ (Registered db → Known db' target.targetId) := by
  unfold upsertTargetRow at h
  split at h
  · next old hfind =>
    cases h
    have hold := List.mem_of_find?_eq_some hfind
    have hendpoint : old.endpoint = target.endpoint := by simpa using List.find?_some hfind
    have hids : ∀ row ∈ db.targets.rows, ∃ row' ∈ (db.targets.update old.targetId
        (DeliveryTargetRow.activate ts) fun _ => rfl).rows, row'.targetId = row.targetId := by
      intro row hrow
      refine ⟨_, List.mem_map_of_mem hrow, ?_⟩
      split <;> rfl
    refine ⟨extends_of_targets rfl rfl hids ?_, fun hregistered => ?_⟩
    · intro hrows row hrow
      obtain ⟨row', hrow', rfl⟩ := List.mem_map.mp hrow
      split
      · exact ⟨(hrows row' hrow').1, rfl⟩
      · exact hrows row' hrow'
    · obtain ⟨row, hrow, hid⟩ := hids old hold
      refine ⟨row, hrow, hid.trans ?_⟩
      rw [(hregistered.targets old hold).1, hendpoint]
      rfl
  · split at h
    · next targets hinsert =>
      cases h
      obtain ⟨hfree, rfl⟩ := KeyedTable.eq_append_of_insert hinsert
      refine ⟨extends_of_targets rfl rfl ?_ ?_, fun _ => ?_⟩
      · intro row hrow
        exact ⟨row, List.mem_append_left _ hrow, rfl⟩
      · exact fun hrows => KeyedTable.forall_of_insert hinsert hrows ⟨rfl, rfl⟩
      · exact ⟨_, List.mem_append_right _ (List.mem_singleton_self _), rfl⟩
    · cases h

theorem upsertBindingRow_spec {db db' : Database} {projectKey targetId bindSource : String}
    {ts : Int64} (hknown : Known db targetId)
    (h : upsertBindingRow db projectKey targetId bindSource ts = .ok db') : Extends db db' := by
  unfold upsertBindingRow at h
  split at h
  · next old hfind =>
    cases h
    refine extends_of_bindings rfl rfl fun hregistered row hrow => ?_
    obtain ⟨row', hrow', rfl⟩ := List.mem_map.mp hrow
    split
    · exact ⟨rfl, (hregistered.bindings row' hrow').2⟩
    · exact hregistered.bindings row' hrow'
  · split at h
    · next bindings hinsert =>
      cases h
      exact extends_of_bindings rfl rfl fun hregistered =>
        KeyedTable.forall_of_insert hinsert hregistered.bindings ⟨rfl, hknown⟩
    · cases h

/-! ## The import among others -/

/-- What imports leave: the bindings are registered, and nothing has been
enqueued. -/
structure Prepared (db : Database) : Prop where
  registered : Registered db
  enqueued : db.enqueued = []

/-- Imports may run at the same time. -/
def amongImports : Surroundings Call Database Outcome :=
  ⟨fun _ _ _ => True, Extends, Prepared⟩

theorem amongImports_lawful : amongImports.Lawful where
  refl := extends_refl
  trans _ _ _ := extends_trans
  always _ _ h hst := ⟨hst.registered h.registered, hst.enqueued.trans h.enqueued⟩

/-- Once a target is known it stays so. -/
def knownTarget (id : String) : Assert amongImports where
  holds db := Known db id
  stable _ _ hst h := hst.known id h

/-- A binding is for a known target, and a target that was upserted is
known. -/
def importFits : Call → Assert amongImports
  | .ensureProject _ _ _ | .upsertDeliveryTarget _ => .pure _ True
  | .upsertBinding _ targetId _ => knownTarget targetId
  | _ => .pure _ False

def importTold : (c : Call) → c.Reply → Assert amongImports
  | .upsertDeliveryTarget target, .ok () => knownTarget target.targetId
  | _, _ => .pure _ True

theorem ensureProjectRow_extends (db : Database) (key insertName : String) (hasExplicit : Bool)
    (ts : Int64) : Extends db (ensureProjectRow db key insertName hasExplicit ts) := by
  unfold ensureProjectRow
  split <;> exact ⟨fun _ h => h, fun h => ⟨h.targets, h.bindings⟩, rfl⟩

def importContract : Contract handle amongImports where
  fits := importFits
  told := importTold
  keep db c f halways hfits _ := by
    cases c with
    | ensureProject key insertName hasExplicit =>
      refine ⟨?_, trivial⟩
      exact attempt_post (P := fun _ db' => Extends db db') (fun _ => extends_refl db)
        (ensureProjectRow_extends db _ _ _ _)
    | upsertDeliveryTarget target =>
      let P : Except String Unit → Database → Prop := fun r db' => Extends db db' ∧
        (importTold (.upsertDeliveryTarget target) r).holds db'
      have hfails : ∀ e, P (.error e) db := fun _ => ⟨extends_refl db, trivial⟩
      refine attempt_post hfails (settle_post hfails fun db' hresult => ?_)
      obtain ⟨hext, hknown⟩ := upsertTargetRow_spec hresult
      exact ⟨hext, hknown halways.registered⟩
    | upsertBinding projectKey targetId bindSource =>
      refine ⟨?_, trivial⟩
      let P : Except String Unit → Database → Prop := fun _ db' => Extends db db'
      have hfails : ∀ e, P (.error e) db := fun _ => extends_refl db
      exact attempt_post hfails (settle_post (P := P) hfails fun db' hresult =>
        upsertBindingRow_spec hfits hresult)
    | _ => exact hfits.elim

/-! ## The import -/

section Import

variable {A : Assert amongImports}

theorem triple_ensureProject (projectKey : String) (projectName : Option String) :
    Triple handle A (ensureProject projectKey projectName) fun _ => A := by
  unfold ensureProject
  dsimp only
  split
  · exact triple_self
  · refine importContract.triple_then amongImports_lawful (fun _ _ => trivial) fun _ => ?_
    exact triple_self

theorem triple_upsertDeliveryTarget (target : DeliveryTarget) :
    Triple handle A (upsertDeliveryTarget target) fun r =>
      match r with
      | .ok id => knownTarget id
      | .error _ => .pure _ True := by
  unfold upsertDeliveryTarget
  split
  · exact triple_pure fun _ _ => trivial
  · refine importContract.triple_bind amongImports_lawful (fun _ _ => trivial) fun r => ?_
    cases r with
    | ok u => exact triple_pure fun _ h => h.2
    | error e => exact triple_pure fun _ _ => trivial

theorem triple_upsertBinding (projectKey id bindSource : String) :
    Triple handle (knownTarget id) (upsertBinding projectKey id bindSource)
      fun _ => .pure _ True := by
  unfold upsertBinding
  refine importContract.triple_then amongImports_lawful (fun _ h => h) fun _ => ?_
  exact triple_pure fun _ _ => trivial

theorem triple_applyBindingRecord (record : BindingImportRecord) :
    Triple handle A (applyBindingRecord record) fun _ => .pure _ True := by
  unfold applyBindingRecord
  dsimp only
  split
  · exact triple_pure fun _ _ => trivial
  · refine triple_bind amongImports_lawful (triple_ensureProject _ _) fun r => ?_
    cases r with
    | error e => exact triple_pure fun _ _ => trivial
    | ok u =>
      refine triple_bind amongImports_lawful (triple_upsertDeliveryTarget _) fun r => ?_
      cases r with
      | error e => exact triple_pure fun _ _ => trivial
      | ok id =>
        exact triple_upsertBinding _ id _

theorem triple_importBindings (records : List BindingImportRecord) :
    Triple handle (.pure amongImports True) (importBindings records) fun _ => .pure _ True := by
  refine triple_forEach amongImports_lawful fun record _ => ?_
  refine triple_bind amongImports_lawful (triple_applyBindingRecord record) fun _ => ?_
  exact triple_self

end Import

/-- Import processes with their numbers and their records.  A crash leaves the
database as it is. -/
def importPlan : Plan Nat (Nat × List BindingImportRecord) Empty Call.Reply Database Outcome where
  handle := handle
  body := fun (_, records) => importBindings records
  home := Prod.fst
  other := fun e _ => e.elim
  reset := fun _ db => db

/-- Nothing is bound, and no run has enqueued anything or holds anything. -/
structure Database.Unbound (db : Database) : Prop where
  targets : db.targets.rows = []
  bindings : db.bindings.rows = []
  enqueued : db.enqueued = []
  held : db.held = []

/-- Imports lead to the database, from one in which nothing is bound. -/
def Imported (db : Database) : Prop :=
  ∃ start : Database, start.Unbound ∧ ∃ events s',
    run (System.step importPlan) (System.init start) events = some s' ∧ s'.shared = db

theorem importPlan_respectful : importPlan.Respectful amongImports fun _ _ => True where
  lawful := amongImports_lawful
  body b s _ := triple_importBindings b.2 s trivial
  other _ e := e.elim
  reset db _ _ := extends_refl db

theorem prepared_of_imported {db : Database} (h : Imported db) : Prepared db := by
  obtain ⟨start, hunbound, events, s', hrun, rfl⟩ := h
  have hstart : Prepared start := by
    refine ⟨⟨?_, ?_⟩, hunbound.enqueued⟩
    · rw [hunbound.targets]
      exact fun _ h => absurd h List.not_mem_nil
    · rw [hunbound.bindings]
      exact fun _ h => absurd h List.not_mem_nil
  have hmeets : ∀ (s : System Nat Call.Reply Database)
      (e : Event Nat (Nat × List BindingImportRecord) Empty Outcome),
      System.Meets amongImports.allowed (fun _ _ => True) s e := by
    intro s e
    cases e with
    | call n f => exact fun _ _ _ _ => trivial
    | other e => exact e.elim
    | start b => trivial
    | crash p => trivial
  exact (run_invariant_of_everyStep (sound_step importPlan_respectful) (sound_init hstart)
    (everyStep_of_forall hmeets _ _) hrun).always

end MagicLaw.Push
