import MagicLaw.Pipeline.Replies
import MagicLaw.Push.Authorization

/-!
# What a run of a job does to its items

A run resolves each pending item to targets, tries one insert for each of
them, and marks the item queued if one has worked and failed if none has.
`Report` is what it does to one item; `alone_runPushJob` says that a run that
ends well has a report for every pending item, in their order: the rows of the
reports are what the outbox has got, and the summary counts them.

A `Pattern` says which inserts may work, by the item and by how many were
tried for it before, and whether anything else may fail.
-/

namespace MagicLaw.Push

open Lib Lib.Program Lib.Interference
open MagicLaw.Outbox (OutboxEntry)

/-! ## Patterns of failures -/

/-- Next to the database, the item of each insert that was tried. -/
def tried (log : List String) (_ : Database) (_ : Outcome) : (c : Call) → c.Reply → List String
  | .insertOutbox itemId _ _ _, _ => itemId :: log
  | _, _ => log

def handleTried : Handler Call.Reply (Database × List String) Outcome :=
  Handler.watched handle tried

instance Works.decidable (db : Database) (f : Outcome) : Decidable (Works db f) :=
  decidable_of_iff (f.fault = none ∧ (db.outbox.find? s!"push-{f.uuid}").isNone)
    ⟨fun h => ⟨h.1, Option.isNone_iff_eq_none.mp h.2⟩,
      fun h => ⟨h.fault, Option.isNone_iff_eq_none.mpr h.uuid⟩⟩

/-- Whether an insert for the item may work, or fail, when so many were tried
for it, and whether all other calls work. -/
structure Pattern where
  inserts : String → Nat → Bool → Prop
  safe : Prop

def Pattern.allows (p : Pattern) : Database × List String → Call → Outcome → Prop
  | (db, log), .insertOutbox itemId _ _ _, f =>
    p.inserts itemId (log.count itemId) (decide (Works db f))
  | _, _, f => p.safe → f.fault = none

/-! ## Reports -/

section Items

variable (serde : Serde) (db : Database)

/-- The targets that an item is resolved to, if it is. -/
def resolvedTargets (item : PendingItem) : List DeliveryTarget :=
  if item.mode = "broadcast" then broadcastTargets db item.projectKey
  else if item.mode = "targeted" then
    ((item.requested serde >>= fun requested =>
      validated requested (activeIds db item.projectKey)).toOption).getD []
  else []

/-- The targets whose insert has worked. -/
def taken (targets : List DeliveryTarget) (worked : List Bool) : List DeliveryTarget :=
  ((targets.zip worked).filter Prod.snd).map Prod.fst

/-- What a run does to an item: the targets it is resolved to, whether the
insert for each has worked, and the rows. -/
structure Report where
  item : PendingItem
  targets : List DeliveryTarget
  worked : List Bool
  rows : List OutboxEntry

def Report.status (report : Report) : ItemStatus :=
  if true ∈ report.worked then .queued else .failed

/-- The report is one that the pattern allows. -/
structure Report.Right (p : Pattern) (report : Report) : Prop where
  resolved : p.safe → report.targets = resolvedTargets serde db report.item
  length : report.worked.length = report.targets.length
  inserts : ∀ (k : Nat) (h : k < report.worked.length),
    p.inserts report.item.itemId k report.worked[k]
  rows : List.Forall₂ (IsRowFor serde report.item.messageText)
    (taken report.targets report.worked) report.rows

/-- How many items of the job have the status. -/
def countItems (jobId : String) (status : ItemStatus) : Nat :=
  db.items.rows.countP fun row => row.jobId = jobId && row.status = status

end Items

/-- How many of the reports have the status. -/
def countReports (reports : List Report) (status : ItemStatus) : Nat :=
  reports.countP fun report => report.status = status

/-- What items are resolved by, and the jobs, are the same. -/
structure Kept (t t' : Database) : Prop where
  targets : t'.targets = t.targets
  bindings : t'.bindings = t.bindings
  jobs : t'.jobs = t.jobs

/-- The item is a pending one of the job. -/
def Waits (t : Database) (jobId itemId : String) : Prop :=
  ∃ row, t.items.find? itemId = some row ∧ row.jobId = jobId ∧ row.status = .pending

/-- The reports are what has happened to the items. -/
structure Reports (serde : Serde) (p : Pattern) (db : Database) (jobId : String)
    (items : List PendingItem) (reports : List Report) (t t' : Database) : Prop where
  ordered : reports.map Report.item = items
  right : ∀ report ∈ reports, report.Right serde db p
  rows : t'.outbox.rows = t.outbox.rows ++ reports.flatMap Report.rows
  marked : ∀ report ∈ reports, statusOf t' report.item.itemId = some report.status
  others : ∀ id, id ∉ items.map PendingItem.itemId → t'.items.find? id = t.items.find? id
  counts : ∀ status, status ≠ .pending →
    countItems t' jobId status = countItems t jobId status + countReports reports status

section Lemmas

variable {serde : Serde} {p : Pattern} {db t t' u : Database} {jobId : String} {item : PendingItem}

theorem resolvedTargets_congr (htargets : t.targets = db.targets)
    (hbindings : t.bindings = db.bindings) (item : PendingItem) :
    resolvedTargets serde t item = resolvedTargets serde db item := by
  unfold resolvedTargets broadcastTargets activeIds activeBindings
  rw [htargets, hbindings]

theorem kept_refl (t : Database) : Kept t t := ⟨rfl, rfl, rfl⟩

theorem Kept.trans (htu : Kept t u) (hut : Kept u t') : Kept t t' :=
  ⟨hut.targets.trans htu.targets, hut.bindings.trans htu.bindings, hut.jobs.trans htu.jobs⟩

@[simp] theorem taken_nil : taken [] [] = [] := rfl

theorem taken_cons (target : DeliveryTarget) (targets : List DeliveryTarget) (b : Bool)
    (worked : List Bool) :
    taken (target :: targets) (b :: worked) =
      (if b then [target] else []) ++ taken targets worked := by
  cases b <;> rfl

/-- When no insert has failed, all targets have a row. -/
theorem taken_of_all {targets : List DeliveryTarget} {worked : List Bool}
    (hlength : worked.length = targets.length) (h : false ∉ worked) :
    taken targets worked = targets := by
  induction targets generalizing worked with
  | nil =>
    rw [List.length_nil, List.length_eq_zero_iff] at hlength
    rw [hlength, taken_nil]
  | cons target targets ih =>
    cases worked with
    | nil => simp at hlength
    | cons b worked =>
      rw [List.mem_cons, not_or] at h
      have hb : b = true := by simpa using h.1
      rw [taken_cons, ih (by simpa using hlength) h.2, if_pos hb, List.singleton_append]

theorem waits_of_pending (h : item ∈ pendingItems db jobId) : Waits db jobId item.itemId := by
  obtain ⟨row, hrow, rfl⟩ := List.mem_map.mp h
  rw [List.mem_insertionSort] at hrow
  obtain ⟨hfind, hcolumns⟩ := KeyedTable.mem_select.mp hrow
  simp only [Bool.and_eq_true, decide_eq_true_eq] at hcolumns
  exact ⟨row, hfind, hcolumns.1, hcolumns.2⟩

theorem reports_nil : Reports serde p db jobId [] [] t t where
  ordered := rfl
  right := fun _ h => absurd h List.not_mem_nil
  rows := (List.append_nil _).symm
  marked := fun _ h => absurd h List.not_mem_nil
  others := fun _ _ => rfl
  counts := fun _ _ => rfl

/-- The report of an item before those of the others. -/
theorem Reports.cons {items : List PendingItem} {report : Report} {reports : List Report}
    (hone : Reports serde p db jobId [item] [report] t u)
    (hrest : Reports serde p db jobId items reports u t')
    (hnew : item.itemId ∉ items.map PendingItem.itemId) :
    Reports serde p db jobId (item :: items) (report :: reports) t t' := by
  have hitem : report.item = item := List.singleton_inj.mp hone.ordered
  constructor
  · rw [List.map_cons, hitem, hrest.ordered]
  · intro other hother
    rcases List.mem_cons.mp hother with rfl | hother
    · exact hone.right other (List.mem_singleton_self other)
    · exact hrest.right other hother
  · rw [hrest.rows, hone.rows, List.flatMap_singleton, List.flatMap_cons, List.append_assoc]
  · intro other hother
    rcases List.mem_cons.mp hother with rfl | hother
    · rw [← hone.marked other (List.mem_singleton_self other)]
      unfold statusOf
      rw [hitem, hrest.others _ hnew]
    · exact hrest.marked other hother
  · intro id hid
    rw [List.map_cons, List.mem_cons, not_or] at hid
    rw [hrest.others id hid.2]
    exact hone.others id (by simpa using hid.1)
  · intro status hstatus
    have hcount : countReports (report :: reports) status =
        countReports [report] status + countReports reports status := by
      unfold countReports
      rw [← List.singleton_append, List.countP_append]
    rw [hrest.counts status hstatus, hone.counts status hstatus, hcount]
    omega

/-- The mark of a waiting item, as its report says, after its rows. -/
theorem reports_of_mark {report : Report} (hright : report.Right serde db p)
    (hwaits : Waits t jobId report.item.itemId)
    (hrows : t'.outbox.rows = t.outbox.rows ++ report.rows) {error : Option String} {ts : Int64}
    (hitems : t'.items = t.items.update report.item.itemId
      (PushItemRow.mark report.status error ts) fun _ => rfl) :
    Reports serde p db jobId [report.item] [report] t t' := by
  obtain ⟨row, hfind, hjob, hpending⟩ := hwaits
  have hfind' : ∀ id, t'.items.find? id = if id = report.item.itemId then
      some (row.mark report.status error ts) else t.items.find? id := by
    intro id
    have hupdate := KeyedTable.find?_update t.items report.item.itemId
      (PushItemRow.mark report.status error ts) (fun _ => rfl) id
    rw [hfind, Option.map_some] at hupdate
    rw [hitems]
    exact hupdate
  refine ⟨rfl, ?_, ?_, ?_, ?_, ?_⟩
  · simpa using hright
  · rw [hrows, List.flatMap_singleton]
  · intro other hother
    rw [List.mem_singleton.mp hother]
    unfold statusOf
    rw [hfind', if_pos rfl]
    rfl
  · intro id hid
    rw [hfind', if_neg (by simpa using hid)]
  · intro status hstatus
    have hcount := KeyedTable.countP_update hfind (PushItemRow.mark report.status error ts)
      (fun _ => rfl) fun row => row.jobId = jobId && row.status = status
    have hold : (row.jobId = jobId && row.status = status : Bool) = false := by
      simpa [hpending] using fun _ => Ne.symm hstatus
    have hnew : ((row.mark report.status error ts).jobId = jobId &&
        (row.mark report.status error ts).status = status : Bool) = (report.status = status : Bool) := by
      show (decide (row.jobId = jobId) && decide (report.status = status)) = _
      rw [hjob]
      simp
    unfold countItems countReports
    rw [hitems, List.countP_singleton]
    simpa [hold, hnew] using hcount

end Lemmas

/-! ## The calls of a run -/

section Calls

variable {serde : Serde} {p : Pattern} {db t : Database} {log : List String} {jobId : String}
  {item : PendingItem}

/-- An insert adds its row, or changes nothing. -/
theorem insertOutbox_result (t : Database) (f : Outcome) (itemId : String) (endpoint : Endpoint)
    (routeKeyJson payloadJson : String) :
    ∃ t', Kept t t' ∧ t'.items = t.items ∧
      if Works t f then
        handle t f (.insertOutbox itemId endpoint routeKeyJson payloadJson) = (.ok (), t') ∧
          t'.outbox.rows = t.outbox.rows ++
            [OutboxEntry.new s!"push-{f.uuid}" routeKeyJson payloadJson f.seconds]
      else
        ∃ e, handle t f (.insertOutbox itemId endpoint routeKeyJson payloadJson) = (.error e, t') ∧
          t'.outbox.rows = t.outbox.rows := by
  have hhandle : handle t f (.insertOutbox itemId endpoint routeKeyJson payloadJson) = f.attempt t
      (settle (insertOutboxRow t itemId endpoint routeKeyJson payloadJson f.uuid f.seconds) t) := rfl
  by_cases hworks : Works t f
  · let entry := OutboxEntry.new s!"push-{f.uuid}" routeKeyJson payloadJson f.seconds
    have hfree : t.outbox.find? entry.id = none := hworks.uuid
    let t' : Database := { t with
      outbox := t.outbox.append entry hfree
      enqueued := ⟨itemId, endpoint, entry.id⟩ :: t.enqueued }
    have hinsert : insertOutboxRow t itemId endpoint routeKeyJson payloadJson f.uuid f.seconds =
        .ok t' := by
      unfold insertOutboxRow
      dsimp only
      rw [KeyedTable.insert_eq_some hfree]
    refine ⟨t', ⟨rfl, rfl, rfl⟩, rfl, ?_⟩
    rw [if_pos hworks, hhandle, attempt_of_fault_none hworks.fault, hinsert]
    exact ⟨rfl, rfl⟩
  · refine ⟨t, kept_refl t, rfl, ?_⟩
    rw [if_neg hworks]
    rcases insertOutbox_cases t f itemId endpoint routeKeyJson payloadJson with
      ⟨e, hfails, -⟩ | ⟨t', hresult, -⟩
    · exact ⟨e, hfails, rfl⟩
    · -- a row that is not taken is one whose id is drawn twice
      rw [hhandle] at hresult
      cases hfault : f.fault with
      | some e =>
        rw [attempt_of_fault hfault] at hresult
        cases hresult
      | none =>
        have htaken : t.outbox.find? s!"push-{f.uuid}" ≠ none := fun huuid => hworks ⟨hfault, huuid⟩
        rw [attempt_of_fault_none hfault] at hresult
        unfold insertOutboxRow at hresult
        dsimp only at hresult
        rw [KeyedTable.insert_eq_none htaken] at hresult
        cases hresult

/-- What holds after a program that is alone, under the pattern. -/
abbrev After (p : Pattern) {α : Type} (Q : α → Database → List String → Prop) (work : Work α)
    (t : Database) (log : List String) : Prop :=
  wpi handleTried (alone p.allows fun _ => True) (fun a s => Q a s.1 s.2) work (t, log)

section Rules

variable {α β : Type} {Q : α → Database → List String → Prop}

theorem after_pure {a : α} (h : Q a t log) : After p Q (pure a) t log :=
  alone_pure trivial h

theorem after_bind {R : β → Database → List String → Prop} {work : Work β} {k : β → Work α}
    (h : After p R work t log) (hk : ∀ b u log', R b u log' → After p Q (k b) u log') :
    After p Q (work >>= k) t log :=
  wpi_bind alone_lawful (wpi_mono (fun b s hb => hk b s.1 s.2 hb) h)

/-- A call that is not an insert. -/
theorem after_call {c : Call} {k : c.Reply → Work α}
    (hc : ∀ itemId endpoint routeKeyJson payloadJson,
      c ≠ .insertOutbox itemId endpoint routeKeyJson payloadJson)
    (h : ∀ f, (p.safe → f.fault = none) → After p Q (k (handle t f c).1) (handle t f c).2 log) :
    After p Q (Prog.perform c >>= k) t log := by
  refine alone_call trivial fun f hf => ?_
  cases c with
  | insertOutbox itemId endpoint routeKeyJson payloadJson => exact absurd rfl (hc _ _ _ _)
  | _ => exact h f hf

/-- A statement fails and changes nothing, which it does not when that is safe,
or it does what it does. -/
theorem after_attempt {c : Call} {k : c.Reply → Work α} (fails : String → c.Reply)
    {reply : c.Reply} {t' : Outcome → Database}
    (hc : ∀ itemId endpoint routeKeyJson payloadJson,
      c ≠ .insertOutbox itemId endpoint routeKeyJson payloadJson)
    (hfault : ∀ f e, f.fault = some e → handle t f c = (fails e, t))
    (hnone : ∀ f, f.fault = none → handle t f c = (reply, t' f))
    (hfails : ∀ e, ¬ p.safe → After p Q (k (fails e)) t log)
    (hworks : ∀ f, After p Q (k reply) (t' f) log) :
    After p Q (Prog.perform c >>= k) t log := by
  refine after_call hc fun f hsafe => ?_
  cases hf : f.fault with
  | some e =>
    rw [hfault f e hf]
    exact hfails e fun h => by simp [hsafe h] at hf
  | none =>
    rw [hnone f hf]
    exact hworks f

end Rules

/-- An item is resolved as its tables say, unless the query of them fails. -/
theorem after_resolveItemTargets (p : Pattern) (t : Database) (log : List String) :
    After p (fun r t' log' => t' = t ∧ log' = log ∧
      (p.safe → r.toOption.getD [] = resolvedTargets serde t item))
      (resolveItemTargets serde item) t log := by
  unfold resolveItemTargets
  split
  · next hmode =>
    have hresolved : resolvedTargets serde t item = broadcastTargets t item.projectKey := by
      unfold resolvedTargets
      rw [if_pos hmode]
    refine after_attempt .error (by simp) (fun _ _ hf => attempt_of_fault hf _)
      (fun _ hf => attempt_of_fault_none hf _) (fun e hsafe => ?_) fun f => ?_
    · exact after_pure ⟨rfl, rfl, fun h => absurd h hsafe⟩
    · dsimp only [orFailed, Except.mapError]
      split
      · next hempty => exact after_pure ⟨rfl, rfl, fun _ => by rw [hresolved, hempty]; rfl⟩
      · exact after_pure ⟨rfl, rfl, fun _ => hresolved.symm⟩
  · next hmode =>
    have hother : item.mode ≠ "broadcast" := by
      rw [hmode]
      decide
    have hresolved : resolvedTargets serde t item = ((item.requested serde >>= fun requested =>
        validated requested (activeIds t item.projectKey)).toOption).getD [] := by
      unfold resolvedTargets
      rw [if_neg hother, if_pos hmode]
    split
    · next e hrequested =>
      refine after_pure ⟨rfl, rfl, fun _ => ?_⟩
      rw [hresolved, hrequested]
      rfl
    · next requested hrequested =>
      split
      · next hempty =>
        refine after_pure ⟨rfl, rfl, fun _ => ?_⟩
        rw [hresolved, hrequested, hempty]
        rfl
      · refine after_attempt .error (by simp) (fun _ _ hf => attempt_of_fault hf _)
          (fun _ hf => attempt_of_fault_none hf _) (fun e hsafe => ?_) fun f => ?_
        · exact after_pure ⟨rfl, rfl, fun h => absurd h hsafe⟩
        · refine after_pure ⟨rfl, rfl, fun _ => ?_⟩
          rw [hresolved, hrequested]
          rfl
  · next hbroadcast htargeted =>
    refine after_pure ⟨rfl, rfl, fun _ => ?_⟩
    unfold resolvedTargets
    rw [if_neg hbroadcast, if_neg htargeted]
    rfl

/-- The rows of one item have been added after so many inserts for it. -/
structure Inserted (serde : Serde) (p : Pattern) (item : PendingItem) (targets : List DeliveryTarget)
    (worked : List Bool) (t : Database) (log : List String) (t' : Database) (log' : List String) :
    Prop where
  length : worked.length = targets.length
  inserts : ∀ (k : Nat) (h : k < worked.length),
    p.inserts item.itemId (log.count item.itemId + k) worked[k]
  rows : ∃ rows, t'.outbox.rows = t.outbox.rows ++ rows ∧
    List.Forall₂ (IsRowFor serde item.messageText) (taken targets worked) rows
  kept : Kept t t'
  items : t'.items = t.items
  log : ∀ id, id ≠ item.itemId → log'.count id = log.count id

theorem after_enqueueOutbox (hserde : serde.Total) (target : DeliveryTarget) (t : Database)
    (log : List String) :
    After p (fun r t' log' => log'.count item.itemId = log.count item.itemId + 1 ∧
      ∃ b : Bool, (b = true ↔ r = .ok ()) ∧ Inserted serde p item [target] [b] t log t' log')
      (enqueueOutbox serde item.itemId target item.messageText) t log := by
  obtain ⟨routeKeyJson, hroute⟩ := hserde.routeKey target.routeKey
  obtain ⟨payloadJson, hcontent⟩ := hserde.content (.text item.messageText)
  unfold enqueueOutbox
  rw [hroute, hcontent]
  refine alone_call trivial fun f hf => ?_
  obtain ⟨t', hkept, hitems, hresult⟩ :=
    insertOutbox_result t f item.itemId target.endpoint routeKeyJson payloadJson
  have hinserts : ∀ b : Bool, b = decide (Works t f) → ∀ (k : Nat) (h : k < [b].length),
      p.inserts item.itemId (log.count item.itemId + k) [b][k] := by
    intro b hb k hk
    obtain rfl : k = 0 := by simpa using hk
    subst hb
    exact hf
  have hlog : ∀ id, id ≠ item.itemId → (item.itemId :: log).count id = log.count id :=
    fun id hid => List.count_cons_of_ne (Ne.symm hid)
  have hstep : ∀ r u, handle t f (.insertOutbox item.itemId target.endpoint routeKeyJson payloadJson) =
      (r, u) → handleTried (t, log) f
        (.insertOutbox item.itemId target.endpoint routeKeyJson payloadJson) =
          (r, u, item.itemId :: log) := by
    intro r u hhandle
    exact congrArg (fun result => (result.1, result.2, item.itemId :: log)) hhandle
  by_cases hworks : Works t f
  · rw [if_pos hworks] at hresult
    rw [hstep _ _ hresult.1]
    refine alone_pure trivial ?_
    refine ⟨List.count_cons_self, true, by simp [orFailed, Except.mapError], rfl,
      hinserts true (by simp [hworks]), ⟨_, hresult.2, ?_⟩, hkept, hitems, hlog⟩
    exact .cons ⟨hroute, hcontent, rfl⟩ .nil
  · rw [if_neg hworks] at hresult
    obtain ⟨e, hhandle, hrows⟩ := hresult
    rw [hstep _ _ hhandle]
    refine alone_pure trivial ?_
    refine ⟨List.count_cons_self, false, by simp [orFailed, Except.mapError], rfl,
      hinserts false (by simp [hworks]), ⟨[], ?_, .nil⟩, hkept, hitems, hlog⟩
    rw [hrows, List.append_nil]

theorem inserted_nil (item : PendingItem) (t : Database) (log : List String) :
    Inserted serde p item [] [] t log t log where
  length := rfl
  inserts k h := absurd h (Nat.not_lt_zero k)
  rows := ⟨[], (List.append_nil _).symm, .nil⟩
  kept := kept_refl t
  items := rfl
  log _ _ := rfl

/-- The insert for one target before those for the others. -/
theorem Inserted.cons {target : DeliveryTarget} {targets : List DeliveryTarget} {b : Bool}
    {worked : List Bool} {u v : Database} {log' log'' : List String}
    (hone : Inserted serde p item [target] [b] t log u log')
    (hcount : log'.count item.itemId = log.count item.itemId + 1)
    (hrest : Inserted serde p item targets worked u log' v log'') :
    Inserted serde p item (target :: targets) (b :: worked) t log v log'' := by
  obtain ⟨rows, hrows, hfor⟩ := hone.rows
  obtain ⟨rows', hrows', hfor'⟩ := hrest.rows
  refine ⟨?_, ?_, ⟨rows ++ rows', ?_, ?_⟩, hone.kept.trans hrest.kept,
    hrest.items.trans hone.items, fun id hid => (hrest.log id hid).trans (hone.log id hid)⟩
  · rw [List.length_cons, List.length_cons, hrest.length]
  · intro k hk
    cases k with
    | zero => exact hone.inserts 0 Nat.zero_lt_one
    | succ k =>
      have hlater := hrest.inserts k (Nat.lt_of_succ_lt_succ hk)
      rw [hcount, Nat.add_assoc, Nat.add_comm 1 k] at hlater
      exact hlater
  · rw [hrows', hrows, List.append_assoc]
  · have hsplit : taken (target :: targets) (b :: worked) =
        taken [target] [b] ++ taken targets worked := by
      rw [taken_cons, taken_cons, taken_nil, List.append_nil]
    rw [hsplit]
    exact List.rel_append hfor hfor'

/-- The rows for all targets.  Those that worked are counted. -/
theorem after_enqueueAll (hserde : serde.Total) (item : PendingItem) (targets : List DeliveryTarget)
    (enqueued : Nat) (firstError : Option String) (t : Database) (log : List String) :
    After p (fun r t' log' => ∃ worked, r.1 = enqueued + worked.count true ∧
        Inserted serde p item targets worked t log t' log')
      (enqueueAll serde item.itemId item.messageText targets enqueued firstError) t log := by
  induction targets generalizing enqueued firstError t log with
  | nil => exact after_pure ⟨[], rfl, inserted_nil item t log⟩
  | cons target targets ih =>
    refine after_bind (after_enqueueOutbox hserde target t log) fun r u log' hone => ?_
    obtain ⟨hcount, b, hb, hinserted⟩ := hone
    cases r with
    | ok _ =>
      obtain rfl : b = true := hb.mpr rfl
      refine wpi_mono ?_ (ih (enqueued + 1) firstError u log')
      intro r s hrest
      obtain ⟨worked, hr, hrest⟩ := hrest
      refine ⟨true :: worked, ?_, hinserted.cons hcount hrest⟩
      rw [hr, List.count_cons_self]
      omega
    | error e =>
      obtain rfl : b = false := by simpa using hb
      refine wpi_mono ?_ (ih enqueued (firstError.or (some e)) u log')
      intro r s hrest
      obtain ⟨worked, hr, hrest⟩ := hrest
      refine ⟨false :: worked, ?_, hinserted.cons hcount hrest⟩
      rw [hr, List.count_cons_of_ne (by decide)]

/-- The mark, if it works, and nothing else that is read. -/
theorem after_markItem (run : Nat) (item : PendingItem) (status : ItemStatus)
    (error : Option String) (result : String) (t : Database) (log : List String) :
    After p (fun r t' log' => log' = log ∧ (p.safe → r = .ok ()) ∧ (r = .ok () → Kept t t' ∧
        t'.outbox = t.outbox ∧ ∃ ts, t'.items = t.items.update item.itemId
          (PushItemRow.mark status error ts) fun _ => rfl))
      (markItem run item status error result) t log := by
  unfold markItem
  refine after_call (by simp) fun f hsafe => ?_
  cases hfault : f.fault with
  | some e =>
    have hhandle : handle t f (.markItem run item.itemId status error) =
        (.error e, dropRun t run) := by
      simp only [handle, hfault]
    rw [hhandle]
    exact after_pure ⟨rfl, fun h => absurd (hsafe h) (by simp [hfault]), fun h => by cases h⟩
  | none =>
    let marked : Database := { t with
      items := t.items.update item.itemId (PushItemRow.mark status error f.seconds) fun _ => rfl
      held := t.held.filter fun h => h ≠ (run, item.itemId) }
    have hhandle : handle t f (.markItem run item.itemId status error) = (.ok (), marked) := by
      simp only [handle, hfault]
      rfl
    rw [hhandle]
    refine after_call (by simp) fun g _ => ?_
    have haudit : ∃ audit,
        (handle marked g (.writeAudit (some item.projectKey) "project_push" result)).2 =
          { marked with audit := audit } := by
      cases hg : g.fault with
      | some e => exact ⟨marked.audit, by simp only [handle, hg]⟩
      | none => exact ⟨_, by simp only [handle, hg]; rfl⟩
    obtain ⟨audit, haudit⟩ := haudit
    rw [haudit]
    exact after_pure ⟨rfl, fun _ => rfl, fun _ => ⟨⟨rfl, rfl, rfl⟩, rfl, f.seconds, rfl⟩⟩

/-- The item ends with an outcome if all that can fail is an insert, and then
it has a report. -/
structure Served (serde : Serde) (p : Pattern) (db : Database) (jobId : String)
    (item : PendingItem) (t : Database) (log : List String)
    (r : Except String (Option Nat)) (t' : Database) (log' : List String) : Prop where
  safe : p.safe → ∃ outcome, r = .ok outcome
  log : ∀ id, id ≠ item.itemId → log'.count id = log.count id
  report : ∀ outcome, r = .ok outcome → Kept t t' ∧ ∃ report,
    Reports serde p db jobId [item] [report] t t' ∧ (outcome.isSome ↔ report.status = .queued)

/-- The mark of an item after its inserts. -/
theorem after_finishItem (run : Nat) {targets : List DeliveryTarget} {worked : List Bool}
    {u : Database} {log' : List String} (hinserted : Inserted serde p item targets worked t log u log')
    (hlog : log.count item.itemId = 0)
    (hresolved : p.safe → targets = resolvedTargets serde db item)
    (hwaits : Waits t jobId item.itemId) {status : ItemStatus}
    (hstatus : status = if true ∈ worked then .queued else .failed) (error : Option String)
    (result : String) {outcome : Option Nat} (houtcome : outcome.isSome ↔ status = .queued) :
    After p (Served serde p db jobId item t log)
      (markItem run item status error result >>= fun r => pure (r.map fun _ => outcome)) u log' := by
  refine after_bind (after_markItem run item status error result u log') fun r t' log'' hmark => ?_
  obtain ⟨rfl, hsafe, hmarked⟩ := hmark
  obtain ⟨rows, hrows, hfor⟩ := hinserted.rows
  refine after_pure ⟨fun h => ⟨outcome, by rw [hsafe h]; rfl⟩, hinserted.log, ?_⟩
  intro outcome' hr
  cases r with
  | error e => cases hr
  | ok _ =>
    cases hr
    obtain ⟨hkept, houtbox, ts, hitems⟩ := hmarked rfl
    let report : Report := ⟨item, targets, worked, rows⟩
    have hright : report.Right serde db p := by
      refine ⟨hresolved, hinserted.length, fun k hk => ?_, hfor⟩
      have hinsert := hinserted.inserts k hk
      rw [hlog, Nat.zero_add] at hinsert
      exact hinsert
    have hrows' : t'.outbox.rows = t.outbox.rows ++ report.rows := by
      rw [houtbox]
      exact hrows
    have hitems' : t'.items = t.items.update item.itemId
        (PushItemRow.mark report.status error ts) fun _ => rfl := by
      rw [hitems, hinserted.items, hstatus]
      rfl
    exact ⟨hinserted.kept.trans hkept, report, reports_of_mark hright hwaits hrows' hitems',
      houtcome.trans (by rw [hstatus]; rfl)⟩

/-- One item. -/
theorem after_pushItem (hserde : serde.Total) (run : Nat) (htargets : t.targets = db.targets)
    (hbindings : t.bindings = db.bindings) (hlog : log.count item.itemId = 0)
    (hwaits : Waits t jobId item.itemId) :
    After p (Served serde p db jobId item t log) (pushItem serde run item) t log := by
  unfold pushItem
  refine after_bind (after_resolveItemTargets p t log) fun r _ _ hresult => ?_
  obtain ⟨rfl, rfl, hresolved⟩ := hresult
  rw [resolvedTargets_congr htargets hbindings item] at hresolved
  cases r with
  | error e =>
    exact after_finishItem run (inserted_nil item _ _) hlog hresolved hwaits (by simp) _ _ (by simp)
  | ok targets =>
    refine after_bind (after_enqueueAll hserde item targets 0 none _ _) fun r u log' hresult => ?_
    obtain ⟨enqueued, firstError⟩ := r
    obtain ⟨worked, hcount, hinserted⟩ := hresult
    dsimp only at hcount
    rw [Nat.zero_add] at hcount
    have hqueued : 0 < enqueued ↔ true ∈ worked := by rw [hcount, List.count_pos_iff]
    dsimp only
    split
    · next hzero =>
      have hnone : ¬ true ∈ worked := fun hmem => by
        have hpos := hqueued.mpr hmem
        omega
      exact after_finishItem run hinserted hlog hresolved hwaits (if_neg hnone).symm _ _ (by simp)
    · next hpos =>
      have hsome : true ∈ worked := hqueued.mp (Nat.pos_of_ne_zero hpos)
      split
      · exact after_finishItem run hinserted hlog hresolved hwaits (if_pos hsome).symm _ _ (by simp)
      · exact after_finishItem run hinserted hlog hresolved hwaits (if_pos hsome).symm _ _ (by simp)

/-- The summary counts the reports. -/
structure RunSummary.Counts (summary summary' : RunSummary) (reports : List Report) : Prop where
  queued : summary'.queuedItems = summary.queuedItems + countReports reports .queued
  failed : summary'.failedItems = summary.failedItems + countReports reports .failed

theorem counts_nil (summary : RunSummary) : summary.Counts summary [] := ⟨rfl, rfl⟩

/-- An item that is not queued has failed. -/
theorem Report.status_cases (report : Report) :
    report.status = .queued ∨ report.status = .failed := by
  unfold Report.status
  split
  · exact .inl rfl
  · exact .inr rfl

theorem RunSummary.Counts.cons {summary summary' : RunSummary} {outcome : Option Nat}
    {report : Report} {reports : List Report} (houtcome : outcome.isSome ↔ report.status = .queued)
    (h : (summary.add outcome).Counts summary' reports) :
    summary.Counts summary' (report :: reports) := by
  obtain ⟨hqueued, hfailed⟩ := h
  unfold countReports at hqueued hfailed
  cases outcome with
  | some enqueued =>
    have hstatus : report.status = .queued := houtcome.mp rfl
    constructor
    · rw [hqueued, countReports, List.countP_cons]
      show summary.queuedItems + 1 + _ = _
      simp [hstatus]
      omega
    · rw [hfailed, countReports, List.countP_cons]
      show summary.failedItems + _ = _
      simp [hstatus]
  | none =>
    have hstatus : report.status = .failed :=
      report.status_cases.resolve_left fun h => absurd (houtcome.mpr h) (by simp)
    constructor
    · rw [hqueued, countReports, List.countP_cons]
      show summary.queuedItems + _ = _
      simp [hstatus]
    · rw [hfailed, countReports, List.countP_cons]
      show summary.failedItems + 1 + _ = _
      simp [hstatus]
      omega

/-- The loop over pending items. -/
theorem after_pushItems (hserde : serde.Total) (run : Nat) (items : List PendingItem)
    (hnodup : (items.map PendingItem.itemId).Nodup) (summary : RunSummary)
    (htargets : t.targets = db.targets) (hbindings : t.bindings = db.bindings)
    (hlog : ∀ item ∈ items, log.count item.itemId = 0)
    (hwaits : ∀ item ∈ items, Waits t jobId item.itemId) :
    After p (fun r t' _ => (p.safe → ∃ summary', r = .ok summary') ∧ ∀ summary', r = .ok summary' →
        Kept t t' ∧ ∃ reports, Reports serde p db jobId items reports t t' ∧
          summary.Counts summary' reports)
      (pushItems serde run items summary) t log := by
  induction items generalizing summary t log with
  | nil =>
    refine after_pure ⟨fun _ => ⟨summary, rfl⟩, fun summary' hr => ?_⟩
    cases hr
    exact ⟨kept_refl t, [], reports_nil, counts_nil summary⟩
  | cons item items ih =>
    rw [List.map_cons, List.nodup_cons] at hnodup
    have hne : ∀ other ∈ items, other.itemId ≠ item.itemId := fun other hother hid =>
      hnodup.1 (hid ▸ List.mem_map_of_mem hother)
    refine after_bind (after_pushItem hserde run htargets hbindings (hlog item List.mem_cons_self)
      (hwaits item List.mem_cons_self)) fun r u log' hserved => ?_
    cases r with
    | error e =>
      refine after_pure ⟨fun hsafe => ?_, fun _ hr => by cases hr⟩
      obtain ⟨outcome, hr⟩ := hserved.safe hsafe
      cases hr
    | ok outcome =>
      obtain ⟨hkept, report, hreport, houtcome⟩ := hserved.report outcome rfl
      have hlog' : ∀ other ∈ items, log'.count other.itemId = 0 := fun other hother =>
        (hserved.log other.itemId (hne other hother)).trans
          (hlog other (List.mem_cons_of_mem _ hother))
      have hwaits' : ∀ other ∈ items, Waits u jobId other.itemId := by
        intro other hother
        unfold Waits
        rw [hreport.others _ (by simpa using hne other hother)]
        exact hwaits other (List.mem_cons_of_mem _ hother)
      refine wpi_mono ?_ (ih hnodup.2 (summary.add outcome) (hkept.targets.trans htargets)
        (hkept.bindings.trans hbindings) hlog' hwaits')
      intro r s hrest
      refine ⟨hrest.1, fun summary' hr => ?_⟩
      obtain ⟨hkept', reports, hreports, hcounts⟩ := hrest.2 summary' hr
      exact ⟨hkept.trans hkept', report :: reports, hreport.cons hreports hnodup.1,
        hcounts.cons houtcome⟩

/-! ## A whole run -/

/-- The job has the summary of the reports. -/
structure Finished (jobId : String) (reports : List Report) (row : PushJobRow) : Prop where
  status : row.status = if countReports reports .failed = 0 then .done
    else if countReports reports .queued = 0 then .failed else .partly
  successItems : row.successItems = asI64 (countReports reports .queued)
  failedItems : row.failedItems = asI64 (countReports reports .failed)

/-- What is known of a run that ends well: there is a report for each pending
item, and the job is finished with them. -/
structure Reported (serde : Serde) (p : Pattern) (db : Database) (jobId : String)
    (reports : List Report) (t : Database) : Prop where
  items : Reports serde p db jobId (pendingItems db jobId) reports db t
  job : (db.jobs.find? jobId).isSome → ∃ row, t.jobs.find? jobId = some row ∧
    Finished jobId reports row

theorem Reports.congr {items : List PendingItem} {reports : List Report}
    (h : Reports serde p db jobId items reports t u) {v v' : Database}
    (houtbox : v.outbox = t.outbox) (hitems : v.items = t.items)
    (houtbox' : v'.outbox = u.outbox) (hitems' : v'.items = u.items) :
    Reports serde p db jobId items reports v v' := by
  have hmarked := h.marked
  have hcounts := h.counts
  unfold statusOf at hmarked
  unfold countItems at hcounts
  refine ⟨h.ordered, h.right, ?_, ?_, ?_, ?_⟩
  · rw [houtbox, houtbox', h.rows]
  · unfold statusOf
    rw [hitems']
    exact hmarked
  · rw [hitems, hitems']
    exact h.others
  · unfold countItems
    rw [hitems, hitems']
    exact hcounts

/-- The job that was started and is finished has the summary. -/
theorem finished_of_update {t : Database} {started finished : Int64}
    (hjobs : t.jobs = db.jobs.update jobId (PushJobRow.start started) fun _ => rfl)
    {summary : RunSummary} {reports : List Report}
    (hqueued : summary.queuedItems = countReports reports .queued)
    (hfailed : summary.failedItems = countReports reports .failed)
    (hjob : (db.jobs.find? jobId).isSome) :
    ∃ row, (t.jobs.update jobId (PushJobRow.finish summary.status (asI64 summary.queuedItems)
      (asI64 summary.failedItems) finished) fun _ => rfl).find? jobId = some row ∧
        Finished jobId reports row := by
  obtain ⟨row, hrow⟩ := Option.isSome_iff_exists.mp hjob
  have hstart := KeyedTable.find?_update db.jobs jobId (PushJobRow.start started) (fun _ => rfl) jobId
  rw [if_pos rfl, hrow, Option.map_some] at hstart
  have hfind : t.jobs.find? jobId = some (row.start started) := by
    rw [hjobs]
    exact hstart
  have hfinish := KeyedTable.find?_update t.jobs jobId (PushJobRow.finish summary.status
    (asI64 summary.queuedItems) (asI64 summary.failedItems) finished) (fun _ => rfl) jobId
  rw [if_pos rfl, hfind, Option.map_some] at hfinish
  refine ⟨_, hfinish, ?_, congrArg asI64 hqueued, congrArg asI64 hfailed⟩
  show summary.status = _
  unfold RunSummary.status
  rw [hqueued, hfailed]

theorem after_runPushJob (hserde : serde.Total) (p : Pattern) (run : Nat) (jobId : String)
    (db : Database) :
    After p (fun r t _ => (p.safe → ∃ summary, r = .ok summary) ∧
        ∀ summary, r = .ok summary → ∃ reports, Reported serde p db jobId reports t)
      (runPushJob serde run jobId) db [] := by
  have hends : ∀ (t : Database) (e : String), ¬ p.safe →
      After p (fun (r : Except String RunSummary) t _ => (p.safe → ∃ summary, r = .ok summary) ∧
        ∀ summary, r = .ok summary → ∃ reports, Reported serde p db jobId reports t)
        (pure (.error e)) t [] := fun _ _ hsafe =>
    after_pure ⟨fun h => absurd h hsafe, fun _ hr => by cases hr⟩
  unfold runPushJob
  refine after_attempt .error (by simp) (fun _ _ hf => attempt_of_fault hf _)
    (fun _ hf => attempt_of_fault_none hf _) (fun e hsafe => hends _ _ hsafe) fun f => ?_
  let started : Database := { db with
    jobs := db.jobs.update jobId (PushJobRow.start f.seconds) fun _ => rfl }
  let fetched : Database := { started with
    held := (pendingItems db jobId).map (fun item => (run, item.itemId)) ++ db.held }
  refine after_attempt .error (by simp) (fun _ _ hf => attempt_of_fault hf _)
    (fun _ hf => attempt_of_fault_none hf _) (fun e hsafe => hends _ _ hsafe) fun g => ?_
  have hwaits : ∀ item ∈ pendingItems db jobId, Waits fetched jobId item.itemId :=
    fun _ hitem => waits_of_pending hitem
  have htargets : fetched.targets = db.targets := rfl
  have hbindings : fetched.bindings = db.bindings := rfl
  refine after_bind (after_pushItems hserde run (pendingItems db jobId)
    (nodup_pendingItems db jobId) _ htargets hbindings (fun _ _ => rfl) hwaits)
    fun r u log' hresult => ?_
  cases r with
  | error e =>
    refine after_pure ⟨fun h => ?_, fun _ hr => by cases hr⟩
    obtain ⟨_, hr⟩ := hresult.1 h
    cases hr
  | ok summary =>
    obtain ⟨hkept, reports, hreports, ⟨hqueued, hfailed⟩⟩ := hresult.2 summary rfl
    rw [Nat.zero_add] at hqueued hfailed
    refine after_attempt .error (by simp) (fun _ _ hf => attempt_of_fault hf _)
      (fun _ hf => attempt_of_fault_none hf _) (fun e hsafe => ?_) fun f' => ?_
    · exact after_pure ⟨fun h => absurd h hsafe, fun _ hr => by cases hr⟩
    · refine after_pure ⟨fun _ => ⟨summary, rfl⟩, fun summary' _ => ⟨reports, ?_, ?_⟩⟩
      · exact hreports.congr rfl rfl rfl rfl
      · exact finished_of_update hkept.jobs hqueued hfailed

end Calls

end MagicLaw.Push
