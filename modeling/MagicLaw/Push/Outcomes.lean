import MagicLaw.Push.OncePerTarget
import MagicLaw.Push.Reports

/-!
# What the runs of a job leave

* `broadcast_exact`: when storage works, a broadcast leaves one row for each
  active binding of its project whose target is active.
* `leavesSummary_iff_unmarked`: over a sequence of runs of a job, the summary of
  the job matches its items exactly as long as no item was marked before.  A
  run counts what it has done itself.
* `doneMeansEnqueued_iff`: an item that has only some of its rows counts as
  queued, so that the job may be done without them.
-/

namespace MagicLaw.Push

open Lib Lib.Program Lib.Machine Lib.Interference
open MagicLaw.Outbox (OutboxEntry)

/-! ## Runs that are played -/

section Play

variable {serde : Serde} {p : Pattern} {db : Database} {jobId : String} {fs : Nat → Outcome}

/-- What a run leaves whose outcomes the pattern allows. -/
theorem reported_of_along (hserde : serde.Total) (run : Nat)
    (h : Along handleTried p.allows (runPushJob serde run jobId) fs (db, [])) :
    (p.safe → ∃ summary, ((runPushJob serde run jobId).play handle fs db).1 = .ok summary) ∧
      ∀ summary, ((runPushJob serde run jobId).play handle fs db).1 = .ok summary →
        ∃ reports, Reported serde p db jobId reports
          ((runPushJob serde run jobId).play handle fs db).2 := by
  have hpost := post_of_along (after_runPushJob hserde p run jobId db) h
  have hplay : ((runPushJob serde run jobId).play handleTried fs (db, [])).1 =
        ((runPushJob serde run jobId).play handle fs db).1 ∧
      ((runPushJob serde run jobId).play handleTried fs (db, [])).2.1 =
        ((runPushJob serde run jobId).play handle fs db).2 := play_watched _ fs db []
  rw [hplay.1, hplay.2] at hpost
  exact hpost

/-- The reports and the pending items go together. -/
theorem Reported.forall₂ {reports : List Report} {t : Database}
    (h : Reported serde p db jobId reports t) {R : PendingItem → List OutboxEntry → Prop}
    (hR : ∀ report ∈ reports, R report.item report.rows) :
    ∃ rows : List (List OutboxEntry), t.outbox.rows = db.outbox.rows ++ rows.flatten ∧
      List.Forall₂ R (pendingItems db jobId) rows := by
  refine ⟨reports.map Report.rows, ?_, ?_⟩
  · rw [h.items.rows, List.flatMap_def]
  · rw [← h.items.ordered, List.forall₂_map_left_iff, List.forall₂_map_right_iff,
      List.forall₂_same]
    exact hR

end Play

/-! ## Broadcasts -/

section Broadcasts

variable (serde : Serde) (db : Database)

/-- An active binding of the project, and its target, which is active. -/
structure ActivePair (projectKey : String) (pair : ProjectBindingRow × DeliveryTargetRow) :
    Prop where
  binding : pair.1 ∈ db.bindings.rows
  projectKey : pair.1.projectKey = projectKey
  bindingStatus : pair.1.status = .active
  target : pair.2 ∈ db.targets.rows
  targetId : pair.2.targetId = pair.1.targetId
  targetStatus : pair.2.status = .active

def activePairs (projectKey : String) : List (ProjectBindingRow × DeliveryTargetRow) :=
  (activeBindings db projectKey).filterMap fun binding =>
    ((db.targets.find? binding.targetId).filter fun row => row.status = .active).map
      fun row => (binding, row)

/-- One pending row for each active binding whose target is active, for the
route of the target and with the text of the item. -/
def OneRowEach (item : PendingItem) (rows : List OutboxEntry) : Prop :=
  ∃ pairs : List (ProjectBindingRow × DeliveryTargetRow), (pairs.map Prod.fst).Nodup ∧
    (∀ pair, pair ∈ pairs ↔ ActivePair db item.projectKey pair) ∧
      List.Forall₂ (fun pair row =>
        IsRowFor serde item.messageText pair.2.endpoint.toTarget row) pairs rows

end Broadcasts

section Exact

variable {serde : Serde} {db : Database} {projectKey : String}

theorem mem_activePairs {pair : ProjectBindingRow × DeliveryTargetRow} :
    pair ∈ activePairs db projectKey ↔ ActivePair db projectKey pair := by
  obtain ⟨binding, row⟩ := pair
  have hbinding : binding ∈ activeBindings db projectKey ↔ binding ∈ db.bindings.rows ∧
      binding.projectKey = projectKey ∧ binding.status = .active := by
    unfold activeBindings KeyedTable.select
    rw [List.mem_filter, Bool.and_eq_true, decide_eq_true_eq, decide_eq_true_eq]
  unfold activePairs
  rw [List.mem_filterMap]
  constructor
  · intro hexists
    obtain ⟨binding', hmem, hmap⟩ := hexists
    obtain ⟨row', hfilter, hpair⟩ := Option.map_eq_some_iff.mp hmap
    cases hpair
    obtain ⟨hfind, hactive⟩ := Option.filter_eq_some_iff.mp hfilter
    obtain ⟨hrow, hid⟩ := KeyedTable.find?_eq_some_iff.mp hfind
    obtain ⟨hrows, hproject, hstatus⟩ := hbinding.mp hmem
    exact ⟨hrows, hproject, hstatus, hrow, hid, of_decide_eq_true hactive⟩
  · intro h
    refine ⟨binding, hbinding.mpr ⟨h.binding, h.projectKey, h.bindingStatus⟩, ?_⟩
    have hfind : db.targets.find? binding.targetId = some row :=
      KeyedTable.find?_eq_some_iff.mpr ⟨h.target, h.targetId⟩
    have hactive : row.status = .active := h.targetStatus
    simp [hfind, hactive]

theorem nodup_activePairs (db : Database) (projectKey : String) :
    ((activePairs db projectKey).map Prod.fst).Nodup := by
  have hbindings : (activeBindings db projectKey).Nodup :=
    (KeyedTable.nodup_select db.bindings _).of_map
  refine hbindings.sublist ?_
  unfold activePairs
  generalize activeBindings db projectKey = bindings
  induction bindings with
  | nil => exact List.Sublist.slnil
  | cons binding bindings ih =>
    rw [List.filterMap_cons]
    split
    · exact ih.cons binding
    · next pair hpair =>
      obtain ⟨row, -, rfl⟩ := Option.map_eq_some_iff.mp hpair
      exact ih.cons_cons binding

theorem broadcastTargets_eq (db : Database) (projectKey : String) :
    broadcastTargets db projectKey =
      (activePairs db projectKey).map fun pair => pair.2.endpoint.toTarget := by
  unfold broadcastTargets activePairs
  rw [List.map_filterMap]
  refine congrArg (List.filterMap · _) (funext fun binding => ?_)
  rw [Option.map_map]
  rfl

/-- Every call of a run works. -/
def everythingWorks : Pattern := ⟨fun _ _ worked => worked = true, True⟩

theorem allows_of_works {s : Database × List String} {c : Call} {f : Outcome}
    (h : Works s.1 f) : everythingWorks.allows s c f := by
  cases c with
  | insertOutbox itemId endpoint routeKeyJson payloadJson => exact decide_eq_true h
  | _ => exact fun _ => h.fault

/-- What one broadcast leaves: its rows and its mark. -/
structure ServesBroadcast (serde : Serde) (db t : Database) (item : PendingItem)
    (rows : List OutboxEntry) : Prop where
  oneEach : OneRowEach serde db item rows
  failed : (∀ pair, ¬ ActivePair db item.projectKey pair) →
    rows = [] ∧ statusOf t item.itemId = some .failed

/-- When every call works, the rows that are added are those of the pending
items, one after the other.  The rows of a broadcast are one for each active
binding of its project whose target is active, and without any it fails. -/
theorem broadcast_exact (hserde : serde.Total) {jobId : String} {run : Nat} {fs : Nat → Outcome}
    (hworks : Along handle (fun db _ f => Works db f) (runPushJob serde run jobId) fs db) :
    ∃ summary t, (runPushJob serde run jobId).play handle fs db = (.ok summary, t) ∧
      ∃ rows : List (List OutboxEntry), t.outbox.rows = db.outbox.rows ++ rows.flatten ∧
        List.Forall₂ (fun item itemRows =>
          List.Forall₂ (IsRowFor serde item.messageText) (resolvedTargets serde db item) itemRows ∧
            (item.mode = "broadcast" → ServesBroadcast serde db t item itemRows))
          (pendingItems db jobId) rows := by
  have halong : Along handleTried everythingWorks.allows (runPushJob serde run jobId) fs (db, []) :=
    (along_watched hworks []).mono fun _ _ _ h => allows_of_works h
  obtain ⟨hsafe, hreported⟩ := reported_of_along hserde run halong
  obtain ⟨summary, hresult⟩ := hsafe trivial
  obtain ⟨reports, hreported⟩ := hreported summary hresult
  refine ⟨summary, _, Prod.ext hresult rfl, hreported.forall₂ fun report hreport => ?_⟩
  have hright := hreported.items.right report hreport
  have hall : false ∉ report.worked := by
    intro hmem
    obtain ⟨k, hk, hfalse⟩ := List.getElem_of_mem hmem
    exact absurd (hright.inserts k hk) (by simp [hfalse, everythingWorks])
  have hrows := hright.rows
  rw [taken_of_all hright.length hall, hright.resolved trivial] at hrows
  refine ⟨hrows, fun hmode => ?_⟩
  have hpairs : resolvedTargets serde db report.item =
      (activePairs db report.item.projectKey).map fun pair => pair.2.endpoint.toTarget := by
    unfold resolvedTargets
    rw [if_pos hmode, broadcastTargets_eq]
  constructor
  · refine ⟨activePairs db report.item.projectKey, nodup_activePairs db _, fun _ => mem_activePairs, ?_⟩
    rw [hpairs, List.forall₂_map_left_iff] at hrows
    exact hrows
  · intro hnone
    have hempty : activePairs db report.item.projectKey = [] :=
      List.eq_nil_iff_forall_not_mem.mpr fun pair hpair => hnone pair (mem_activePairs.mp hpair)
    have htargets : report.targets = [] := by
      rw [hright.resolved trivial, hpairs, hempty, List.map_nil]
    have hworked : report.worked = [] := by
      rw [← List.length_eq_zero_iff, hright.length, htargets, List.length_nil]
    rw [hpairs, hempty, List.map_nil, List.forall₂_nil_left_iff] at hrows
    refine ⟨hrows, ?_⟩
    rw [hreported.items.marked report hreport, Report.status, hworked]
    simp

/-- So many calls that work, with a new id each. -/
def drawing (n : Nat) : Outcome := ⟨none, 1700000000, toString n⟩

/-- A second target of the project. -/
def bob : Endpoint := ⟨"wechat", "bob", "c2", "direct", ""⟩

def twoTargets : Database :=
  { oneBroadcast with
    targets := ⟨[⟨alice.targetId, alice, .active, 1700000000, 1700000000⟩,
      ⟨bob.targetId, bob, .active, 1700000000, 1700000000⟩], by decide +kernel⟩
    bindings := ⟨[⟨"proj-a|wechat|alice|c1|direct|", "proj-a", alice.targetId, "import", .active,
        1700000000, none, 1700000000, 1700000000⟩,
      ⟨"proj-a|wechat|bob|c2|direct|", "proj-a", bob.targetId, "import", .active, 1700000000, none,
        1700000000, 1700000000⟩], by decide +kernel⟩ }

/-- Besides the two there are a target that is not active, of an active binding,
and an active target whose binding is not. -/
def carol : Endpoint := ⟨"wechat", "carol", "c3", "direct", ""⟩

def dave : Endpoint := ⟨"wechat", "dave", "c4", "direct", ""⟩

def twoOfFour : Database :=
  { twoTargets with
    targets := ⟨twoTargets.targets.rows ++
      [⟨carol.targetId, carol, .inactive, 1700000000, 1700000000⟩,
        ⟨dave.targetId, dave, .active, 1700000000, 1700000000⟩], by decide +kernel⟩
    bindings := ⟨twoTargets.bindings.rows ++
      [⟨"proj-a|wechat|carol|c3|direct|", "proj-a", carol.targetId, "import", .active, 1700000000,
          none, 1700000000, 1700000000⟩,
        ⟨"proj-a|wechat|dave|c4|direct|", "proj-a", dave.targetId, "import", .inactive,
          1700000000, some 1700000000, 1700000000, 1700000000⟩], by decide +kernel⟩ }

theorem twoOfFour_exact :
    ∃ summary t, (runPushJob readsNothing 0 "job1").play handle drawing twoOfFour =
      (.ok summary, t) ∧
      ∃ rows : List (List OutboxEntry), t.outbox.rows = twoOfFour.outbox.rows ++ rows.flatten ∧
        List.Forall₂ (fun item itemRows =>
          List.Forall₂ (IsRowFor readsNothing item.messageText)
            (resolvedTargets readsNothing twoOfFour item) itemRows ∧
              (item.mode = "broadcast" → ServesBroadcast readsNothing twoOfFour t item itemRows))
          (pendingItems twoOfFour "job1") rows :=
  broadcast_exact Pipeline.derivedText_total (by decide +kernel)

end Exact

/-! ## Summaries over runs -/

section Summaries

variable (serde : Serde) (jobId : String)

/-- A run that returns `Ok`, with its number and the outcomes of its calls. -/
def pushCall (db : Database) (call : Nat × (Nat → Outcome)) : Option Database :=
  match (runPushJob serde call.1 jobId).play handle call.2 db with
  | (.ok _, t) => some t
  | (.error _, _) => none

/-- The items of a job. -/
def totalItems (db : Database) : Nat := db.items.rows.countP fun row => row.jobId = jobId

/-- The row of the job says how many of its items are queued and failed. -/
structure SummaryOf (db : Database) (row : PushJobRow) : Prop where
  successItems : row.successItems.toInt = countItems db jobId .queued
  failedItems : row.failedItems.toInt = countItems db jobId .failed
  status : row.status = if countItems db jobId .failed = 0 then .done
    else if countItems db jobId .failed = totalItems jobId db then .failed else .partly

def SummaryMatches (db : Database) : Prop :=
  ∀ row, db.jobs.find? jobId = some row → SummaryOf jobId db row

/-- After the call the summary matches. -/
def LeavesSummary (db : Database) (call : Nat × (Nat → Outcome)) : Prop :=
  ∀ t, pushCall serde jobId db call = some t → SummaryMatches jobId t

/-- No item of the job is queued or failed. -/
def Unmarked (db : Database) : Prop :=
  ∀ row ∈ db.items.rows, row.jobId = jobId → row.status = .pending

end Summaries

section Runs

variable {serde : Serde} {jobId : String} {db t : Database}

theorem toInt_asI64 (n : Nat) : (asI64 n).toInt = (n : Int).bmod (2 ^ 64) :=
  BitVec.toInt_ofNat' n

theorem toInt_asI64_le (n : Nat) : (asI64 n).toInt ≤ n := by
  rw [toInt_asI64, Int.bmod_def]
  omega

theorem toInt_asI64_of_lt {n : Nat} (h : n < 2 ^ 63) : (asI64 n).toInt = n := by
  rw [toInt_asI64, Int.bmod_def]
  omega

theorem countItems_eq_zero_iff {status : ItemStatus} :
    countItems db jobId status = 0 ↔
      ∀ row ∈ db.items.rows, row.jobId = jobId → row.status ≠ status := by
  unfold countItems
  rw [List.countP_eq_zero]
  simp

theorem unmarked_iff :
    Unmarked jobId db ↔ countItems db jobId .queued = 0 ∧ countItems db jobId .failed = 0 := by
  rw [countItems_eq_zero_iff, countItems_eq_zero_iff]
  constructor
  · intro h
    constructor <;> intro row hrow hjob <;> rw [h row hrow hjob] <;> decide
  · intro h row hrow hjob
    cases hstatus : row.status with
    | pending => rfl
    | queued => exact absurd hstatus (h.1 row hrow hjob)
    | failed => exact absurd hstatus (h.2 row hrow hjob)

/-- Items are pending, queued or failed. -/
theorem totalItems_eq (db : Database) (jobId : String) :
    totalItems jobId db = countItems db jobId .pending + countItems db jobId .queued +
      countItems db jobId .failed := by
  unfold totalItems countItems
  induction db.items.rows with
  | nil => rfl
  | cons row rows ih =>
    simp only [List.countP_cons, ih]
    by_cases hjob : row.jobId = jobId
    · cases hstatus : row.status <;> simp [hjob] <;> omega
    · simp [hjob]

/-- A run leaves no item pending. -/
theorem Reported.countItems_pending {p : Pattern} {reports : List Report}
    (h : Reported serde p db jobId reports t) : countItems t jobId .pending = 0 := by
  rw [countItems_eq_zero_iff]
  intro row hrow hjob hstatus
  have hfind : t.items.find? row.itemId = some row := KeyedTable.find?_eq_some_iff.mpr ⟨hrow, rfl⟩
  by_cases hmem : row.itemId ∈ (pendingItems db jobId).map PendingItem.itemId
  · obtain ⟨item, hitem, hid⟩ := List.mem_map.mp hmem
    rw [← h.items.ordered] at hitem
    obtain ⟨report, hreport, rfl⟩ := List.mem_map.mp hitem
    have hmarked := h.items.marked report hreport
    unfold statusOf at hmarked
    rw [hid, hfind, Option.map_some, hstatus, Option.some.injEq] at hmarked
    rcases report.status_cases with hqueued | hfailed
    · exact absurd (hmarked.trans hqueued) (by decide)
    · exact absurd (hmarked.trans hfailed) (by decide)
  · -- it was pending before, so the run has fetched it
    have hbefore : db.items.find? row.itemId = some row := (h.items.others _ hmem).symm.trans hfind
    refine hmem (List.mem_map.mpr ⟨row.toPending, ?_, rfl⟩)
    refine List.mem_map_of_mem ?_
    rw [List.mem_insertionSort, KeyedTable.mem_select]
    exact ⟨hbefore, by simp [hjob, hstatus]⟩

theorem length_reports (reports : List Report) :
    countReports reports .queued + countReports reports .failed = reports.length := by
  induction reports with
  | nil => rfl
  | cons report reports ih =>
    have hcons : ∀ status, countReports (report :: reports) status =
        countReports reports status + if report.status = status then 1 else 0 := by
      intro status
      unfold countReports
      rw [List.countP_cons]
      simp
    rw [hcons, hcons, List.length_cons, ← ih]
    rcases report.status_cases with hstatus | hstatus <;> rw [hstatus] <;> simp <;> omega

/-- A call, whatever its outcomes are. -/
theorem reported_of_pushCall (hserde : serde.Total) {call : Nat × (Nat → Outcome)}
    (hcall : pushCall serde jobId db call = some t) :
    ∃ reports, Reported serde ⟨fun _ _ _ => True, False⟩ db jobId reports t := by
  have halong : Along handleTried (Pattern.allows ⟨fun _ _ _ => True, False⟩)
      (runPushJob serde call.1 jobId) call.2 (db, []) := by
    refine along_of_forall (fun s c f => ?_) _ _ _
    cases c with
    | insertOutbox itemId endpoint routeKeyJson payloadJson => trivial
    | _ => exact False.elim
  unfold pushCall at hcall
  split at hcall
  · next summary t' hplay =>
    cases hcall
    have hreported := (reported_of_along hserde call.1 halong).2 summary
    rw [hplay] at hreported
    exact hreported rfl
  · cases hcall

theorem job_of_pushCall (hserde : serde.Total) {call : Nat × (Nat → Outcome)}
    (hjob : (db.jobs.find? jobId).isSome) (hcall : pushCall serde jobId db call = some t) :
    (t.jobs.find? jobId).isSome := by
  obtain ⟨reports, hreported⟩ := reported_of_pushCall hserde hcall
  obtain ⟨row, hrow, -⟩ := hreported.job hjob
  rw [hrow]
  rfl

/-- If the summary matches after a call, no item was marked before it. -/
theorem unmarked_of_summaryMatches (hserde : serde.Total) {call : Nat × (Nat → Outcome)}
    (hjob : (db.jobs.find? jobId).isSome) (hcall : pushCall serde jobId db call = some t)
    (hmatches : SummaryMatches jobId t) : Unmarked jobId db := by
  obtain ⟨reports, hreported⟩ := reported_of_pushCall hserde hcall
  obtain ⟨row, hrow, hfinished⟩ := hreported.job hjob
  have hsummary := hmatches row hrow
  have hqueued := hsummary.successItems
  have hfailed := hsummary.failedItems
  rw [hfinished.successItems, hreported.items.counts .queued (by decide)] at hqueued
  rw [hfinished.failedItems, hreported.items.counts .failed (by decide)] at hfailed
  have hqueuedLe := toInt_asI64_le (countReports reports .queued)
  have hfailedLe := toInt_asI64_le (countReports reports .failed)
  rw [unmarked_iff]
  omega

/-- A call before which no item was marked leaves a summary that matches. -/
theorem summaryMatches_of_unmarked (hserde : serde.Total) {call : Nat × (Nat → Outcome)}
    (hjob : (db.jobs.find? jobId).isSome) (hcall : pushCall serde jobId db call = some t)
    (hunmarked : Unmarked jobId db) (hlength : (pendingItems db jobId).length < 2 ^ 63) :
    SummaryMatches jobId t := by
  obtain ⟨reports, hreported⟩ := reported_of_pushCall hserde hcall
  obtain ⟨row, hrow, hfinished⟩ := hreported.job hjob
  obtain ⟨hqueued, hfailed⟩ := unmarked_iff.mp hunmarked
  have hqueued' := hreported.items.counts .queued (by decide)
  have hfailed' := hreported.items.counts .failed (by decide)
  have hpending := hreported.countItems_pending
  have htotal := totalItems_eq t jobId
  have hreports := length_reports reports
  rw [← hreported.items.ordered, List.length_map] at hlength
  intro row' hrow'
  obtain rfl : row = row' := Option.some.inj (hrow.symm.trans hrow')
  constructor
  · rw [hfinished.successItems, toInt_asI64_of_lt (by omega)]
    omega
  · rw [hfinished.failedItems, toInt_asI64_of_lt (by omega)]
    omega
  · have hall : countItems t jobId .failed = totalItems jobId t ↔ countReports reports .queued = 0 := by
      omega
    rw [hfinished.status, hfailed', hfailed, Nat.zero_add]
    rw [hfailed', hfailed, Nat.zero_add] at hall
    simp only [hall]

/-- Over a sequence of calls that return `Ok`, the summary of the job matches
its items after each of them exactly when no item was marked before any of
them. -/
theorem leavesSummary_iff_unmarked (hserde : serde.Total) (hjob : (db.jobs.find? jobId).isSome)
    {calls : List (Nat × (Nat → Outcome))} (hrun : run (pushCall serde jobId) db calls = some t) :
    (EveryStep (pushCall serde jobId) (LeavesSummary serde jobId) db calls →
      EveryStep (pushCall serde jobId) (fun db _ => Unmarked jobId db) db calls) ∧
    (EveryStep (pushCall serde jobId)
        (fun db _ => Unmarked jobId db ∧ (pendingItems db jobId).length < 2 ^ 63) db calls →
      EveryStep (pushCall serde jobId) (LeavesSummary serde jobId) db calls) := by
  have hinv : ∀ (s : Database) (call : Nat × (Nat → Outcome)) (u : Database),
      (s.jobs.find? jobId).isSome → pushCall serde jobId s call = some u →
        (u.jobs.find? jobId).isSome := fun s call u hjob hcall => job_of_pushCall hserde hjob hcall
  constructor
  · refine EveryStep.imp_of_run hinv (fun s call u hjob hcall hleaves => ?_) hjob hrun
    exact unmarked_of_summaryMatches hserde hjob hcall (hleaves u hcall)
  · refine EveryStep.imp_of_run hinv (fun s call u hjob hcall hboth => ?_) hjob hrun
    intro v hv
    exact summaryMatches_of_unmarked hserde hjob hv hboth.1 hboth.2

/-- One call on a job whose item is pending. -/
theorem oneBroadcast_leavesSummary :
    EveryStep (pushCall readsNothing "job1") (LeavesSummary readsNothing "job1") oneBroadcast
      [(0, drawing)] := by
  have hsome : (run (pushCall readsNothing "job1") oneBroadcast [(0, drawing)]).isSome = true := by
    decide +kernel
  obtain ⟨t, hrun⟩ := Option.isSome_iff_exists.mp hsome
  refine (leavesSummary_iff_unmarked Pipeline.derivedText_total (by decide +kernel) hrun).2 ?_
  refine ⟨⟨?_, by decide +kernel⟩, fun _ _ => trivial⟩
  intro row hrow _
  rw [List.mem_singleton.mp hrow]

/-- A second call finds nothing to do, and says that none of the items is
queued. -/
theorem not_everySummaryMatches :
    ¬ ∀ (serde : Serde) (jobId : String) (db t : Database) (calls : List (Nat × (Nat → Outcome))),
      serde.Total → (db.jobs.find? jobId).isSome → run (pushCall serde jobId) db calls = some t →
        EveryStep (pushCall serde jobId) (LeavesSummary serde jobId) db calls := by
  intro h
  let calls := [(0, drawing), (1, drawing)]
  have hlast : (run (pushCall readsNothing "job1") oneBroadcast calls).map (fun t =>
      (countItems t "job1" .queued, (t.jobs.find? "job1").map fun row => row.successItems.toInt)) =
        some (1, some 0) := by decide +kernel
  obtain ⟨t, hrun, hcounts⟩ := Option.map_eq_some_iff.mp hlast
  obtain ⟨hqueued, hjob⟩ := Prod.mk.inj hcounts
  obtain ⟨row, hrow, hsuccess⟩ := Option.map_eq_some_iff.mp hjob
  have hevery := h readsNothing "job1" oneBroadcast t calls Pipeline.derivedText_total
    (by decide +kernel) hrun
  obtain ⟨u, hfirst, hsecond⟩ := run_cons_eq_some.mp hrun
  obtain ⟨v, hcall, hnil⟩ := run_cons_eq_some.mp hsecond
  cases hnil
  have hsummary := (hevery.2 u hfirst).1 t hcall row hrow
  have heq := hsummary.successItems
  rw [hsuccess, hqueued] at heq
  exact absurd heq (by decide)

end Runs

/-! ## Jobs that are done -/

/-- The inserts of an item work or fail as `works` says, by their number, and
everything else works. -/
def insertsAs (works : String → Nat → Bool) : Pattern :=
  ⟨fun itemId k b => b = works itemId k, True⟩

/-- For outcomes that are written out, the pattern can be evaluated. -/
instance insertsAs.decidable (works : String → Nat → Bool) (s : Database × List String) :
    (c : Call) → (f : Outcome) → Decidable ((insertsAs works).allows s c f)
  | .insertOutbox itemId _ _ _, _ => inferInstanceAs (Decidable (_ = works itemId _))
  | .ensureProject _ _ _, f | .upsertDeliveryTarget _, f | .upsertBinding _ _ _, f
  | .markJobRunning _, f | .fetchPendingItems _ _, f | .resolveBroadcastTargets _, f
  | .activeTargetIds _, f | .markItem _ _ _ _, f | .writeAudit _ _ _, f
  | .finalizeJob _ _ _ _, f => inferInstanceAs (Decidable (True → f.fault = none))

section Done

variable (serde : Serde) (works : String → Nat → Bool) (db : Database)

/-- Which of the inserts for the targets of an item work. -/
def attempts (item : PendingItem) : List Bool :=
  (List.range (resolvedTargets serde db item).length).map (works item.itemId)

/-- Some targets can be enqueued, and some cannot. -/
def Mixed (item : PendingItem) : Prop :=
  true ∈ attempts serde works db item ∧ false ∈ attempts serde works db item

/-- No target can be enqueued. -/
def FailsWhole (item : PendingItem) : Prop := true ∉ attempts serde works db item

/-- If the job is done, every pending item has got a row for each target that
it is resolved to, and an item that got rows for only some of them has made the
job partial. -/
structure DoneMeansEnqueued (jobId : String) (t : Database) : Prop where
  done : (t.jobs.find? jobId).map PushJobRow.status = some .done →
    ∃ rows : List (List OutboxEntry), t.outbox.rows = db.outbox.rows ++ rows.flatten ∧
      List.Forall₂ (fun item itemRows =>
        List.Forall₂ (IsRowFor serde item.messageText) (resolvedTargets serde db item) itemRows)
        (pendingItems db jobId) rows
  mixed : (∃ item ∈ pendingItems db jobId, Mixed serde works db item) →
    (t.jobs.find? jobId).map PushJobRow.status = some .partly

end Done

section Failures

variable {serde : Serde} {works : String → Nat → Bool} {db : Database} {jobId : String}

/-- The inserts of an item that is reported are those of the pattern. -/
theorem Report.Right.worked_eq {report : Report} (h : report.Right serde db (insertsAs works)) :
    report.worked = attempts serde works db report.item := by
  unfold attempts
  rw [← h.resolved trivial]
  apply List.ext_getElem
  · rw [List.length_map, List.length_range, h.length]
  · intro k hk hk'
    rw [List.getElem_map, List.getElem_range]
    exact h.inserts k hk

theorem countReports_eq_zero_iff {reports : List Report} {status : ItemStatus} :
    countReports reports status = 0 ↔ ∀ report ∈ reports, report.status ≠ status := by
  unfold countReports
  rw [List.countP_eq_zero]
  simp

section Reported

variable {reports : List Report} {t : Database}
  (h : Reported serde (insertsAs works) db jobId reports t)

include h

theorem Reported.mem_pendingItems {item : PendingItem} :
    item ∈ pendingItems db jobId ↔ ∃ report ∈ reports, report.item = item := by
  rw [← h.items.ordered, List.mem_map]

theorem Reported.worked_eq {report : Report} (hreport : report ∈ reports) :
    report.worked = attempts serde works db report.item :=
  (h.items.right report hreport).worked_eq

/-- An item is queued when a target of it could be enqueued. -/
theorem Reported.queued_iff {report : Report} (hreport : report ∈ reports) :
    report.status = .queued ↔ true ∈ attempts serde works db report.item := by
  rw [← h.worked_eq hreport]
  unfold Report.status
  split <;> simp_all

theorem Reported.noneFailed_iff : countReports reports .failed = 0 ↔
    ∀ item ∈ pendingItems db jobId, ¬ FailsWhole serde works db item := by
  rw [countReports_eq_zero_iff]
  constructor
  · intro hnone item hitem hfails
    obtain ⟨report, hreport, rfl⟩ := h.mem_pendingItems.mp hitem
    have hqueued := report.status_cases.resolve_right (hnone report hreport)
    exact hfails ((h.queued_iff hreport).mp hqueued)
  · intro hnone report hreport heq
    refine hnone report.item (h.mem_pendingItems.mpr ⟨report, hreport, rfl⟩) fun hmem => ?_
    have hqueued := (h.queued_iff hreport).mpr hmem
    rw [heq] at hqueued
    cases hqueued

theorem Reported.queued_of_mixed {item : PendingItem} (hitem : item ∈ pendingItems db jobId)
    (hmixed : Mixed serde works db item) : countReports reports .queued ≠ 0 := by
  intro hnone
  obtain ⟨report, hreport, rfl⟩ := h.mem_pendingItems.mp hitem
  exact countReports_eq_zero_iff.mp hnone report hreport ((h.queued_iff hreport).mpr hmixed.1)

/-- Where no item fails as a whole and none is mixed, there is a row for each
target. -/
theorem Reported.rows (hnone : ∀ item ∈ pendingItems db jobId, ¬ FailsWhole serde works db item)
    (hunmixed : ∀ item ∈ pendingItems db jobId, ¬ Mixed serde works db item) :
    ∃ rows : List (List OutboxEntry), t.outbox.rows = db.outbox.rows ++ rows.flatten ∧
      List.Forall₂ (fun item itemRows =>
        List.Forall₂ (IsRowFor serde item.messageText) (resolvedTargets serde db item) itemRows)
        (pendingItems db jobId) rows := by
  refine h.forall₂ fun report hreport => ?_
  have hitem : report.item ∈ pendingItems db jobId := h.mem_pendingItems.mpr ⟨report, hreport, rfl⟩
  have hright := h.items.right report hreport
  have htrue : true ∈ attempts serde works db report.item := not_not.mp (hnone report.item hitem)
  have hall : false ∉ report.worked := by
    rw [h.worked_eq hreport]
    exact fun hfalse => hunmixed report.item hitem ⟨htrue, hfalse⟩
  have hrows := hright.rows
  rw [taken_of_all hright.length hall, hright.resolved trivial] at hrows
  exact hrows

end Reported

/-- Where only inserts fail, a job that is done has all rows and a mixed item
makes it partial, exactly when no item is mixed, or another one fails as a
whole. -/
theorem doneMeansEnqueued_iff (hserde : serde.Total) (hjob : (db.jobs.find? jobId).isSome)
    {run : Nat} {fs : Nat → Outcome}
    (h : Along handleTried (insertsAs works).allows (runPushJob serde run jobId) fs (db, [])) :
    DoneMeansEnqueued serde works db jobId ((runPushJob serde run jobId).play handle fs db).2 ↔
      ((∃ item ∈ pendingItems db jobId, Mixed serde works db item) →
        ∃ item ∈ pendingItems db jobId, FailsWhole serde works db item) := by
  obtain ⟨hsafe, hreported⟩ := reported_of_along hserde run h
  obtain ⟨summary, hresult⟩ := hsafe trivial
  obtain ⟨reports, hreported⟩ := hreported summary hresult
  obtain ⟨row, hrow, hfinished⟩ := hreported.job hjob
  have hjobStatus := hfinished.status
  constructor
  · intro hdone hmixed
    have hpartly := hdone.mixed hmixed
    rw [hrow, Option.map_some, Option.some.injEq, hjobStatus] at hpartly
    by_contra hnone
    push Not at hnone
    rw [if_pos (hreported.noneFailed_iff.mpr hnone)] at hpartly
    cases hpartly
  · intro hcondition
    constructor
    · intro hdone
      rw [hrow, Option.map_some, Option.some.injEq, hjobStatus] at hdone
      have hzero : countReports reports .failed = 0 := by
        by_contra hne
        rw [if_neg hne] at hdone
        split at hdone <;> cases hdone
      have hnone := hreported.noneFailed_iff.mp hzero
      refine hreported.rows hnone fun item hitem hmixed => ?_
      obtain ⟨other, hother, hfails⟩ := hcondition ⟨item, hitem, hmixed⟩
      exact hnone other hother hfails
    · intro hmixed
      obtain ⟨item, hitem, hboth⟩ := hmixed
      obtain ⟨other, hother, hfails⟩ := hcondition ⟨item, hitem, hboth⟩
      have hfailed : countReports reports .failed ≠ 0 := fun hzero =>
        hreported.noneFailed_iff.mp hzero other hother hfails
      have hqueued := hreported.queued_of_mixed hitem hboth
      rw [hrow, Option.map_some, hjobStatus, if_neg hfailed, if_neg hqueued]

/-- Beside the broadcast there is a second one to the same targets. -/
def twoBroadcasts : Database :=
  { twoTargets with
    items := ⟨[⟨"item1", "job1", "proj-a", "hello", "broadcast", none, .pending, none, 1700000000,
        1700000000⟩,
      ⟨"item2", "job1", "proj-a", "goodbye", "broadcast", none, .pending, none, 1700000000,
        1700000000⟩], by decide +kernel⟩ }

/-- Of the inserts only the first one works. -/
def onlyFirst (itemId : String) (k : Nat) : Bool := itemId = "item1" && k = 0

/-- The inserts are the calls 3 and 4 for the first item, and 8 and 9 for the
second one. -/
def lockedThrice (n : Nat) : Outcome :=
  if n = 4 ∨ n = 8 ∨ n = 9 then ⟨some "database is locked", 1700000000, ""⟩ else drawing n

/-- One item is mixed, and another one fails as a whole: the job is partial. -/
theorem twoBroadcasts_doneMeansEnqueued :
    DoneMeansEnqueued readsNothing onlyFirst twoBroadcasts "job1"
      ((runPushJob readsNothing 0 "job1").play handle lockedThrice twoBroadcasts).2 := by
  refine (doneMeansEnqueued_iff Pipeline.derivedText_total (by decide +kernel)
    (by decide +kernel)).mpr fun _ => ?_
  refine ⟨⟨"item2", "proj-a", "goodbye", "broadcast", none⟩, by decide +kernel, ?_⟩
  unfold FailsWhole
  decide +kernel

/-- The fifth call, which is the insert for the second target, fails. -/
def lockedOnce (n : Nat) : Outcome :=
  if n = 4 then ⟨some "database is locked", 1700000000, ""⟩ else drawing n

/-- One of two inserts fails, and the job is done. -/
theorem not_everyDoneMeansEnqueued :
    ¬ ∀ (serde : Serde) (works : String → Nat → Bool) (db : Database) (run : Nat) (jobId : String)
      (fs : Nat → Outcome), serde.Total → (db.jobs.find? jobId).isSome →
        Along handleTried (insertsAs works).allows (runPushJob serde run jobId) fs (db, []) →
          DoneMeansEnqueued serde works db jobId
            ((runPushJob serde run jobId).play handle fs db).2 := by
  intro h
  have hdone := h readsNothing (fun _ k => k = 0) twoTargets 0 "job1" lockedOnce
    Pipeline.derivedText_total (by decide +kernel) (by decide +kernel)
  have hitem : (⟨"item1", "proj-a", "hello", "broadcast", none⟩ : PendingItem) ∈
      pendingItems twoTargets "job1" := by decide +kernel
  have hmixed : Mixed readsNothing (fun _ k => decide (k = 0)) twoTargets
      ⟨"item1", "proj-a", "hello", "broadcast", none⟩ := by
    unfold Mixed
    decide +kernel
  have hpartly := hdone.mixed ⟨_, hitem, hmixed⟩
  have hstatus : (((runPushJob readsNothing 0 "job1").play handle lockedOnce twoTargets).2.jobs.find?
      "job1").map PushJobRow.status = some .done := by decide +kernel
  rw [hstatus] at hpartly
  cases hpartly

end Failures

end MagicLaw.Push
