import Mathlib.Data.List.Nodup
import Mathlib.Data.List.Perm.Basic
import MagicLaw.Lib.Machine

/-!
# The books of the task supervisor

`TaskSupervisor` of `infrastructure/task_supervisor.rs`: tasks are spawned
into a `JoinSet`, they end or panic, and `poll_status` joins those that are
over.  A move of the machine is one of these.

The comments of the code say that `spawn` records the id and the name of the
task, so that its end, or its failure, can be attributed to the name.  It
records nothing.  So `running_names` is empty throughout, and a panic is
reported as `<unknown>`.

* `supervision_kept_iff`: in every state that is reached, `running_names` is
  right exactly when no task is in the `JoinSet`, and the reports are right
  exactly when every task whose panic was reported is called `<unknown>`.
  Every state of a run is right exactly when the run spawns nothing.

The `JoinSet` of `tokio` gives a task out once, after it is over, in the order
in which they ended.  A task that ends while `poll_status` drains the set is
like one that ended before.
-/

namespace MagicLaw.Runtime

open Lib.Machine

/-! ## The supervisor -/

/-- A task has an `Id`, and its future returns the name. -/
structure Task where
  id : Nat
  name : String
  deriving DecidableEq

/-- `detail` is the text of the `JoinError`. -/
inductive Outcome where
  | completed
  | panicked (detail : String)
  deriving DecidableEq

/-- What `try_join_next` returns for a task that is over. -/
def joinResult (task : Task) : Outcome → Except String String
  | .completed => .ok task.name
  | .panicked detail => .error detail

/-- The tasks that are `notified` are over, and wait to be joined. -/
structure JoinSet where
  idle : List Task
  notified : List (Task × Outcome)
  deriving DecidableEq

def JoinSet.tasks (set : JoinSet) : List Task := set.idle ++ set.notified.map Prod.fst

inductive TaskState where
  | running
  | completed
  | failed (detail : String)
  deriving DecidableEq

structure TaskStatus where
  name : String
  state : TaskState
  deriving DecidableEq

structure TaskSupervisor where
  set : JoinSet
  running : List (Nat × String)
  lastStatuses : List TaskStatus
  deriving DecidableEq

def TaskSupervisor.new : TaskSupervisor where
  set := ⟨[], []⟩
  running := []
  lastStatuses := []

def TaskSupervisor.spawn (s : TaskSupervisor) (task : Task) : TaskSupervisor :=
  { s with set := { s.set with idle := s.set.idle ++ [task] } }

/-- The loop of `poll_status`, over what the `JoinSet` gives. -/
def drain : List (Except String String) → List (Nat × String) → List TaskStatus →
    List (Nat × String) × List TaskStatus
  | [], running, out => (running, out)
  | .ok name :: rest, running, out =>
    drain rest (running.filter fun (_, v) => v != name) (out ++ [⟨name, .completed⟩])
  | .error detail :: rest, running, out =>
    -- the code does not have the name here
    drain rest running (out ++ [⟨"<unknown>", .failed detail⟩])

def TaskSupervisor.pollStatus (s : TaskSupervisor) : List TaskStatus × TaskSupervisor :=
  let (running, out) := drain (s.set.notified.map fun (task, o) => joinResult task o) s.running []
  let last := s.lastStatuses ++ out
  (out,
    { set := { s.set with notified := [] }
      running := running
      lastStatuses := last.drop (last.length - 256) })

def TaskSupervisor.runningNames (s : TaskSupervisor) : List String := s.running.map Prod.snd

def TaskSupervisor.activeCount (s : TaskSupervisor) : Nat := s.set.tasks.length

/-! ## Its history -/

/-- One of the statuses that `poll_status` has returned, and the task that was
joined for it. -/
structure Report where
  task : Task
  outcome : Outcome
  status : TaskStatus
  deriving DecidableEq

/-- A supervisor, and what has happened to it. -/
structure Supervision where
  supervisor : TaskSupervisor
  spawned : List Task
  reports : List Report
  deriving DecidableEq

def Supervision.new : Supervision := ⟨.new, [], []⟩

inductive Move where
  | spawn (name : String)
  /-- a task of the `JoinSet` is over -/
  | finish (n : Nat) (outcome : Outcome)
  | pollStatus
  deriving DecidableEq

def Move.isSpawn : Move → Bool
  | .spawn _ => true
  | .finish _ _ | .pollStatus => false

/-- A new task has a new `Id`. -/
def Supervision.spawn (w : Supervision) (name : String) : Supervision :=
  { w with
    supervisor := w.supervisor.spawn ⟨w.spawned.length, name⟩
    spawned := w.spawned ++ [⟨w.spawned.length, name⟩] }

def Supervision.finish (w : Supervision) (n : Nat) (outcome : Outcome) : Option Supervision :=
  w.supervisor.set.idle[n]?.map fun task =>
    { w with supervisor := { w.supervisor with set :=
      { idle := w.supervisor.set.idle.eraseIdx n
        notified := w.supervisor.set.notified ++ [(task, outcome)] } } }

def Supervision.pollStatus (w : Supervision) : Supervision :=
  let (out, supervisor) := w.supervisor.pollStatus
  { w with
    supervisor := supervisor
    reports := w.reports ++
      w.supervisor.set.notified.zipWith (fun (task, o) status => ⟨task, o, status⟩) out }

def Supervision.step (w : Supervision) : Move → Option Supervision
  | .spawn name => some (w.spawn name)
  | .finish n outcome => w.finish n outcome
  | .pollStatus => some w.pollStatus

/-- The tasks that `poll_status` has reported. -/
def Supervision.reported (w : Supervision) : List Task := w.reports.map Report.task

def Supervision.unreported (w : Supervision) : List Task :=
  w.spawned.filter fun task => task ∉ w.reported

/-- `running_names` has the names of the tasks that are not reported yet, each
as often as it is the name of one of them. -/
def Supervision.RunningNames (w : Supervision) : Prop :=
  w.supervisor.runningNames.Perm (w.unreported.map Task.name)

/-- A task is reported once, by the first `poll_status` after its end, under
its own name. -/
structure Supervision.Reported (w : Supervision) : Prop where
  once : ∀ task ∈ w.spawned,
    w.reported.count task = if task ∈ w.supervisor.set.tasks then 0 else 1
  polled : ∀ task ∈ w.spawned, task ∉ w.supervisor.set.idle → w.pollStatus.reported.count task = 1
  ownName : ∀ report ∈ w.reports, report.status.name = report.task.name

/-- Of the tasks that were reported, those that did not complete are called
what `poll_status` calls them. -/
def Supervision.PanicsUnknown (w : Supervision) : Prop :=
  ∀ report ∈ w.reports, report.outcome ≠ .completed → report.task.name = "<unknown>"

/-! ## What is reported -/

/-- What `poll_status` makes of a task that it joins. -/
def joinStatus : Except String String → TaskStatus
  | .ok name => ⟨name, .completed⟩
  | .error detail => ⟨"<unknown>", .failed detail⟩

/-- A map of the running tasks that is empty stays so. -/
theorem drain_empty (results : List (Except String String)) (out : List TaskStatus) :
    drain results [] out = ([], out ++ results.map joinStatus) := by
  induction results generalizing out with
  | nil => simp [drain]
  | cons result rest ih =>
    cases result with
    | ok name => simp [drain, ih, joinStatus]
    | error detail => simp [drain, ih, joinStatus]

/-- The report of a task that was joined. -/
def reportOf (j : Task × Outcome) : Report :=
  ⟨j.1, j.2, joinStatus (joinResult j.1 j.2)⟩

/-- The name is lost with a panic. -/
theorem ownName_reportOf_iff (j : Task × Outcome) :
    (reportOf j).status.name = j.1.name ↔ (j.2 ≠ .completed → j.1.name = "<unknown>") := by
  obtain ⟨task, outcome⟩ := j
  cases outcome with
  | completed => exact iff_of_true rfl fun h => absurd rfl h
  | panicked detail =>
    show "<unknown>" = task.name ↔ _
    rw [eq_comm, imp_iff_right (by simp)]

/-! ## The books -/

/-- Each task that was spawned is in one place: it runs, it waits to be
joined, or it was reported.  Nothing is registered. -/
structure Supervision.Accounted (w : Supervision) : Prop where
  unregistered : w.supervisor.running = []
  numbered : w.spawned.map Task.id = List.range w.spawned.length
  held : w.spawned.Perm (w.supervisor.set.tasks ++ w.reported)
  joined : ∀ report ∈ w.reports, report = reportOf (report.task, report.outcome)

theorem accounted_new : Supervision.new.Accounted where
  unregistered := rfl
  numbered := rfl
  held := .nil
  joined := nofun

theorem Supervision.Accounted.spawn {w : Supervision} (h : w.Accounted) (name : String) :
    (w.spawn name).Accounted where
  unregistered := h.unregistered
  numbered := by
    show (w.spawned ++ [Task.mk w.spawned.length name]).map Task.id =
      List.range (w.spawned ++ [Task.mk w.spawned.length name]).length
    rw [List.map_append, h.numbered, List.length_append, List.length_singleton, List.range_succ]
    rfl
  held := by
    -- the new task comes to the front on both sides
    have hfront := List.perm_append_singleton (Task.mk w.spawned.length name) w.spawned
    refine (hfront.trans (h.held.cons _)).trans ?_
    show List.Perm (_ :: (w.supervisor.set.tasks ++ w.reported))
      (((w.supervisor.set.idle ++ [_]) ++ w.supervisor.set.notified.map Prod.fst) ++ w.reported)
    rw [JoinSet.tasks, List.append_assoc, List.append_assoc, List.append_assoc]
    exact List.perm_middle.symm
  joined := h.joined

theorem Supervision.Accounted.finish {w w' : Supervision} {n : Nat} {outcome : Outcome}
    (h : w.Accounted) (hfinish : w.finish n outcome = some w') : w'.Accounted := by
  obtain ⟨task, hget, rfl⟩ := Option.map_eq_some_iff.mp hfinish
  obtain ⟨hn, rfl⟩ := List.getElem?_eq_some_iff.mp hget
  constructor
  · exact h.unregistered
  · exact h.numbered
  · refine h.held.trans (List.Perm.append_right _ ?_)
    show List.Perm (w.supervisor.set.idle ++ w.supervisor.set.notified.map Prod.fst)
      (w.supervisor.set.idle.eraseIdx n ++ (w.supervisor.set.notified ++ [_]).map Prod.fst)
    have hidle := (List.getElem_cons_eraseIdx_perm hn).symm
    refine (hidle.append_right _).trans ?_
    rw [List.map_append, ← List.append_assoc]
    exact (List.perm_append_singleton _ _).symm
  · exact h.joined

/-- What a `poll_status` reports, where nothing is registered. -/
theorem reports_pollStatus {w : Supervision} (h : w.supervisor.running = []) :
    w.pollStatus.reports = w.reports ++ w.supervisor.set.notified.map reportOf := by
  show w.reports ++ List.zipWith _ w.supervisor.set.notified w.supervisor.pollStatus.1 = _
  unfold TaskSupervisor.pollStatus
  rw [h, drain_empty, List.nil_append, List.map_map, List.zipWith_map_right, List.zipWith_self]
  rfl

theorem running_pollStatus {w : Supervision} (h : w.supervisor.running = []) :
    w.pollStatus.supervisor.running = [] := by
  show (drain _ w.supervisor.running []).1 = []
  rw [h, drain_empty]

theorem Supervision.Accounted.pollStatus {w : Supervision} (h : w.Accounted) :
    w.pollStatus.Accounted where
  unregistered := running_pollStatus h.unregistered
  numbered := h.numbered
  held := by
    refine h.held.trans ?_
    show List.Perm _ ((w.supervisor.set.idle ++ []) ++ w.pollStatus.reports.map Report.task)
    have htasks : (w.supervisor.set.notified.map reportOf).map Report.task =
        w.supervisor.set.notified.map Prod.fst := List.map_map
    rw [reports_pollStatus h.unregistered, List.map_append, htasks, JoinSet.tasks, List.append_nil,
      List.append_assoc]
    exact List.perm_append_comm.append_left _
  joined report hreport := by
    rw [reports_pollStatus h.unregistered, List.mem_append] at hreport
    cases hreport with
    | inl hold => exact h.joined report hold
    | inr hnew =>
      obtain ⟨j, -, rfl⟩ := List.mem_map.mp hnew
      rfl

theorem accounted_step (w : Supervision) (m : Move) (w' : Supervision) (h : w.Accounted)
    (hstep : w.step m = some w') : w'.Accounted := by
  cases m with
  | spawn name =>
    cases hstep
    exact h.spawn name
  | finish n outcome => exact h.finish hstep
  | pollStatus =>
    cases hstep
    exact h.pollStatus

theorem accounted_run {moves : List Move} {w : Supervision}
    (hrun : run Supervision.step .new moves = some w) : w.Accounted :=
  run_invariant accounted_step accounted_new hrun

/-! ## Which reports are right -/

theorem Supervision.Accounted.nodup {w : Supervision} (h : w.Accounted) : w.spawned.Nodup := by
  have hids : (w.spawned.map Task.id).Nodup := h.numbered ▸ List.nodup_range
  exact hids.of_map Task.id

/-- What is not reported is in the `JoinSet`. -/
theorem Supervision.Accounted.unreported_perm {w : Supervision} (h : w.Accounted) :
    w.unreported.Perm w.supervisor.set.tasks := by
  have hnodup := List.nodup_append.mp (h.held.nodup_iff.mp h.nodup)
  have htasks : w.supervisor.set.tasks.filter (fun task => task ∉ w.reported) =
      w.supervisor.set.tasks :=
    List.filter_eq_self.mpr fun task htask =>
      decide_eq_true fun hreported => hnodup.2.2 task htask task hreported rfl
  have hreported : w.reported.filter (fun task => task ∉ w.reported) = [] :=
    List.filter_eq_nil_iff.mpr fun task htask => by simp [htask]
  have hfilter := h.held.filter fun task => task ∉ w.reported
  rw [List.filter_append, htasks, hreported, List.append_nil] at hfilter
  exact hfilter

/-- `running_names` is empty, so nothing may run. -/
theorem Supervision.Accounted.runningNames_iff {w : Supervision} (h : w.Accounted) :
    w.RunningNames ↔ w.supervisor.activeCount = 0 := by
  have hempty : w.supervisor.runningNames = [] := congrArg (List.map Prod.snd) h.unregistered
  rw [RunningNames, hempty, List.nil_perm, List.map_eq_nil_iff, ← List.length_eq_zero_iff,
    h.unreported_perm.length_eq]
  rfl

/-- A task is in one of the places, once. -/
theorem Supervision.Accounted.count_reported {w : Supervision} (h : w.Accounted) {task : Task}
    (htask : task ∈ w.spawned) :
    w.reported.count task = if task ∈ w.supervisor.set.tasks then 0 else 1 := by
  have hone := List.count_eq_one_of_mem h.nodup htask
  rw [h.held.count_eq, List.count_append] at hone
  by_cases hin : task ∈ w.supervisor.set.tasks
  · have hpos := List.count_pos_iff.mpr hin
    rw [if_pos hin]
    omega
  · rw [if_neg hin]
    rw [List.count_eq_zero.mpr hin] at hone
    omega

/-- The next `poll_status` has reported what is over. -/
theorem Supervision.Accounted.count_polled {w : Supervision} (h : w.Accounted) {task : Task}
    (htask : task ∈ w.spawned) (hover : task ∉ w.supervisor.set.idle) :
    w.pollStatus.reported.count task = 1 := by
  have hcount := h.pollStatus.count_reported htask
  have htasks : w.pollStatus.supervisor.set.tasks = w.supervisor.set.idle := List.append_nil _
  rwa [htasks, if_neg hover] at hcount

theorem Supervision.Accounted.reported_iff {w : Supervision} (h : w.Accounted) :
    w.Reported ↔ w.PanicsUnknown := by
  have hname : ∀ report ∈ w.reports, (report.status.name = report.task.name ↔
      (report.outcome ≠ .completed → report.task.name = "<unknown>")) := fun report hreport => by
    have hown := ownName_reportOf_iff (report.task, report.outcome)
    rwa [← h.joined report hreport] at hown
  constructor
  · intro hreported report hreport
    exact (hname report hreport).mp (hreported.ownName report hreport)
  · intro hunknown
    refine ⟨fun task => h.count_reported, fun task => h.count_polled, fun report hreport => ?_⟩
    exact (hname report hreport).mpr (hunknown report hreport)

/-! ## Whole runs -/

/-- Nothing was spawned. -/
structure Supervision.Unused (w : Supervision) : Prop where
  accounted : w.Accounted
  spawned : w.spawned = []

/-- Where nothing was spawned, everything is in order. -/
theorem Supervision.Unused.kept {w : Supervision} (h : w.Unused) :
    w.RunningNames ∧ w.Reported := by
  have hheld := h.accounted.held
  rw [h.spawned, List.nil_perm, List.append_eq_nil_iff] at hheld
  refine ⟨h.accounted.runningNames_iff.mpr ?_, h.accounted.reported_iff.mpr ?_⟩
  · show w.supervisor.set.tasks.length = 0
    rw [hheld.1, List.length_nil]
  · intro report hreport
    rw [List.map_eq_nil_iff.mp hheld.2] at hreport
    cases hreport

theorem Supervision.Unused.step {w w' : Supervision} {m : Move} (h : w.Unused)
    (hm : m.isSpawn = false) (hstep : w.step m = some w') : w'.Unused where
  accounted := accounted_step w m w' h.accounted hstep
  spawned := by
    cases m with
    | spawn name => cases hm
    | finish n outcome =>
      obtain ⟨task, -, rfl⟩ := Option.map_eq_some_iff.mp hstep
      exact h.spawned
    | pollStatus =>
      cases hstep
      exact h.spawned

/-- A task that was just spawned is not among the names. -/
theorem not_runningNames_spawn {w : Supervision} (h : w.Accounted) (name : String) :
    ¬ (w.spawn name).RunningNames := by
  rw [(h.spawn name).runningNames_iff]
  show ((w.supervisor.set.idle ++ [_]) ++ _).length ≠ 0
  simp

theorem everyState_iff_no_spawn {moves : List Move} {w : Supervision}
    (hrun : run Supervision.step .new moves = some w) :
    EveryState Supervision.step (fun w => w.RunningNames ∧ w.Reported) .new moves ↔
      ∀ m ∈ moves, m.isSpawn = false := by
  rw [← everyStep_iff_forall_mem hrun]
  have hkept : ∀ v : Supervision, v.Unused → v.RunningNames ∧ v.Reported := fun v hv => hv.kept
  refine everyState_iff_everyStep (Q := fun _ _ => True) hkept
    (fun v m v' hv _ hm hstep => hv.step hm hstep) ?_
    ⟨accounted_new, rfl⟩ (everyStep_of_forall (fun _ _ => trivial) _ _) hrun
  intro v m v' hv _ hstep hgood
  cases m with
  | spawn name =>
    cases hstep
    exact absurd hgood.1 (not_runningNames_spawn hv.accounted name)
  | finish n outcome => rfl
  | pollStatus => rfl

/-- In the state that a run ends in, the names are right exactly when no task
is in the `JoinSet`, and the reports are right exactly when the panics that
were reported are of tasks called `<unknown>`.  Every state of the run is right
exactly when nothing is spawned. -/
theorem supervision_kept_iff {moves : List Move} {w : Supervision}
    (hrun : run Supervision.step .new moves = some w) :
    (w.RunningNames ↔ w.supervisor.activeCount = 0) ∧
      (w.Reported ↔ w.PanicsUnknown) ∧
      (EveryState Supervision.step (fun w => w.RunningNames ∧ w.Reported) .new moves ↔
        ∀ m ∈ moves, m.isSpawn = false) := by
  have haccounted := accounted_run hrun
  exact ⟨haccounted.runningNames_iff, haccounted.reported_iff, everyState_iff_no_spawn hrun⟩

/-- The outbox worker is spawned and completes, and is reported. -/
def oneTask : List Move := [.spawn "outbox_worker", .finish 0 .completed, .pollStatus]

theorem supervision_kept_one_task :
    ∃ w, run Supervision.step .new oneTask = some w ∧ w.RunningNames ∧ w.Reported ∧
      w.reports.map Report.status = [⟨"outbox_worker", .completed⟩] ∧
      ¬ EveryState Supervision.step (fun w => w.RunningNames ∧ w.Reported) .new oneTask := by
  obtain ⟨w, hrun, hcount, hreports, hstatus⟩ : ∃ w, run Supervision.step .new oneTask = some w ∧
      w.supervisor.activeCount = 0 ∧ (∀ report ∈ w.reports, report.outcome = .completed) ∧
      w.reports.map Report.status = [⟨"outbox_worker", .completed⟩] := ⟨_, rfl, by decide⟩
  have h := supervision_kept_iff hrun
  refine ⟨w, hrun, h.1.mpr hcount, h.2.1.mpr ?_, hstatus, fun hevery => ?_⟩
  · exact fun report hreport hpanicked => absurd (hreports report hreport) hpanicked
  · exact absurd (h.2.2.mp hevery (.spawn "outbox_worker") (by decide)) (by decide)

/-- The outbox worker panics, and `poll_status` does not say that it was the
outbox worker.  The HTTP server runs, and `running_names` does not have it. -/
theorem panic_reported_unknown :
    ∃ w, run Supervision.step .new
        [.spawn "outbox_worker", .spawn "http_api", .finish 0 (.panicked "task 1 panicked"),
          .pollStatus] = some w ∧
      w.unreported.map Task.name = ["http_api"] ∧ w.supervisor.runningNames = [] ∧
      w.reports.map Report.task = [⟨0, "outbox_worker"⟩] ∧
      w.reports.map Report.status = [⟨"<unknown>", .failed "task 1 panicked"⟩] ∧
      ¬ w.RunningNames ∧ ¬ w.Reported := by
  refine ⟨_, rfl, by decide, by decide, by decide, by decide, fun hnames => ?_, fun hreported => ?_⟩
  · exact absurd hnames.length_eq (by decide)
  · have hown := hreported.ownName ⟨⟨0, "outbox_worker"⟩, .panicked "task 1 panicked",
      ⟨"<unknown>", .failed "task 1 panicked"⟩⟩ (by decide)
    exact absurd hown (by decide)

end MagicLaw.Runtime
