import MagicLaw.Routing.Store

/-!
# Serial processing of a route

The messages of one route are processed one after the other as long as no two
workers of the route hold messages.  A worker that holds none can still be
given some, by the map or by a call that has a sender of its channel.  So the
invariant is about the workers that are *attached*: they run, and hold
messages or have a sender.

* `attached_of_step`: a step attaches no worker, except the one it spawns.
* `routes_serial`: in every run that spawns a worker only when no other of its
  route is attached, the routes are served serially.
* `not_storeIsSerial`: `collect_idle` can remove the handle of a worker that
  has messages, and the next message of the route spawns a second one.
-/

namespace MagicLaw.Routing

open Lib Lib.Machine

/-! ## Who holds the messages of a route -/

/-- The task is in `pipeline.run`. -/
def Task.isRunning : Task → Bool
  | .running _ _ _ => true
  | .waiting _ | .batch _ _ | .exited | .panicked => false

/-- The worker holds or processes messages. -/
def Worker.busy (worker : Worker) : Bool :=
  worker.alive && (!worker.isEmpty || worker.task.isRunning)

/-- Worker `j` is one of the route, and holds or processes messages. -/
def Store.occupied (s : Store) (key : RouteKey) (j : Nat) : Bool :=
  (s.workers[j]?).any fun worker => worker.routeKey = key && worker.busy

/-- Worker `j` has a message of the route in `pipeline.run`. -/
def Store.inPipeline (s : Store) (key : RouteKey) (j : Nat) : Bool :=
  (s.workers[j]?).any fun worker => worker.routeKey = key && worker.task.isRunning

/-- Each route is served by one worker at a time. -/
structure Serial (s : Store) : Prop where
  worker : ∀ (key : RouteKey) (i j : Nat), s.occupied key i = true → s.occupied key j = true →
    i = j
  pipeline : ∀ (key : RouteKey) (i j : Nat), s.inPipeline key i = true →
    s.inPipeline key j = true → i = j

/-- Worker `j` is one of the route, runs, and holds messages or may be given some. -/
def Store.attached (s : Store) (key : RouteKey) (j : Nat) : Bool :=
  (s.workers[j]?).any fun worker =>
    worker.routeKey = key && worker.alive && (worker.busy || s.hasSender j)

/-- At most one worker of each route is attached. -/
def OneAttached (s : Store) : Prop :=
  ∀ (key : RouteKey) (i j : Nat), s.attached key i = true → s.attached key j = true → i = j

theorem attached_iff {s : Store} {key : RouteKey} {j : Nat} :
    s.attached key j = true ↔ ∃ worker, s.workers[j]? = some worker ∧ worker.routeKey = key ∧
      worker.alive = true ∧ (worker.busy = true ∨ s.hasSender j = true) := by
  unfold Store.attached
  cases hworker : s.workers[j]? with
  | none => simp
  | some worker => simp [and_assoc]

theorem attached_of_occupied {s : Store} {key : RouteKey} {j : Nat}
    (h : s.occupied key j = true) : s.attached key j = true := by
  unfold Store.occupied at h
  cases hworker : s.workers[j]? with
  | none => simp [hworker] at h
  | some worker =>
    simp only [hworker, Option.any_some, Bool.and_eq_true, decide_eq_true_eq] at h
    have halive : worker.alive = true := (Bool.and_eq_true_iff.mp h.2).1
    exact attached_iff.mpr ⟨worker, hworker, h.1, halive, Or.inl h.2⟩

/-- A worker whose task is in `pipeline.run` processes a message. -/
theorem occupied_of_inPipeline {s : Store} {key : RouteKey} {j : Nat}
    (h : s.inPipeline key j = true) : s.occupied key j = true := by
  unfold Store.inPipeline at h
  unfold Store.occupied
  cases hworker : s.workers[j]? with
  | none => simp [hworker] at h
  | some worker =>
    simp only [hworker, Option.any_some, Bool.and_eq_true, decide_eq_true_eq] at h ⊢
    refine ⟨h.1, ?_⟩
    unfold Worker.busy Worker.alive
    cases htask : worker.task with
    | running _ _ _ => simp [Task.isRunning]
    | waiting _ | batch _ _ | exited | panicked => simp [htask, Task.isRunning] at h

theorem OneAttached.serial {s : Store} (h : OneAttached s) : Serial s where
  worker key i j hi hj := h key i j (attached_of_occupied hi) (attached_of_occupied hj)
  pipeline key i j hi hj := by
    have hi' := attached_of_occupied (occupied_of_inPipeline hi)
    have hj' := attached_of_occupied (occupied_of_inPipeline hj)
    exact h key i j hi' hj'

theorem oneAttached_init : OneAttached Store.init := by
  intro key i j hi
  exact absurd hi (by simp [Store.attached, Store.init])

/-! ## Senders -/

theorem hasSender_iff {s : Store} {tx : Nat} :
    s.hasSender tx = true ↔
      (∃ key handle, s.routes.find? key = some handle ∧ handle.tx = tx) ∨
        ∃ (i : Nat) (call : EnqueueCall), s.calls[i]? = some call ∧ call.pc.tx? = some tx := by
  unfold Store.hasSender
  rw [Bool.or_eq_true, List.any_eq_true, List.any_eq_true]
  refine or_congr ⟨?_, ?_⟩ ⟨?_, ?_⟩
  · intro ⟨handle, hmem, htx⟩
    exact ⟨handle.key, handle, KeyedTable.find?_eq_some_iff.mpr ⟨hmem, rfl⟩, by simpa using htx⟩
  · intro ⟨key, handle, hfind, htx⟩
    exact ⟨handle, (KeyedTable.find?_eq_some_iff.mp hfind).1, by simpa using htx⟩
  · intro ⟨call, hmem, htx⟩
    obtain ⟨i, hi⟩ := List.mem_iff_getElem?.mp hmem
    exact ⟨i, call, hi, by simpa using htx⟩
  · intro ⟨i, call, hi, htx⟩
    exact ⟨call, List.mem_of_getElem? hi, by simpa using htx⟩

theorem hasSender_of_handle {s : Store} {key : RouteKey} {handle : ConversationHandle}
    (h : s.routes.find? key = some handle) : s.hasSender handle.tx = true :=
  hasSender_iff.mpr (Or.inl ⟨key, handle, h, rfl⟩)

theorem hasSender_of_call {s : Store} {i tx : Nat} {call : EnqueueCall}
    (h : s.calls[i]? = some call) (htx : call.pc.tx? = some tx) : s.hasSender tx = true :=
  hasSender_iff.mpr (Or.inr ⟨i, call, h, htx⟩)

theorem hasSender_setPc {s : Store} {i : Nat} {pc : EnqueuePc} {tx : Nat}
    (h : (s.setPc i pc).hasSender tx = true) : s.hasSender tx = true ∨ pc.tx? = some tx := by
  rcases hasSender_iff.mp h with hhandle | ⟨j, call, hcall, htx⟩
  · exact Or.inl (hasSender_iff.mpr (Or.inl hhandle))
  · rw [getElem?_setPc] at hcall
    obtain ⟨old, hold, rfl⟩ := Option.map_eq_some_iff.mp hcall
    by_cases hj : i = j
    · rw [if_pos hj] at htx
      exact Or.inr htx
    · rw [if_neg hj] at htx
      exact Or.inl (hasSender_of_call hold htx)

theorem hasSender_insertHandle {s : Store} {key : RouteKey} {tx tx' : Nat}
    (h : (s.insertHandle key tx).hasSender tx' = true) : s.hasSender tx' = true ∨ tx' = tx := by
  rcases hasSender_iff.mp h with ⟨key', handle, hfind, htx⟩ | hcall
  · rw [find?_insertHandle] at hfind
    by_cases hk : key' = key
    · rw [if_pos hk, Option.some.injEq] at hfind
      subst hfind
      exact Or.inr htx.symm
    · rw [if_neg hk] at hfind
      exact Or.inl (htx ▸ hasSender_of_handle hfind)
  · exact Or.inl (hasSender_iff.mpr (Or.inr hcall))

theorem hasSender_touchHandle {s : Store} {key : RouteKey} {tx : Nat}
    (h : (s.touchHandle key).hasSender tx = true) : s.hasSender tx = true := by
  rcases hasSender_iff.mp h with ⟨key', handle, hfind, htx⟩ | hcall
  · rw [find?_touchHandle] at hfind
    by_cases hk : key' = key
    · rw [if_pos hk] at hfind
      obtain ⟨old, hold, rfl⟩ := Option.map_eq_some_iff.mp hfind
      have htx : old.tx = tx := htx
      exact htx ▸ hasSender_of_handle hold
    · rw [if_neg hk] at hfind
      exact htx ▸ hasSender_of_handle hfind
  · exact hasSender_iff.mpr (Or.inr hcall)

theorem hasSender_collectIdle {s : Store} {idleTimeoutSecs tx : Nat}
    (h : (s.collectIdle idleTimeoutSecs).hasSender tx = true) : s.hasSender tx = true := by
  rcases hasSender_iff.mp h with ⟨key, handle, hfind, htx⟩ | hcall
  · unfold Store.collectIdle at hfind
    rw [KeyedTable.find?_retain] at hfind
    exact htx ▸ hasSender_of_handle (Option.eq_some_of_filter_eq_some hfind)
  · exact hasSender_iff.mpr (Or.inr hcall)

/-! ## What a step attaches -/

/-- A worker is attached after a step only if it was before. -/
theorem attached_mono {s s' : Store} {key : RouteKey} {j : Nat}
    (h : s'.attached key j = true)
    (hworkers : ∀ (j : Nat) (worker' : Worker), s'.workers[j]? = some worker' →
      ∃ worker, s.workers[j]? = some worker ∧ worker'.routeKey = worker.routeKey ∧
        (worker'.alive = true → worker.alive = true) ∧
        (worker'.busy = true → worker.busy = true ∨ s.hasSender j = true))
    (hsender : ∀ tx, s'.hasSender tx = true → s.hasSender tx = true) : s.attached key j = true := by
  obtain ⟨worker', hworker', hkey, halive, hheld⟩ := attached_iff.mp h
  obtain ⟨worker, hworker, hkey', halive', hbusy⟩ := hworkers j worker' hworker'
  refine attached_iff.mpr ⟨worker, hworker, hkey' ▸ hkey, halive' halive, ?_⟩
  rcases hheld with hb | hs
  · exact hbusy hb
  · exact Or.inr (hsender j hs)

/-- The workers stay as they are. -/
theorem attached_of_workers_eq {s s' : Store} {key : RouteKey} {j : Nat}
    (h : s'.attached key j = true) (hworkers : s'.workers = s.workers)
    (hsender : ∀ tx, s'.hasSender tx = true → s.hasSender tx = true) :
    s.attached key j = true := by
  refine attached_mono h (fun j worker' hworker' => ?_) hsender
  exact ⟨worker', hworkers ▸ hworker', rfl, id, Or.inl⟩

theorem attached_setWorker {s s' : Store} {key : RouteKey} {j : Nat}
    (h : s'.attached key j = true) {w : Nat} {worker worker' : Worker}
    (hworker : s.workers[w]? = some worker) (hworkers : s'.workers = s.workers.set w worker')
    (hsender : ∀ tx, s'.hasSender tx = true → s.hasSender tx = true)
    (hkey : worker'.routeKey = worker.routeKey)
    (hbusy : worker'.busy = true → worker.busy = true)
    (halive : worker'.alive = true → worker.alive = true) : s.attached key j = true := by
  have hlt : w < s.workers.length := (List.getElem?_eq_some_iff.mp hworker).1
  refine attached_mono h (fun j v hv => ?_) hsender
  rw [hworkers] at hv
  by_cases hj : w = j
  · subst hj
    rw [List.getElem?_set_self hlt, Option.some.injEq] at hv
    subst hv
    exact ⟨worker, hworker, hkey, halive, fun hb => Or.inl (hbusy hb)⟩
  · rw [List.getElem?_set_ne hj] at hv
    exact ⟨v, hv, rfl, id, Or.inl⟩

theorem busy_of_queue {worker : Worker} (halive : worker.alive = true) {msg : Message}
    {queue : List Message} (h : worker.queue = msg :: queue) : worker.busy = true := by
  simp [Worker.busy, Worker.isEmpty, halive, h]

/-- Only the drained window and the batch count for a worker that has drained. -/
theorem busy_of_drained {worker : Worker} {since : Nat} (htask : worker.task = .waiting since)
    (h : Worker.busy { worker with
      conversation := worker.conversation.drain.2
      task := .batch worker.conversation.drain.1 false } = true) : worker.busy = true := by
  have halive : worker.alive = true := by simp [Worker.alive, htask]
  by_cases hempty : worker.conversation.reorderWindow.isEmpty = true
  · have hdrained : worker.conversation.drain.1 = [] := ReorderWindow.flushAll_of_isEmpty hempty
    cases hqueue : worker.queue with
    | cons msg queue => exact busy_of_queue halive hqueue
    | nil =>
      have hflushed : worker.conversation.drain.2.reorderWindow.isEmpty = true := rfl
      simp [Worker.busy, Worker.isEmpty, Task.messages, Task.isRunning, hqueue, hdrained,
        hflushed] at h
  · simp [Worker.busy, Worker.isEmpty, halive, hempty]

/-- No step of a worker attaches one. -/
theorem attached_of_workerMove {s s' : Store} {w : Nat} {worker : Worker} {step : WorkerStep}
    (hworker : s.workers[w]? = some worker) (hmove : WorkerMove s w worker step s')
    {key : RouteKey} {j : Nat} (h : s'.attached key j = true) : s.attached key j = true := by
  cases hmove with
  | recv nowMs since msg queue htask hqueue =>
    have halive : worker.alive = true := by simp [Worker.alive, htask]
    exact attached_setWorker h hworker rfl (fun _ hs => hs) rfl
      (fun _ => busy_of_queue halive hqueue) (fun _ => halive)
  | close since htask =>
    refine attached_setWorker h hworker rfl (fun _ hs => hs) rfl (fun hb => ?_) (fun ha => ?_)
    · exact absurd hb (by simp [Worker.busy, Worker.alive])
    · exact absurd ha (by simp [Worker.alive])
  | flush since htask =>
    have halive : worker.alive = true := by simp [Worker.alive, htask]
    exact attached_setWorker h hworker rfl (fun _ hs => hs) rfl (busy_of_drained htask)
      (fun _ => halive)
  | runPipeline msg pending received htask =>
    have halive : worker.alive = true := by simp [Worker.alive, htask]
    refine attached_setWorker h hworker rfl (fun _ hs => hs) rfl (fun _ => ?_) (fun _ => halive)
    simp [Worker.busy, Worker.isEmpty, Task.messages, halive, htask]
  | pipelineReturns msg pending received htask =>
    have halive : worker.alive = true := by simp [Worker.alive, htask]
    refine attached_setWorker h hworker rfl (fun _ hs => hs) rfl (fun _ => ?_) (fun _ => halive)
    simp [Worker.busy, Task.isRunning, halive, htask]
  | panic msg pending received htask =>
    refine attached_setWorker h hworker rfl (fun _ hs => hs) rfl (fun hb => ?_) (fun ha => ?_)
    · exact absurd hb (by simp [Worker.busy, Worker.alive])
    · exact absurd ha (by simp [Worker.alive])
  | batchDone htask =>
    refine attached_setWorker h hworker rfl (fun _ hs => hs) rfl (fun hb => ?_) (fun _ => ?_)
    · simpa [Worker.busy, Worker.isEmpty, Worker.alive, Task.messages, Task.isRunning, htask]
        using hb
    · simp [Worker.alive, htask]
  | receivedDone htask =>
    refine attached_setWorker h hworker rfl (fun _ hs => hasSender_touchHandle hs) rfl
      (fun hb => ?_) (fun _ => ?_)
    · simpa [Worker.busy, Worker.isEmpty, Worker.alive, Task.messages, Task.isRunning, htask]
        using hb
    · simp [Worker.alive, htask]

/-- A call moves on, with a sender that was there before. -/
theorem attached_setPc {s : Store} {i : Nat} {pc : EnqueuePc} {key : RouteKey} {j : Nat}
    (h : (s.setPc i pc).attached key j = true)
    (hpc : ∀ tx, pc.tx? = some tx → s.hasSender tx = true) : s.attached key j = true := by
  refine attached_of_workers_eq h rfl (fun tx hs => ?_)
  rcases hasSender_setPc hs with hs | htx
  · exact hs
  · exact hpc tx htx

theorem hasSender_persistState {s : Store} {key : RouteKey} {state : ConversationState}
    {stored : Bool} (tx : Nat) :
    (s.persistState key state stored).hasSender tx = s.hasSender tx := by
  cases stored <;> rfl

theorem attached_persistState {s : Store} {key : RouteKey} {state : ConversationState}
    {stored : Bool} (key' : RouteKey) (j : Nat) :
    (s.persistState key state stored).attached key' j = s.attached key' j := by
  cases stored <;> rfl

/-- The message goes to a worker that the call had a sender of. -/
theorem attached_push {s : Store} {tx : Nat} {msg : Message} (htx : s.hasSender tx = true)
    {key : RouteKey} {j : Nat} (h : (s.push tx msg).attached key j = true) :
    s.attached key j = true := by
  refine attached_mono h (fun j worker' hworker' => ?_) (fun _ hs => hs)
  rw [getElem?_push] at hworker'
  obtain ⟨worker, hworker, rfl⟩ := Option.map_eq_some_iff.mp hworker'
  by_cases hj : tx = j
  · rw [if_pos hj]
    exact ⟨worker, hworker, rfl, id, fun _ => Or.inr (hj ▸ htx)⟩
  · rw [if_neg hj]
    exact ⟨worker, hworker, rfl, id, Or.inl⟩

/-- A spawned worker is the only one that becomes attached. -/
theorem attached_spawned {s s' : Store} {key' : RouteKey} {j : Nat}
    (h : s'.attached key' j = true) {config : Config} {key : RouteKey}
    (hworkers : s'.workers = (s.spawnWorker config key).workers)
    (hsender : ∀ tx, s'.hasSender tx = true → s.hasSender tx = true ∨ tx = s.workers.length) :
    s.attached key' j = true ∨ (j = s.workers.length ∧ key' = key) := by
  obtain ⟨worker, hworker, hkey, halive, hheld⟩ := attached_iff.mp h
  rw [hworkers] at hworker
  rcases getElem?_spawnWorker_cases hworker with hold | ⟨hj, rfl⟩
  · have hlt : j < s.workers.length := (List.getElem?_eq_some_iff.mp hold).1
    refine Or.inl (attached_iff.mpr ⟨worker, hold, hkey, halive, ?_⟩)
    refine hheld.imp_right fun hs => ?_
    rcases hsender j hs with hs | hj
    · exact hs
    · omega
  · exact Or.inr ⟨hj, hkey.symm⟩

/-- The next step of the call spawns a worker. -/
def Store.spawns (s : Store) (call : EnqueueCall) : Bool :=
  match call.pc with
  | .slowPath => (s.routes.find? call.key).isNone
  | .respawn => true
  | _ => false

theorem attached_of_callMove {s s' : Store} {config : Config} {i : Nat} {call : EnqueueCall}
    (hcall : s.calls[i]? = some call) (hmove : CallMove config s i call s')
    {key : RouteKey} {j : Nat} (h : s'.attached key j = true) :
    s.attached key j = true ∨
      (s.spawns call = true ∧ j = s.workers.length ∧ key = call.key) := by
  have hheld : ∀ tx, call.pc.tx? = some tx → s.hasSender tx = true := fun tx htx =>
    hasSender_of_call hcall htx
  have hnone : ∀ pc : EnqueuePc, pc.tx? = none → ∀ tx, pc.tx? = some tx →
      s.hasSender tx = true := by
    intro pc hpc tx htx
    rw [hpc] at htx
    exact absurd htx (by simp)
  cases hmove with
  | found handle hpc hfind =>
    refine Or.inl (attached_setPc h fun tx htx => ?_)
    exact Option.some.inj htx ▸ hasSender_of_handle hfind
  | missed hpc => exact Or.inl (attached_setPc h (hnone _ rfl))
  | spawned hpc hfind =>
    refine (attached_spawned h rfl fun tx hs => ?_).imp_right fun hnew => ⟨?_, hnew⟩
    · rcases hasSender_setPc hs with hs | htx
      · exact hasSender_insertHandle hs
      · exact Or.inr (Option.some.inj htx).symm
    · simp [Store.spawns, hpc, hfind]
  | persisted tx stored hpc | persistedAgain tx stored hpc =>
    left
    rw [← attached_persistState]
    refine attached_setPc h fun t ht => ?_
    rw [hasSender_persistState]
    exact hheld t (hpc ▸ ht)
  | sent tx hpc hsend =>
    have htx : s.hasSender tx = true := by
      rcases hpc with hpc | hpc <;> exact hheld tx (by rw [hpc]; rfl)
    refine Or.inl (attached_push htx (attached_setPc h fun t ht => ?_))
    exact hnone _ rfl t ht
  | full tx hpc => exact Or.inl (attached_setPc h (hnone _ rfl))
  | closed tx hpc hsend => exact Or.inl (attached_setPc h (hnone _ rfl))
  | respawned hpc =>
    refine (attached_spawned h rfl fun tx hs => ?_).imp_right fun hnew => ⟨?_, hnew⟩
    · rcases hasSender_setPc hs with hs | htx
      · exact Or.inl hs
      · exact Or.inr (Option.some.inj htx).symm
    · simp [Store.spawns, hpc]
  | inserted tx hpc =>
    have htx : s.hasSender tx = true := hheld tx (by rw [hpc]; rfl)
    refine Or.inl (attached_of_workers_eq h rfl (fun t hs => ?_))
    rcases hasSender_setPc hs with hs | ht
    · rcases hasSender_insertHandle hs with hs | rfl
      · exact hs
      · exact htx
    · exact Option.some.inj ht ▸ htx
  | dropped tx hpc hsend => exact Or.inl (attached_setPc h (hnone _ rfl))

/-- A step attaches no worker, except the one it spawns. -/
theorem attached_of_step {config : Config} {s s' : Store} {action : StoreAction}
    (hstep : s.step config action = some s') {key : RouteKey} {j : Nat}
    (h : s'.attached key j = true) :
    s.attached key j = true ∨ ∃ (i : Nat) (stored : Bool) (call : EnqueueCall),
      action = .call i stored ∧ s.calls[i]? = some call ∧ s.spawns call = true ∧
        j = s.workers.length ∧ key = call.key := by
  cases storeMove_of_step hstep with
  | advance ms => exact Or.inl h
  | enqueue key' msg =>
    refine Or.inl (attached_of_workers_eq h rfl (fun tx hs => ?_))
    -- the new call has no sender yet
    unfold Store.hasSender at hs ⊢
    simpa [EnqueuePc.tx?] using hs
  | call i stored call _ hcall hmove =>
    refine (attached_of_callMove hcall hmove h).imp_right fun hnew => ?_
    exact ⟨i, stored, call, rfl, hcall, hnew⟩
  | collectIdle idleTimeoutSecs =>
    exact Or.inl (attached_of_workers_eq h rfl (fun _ hs => hasSender_collectIdle hs))
  | collection c stored key' collections =>
    exact Or.inl ((attached_persistState key j).symm.trans h)
  | worker w step worker _ hworker hmove => exact Or.inl (attached_of_workerMove hworker hmove h)

/-! ## Runs -/

/-- A worker is spawned only when no other of its route is attached. -/
def SpawnsAlone (s : Store) : StoreAction → Prop
  | .call i _ => ∀ call ∈ s.calls[i]?, s.spawns call = true →
    ∀ j < s.workers.length, s.attached call.key j = false
  | _ => True

instance (s : Store) : (action : StoreAction) → Decidable (SpawnsAlone s action)
  | .call i _ => inferInstanceAs (Decidable (∀ call ∈ s.calls[i]?, s.spawns call = true →
      ∀ j < s.workers.length, s.attached call.key j = false))
  | .advance _ | .enqueue _ _ | .collectIdle _ | .collection _ _ | .worker _ _ => isTrue trivial

theorem lt_of_attached {s : Store} {key : RouteKey} {j : Nat} (h : s.attached key j = true) :
    j < s.workers.length := by
  obtain ⟨worker, hworker, _⟩ := attached_iff.mp h
  exact (List.getElem?_eq_some_iff.mp hworker).1

theorem OneAttached.step {config : Config} {s s' : Store} {action : StoreAction}
    (h : OneAttached s) (halone : SpawnsAlone s action)
    (hstep : s.step config action = some s') : OneAttached s' := by
  -- an attached worker and a spawned one cannot be of the same route
  have hclash : ∀ (key : RouteKey) (i j : Nat) (stored : Bool) (call : EnqueueCall),
      s.attached key j = true → action = .call i stored → s.calls[i]? = some call →
      s.spawns call = true → key = call.key → False := by
    intro key i j stored call hj haction hcall hspawns hkey
    subst haction hkey
    have hnone := halone call hcall hspawns j (lt_of_attached hj)
    rw [hj] at hnone
    exact absurd hnone (by decide)
  intro key i j hi hj
  rcases attached_of_step hstep hi with hi | ⟨a, b, c, hact, hcall, hspawns, hlen, hkey⟩
  · rcases attached_of_step hstep hj with hj | ⟨a, b, c, hact, hcall, hspawns, _, hkey⟩
    · exact h key i j hi hj
    · exact (hclash key a i b c hi hact hcall hspawns hkey).elim
  · rcases attached_of_step hstep hj with hj | ⟨_, _, _, _, _, _, hlen', _⟩
    · exact (hclash key a j b c hj hact hcall hspawns hkey).elim
    · omega

/-- In every run that spawns a worker only when no other of its route is
attached, each route is served by one worker at a time. -/
theorem routes_serial (config : Config) {actions : List StoreAction} {s : Store}
    (hrun : run (Store.step config) Store.init actions = some s)
    (halone : EveryStep (Store.step config) SpawnsAlone Store.init actions) : Serial s :=
  (run_invariant_of_everyStep (fun _ _ _ h halone hstep => h.step halone hstep)
    oneAttached_init halone hrun).serial

/-- The route is collected after its worker is done, and the worker of the next
message panics and is respawned. -/
theorem respawnedRoute_serial :
    Serial ((run (Store.step defaultConfig) Store.init (firstMessage ++
      [.advance 1800000, .collectIdle 1800, .worker 0 .close,
        .enqueue wechatRoute (wechatText "m2" 1700001800000), .call 1 true, .call 1 true,
        .call 1 true, .call 1 true, .worker 1 (.recv 1700001801000), .worker 1 .runPipeline,
        .worker 1 .panic, .enqueue wechatRoute (wechatText "m3" 1700001801000), .call 2 true,
        .call 2 true, .call 2 true, .call 2 true, .call 2 true, .call 2 true])).get
      (by decide +kernel)) :=
  routes_serial defaultConfig (Option.some_get _).symm (by decide +kernel)

/-- Every run serves the routes serially. -/
def StoreIsSerial (config : Config) : Prop :=
  ∀ (actions : List StoreAction) (s : Store),
    run (Store.step config) Store.init actions = some s → Serial s

/-- A message is sent to a route that has been idle for too long, and the route
is collected before its worker wakes up.  The next message finds no handle and
spawns a second worker, and both messages are released at once. -/
def collectedBetweenMessages : List StoreAction :=
  firstMessage ++
    [.advance 1801000, .enqueue wechatRoute (wechatText "m2" 1700001800200), .call 1 true,
      .call 1 true, .collectIdle 1800, .enqueue wechatRoute (wechatText "m3" 1700001800201),
      .call 2 true, .call 2 true, .call 2 true, .call 2 true,
      .worker 0 (.recv 1700001801200), .worker 0 .runPipeline,
      .worker 1 (.recv 1700001801200), .worker 1 .runPipeline]

theorem not_storeIsSerial : ¬ StoreIsSerial defaultConfig := by
  intro h
  refine absurd ((h collectedBetweenMessages (Option.get _ ?_) (Option.some_get ?_).symm).pipeline
    wechatRoute 0 1 ?_ ?_) (by decide)
  · decide +kernel
  · decide +kernel
  · decide +kernel
  · decide +kernel

end MagicLaw.Routing
