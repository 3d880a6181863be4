import MagicLaw.Routing.Store

/-!
# What becomes of accepted messages

A message for which `enqueue` returns `Ok` is in the queue of a channel.  From
there it moves into the window of the worker, out of it into the batch that is
processed, and from the batch into `pipeline.run`.

* `StoreInv.step`: a step loses no accepted message if the sort keys of a route
  are distinct and the step discards nothing.
* `accepted_messages_kept`: the same for runs.
* `not_storeKeepsAccepted`: a channel can close over a window that is not
  empty, and then its messages are only logged.

The invariant says that everything a worker buffers is an accepted message
under a sort key of its own, so the window never replaces one by another, and
that handles and calls lead to workers of their own route.
-/

namespace MagicLaw.Routing

open Lib Lib.Machine

/-! ## Where a message is -/

/-- The message is in the queue or in the window of the worker. -/
def Worker.Buffers (worker : Worker) (m : Message) : Prop :=
  m ∈ worker.queue ∨ worker.conversation.reorderWindow.Holds m

/-- The worker holds the message. -/
def Worker.Holds (worker : Worker) (m : Message) : Prop :=
  worker.Buffers m ∨ m ∈ worker.task.messages

theorem Worker.holds_nothing {worker : Worker} (h : worker.isEmpty = true) (m : Message) :
    ¬ worker.Holds m := by
  unfold Worker.isEmpty at h
  rw [Bool.and_eq_true, Bool.and_eq_true, List.isEmpty_iff, List.isEmpty_iff] at h
  obtain ⟨⟨hqueue, hwindow⟩, hmessages⟩ := h
  intro hm
  rcases hm with (hq | hheld) | hpending
  · exact absurd hq (by simp [hqueue])
  · exact ReorderWindow.not_holds_of_isEmpty hwindow m hheld
  · exact absurd hpending (by simp [hmessages])

/-- The message of the route was passed to `pipeline.run`, or a worker of the
route that still runs holds it. -/
def Kept (workers : List Worker) (passed : List (RouteKey × Message)) (key : RouteKey)
    (m : Message) : Prop :=
  (key, m) ∈ passed ∨ ∃ (j : Nat) (worker : Worker), workers[j]? = some worker ∧
    worker.routeKey = key ∧ worker.alive = true ∧ worker.Holds m

/-- `enqueue` has returned `Ok` for the message. -/
def Accepted (calls : List EnqueueCall) (key : RouteKey) (m : Message) : Prop :=
  ∃ (i : Nat) (call : EnqueueCall), calls[i]? = some call ∧ call.key = key ∧ call.msg = m ∧
    call.pc = .returned (.ok ())

/-- No accepted message is lost. -/
def AcceptedKept (s : Store) : Prop :=
  ∀ key m, Accepted s.calls key m → Kept s.workers s.passed key m

/-! ## The invariant -/

/-- The channel is one of the route. -/
def Serves (workers : List Worker) (tx : Nat) (key : RouteKey) : Prop :=
  ∃ worker, workers[tx]? = some worker ∧ worker.routeKey = key

/-- What the worker buffers was accepted, under sort keys that differ. -/
structure Worker.Consistent (calls : List EnqueueCall) (worker : Worker) : Prop where
  accepted : ∀ m, worker.Buffers m → Accepted calls worker.routeKey m
  nodup : (worker.queue.map Message.sortKey).Nodup
  disjoint : ∀ m ∈ worker.queue, ∀ m', worker.conversation.reorderWindow.Holds m' →
    m.sortKey ≠ m'.sortKey

structure StoreInv (s : Store) : Prop where
  handle : ∀ key handle, s.routes.find? key = some handle → Serves s.workers handle.tx handle.key
  call : ∀ (i : Nat) (call : EnqueueCall), s.calls[i]? = some call →
    ∀ tx, call.pc.tx? = some tx → Serves s.workers tx call.key
  worker : ∀ (j : Nat) (worker : Worker), s.workers[j]? = some worker →
    worker.Consistent s.calls
  distinct : ∀ (i j : Nat) (call call' : EnqueueCall), s.calls[i]? = some call →
    s.calls[j]? = some call' → call.key = call'.key →
    call.msg.sortKey = call'.msg.sortKey → i = j
  kept : AcceptedKept s

theorem storeInv_init : StoreInv Store.init := by
  constructor <;> simp [Store.init, AcceptedKept, Accepted]

/-! ## Steps of a worker -/

/-- A worker takes a step: what it held it still holds or has passed on. -/
theorem StoreInv.setWorker {s : Store} (h : StoreInv s) {j : Nat} {worker worker' : Worker}
    (hworker : s.workers[j]? = some worker) {passed : List (RouteKey × Message)}
    (hpassed : ∀ p ∈ s.passed, p ∈ passed) (hkey : worker'.routeKey = worker.routeKey)
    (hholds : ∀ m, worker.Holds m →
      (worker'.alive = true ∧ worker'.Holds m) ∨ (worker.routeKey, m) ∈ passed)
    (hconsistent : worker'.Consistent s.calls) :
    StoreInv { s with workers := s.workers.set j worker', passed := passed } := by
  have hlt : j < s.workers.length := (List.getElem?_eq_some_iff.mp hworker).1
  have hself : (s.workers.set j worker')[j]? = some worker' := List.getElem?_set_self hlt
  have hserves : ∀ tx key, Serves s.workers tx key → Serves (s.workers.set j worker') tx key := by
    intro tx key hold
    obtain ⟨w, hw, hwkey⟩ := hold
    by_cases hj : j = tx
    · subst hj
      rw [hworker, Option.some.injEq] at hw
      subst hw
      exact ⟨worker', hself, hkey.trans hwkey⟩
    · exact ⟨w, by rw [List.getElem?_set_ne hj, hw], hwkey⟩
  refine ⟨?_, ?_, ?_, h.distinct, ?_⟩
  · intro key handle hhandle
    exact hserves _ _ (h.handle key handle hhandle)
  · intro i call hcall tx htx
    exact hserves _ _ (h.call i call hcall tx htx)
  · intro k w hw
    by_cases hj : j = k
    · subst hj
      rw [hself, Option.some.injEq] at hw
      exact hw ▸ hconsistent
    · rw [List.getElem?_set_ne hj] at hw
      exact h.worker k w hw
  · intro key m haccepted
    rcases h.kept key m haccepted with hp | ⟨k, w, hw, hwkey, hwalive, hwholds⟩
    · exact Or.inl (hpassed _ hp)
    by_cases hj : j = k
    · subst hj
      rw [hworker, Option.some.injEq] at hw
      subst hw
      rcases hholds m hwholds with ⟨halive', hholds'⟩ | hp
      · exact Or.inr ⟨j, worker', hself, hkey.trans hwkey, halive', hholds'⟩
      · exact Or.inl (hwkey ▸ hp)
    · exact Or.inr ⟨k, w, by rw [List.getElem?_set_ne hj, hw], hwkey, hwalive, hwholds⟩

/-- The worker after `recv` has yielded the first message of its queue. -/
def Worker.received (worker : Worker) (msg : Message) (queue : List Message) (clock : Nat)
    (nowMs : Int64) : Worker :=
  { worker with
    queue := queue
    conversation := ((worker.conversation.touch clock).ingest msg clock nowMs).2
    task := .batch ((worker.conversation.touch clock).ingest msg clock nowMs).1 true }

/-- The first message is released or kept, and so is everything else, since no
sort key of the window is the one of the message. -/
theorem Worker.Consistent.holds_received {calls : List EnqueueCall} {worker : Worker}
    (h : worker.Consistent calls) {since : Nat} (htask : worker.task = .waiting since)
    {msg : Message} {queue : List Message} (hqueue : worker.queue = msg :: queue) (clock : Nat)
    (nowMs : Int64) {m : Message} (hm : worker.Holds m) :
    (worker.received msg queue clock nowMs).Holds m := by
  have hmem := worker.conversation.reorderWindow.mem_insert_iff msg nowMs
  -- what is in the window or is the new message is now in the window or released
  have hmoved : m = msg ∨ (worker.conversation.reorderWindow.Holds m ∧
      m.sortKey ≠ msg.sortKey) → (worker.received msg queue clock nowMs).Holds m := by
    intro hm'
    rcases (hmem m).mpr hm' with hready | hheld
    · exact Or.inr hready
    · exact Or.inl (Or.inr hheld)
  rcases hm with (hq | hheld) | hpending
  · rw [hqueue] at hq
    rcases List.mem_cons.mp hq with rfl | hq
    · exact hmoved (Or.inl rfl)
    · exact Or.inl (Or.inl hq)
  · refine hmoved (Or.inr ⟨hheld, ?_⟩)
    refine (h.disjoint msg ?_ m hheld).symm
    rw [hqueue]
    exact List.mem_cons_self
  · rw [htask] at hpending
    exact absurd hpending (by simp [Task.messages])

theorem Worker.Consistent.received {calls : List EnqueueCall} {worker : Worker}
    (h : worker.Consistent calls) {msg : Message} {queue : List Message}
    (hqueue : worker.queue = msg :: queue) (clock : Nat) (nowMs : Int64) :
    (worker.received msg queue clock nowMs).Consistent calls := by
  have hmem := worker.conversation.reorderWindow.mem_insert_iff msg nowMs
  obtain ⟨haccepted, hnodup, hdisjoint⟩ := h
  rw [hqueue, List.map_cons, List.nodup_cons] at hnodup
  have hbuffers : ∀ m, m = msg ∨ worker.conversation.reorderWindow.Holds m → worker.Buffers m := by
    intro m hm
    rcases hm with rfl | hheld
    · left
      rw [hqueue]
      exact List.mem_cons_self
    · exact Or.inr hheld
  refine ⟨?_, ?_, ?_⟩
  · intro m hm
    rcases hm with hq | hheld
    · refine haccepted m (Or.inl ?_)
      rw [hqueue]
      exact List.mem_cons_of_mem _ hq
    · exact haccepted m (hbuffers m (((hmem m).mp (Or.inr hheld)).imp_right And.left))
  · exact hnodup.2
  · intro m hq m' hheld
    rcases (hmem m').mp (Or.inr hheld) with rfl | ⟨hold, _⟩
    · exact fun heq => hnodup.1 (heq ▸ List.mem_map_of_mem hq)
    · refine hdisjoint m ?_ m' hold
      rw [hqueue]
      exact List.mem_cons_of_mem _ hq

/-- `recv` yields the first message of the queue. -/
theorem StoreInv.recv {s : Store} (h : StoreInv s) {j : Nat} {worker : Worker}
    (hworker : s.workers[j]? = some worker) {since : Nat} (htask : worker.task = .waiting since)
    {msg : Message} {queue : List Message} (hqueue : worker.queue = msg :: queue)
    (nowMs : Int64) : StoreInv (s.setWorker j (worker.received msg queue s.clock nowMs)) := by
  have hconsistent := h.worker j worker hworker
  refine h.setWorker hworker (fun _ hp => hp) rfl (fun m hm => ?_)
    (hconsistent.received hqueue s.clock nowMs)
  exact Or.inl ⟨rfl, hconsistent.holds_received htask hqueue s.clock nowMs hm⟩

/-- A step that changes neither the queue nor the window, nor ends the task. -/
theorem StoreInv.setTask {s : Store} (h : StoreInv s) {j : Nat} {worker : Worker}
    (hworker : s.workers[j]? = some worker) {passed : List (RouteKey × Message)}
    (hpassed : ∀ p ∈ s.passed, p ∈ passed) (task : Task)
    (halive : Worker.alive { worker with task := task } = true)
    (hmessages : ∀ m ∈ worker.task.messages, m ∈ task.messages ∨ (worker.routeKey, m) ∈ passed) :
    StoreInv { s with workers := s.workers.set j { worker with task := task }, passed := passed } := by
  obtain ⟨haccepted, hnodup, hdisjoint⟩ := h.worker j worker hworker
  refine h.setWorker hworker hpassed rfl (fun m hm => ?_)
    ⟨haccepted, hnodup, hdisjoint⟩
  rcases hm with hbuffers | hpending
  · exact Or.inl ⟨halive, Or.inl hbuffers⟩
  · exact (hmessages m hpending).imp_left fun hm => ⟨halive, Or.inr hm⟩

/-- The timer releases the whole window. -/
theorem StoreInv.flush {s : Store} (h : StoreInv s) {j : Nat} {worker : Worker}
    (hworker : s.workers[j]? = some worker) {since : Nat} (htask : worker.task = .waiting since) :
    StoreInv (s.setWorker j { worker with
      conversation := worker.conversation.drain.2
      task := .batch worker.conversation.drain.1 false }) := by
  obtain ⟨haccepted, hnodup, hdisjoint⟩ := h.worker j worker hworker
  have hempty : ∀ m, ¬ worker.conversation.drain.2.reorderWindow.Holds m :=
    worker.conversation.reorderWindow.not_holds_flushAll
  refine h.setWorker hworker (fun _ hp => hp) rfl (fun m hm => ?_) ⟨?_, hnodup, ?_⟩
  · refine Or.inl ⟨rfl, ?_⟩
    rcases hm with (hq | hheld) | hpending
    · exact Or.inl (Or.inl hq)
    · exact Or.inr ((worker.conversation.reorderWindow.mem_flushAll_iff m).mpr hheld)
    · rw [htask] at hpending
      exact absurd hpending (by simp [Task.messages])
  · intro m hm
    rcases hm with hq | hheld
    · exact haccepted m (Or.inl hq)
    · exact absurd hheld (hempty m)
  · intro m _ m' hheld
    exact absurd hheld (hempty m')

/-- The task ends while the worker holds nothing. -/
theorem StoreInv.endTask {s : Store} (h : StoreInv s) {j : Nat} {worker worker' : Worker}
    (hworker : s.workers[j]? = some worker) (hnone : ∀ m, ¬ worker.Holds m)
    (hkey : worker'.routeKey = worker.routeKey) (hnone' : ∀ m, ¬ worker'.Buffers m) :
    StoreInv (s.setWorker j worker') := by
  have hqueue : worker'.queue = [] := List.eq_nil_iff_forall_not_mem.mpr fun m hm =>
    hnone' m (Or.inl hm)
  refine h.setWorker hworker (fun _ hp => hp) hkey (fun m hm => absurd hm (hnone m)) ⟨?_, ?_, ?_⟩
  · exact fun m hm => absurd hm (hnone' m)
  · rw [hqueue]
    exact List.nodup_nil
  · exact fun m hm => absurd (Or.inl hm) (hnone' m)

/-- The time at which a handle was last active does not matter. -/
theorem StoreInv.touchHandle {s : Store} (h : StoreInv s) (key : RouteKey) :
    StoreInv (s.touchHandle key) := by
  refine ⟨?_, h.call, h.worker, h.distinct, h.kept⟩
  intro key' handle hhandle
  rw [find?_touchHandle] at hhandle
  by_cases hk : key' = key
  · rw [if_pos hk] at hhandle
    obtain ⟨old, hold, rfl⟩ := Option.map_eq_some_iff.mp hhandle
    exact h.handle key old hold
  · rw [if_neg hk] at hhandle
    exact h.handle key' handle hhandle

theorem StoreInv.workerMove {s s' : Store} (h : StoreInv s) {j : Nat} {worker : Worker}
    (hworker : s.workers[j]? = some worker) {step : WorkerStep}
    (hclose : step = .close → worker.conversation.reorderWindow.isEmpty = true)
    (hpanic : step = .panic → worker.isEmpty = true)
    (hmove : WorkerMove s j worker step s') : StoreInv s' := by
  cases hmove with
  | recv nowMs since msg queue htask hqueue => exact h.recv hworker htask hqueue nowMs
  | close since htask hqueue hsender =>
    have hwindow := ReorderWindow.not_holds_of_isEmpty (hclose rfl)
    refine h.endTask hworker ?_ rfl ?_
    · intro m hm
      rcases hm with (hq | hheld) | hpending
      · exact absurd hq (by simp [hqueue])
      · exact hwindow m hheld
      · exact absurd hpending (by simp [htask, Task.messages])
    · intro m hm
      rcases hm with hq | hheld
      · exact absurd hq (by simp [hqueue])
      · exact worker.conversation.reorderWindow.not_holds_flushAll m hheld
  | flush since htask => exact h.flush hworker htask
  | runPipeline msg pending received htask =>
    refine h.setTask hworker (fun _ hp => List.mem_cons_of_mem _ hp) _ rfl fun m hm => ?_
    rw [htask] at hm
    rcases List.mem_cons.mp hm with rfl | hm
    · exact Or.inr List.mem_cons_self
    · exact Or.inl hm
  | pipelineReturns msg pending received htask =>
    refine h.setTask hworker (fun _ hp => hp) _ rfl fun m hm => ?_
    rw [htask] at hm
    exact Or.inl hm
  | panic msg pending received htask =>
    have hnone := Worker.holds_nothing (hpanic rfl)
    exact h.endTask hworker hnone rfl fun m hm => hnone m (Or.inl hm)
  | batchDone htask =>
    refine h.setTask hworker (fun _ hp => hp) _ rfl fun m hm => ?_
    rw [htask] at hm
    exact Or.inl hm
  | receivedDone htask =>
    refine StoreInv.touchHandle (h.setTask hworker (fun _ hp => hp) _ rfl fun m hm => ?_) _
    rw [htask] at hm
    exact Or.inl hm

/-! ## Steps of a call -/

/-- A call that is not over yet does not count as accepted. -/
theorem accepted_setPc_iff {s : Store} {i : Nat} {call : EnqueueCall}
    (hcall : s.calls[i]? = some call) (hpc : call.pc ≠ .returned (.ok ())) (pc : EnqueuePc)
    (key : RouteKey) (m : Message) :
    Accepted (s.setPc i pc).calls key m ↔ Accepted s.calls key m ∨
      (pc = .returned (.ok ()) ∧ call.key = key ∧ call.msg = m) := by
  constructor
  · intro haccepted
    obtain ⟨j, c, hc, hkey, hmsg, hret⟩ := haccepted
    rw [getElem?_setPc] at hc
    obtain ⟨c₀, hc₀, rfl⟩ := Option.map_eq_some_iff.mp hc
    by_cases hij : i = j
    · subst hij
      rw [hcall, Option.some.injEq] at hc₀
      subst hc₀
      rw [if_pos rfl] at hkey hmsg hret
      exact Or.inr ⟨hret, hkey, hmsg⟩
    · rw [if_neg hij] at hkey hmsg hret
      exact Or.inl ⟨j, c₀, hc₀, hkey, hmsg, hret⟩
  · intro haccepted
    rcases haccepted with ⟨j, c, hc, hkey, hmsg, hret⟩ | ⟨hret, hkey, hmsg⟩
    · have hij : i ≠ j := by
        intro hij
        subst hij
        rw [hcall, Option.some.injEq] at hc
        exact hpc (hc ▸ hret)
      refine ⟨j, c, ?_, hkey, hmsg, hret⟩
      rw [getElem?_setPc, hc, Option.map_some, if_neg hij]
    · refine ⟨i, { call with pc := pc }, ?_, hkey, hmsg, hret⟩
      rw [getElem?_setPc, hcall, Option.map_some, if_pos rfl]

theorem Worker.Consistent.mono {calls calls' : List EnqueueCall} {worker : Worker}
    (h : worker.Consistent calls)
    (hmono : ∀ key m, Accepted calls key m → Accepted calls' key m) :
    worker.Consistent calls' :=
  ⟨fun m hm => hmono _ m (h.accepted m hm), h.nodup, h.disjoint⟩

/-- The queue gets a message under a sort key that the worker does not buffer. -/
theorem Worker.Consistent.push {calls : List EnqueueCall} {worker : Worker}
    (h : worker.Consistent calls) {msg : Message} (hmsg : Accepted calls worker.routeKey msg)
    (hfresh : ∀ m, worker.Buffers m → m.sortKey ≠ msg.sortKey) :
    Worker.Consistent calls { worker with queue := worker.queue ++ [msg] } := by
  refine ⟨fun m hm => ?_, ?_, ?_⟩
  · show Accepted calls worker.routeKey m
    rcases hm with hq | hheld
    · rcases List.mem_append.mp hq with hq | hq
      · exact h.accepted m (Or.inl hq)
      · exact List.mem_singleton.mp hq ▸ hmsg
    · exact h.accepted m (Or.inr hheld)
  · show ((worker.queue ++ [msg]).map Message.sortKey).Nodup
    rw [List.map_append, List.nodup_append]
    refine ⟨h.nodup, List.nodup_singleton _, ?_⟩
    intro k hk k' hk'
    obtain ⟨m, hm, rfl⟩ := List.mem_map.mp hk
    rw [List.mem_singleton.mp hk']
    exact hfresh m (Or.inl hm)
  · exact forall_mem_concat h.disjoint fun m' hheld => (hfresh m' (Or.inr hheld)).symm

/-- A call moves on, and gives its message to a worker or not. -/
theorem StoreInv.moveCall {s : Store} (h : StoreInv s) {i : Nat} {call : EnqueueCall}
    (hcall : s.calls[i]? = some call) (hpc : call.pc ≠ .returned (.ok ())) {pc : EnqueuePc}
    {workers : List Worker}
    (hserves : ∀ tx key, Serves s.workers tx key → Serves workers tx key)
    (hkept : ∀ key m, Kept s.workers s.passed key m → Kept workers s.passed key m)
    (hconsistent : ∀ (j : Nat) (worker : Worker), workers[j]? = some worker →
      worker.Consistent (s.setPc i pc).calls)
    (htx : ∀ tx, pc.tx? = some tx → Serves workers tx call.key)
    (hreturned : pc = .returned (.ok ()) → Kept workers s.passed call.key call.msg) :
    StoreInv { s.setPc i pc with workers := workers } := by
  refine ⟨fun key handle hhandle => hserves _ _ (h.handle key handle hhandle), ?_, hconsistent,
    ?_, ?_⟩
  · intro j c hc
    have hc : (s.setPc i pc).calls[j]? = some c := hc
    rw [getElem?_setPc] at hc
    obtain ⟨c₀, hc₀, rfl⟩ := Option.map_eq_some_iff.mp hc
    by_cases hij : i = j
    · subst hij
      rw [hcall, Option.some.injEq] at hc₀
      subst hc₀
      rw [if_pos rfl]
      exact htx
    · rw [if_neg hij]
      exact fun tx htx => hserves tx _ (h.call j c₀ hc₀ tx htx)
  · intro j k c c' hc hc' hkey hsort
    obtain ⟨c₀, hc₀, hkey₀, hmsg₀⟩ := call_of_setPc hc
    obtain ⟨c₁, hc₁, hkey₁, hmsg₁⟩ := call_of_setPc hc'
    rw [hkey₀, hkey₁] at hkey
    rw [hmsg₀, hmsg₁] at hsort
    exact h.distinct j k c₀ c₁ hc₀ hc₁ hkey hsort
  · intro key m ha
    rcases (accepted_setPc_iff hcall hpc pc key m).mp ha with hold | ⟨hret, rfl, rfl⟩
    · exact hkept key m (h.kept key m hold)
    · exact hreturned hret

/-- A call moves on, and only the call. -/
theorem StoreInv.setPc {s : Store} (h : StoreInv s) {i : Nat} {call : EnqueueCall}
    (hcall : s.calls[i]? = some call) (hpc : call.pc ≠ .returned (.ok ())) {pc : EnqueuePc}
    (htx : ∀ tx, pc.tx? = some tx → Serves s.workers tx call.key)
    (hreturned : pc ≠ .returned (.ok ())) : StoreInv (s.setPc i pc) :=
  h.moveCall hcall hpc (fun _ _ hs => hs) (fun _ _ hk => hk)
    (fun j w hw => (h.worker j w hw).mono fun key m ha =>
      (accepted_setPc_iff hcall hpc pc key m).mpr (Or.inl ha))
    htx (fun hret => absurd hret hreturned)

/-- A new worker serves its route and holds nothing. -/
theorem StoreInv.spawnWorker {s : Store} (h : StoreInv s) (config : Config) (key : RouteKey) :
    StoreInv (s.spawnWorker config key) := by
  have hserves : ∀ tx key', Serves s.workers tx key' →
      Serves (s.spawnWorker config key).workers tx key' := by
    intro tx key' hold
    obtain ⟨w, hw, hwkey⟩ := hold
    exact ⟨w, getElem?_spawnWorker_of_eq_some hw config key, hwkey⟩
  refine ⟨?_, ?_, ?_, h.distinct, ?_⟩
  · intro key' handle hhandle
    exact hserves _ _ (h.handle key' handle hhandle)
  · intro i call hcall tx htx
    exact hserves _ _ (h.call i call hcall tx htx)
  · intro j w hw
    rcases getElem?_spawnWorker_cases hw with hold | ⟨rfl, rfl⟩
    · exact h.worker j w hold
    · have hempty : ∀ m, ¬ (Worker.spawn config key s.clock).Buffers m := by
        intro m hm
        rcases hm with hq | hheld
        · exact absurd hq (by simp [Worker.spawn])
        · exact ReorderWindow.not_holds_new _ m hheld
      exact ⟨fun m hm => absurd hm (hempty m), List.nodup_nil,
        fun m hm => absurd (Or.inl hm) (hempty m)⟩
  · intro key' m haccepted
    rcases h.kept key' m haccepted with hp | ⟨j, w, hw, hrest⟩
    · exact Or.inl hp
    · exact Or.inr ⟨j, w, getElem?_spawnWorker_of_eq_some hw config key, hrest⟩

theorem StoreInv.insertHandle {s : Store} (h : StoreInv s) {key : RouteKey} {tx : Nat}
    (hserves : Serves s.workers tx key) : StoreInv (s.insertHandle key tx) := by
  refine ⟨?_, h.call, h.worker, h.distinct, h.kept⟩
  intro key' handle hhandle
  rw [find?_insertHandle] at hhandle
  by_cases hk : key' = key
  · rw [if_pos hk, Option.some.injEq] at hhandle
    exact hhandle ▸ hserves
  · rw [if_neg hk] at hhandle
    exact h.handle key' handle hhandle

theorem serves_spawnWorker (s : Store) (config : Config) (key : RouteKey) :
    Serves (s.spawnWorker config key).workers s.workers.length key :=
  ⟨_, getElem?_spawnWorker_length s config key, rfl⟩

theorem trySend_sent {s : Store} {config : Config} {tx : Nat}
    (h : s.trySend config tx = .sent) :
    ∃ worker, s.workers[tx]? = some worker ∧ worker.alive = true := by
  unfold Store.trySend at h
  cases hw : s.workers[tx]? with
  | none => simp [hw] at h
  | some worker =>
    by_cases halive : worker.alive = true
    · exact ⟨worker, rfl, halive⟩
    · simp [hw, halive] at h

theorem serves_push {s : Store} {tx t : Nat} {msg : Message} {key : RouteKey}
    (h : Serves s.workers t key) : Serves (s.push tx msg).workers t key := by
  obtain ⟨w, hw, hkey⟩ := h
  refine ⟨_, getElem?_push_of_eq_some hw tx msg, ?_⟩
  by_cases ht : tx = t
  · rw [if_pos ht, hkey]
  · rw [if_neg ht, hkey]

/-- A longer queue holds what it held. -/
theorem kept_push {s : Store} {tx : Nat} {msg m : Message} {key : RouteKey}
    (h : Kept s.workers s.passed key m) : Kept (s.push tx msg).workers s.passed key m := by
  rcases h with hp | ⟨j, w, hw, hkey, halive, hholds⟩
  · exact Or.inl hp
  · refine Or.inr ⟨j, _, getElem?_push_of_eq_some hw tx msg, ?_⟩
    by_cases hj : tx = j
    · rw [if_pos hj]
      refine ⟨hkey, halive, ?_⟩
      rcases hholds with (hq | hheld) | hpending
      · exact Or.inl (Or.inl (List.mem_append_left _ hq))
      · exact Or.inl (Or.inr hheld)
      · exact Or.inr hpending
    · rw [if_neg hj]
      exact ⟨hkey, halive, hholds⟩

/-- What a worker buffers has another sort key than the message of a call that
is not accepted yet. -/
theorem StoreInv.fresh {s : Store} (h : StoreInv s) {i j : Nat} {call : EnqueueCall}
    (hcall : s.calls[i]? = some call) (hpc : call.pc ≠ .returned (.ok ())) {worker : Worker}
    (hworker : s.workers[j]? = some worker) (hwkey : worker.routeKey = call.key) {m : Message}
    (hm : worker.Buffers m) : m.sortKey ≠ call.msg.sortKey := by
  intro hsort
  obtain ⟨k, c, hc, hckey, rfl, hret⟩ := (h.worker j worker hworker).accepted m hm
  have hik := h.distinct k i c call hc hcall (hckey.trans hwkey) hsort
  rw [hik, hcall, Option.some.injEq] at hc
  exact hpc (hc ▸ hret)

/-- The message is put into the queue of an open channel. -/
theorem StoreInv.send {s : Store} (h : StoreInv s) {config : Config} {i : Nat}
    {call : EnqueueCall} (hcall : s.calls[i]? = some call)
    (hpc : call.pc ≠ .returned (.ok ())) {tx : Nat} (htx : call.pc.tx? = some tx)
    (hsend : s.trySend config tx = .sent) :
    StoreInv ((s.push tx call.msg).setPc i (.returned (.ok ()))) := by
  have haccepted := accepted_setPc_iff hcall hpc (.returned (.ok ()))
  obtain ⟨worker, hworker, hwalive⟩ := trySend_sent hsend
  have hwkey : worker.routeKey = call.key := by
    obtain ⟨w, hw, hwkey⟩ := h.call i call hcall tx htx
    rw [hworker, Option.some.injEq] at hw
    exact hw ▸ hwkey
  refine h.moveCall hcall hpc (fun _ _ hold => serves_push hold) (fun _ _ hkept => kept_push hkept)
    ?_ (fun t ht => absurd ht (by simp [EnqueuePc.tx?])) (fun _ => ?_)
  · intro j w hw
    have hw : (s.push tx call.msg).workers[j]? = some w := hw
    rw [getElem?_push] at hw
    obtain ⟨w₀, hw₀, rfl⟩ := Option.map_eq_some_iff.mp hw
    by_cases hj : tx = j
    · subst hj
      rw [hworker, Option.some.injEq] at hw₀
      subst hw₀
      rw [if_pos rfl]
      refine ((h.worker tx worker hworker).mono fun key m ha => ?_).push ?_
        fun m hm => h.fresh hcall hpc hworker hwkey hm
      · exact (haccepted key m).mpr (Or.inl ha)
      · exact (haccepted _ _).mpr (Or.inr ⟨rfl, hwkey.symm, rfl⟩)
    · rw [if_neg hj]
      exact (h.worker j w₀ hw₀).mono fun key m ha => (haccepted key m).mpr (Or.inl ha)
  · have hpushed := getElem?_push_of_eq_some hworker tx call.msg
    rw [if_pos rfl] at hpushed
    exact Or.inr ⟨tx, _, hpushed, hwkey, hwalive, Or.inl (Or.inl (by simp))⟩

theorem StoreInv.persistState {s : Store} (h : StoreInv s) (key : RouteKey)
    (state : ConversationState) (stored : Bool) : StoreInv (s.persistState key state stored) := by
  unfold Store.persistState
  cases stored with
  | true => exact ⟨h.handle, h.call, h.worker, h.distinct, h.kept⟩
  | false => exact h

theorem calls_persistState (s : Store) (key : RouteKey) (state : ConversationState)
    (stored : Bool) : (s.persistState key state stored).calls = s.calls := by
  cases stored <;> rfl

theorem EnqueuePc.not_returned {pc : EnqueuePc} {tx : Nat} (h : pc.tx? = some tx) :
    pc ≠ .returned (.ok ()) := by
  intro hreturned
  subst hreturned
  exact absurd h (by simp [EnqueuePc.tx?])

theorem StoreInv.callMove {s s' : Store} (h : StoreInv s) {config : Config} {i : Nat}
    {call : EnqueueCall} (hcall : s.calls[i]? = some call)
    (hrespawned : ∀ tx, call.pc = .sendRespawned tx → s.trySend config tx = .sent)
    (hmove : CallMove config s i call s') : StoreInv s' := by
  cases hmove with
  | found handle hpc hfind =>
    refine h.setPc hcall ?_ (fun tx htx => ?_) (by simp)
    · rcases hpc with hpc | hpc <;> simp [hpc]
    · have hkey : handle.key = call.key := KeyedTable.key_of_find? hfind
      exact hkey ▸ Option.some.inj htx ▸ h.handle call.key handle hfind
  | missed hpc =>
    exact h.setPc hcall (by simp [hpc]) (fun tx htx => absurd htx (by simp [EnqueuePc.tx?]))
      (by simp)
  | spawned hpc hfind =>
    have hserves := serves_spawnWorker s config call.key
    refine ((h.spawnWorker config call.key).insertHandle hserves).setPc hcall (by simp [hpc]) ?_
      (by simp)
    exact fun tx htx => Option.some.inj htx ▸ hserves
  | persisted tx stored hpc | persistedAgain tx stored hpc =>
    have hcall' : (s.persistState call.key .active stored).calls[i]? = some call := by
      rw [calls_persistState, hcall]
    have h' := h.persistState call.key .active stored
    refine h'.setPc hcall' (by simp [hpc]) (fun t ht => h'.call i call hcall' t ?_) (by simp)
    rw [hpc]
    exact ht
  | sent tx hpc hsend =>
    have htx : call.pc.tx? = some tx := by
      rcases hpc with hpc | hpc <;> rw [hpc] <;> rfl
    exact h.send hcall (EnqueuePc.not_returned htx) htx hsend
  | full tx hpc =>
    exact h.setPc hcall (by simp [hpc]) (fun t ht => absurd ht (by simp [EnqueuePc.tx?])) (by simp)
  | closed tx hpc hsend =>
    exact h.setPc hcall (by simp [hpc]) (fun t ht => absurd ht (by simp [EnqueuePc.tx?])) (by simp)
  | respawned hpc =>
    refine (h.spawnWorker config call.key).setPc hcall (by simp [hpc]) ?_ (by simp)
    exact fun tx htx => Option.some.inj htx ▸ serves_spawnWorker s config call.key
  | inserted tx hpc =>
    have hserves := h.call i call hcall tx (by rw [hpc]; rfl)
    refine (h.insertHandle hserves).setPc hcall (by simp [hpc]) ?_ (by simp)
    exact fun t ht => Option.some.inj ht ▸ hserves
  | dropped tx hpc hsend => exact absurd (hrespawned tx hpc) hsend

/-! ## Every step -/

/-- What is assumed of a step: a message comes with a sort key that is new on
its route. -/
def FreshSortKey (s : Store) : StoreAction → Prop
  | .enqueue key msg => ∀ call ∈ s.calls, call.key = key → call.msg.sortKey ≠ msg.sortKey
  | _ => True

instance (s : Store) (action : StoreAction) : Decidable (FreshSortKey s action) := by
  unfold FreshSortKey
  split <;> infer_instance

/-- The step discards nothing: a channel closes over an empty window,
`pipeline.run` panics with no further message in the worker, and the message
of a call that has respawned its worker can be sent. -/
def DiscardsNothing (config : Config) (s : Store) : StoreAction → Prop
  | .worker w .close => ∀ worker ∈ s.workers[w]?, worker.conversation.reorderWindow.isEmpty = true
  | .worker w .panic => ∀ worker ∈ s.workers[w]?, worker.isEmpty = true
  | .call i _ => ∀ call ∈ s.calls[i]?, ∀ tx ∈ call.pc.tx?,
    call.pc = .sendRespawned tx → s.trySend config tx = .sent
  | _ => True

instance (config : Config) (s : Store) (action : StoreAction) :
    Decidable (DiscardsNothing config s action) := by
  unfold DiscardsNothing
  split <;> infer_instance

theorem StoreInv.enqueue {s : Store} (h : StoreInv s) {key : RouteKey} {msg : Message}
    (hfresh : ∀ call ∈ s.calls, call.key = key → call.msg.sortKey ≠ msg.sortKey) :
    StoreInv { s with calls := s.calls ++ [⟨key, msg, .start⟩] } := by
  -- a call was there before, or it is the new one
  have hcases : ∀ (i : Nat) (call : EnqueueCall),
      (s.calls ++ [⟨key, msg, .start⟩])[i]? = some call →
      s.calls[i]? = some call ∨ (i = s.calls.length ∧ call = ⟨key, msg, .start⟩) := by
    intro i call hc
    by_cases hlt : i < s.calls.length
    · rw [List.getElem?_append_left hlt] at hc
      exact Or.inl hc
    · rw [List.getElem?_append_right (by omega), List.getElem?_singleton] at hc
      obtain ⟨hi, hnew⟩ := Option.ite_none_right_eq_some.mp hc
      exact Or.inr ⟨by omega, (Option.some.inj hnew).symm⟩
  have haccepted : ∀ key' m, Accepted s.calls key' m →
      Accepted (s.calls ++ [⟨key, msg, .start⟩]) key' m := by
    intro key' m hold
    obtain ⟨i, call, hc, hrest⟩ := hold
    have hlt : i < s.calls.length := (List.getElem?_eq_some_iff.mp hc).1
    exact ⟨i, call, (List.getElem?_append_left hlt).trans hc, hrest⟩
  refine ⟨h.handle, ?_, ?_, ?_, ?_⟩
  · intro i call hc
    rcases hcases i call hc with hold | ⟨_, rfl⟩
    · exact h.call i call hold
    · exact fun tx htx => absurd htx (by simp [EnqueuePc.tx?])
  · intro j w hw
    exact (h.worker j w hw).mono haccepted
  · intro i j call call' hc hc' hkey hsort
    rcases hcases i call hc with hold | ⟨hi, rfl⟩ <;> rcases hcases j call' hc' with hold' | ⟨hj, rfl⟩
    · exact h.distinct i j call call' hold hold' hkey hsort
    · exact absurd hsort (hfresh call (List.mem_of_getElem? hold) hkey)
    · exact absurd hsort.symm (hfresh call' (List.mem_of_getElem? hold') hkey.symm)
    · rw [hi, hj]
  · intro key' m ha
    obtain ⟨i, call, hc, hckey, hmsg, hret⟩ := ha
    rcases hcases i call hc with hold | ⟨_, rfl⟩
    · exact h.kept key' m ⟨i, call, hold, hckey, hmsg, hret⟩
    · exact absurd hret (by simp)

/-- A pass of `collect_idle` removes handles, and nothing else that matters here. -/
theorem StoreInv.collectIdle {s : Store} (h : StoreInv s) (idleTimeoutSecs : Nat) :
    StoreInv (s.collectIdle idleTimeoutSecs) := by
  refine ⟨?_, h.call, h.worker, h.distinct, h.kept⟩
  intro key handle hhandle
  unfold Store.collectIdle at hhandle
  rw [KeyedTable.find?_retain] at hhandle
  exact h.handle key handle (Option.eq_some_of_filter_eq_some hhandle)

theorem StoreInv.step {s s' : Store} (h : StoreInv s) {config : Config} {action : StoreAction}
    (hfresh : FreshSortKey s action) (hdiscards : DiscardsNothing config s action)
    (hstep : s.step config action = some s') : StoreInv s' := by
  cases storeMove_of_step hstep with
  | advance ms => exact ⟨h.handle, h.call, h.worker, h.distinct, h.kept⟩
  | enqueue key msg => exact h.enqueue hfresh
  | call i stored call _ hcall hmove =>
    refine h.callMove hcall (fun tx hpc => ?_) hmove
    exact hdiscards call hcall tx (by rw [hpc]; rfl) hpc
  | collectIdle idleTimeoutSecs => exact h.collectIdle idleTimeoutSecs
  | collection j stored key collections =>
    have h' := h.persistState key .closed stored
    exact ⟨h'.handle, h'.call, h'.worker, h'.distinct, h'.kept⟩
  | worker w step worker _ hworker hmove =>
    refine h.workerMove hworker ?_ ?_ hmove
    · intro hclose
      subst hclose
      exact hdiscards worker hworker
    · intro hpanic
      subst hpanic
      exact hdiscards worker hworker

/-! ## Runs -/

/-- In every run with distinct sort keys and steps that discard nothing, no
accepted message is lost. -/
theorem accepted_messages_kept (config : Config) {actions : List StoreAction} {s : Store}
    (hrun : run (Store.step config) Store.init actions = some s)
    (hsteps : EveryStep (Store.step config)
      (fun s a => FreshSortKey s a ∧ DiscardsNothing config s a) Store.init actions) :
    AcceptedKept s :=
  (run_invariant_of_everyStep (fun _ _ _ h hmeets hstep => h.step hmeets.1 hmeets.2 hstep)
    storeInv_init hsteps hrun).kept

/-- The route goes idle and is collected, its worker ends, and the next message
finds a new worker. -/
theorem collectedRoute_kept :
    AcceptedKept ((run (Store.step defaultConfig) Store.init (firstMessage ++
      [.advance 1800000, .collectIdle 1800, .worker 0 .close,
        .enqueue wechatRoute (wechatText "m2" 1700001800200), .call 1 true, .call 1 true,
        .call 1 true, .call 1 true, .worker 1 (.recv 1700001800200)])).get
      (by decide +kernel)) :=
  accepted_messages_kept defaultConfig (Option.some_get _).symm (by decide +kernel)

/-- The step is not a panic of `pipeline.run`. -/
def StoreAction.isCalm : StoreAction → Bool
  | .worker _ .panic => false
  | _ => true

/-- Every run with distinct sort keys and without a panic keeps the accepted
messages. -/
def StoreKeepsAccepted (config : Config) : Prop :=
  ∀ (actions : List StoreAction) (s : Store),
    run (Store.step config) Store.init actions = some s →
    EveryStep (Store.step config) FreshSortKey Store.init actions →
    (∀ a ∈ actions, a.isCalm = true) → AcceptedKept s

theorem passed_of_kept {workers : List Worker} {passed : List (RouteKey × Message)}
    {key : RouteKey} {m : Message} (hkept : Kept workers passed key m)
    (hended : ∀ worker ∈ workers, worker.alive = false) : (key, m) ∈ passed := by
  rcases hkept with hp | ⟨j, worker, hworker, _, halive, _⟩
  · exact hp
  · rw [hended worker (List.mem_of_getElem? hworker)] at halive
    exact absurd halive (by decide)

/-- The second message is sent to a route that has been idle for too long, and
the route is collected before the worker wakes up.  The worker then takes the
message into its window, finds the channel closed, and only logs what it drains. -/
def collectedWhileSending : List StoreAction :=
  firstMessage ++
    [.advance 1800000, .enqueue wechatRoute (wechatText "m2" 1700001800200), .call 1 true,
      .call 1 true, .collectIdle 1800, .worker 0 (.recv 1700001800200), .worker 0 .batchDone,
      .worker 0 .close]

theorem not_storeKeepsAccepted : ¬ StoreKeepsAccepted defaultConfig := by
  intro h
  refine absurd (passed_of_kept (h collectedWhileSending (Option.get _ ?_) (Option.some_get ?_).symm
    ?_ ?_ wechatRoute (wechatText "m2" 1700001800200)
    ⟨1, ⟨wechatRoute, wechatText "m2" 1700001800200, .returned (.ok ())⟩, ?_, rfl, rfl, rfl⟩) ?_) ?_
  · decide +kernel
  · decide +kernel
  · decide
  · decide +kernel
  · decide +kernel
  · decide +kernel
  · decide +kernel

end MagicLaw.Routing
