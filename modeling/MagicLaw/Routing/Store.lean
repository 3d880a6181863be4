import MagicLaw.Routing.ReorderWindow
import MagicLaw.Lib.KeyedTable
import MagicLaw.Lib.Machine

/-!
# The conversation store as a machine

`ConversationStore` of `adapters/conversation_store.rs`: the map from routes
to handles, one worker task for each spawned channel, the calls of `enqueue`
and `collect_idle` that are in progress, and the states that were persisted.

An action is one step of one of them, between which the others may take
theirs: a section under the lock of the map, a `try_send`, a persist, a branch
of the worker's `select!`, the start and the return of `pipeline.run`.

* A channel is known by the number of its worker.  It is open as long as the
  worker runs, and `recv` yields `None` when its queue is empty and neither the
  map nor a call in progress holds a sender of it.
* An `Instant` is the number of milliseconds that have passed.
* The store has a pipeline and a state repository, as the runtime builds it.
  A worker ends when its channel closes, or when `pipeline.run` panics.
-/

namespace MagicLaw.Routing

open Lib Lib.Machine

/-! ## The aggregate -/

inductive ConversationState where
  | active | idle | closed
  deriving DecidableEq, Repr

/-- `Conversation`, the aggregate of one worker. -/
structure Conversation where
  routeKey : RouteKey
  state : ConversationState
  reorderWindow : ReorderWindow
  lastActive : Nat

def Conversation.new (routeKey : RouteKey) (reorderWindowMs : UInt64) (now : Nat) :
    Conversation where
  routeKey := routeKey
  state := .active
  reorderWindow := ReorderWindow.new reorderWindowMs
  lastActive := now

def Conversation.touch (conversation : Conversation) (now : Nat) : Conversation :=
  { conversation with
    lastActive := now
    state := if conversation.state = .idle then .active else conversation.state }

/-- `ingest`, where the system clock shows `nowMs`. -/
def Conversation.ingest (conversation : Conversation) (msg : Message) (now : Nat)
    (nowMs : Int64) : List Message × Conversation :=
  let touched := conversation.touch now
  let (ready, window) := touched.reorderWindow.insert msg nowMs
  (ready, { touched with reorderWindow := window })

def Conversation.drain (conversation : Conversation) : List Message × Conversation :=
  let (drained, window) := conversation.reorderWindow.flushAll
  (drained, { conversation with reorderWindow := window })

/-! ## Workers -/

/-- What a worker task is doing. -/
inductive Task where
  /-- in `select!`, with a timer that was started at `since` -/
  | waiting (since : Nat)
  /-- in the loop over released messages; `received` in the branch of `recv` -/
  | batch (pending : List Message) (received : Bool)
  /-- in `pipeline.run` -/
  | running (msg : Message) (pending : List Message) (received : Bool)
  | exited
  | panicked

/-- A worker task and the receiving end of its channel. -/
structure Worker where
  routeKey : RouteKey
  queue : List Message
  conversation : Conversation
  task : Task

/-- The task still runs, and its channel is open. -/
def Worker.alive (worker : Worker) : Bool :=
  match worker.task with
  | .exited | .panicked => false
  | .waiting _ | .batch _ _ | .running _ _ _ => true

/-- The messages that the task has taken out of the window and not yet passed
to `pipeline.run`. -/
def Task.messages : Task → List Message
  | .batch pending _ | .running _ pending _ => pending
  | .waiting _ | .exited | .panicked => []

/-- The worker holds no message. -/
def Worker.isEmpty (worker : Worker) : Bool :=
  worker.queue.isEmpty && worker.conversation.reorderWindow.isEmpty &&
    worker.task.messages.isEmpty

structure Config where
  perRouteBuffer : Nat
  reorderWindowMs : UInt64
  /-- `mpsc::channel` takes no other buffer -/
  perRouteBuffer_pos : 0 < perRouteBuffer

/-- `BackpressureConfig::default` and `default_reorder_window_ms`. -/
def defaultConfig : Config where
  perRouteBuffer := 256
  reorderWindowMs := 200
  perRouteBuffer_pos := by decide

def Config.flushInterval (config : Config) : Nat := max config.reorderWindowMs.toNat 1

/-- The task that `spawn_worker` starts. -/
def Worker.spawn (config : Config) (key : RouteKey) (now : Nat) : Worker where
  routeKey := key
  queue := []
  conversation := Conversation.new key config.reorderWindowMs now
  task := .waiting now

/-! ## Calls -/

inductive EnqueueError where
  | queueFull (messageId : String)
  deriving DecidableEq

/-- Where a call of `enqueue` is. -/
inductive EnqueuePc where
  /-- before the fast path of `get_or_create_tx` -/
  | start
  | slowPath
  | persistActive (tx : Nat)
  | trySend (tx : Nat)
  /-- the channel was closed: before the second `spawn_worker` -/
  | respawn
  | insertRespawned (tx : Nat)
  | persistRespawned (tx : Nat)
  | sendRespawned (tx : Nat)
  | returned (result : Except EnqueueError Unit)
  deriving DecidableEq

/-- The sender that the call holds. -/
def EnqueuePc.tx? : EnqueuePc → Option Nat
  | .persistActive tx | .trySend tx => some tx
  | .insertRespawned tx | .persistRespawned tx | .sendRespawned tx => some tx
  | .start | .slowPath | .respawn | .returned _ => none

structure EnqueueCall where
  key : RouteKey
  msg : Message
  pc : EnqueuePc
  deriving DecidableEq

/-- A call of `collect_idle` after its section under the lock: the keys that
are still to be persisted, and the count to return. -/
structure Collection where
  toPersist : List RouteKey
  reclaimed : Nat

/-! ## The store -/

/-- An entry of the map: `ConversationHandle` under its key. -/
structure ConversationHandle where
  key : RouteKey
  tx : Nat
  lastActive : Nat

def ConversationHandle.touch (now : Nat) (handle : ConversationHandle) : ConversationHandle :=
  { handle with lastActive := now }

theorem ConversationHandle.touch_key (now : Nat) (handle : ConversationHandle) :
    (handle.touch now).key = handle.key := rfl

/-- The store, the tasks it has spawned, the calls on it, and what the repository
holds.  `passed` are the messages given to `pipeline.run`, the newest first. -/
structure Store where
  clock : Nat
  routes : KeyedTable ConversationHandle.key
  workers : List Worker
  calls : List EnqueueCall
  collections : List Collection
  persisted : RouteKey → Option ConversationState
  passed : List (RouteKey × Message)

def Store.init : Store where
  clock := 0
  routes := KeyedTable.empty
  workers := []
  calls := []
  collections := []
  persisted := fun _ => none
  passed := []

/-- `persist_state`: a failed upsert is logged. -/
def Store.persistState (s : Store) (key : RouteKey) (state : ConversationState)
    (stored : Bool) : Store :=
  if stored then
    { s with persisted := fun key' => if key' = key then some state else s.persisted key' }
  else s

/-- `spawn_worker`, whose channel is the next number. -/
def Store.spawnWorker (s : Store) (config : Config) (key : RouteKey) : Store :=
  { s with workers := s.workers ++ [Worker.spawn config key s.clock] }

/-- `routes.insert`. -/
def Store.insertHandle (s : Store) (key : RouteKey) (tx : Nat) : Store :=
  { s with routes := s.routes.upsert ⟨key, tx, s.clock⟩ }

/-- `handle.last_active = Instant::now()`, if the route has a handle. -/
def Store.touchHandle (s : Store) (key : RouteKey) : Store :=
  { s with
    routes := s.routes.update key (.touch s.clock) (ConversationHandle.touch_key s.clock) }

/-- What `try_send` finds. -/
inductive TrySend where
  | sent | full | closed
  deriving DecidableEq

def Store.trySend (s : Store) (config : Config) (tx : Nat) : TrySend :=
  match s.workers[tx]? with
  | none => .closed
  | some worker =>
    if !worker.alive then .closed
    else if worker.queue.length < config.perRouteBuffer then .sent
    else .full

/-- The message is put into the queue. -/
def Store.push (s : Store) (tx : Nat) (msg : Message) : Store :=
  { s with workers := s.workers.modify tx fun w => { w with queue := w.queue ++ [msg] } }

def Store.setPc (s : Store) (i : Nat) (pc : EnqueuePc) : Store :=
  { s with calls := s.calls.modify i fun c => { c with pc := pc } }

/-- The next step of a call of `enqueue`.  `stored` says whether a persist
works. -/
def Store.stepCall (config : Config) (s : Store) (i : Nat) (call : EnqueueCall)
    (stored : Bool) : Option Store :=
  match call.pc with
  | .start =>
    match s.routes.find? call.key with
    | some handle => some (s.setPc i (.trySend handle.tx))
    | none => some (s.setPc i .slowPath)
  | .slowPath =>
    match s.routes.find? call.key with
    | some handle => some (s.setPc i (.trySend handle.tx))
    | none =>
      let tx := s.workers.length
      some (((s.spawnWorker config call.key).insertHandle call.key tx).setPc i (.persistActive tx))
  | .persistActive tx =>
    some ((s.persistState call.key .active stored).setPc i (.trySend tx))
  | .trySend tx =>
    match s.trySend config tx with
    | .sent => some ((s.push tx call.msg).setPc i (.returned (.ok ())))
    | .full => some (s.setPc i (.returned (.error (.queueFull call.msg.id))))
    | .closed => some (s.setPc i .respawn)
  | .respawn =>
    some ((s.spawnWorker config call.key).setPc i (.insertRespawned s.workers.length))
  | .insertRespawned tx => some ((s.insertHandle call.key tx).setPc i (.persistRespawned tx))
  | .persistRespawned tx =>
    some ((s.persistState call.key .active stored).setPc i (.sendRespawned tx))
  | .sendRespawned tx =>
    match s.trySend config tx with
    | .sent => some ((s.push tx call.msg).setPc i (.returned (.ok ())))
    | .full | .closed => some (s.setPc i (.returned (.ok ())))
  | .returned _ => none

/-- The section of `collect_idle` under the lock. -/
def Store.collectIdle (s : Store) (idleTimeoutSecs : Nat) : Store :=
  let idle : ConversationHandle → Bool := fun handle =>
    idleTimeoutSecs * 1000 < s.clock - handle.lastActive
  let reclaimedKeys := (s.routes.select idle).map ConversationHandle.key
  { s with
    routes := s.routes.retain fun handle => !idle handle
    collections := s.collections ++ [⟨reclaimedKeys, reclaimedKeys.length⟩] }

/-- The next persist of a call of `collect_idle`. -/
def Store.stepCollection (s : Store) (j : Nat) (collection : Collection) (stored : Bool) :
    Option Store :=
  match collection.toPersist with
  | [] => none
  | key :: keys =>
    let s' := s.persistState key .closed stored
    some { s' with collections := s'.collections.set j { collection with toPersist := keys } }

/-- The map or a call in progress holds a sender of the channel. -/
def Store.hasSender (s : Store) (tx : Nat) : Bool :=
  s.routes.rows.any (fun handle => handle.tx = tx) ||
    s.calls.any (fun call => call.pc.tx? = some tx)

def Store.setWorker (s : Store) (w : Nat) (worker : Worker) : Store :=
  { s with workers := s.workers.set w worker }

/-- What a worker may do next. -/
inductive WorkerStep where
  /-- `recv` yields a message; the system clock shows `nowMs` -/
  | recv (nowMs : Int64)
  /-- `recv` yields `None` -/
  | close
  /-- the timer fires -/
  | flush
  | runPipeline
  | pipelineReturns
  /-- `pipeline.run` panics -/
  | panic
  /-- the loop over the released messages is done -/
  | batchDone

def Store.stepWorker (config : Config) (s : Store) (w : Nat) (worker : Worker) :
    WorkerStep → Option Store
  | .recv nowMs =>
    match worker.task, worker.queue with
    | .waiting _, msg :: queue =>
      let (ordered, conversation) := (worker.conversation.touch s.clock).ingest msg s.clock nowMs
      some (s.setWorker w { worker with
        queue := queue
        conversation := conversation
        task := .batch ordered true })
    | _, _ => none
  | .close =>
    match worker.task, worker.queue with
    | .waiting _, [] =>
      if s.hasSender w then none
      else
        -- the drained messages are logged
        let (_, conversation) := worker.conversation.drain
        some (s.setWorker w { worker with conversation := conversation, task := .exited })
    | _, _ => none
  | .flush =>
    match worker.task with
    | .waiting since =>
      if since + config.flushInterval ≤ s.clock then
        let (pending, conversation) := worker.conversation.drain
        some (s.setWorker w { worker with
          conversation := conversation
          task := .batch pending false })
      else none
    | _ => none
  | .runPipeline =>
    match worker.task with
    | .batch (msg :: pending) received =>
      let s' := s.setWorker w { worker with task := .running msg pending received }
      some { s' with passed := (worker.routeKey, msg) :: s.passed }
    | _ => none
  | .pipelineReturns =>
    match worker.task with
    | .running _ pending received =>
      some (s.setWorker w { worker with task := .batch pending received })
    | _ => none
  | .panic =>
    match worker.task with
    | .running _ _ _ => some (s.setWorker w { worker with task := .panicked })
    | _ => none
  | .batchDone =>
    match worker.task with
    | .batch [] received =>
      let s' := s.setWorker w { worker with task := .waiting s.clock }
      some (if received then s'.touchHandle worker.routeKey else s')
    | _ => none

inductive StoreAction where
  /-- time passes -/
  | advance (ms : Nat)
  | enqueue (key : RouteKey) (msg : Message)
  | call (i : Nat) (stored : Bool)
  | collectIdle (idleTimeoutSecs : Nat)
  | collection (j : Nat) (stored : Bool)
  | worker (w : Nat) (step : WorkerStep)

def Store.step (config : Config) (s : Store) : StoreAction → Option Store
  | .advance ms => some { s with clock := s.clock + ms }
  | .enqueue key msg => some { s with calls := s.calls ++ [⟨key, msg, .start⟩] }
  | .call i stored =>
    match s.calls[i]? with
    | none => none
    | some call => s.stepCall config i call stored
  | .collectIdle idleTimeoutSecs => some (s.collectIdle idleTimeoutSecs)
  | .collection j stored =>
    match s.collections[j]? with
    | none => none
    | some collection => s.stepCollection j collection stored
  | .worker w step =>
    match s.workers[w]? with
    | none => none
    | some worker => s.stepWorker config w worker step

/-! ## The parts of a step -/

theorem getElem?_setPc (s : Store) (i : Nat) (pc : EnqueuePc) (j : Nat) :
    (s.setPc i pc).calls[j]? =
      (s.calls[j]?).map fun c => if i = j then { c with pc := pc } else c := by
  unfold Store.setPc
  rw [List.getElem?_modify]
  cases s.calls[j]? with
  | none => rfl
  | some c => by_cases h : i = j <;> simp [h]

/-- A call keeps its route and its message. -/
theorem call_of_setPc {s : Store} {i : Nat} {pc : EnqueuePc} {j : Nat} {c : EnqueueCall}
    (hc : (s.setPc i pc).calls[j]? = some c) :
    ∃ c₀, s.calls[j]? = some c₀ ∧ c.key = c₀.key ∧ c.msg = c₀.msg := by
  rw [getElem?_setPc] at hc
  obtain ⟨c₀, hc₀, rfl⟩ := Option.map_eq_some_iff.mp hc
  by_cases hij : i = j
  · rw [if_pos hij]
    exact ⟨c₀, hc₀, rfl, rfl⟩
  · rw [if_neg hij]
    exact ⟨c₀, hc₀, rfl, rfl⟩

theorem getElem?_push (s : Store) (tx : Nat) (msg : Message) (j : Nat) :
    (s.push tx msg).workers[j]? = (s.workers[j]?).map fun w =>
      if tx = j then { w with queue := w.queue ++ [msg] } else w := by
  unfold Store.push
  rw [List.getElem?_modify]
  cases s.workers[j]? with
  | none => rfl
  | some w => by_cases h : tx = j <;> simp [h]

theorem getElem?_push_of_eq_some {s : Store} {j : Nat} {worker : Worker}
    (h : s.workers[j]? = some worker) (tx : Nat) (msg : Message) :
    (s.push tx msg).workers[j]? =
      some (if tx = j then { worker with queue := worker.queue ++ [msg] } else worker) := by
  rw [getElem?_push, h, Option.map_some]

theorem getElem?_spawnWorker_length (s : Store) (config : Config) (key : RouteKey) :
    (s.spawnWorker config key).workers[s.workers.length]? =
      some (Worker.spawn config key s.clock) :=
  List.getElem?_concat_length

theorem getElem?_spawnWorker_of_eq_some {s : Store} {j : Nat} {worker : Worker}
    (h : s.workers[j]? = some worker) (config : Config) (key : RouteKey) :
    (s.spawnWorker config key).workers[j]? = some worker := by
  have hlt : j < s.workers.length := (List.getElem?_eq_some_iff.mp h).1
  exact (List.getElem?_append_left hlt).trans h

/-- A worker was there before, or it is the new one. -/
theorem getElem?_spawnWorker_cases {s : Store} {config : Config} {key : RouteKey} {j : Nat}
    {worker : Worker} (h : (s.spawnWorker config key).workers[j]? = some worker) :
    s.workers[j]? = some worker ∨
      (j = s.workers.length ∧ worker = Worker.spawn config key s.clock) := by
  have h : (s.workers ++ [Worker.spawn config key s.clock])[j]? = some worker := h
  by_cases hlt : j < s.workers.length
  · rw [List.getElem?_append_left hlt] at h
    exact Or.inl h
  · rw [List.getElem?_append_right (by omega), List.getElem?_singleton] at h
    obtain ⟨hj, hnew⟩ := Option.ite_none_right_eq_some.mp h
    exact Or.inr ⟨by omega, (Option.some.inj hnew).symm⟩

theorem find?_insertHandle (s : Store) (key : RouteKey) (tx : Nat) (key' : RouteKey) :
    (s.insertHandle key tx).routes.find? key' =
      if key' = key then some ⟨key, tx, s.clock⟩ else s.routes.find? key' :=
  KeyedTable.find?_upsert s.routes ⟨key, tx, s.clock⟩ key'

theorem find?_touchHandle (s : Store) (key key' : RouteKey) :
    (s.touchHandle key).routes.find? key' =
      if key' = key then (s.routes.find? key).map (.touch s.clock) else s.routes.find? key' :=
  KeyedTable.find?_update s.routes key _ (ConversationHandle.touch_key s.clock) key'

/-! ## What the steps can do -/

/-- The steps of a call of `enqueue`, with what each of them found. -/
inductive CallMove (config : Config) (s : Store) (i : Nat) (call : EnqueueCall) : Store → Prop where
  | found (handle : ConversationHandle) (hpc : call.pc = .start ∨ call.pc = .slowPath)
      (hfind : s.routes.find? call.key = some handle) :
      CallMove config s i call (s.setPc i (.trySend handle.tx))
  | missed (hpc : call.pc = .start) : CallMove config s i call (s.setPc i .slowPath)
  | spawned (hpc : call.pc = .slowPath) (hfind : s.routes.find? call.key = none) :
      CallMove config s i call
        (((s.spawnWorker config call.key).insertHandle call.key s.workers.length).setPc i
          (.persistActive s.workers.length))
  | persisted (tx : Nat) (stored : Bool) (hpc : call.pc = .persistActive tx) :
      CallMove config s i call
        ((s.persistState call.key .active stored).setPc i (.trySend tx))
  | sent (tx : Nat) (hpc : call.pc = .trySend tx ∨ call.pc = .sendRespawned tx)
      (hsend : s.trySend config tx = .sent) :
      CallMove config s i call ((s.push tx call.msg).setPc i (.returned (.ok ())))
  | full (tx : Nat) (hpc : call.pc = .trySend tx) :
      CallMove config s i call (s.setPc i (.returned (.error (.queueFull call.msg.id))))
  | closed (tx : Nat) (hpc : call.pc = .trySend tx) (hsend : s.trySend config tx = .closed) :
      CallMove config s i call (s.setPc i .respawn)
  | respawned (hpc : call.pc = .respawn) :
      CallMove config s i call
        ((s.spawnWorker config call.key).setPc i (.insertRespawned s.workers.length))
  | inserted (tx : Nat) (hpc : call.pc = .insertRespawned tx) :
      CallMove config s i call ((s.insertHandle call.key tx).setPc i (.persistRespawned tx))
  | persistedAgain (tx : Nat) (stored : Bool) (hpc : call.pc = .persistRespawned tx) :
      CallMove config s i call
        ((s.persistState call.key .active stored).setPc i (.sendRespawned tx))
  | dropped (tx : Nat) (hpc : call.pc = .sendRespawned tx)
      (hsend : s.trySend config tx ≠ .sent) :
      CallMove config s i call (s.setPc i (.returned (.ok ())))

theorem callMove_of_stepCall {config : Config} {s s' : Store} {i : Nat} {call : EnqueueCall}
    {stored : Bool} (h : s.stepCall config i call stored = some s') :
    CallMove config s i call s' := by
  unfold Store.stepCall at h
  cases hpc : call.pc with
  | start =>
    cases hfind : s.routes.find? call.key with
    | some handle =>
      simp only [hpc, hfind, Option.some.injEq] at h
      exact h ▸ .found handle (Or.inl hpc) hfind
    | none =>
      simp only [hpc, hfind, Option.some.injEq] at h
      exact h ▸ .missed hpc
  | slowPath =>
    cases hfind : s.routes.find? call.key with
    | some handle =>
      simp only [hpc, hfind, Option.some.injEq] at h
      exact h ▸ .found handle (Or.inr hpc) hfind
    | none =>
      simp only [hpc, hfind, Option.some.injEq] at h
      exact h ▸ .spawned hpc hfind
  | persistActive tx =>
    simp only [hpc, Option.some.injEq] at h
    exact h ▸ .persisted tx stored hpc
  | trySend tx =>
    cases hsend : s.trySend config tx with
    | sent =>
      simp only [hpc, hsend, Option.some.injEq] at h
      exact h ▸ .sent tx (Or.inl hpc) hsend
    | full =>
      simp only [hpc, hsend, Option.some.injEq] at h
      exact h ▸ .full tx hpc
    | closed =>
      simp only [hpc, hsend, Option.some.injEq] at h
      exact h ▸ .closed tx hpc hsend
  | respawn =>
    simp only [hpc, Option.some.injEq] at h
    exact h ▸ .respawned hpc
  | insertRespawned tx =>
    simp only [hpc, Option.some.injEq] at h
    exact h ▸ .inserted tx hpc
  | persistRespawned tx =>
    simp only [hpc, Option.some.injEq] at h
    exact h ▸ .persistedAgain tx stored hpc
  | sendRespawned tx =>
    cases hsend : s.trySend config tx with
    | sent =>
      simp only [hpc, hsend, Option.some.injEq] at h
      exact h ▸ .sent tx (Or.inr hpc) hsend
    | full | closed =>
      simp only [hpc, hsend, Option.some.injEq] at h
      exact h ▸ .dropped tx hpc (by simp [hsend])
  | returned r => simp [hpc] at h

/-- The steps of a worker, with what each of them found. -/
inductive WorkerMove (s : Store) (w : Nat) (worker : Worker) : WorkerStep → Store → Prop where
  | recv (nowMs : Int64) (since : Nat) (msg : Message) (queue : List Message)
      (htask : worker.task = .waiting since) (hqueue : worker.queue = msg :: queue) :
      WorkerMove s w worker (.recv nowMs) (s.setWorker w { worker with
        queue := queue
        conversation := ((worker.conversation.touch s.clock).ingest msg s.clock nowMs).2
        task := .batch ((worker.conversation.touch s.clock).ingest msg s.clock nowMs).1 true })
  | close (since : Nat) (htask : worker.task = .waiting since) (hqueue : worker.queue = [])
      (hsender : s.hasSender w = false) :
      WorkerMove s w worker .close (s.setWorker w { worker with
        conversation := worker.conversation.drain.2
        task := .exited })
  | flush (since : Nat) (htask : worker.task = .waiting since) :
      WorkerMove s w worker .flush (s.setWorker w { worker with
        conversation := worker.conversation.drain.2
        task := .batch worker.conversation.drain.1 false })
  | runPipeline (msg : Message) (pending : List Message) (received : Bool)
      (htask : worker.task = .batch (msg :: pending) received) :
      WorkerMove s w worker .runPipeline
        { s.setWorker w { worker with task := .running msg pending received } with
          passed := (worker.routeKey, msg) :: s.passed }
  | pipelineReturns (msg : Message) (pending : List Message) (received : Bool)
      (htask : worker.task = .running msg pending received) :
      WorkerMove s w worker .pipelineReturns
        (s.setWorker w { worker with task := .batch pending received })
  | panic (msg : Message) (pending : List Message) (received : Bool)
      (htask : worker.task = .running msg pending received) :
      WorkerMove s w worker .panic (s.setWorker w { worker with task := .panicked })
  | batchDone (htask : worker.task = .batch [] false) :
      WorkerMove s w worker .batchDone (s.setWorker w { worker with task := .waiting s.clock })
  | receivedDone (htask : worker.task = .batch [] true) :
      WorkerMove s w worker .batchDone
        ((s.setWorker w { worker with task := .waiting s.clock }).touchHandle worker.routeKey)

theorem workerMove_of_stepWorker {config : Config} {s s' : Store} {w : Nat} {worker : Worker}
    {step : WorkerStep} (h : s.stepWorker config w worker step = some s') :
    WorkerMove s w worker step s' := by
  unfold Store.stepWorker at h
  cases step with
  | recv nowMs =>
    cases htask : worker.task with
    | waiting since =>
      cases hqueue : worker.queue with
      | nil => simp [htask, hqueue] at h
      | cons msg queue =>
        simp only [htask, hqueue, Option.some.injEq] at h
        exact h ▸ .recv nowMs since msg queue htask hqueue
    | batch _ _ | running _ _ _ | exited | panicked => simp [htask] at h
  | close =>
    cases htask : worker.task with
    | waiting since =>
      cases hqueue : worker.queue with
      | cons msg queue => simp [htask, hqueue] at h
      | nil =>
        by_cases hsender : s.hasSender w = true
        · simp [htask, hqueue, hsender] at h
        · rw [Bool.not_eq_true] at hsender
          simp only [htask, hqueue, hsender, Bool.false_eq_true, if_false, Option.some.injEq] at h
          have hmove := WorkerMove.close since htask hqueue hsender
          rw [hqueue] at hmove
          exact h ▸ hmove
    | batch _ _ | running _ _ _ | exited | panicked => simp [htask] at h
  | flush =>
    cases htask : worker.task with
    | waiting since =>
      by_cases hdue : since + config.flushInterval ≤ s.clock
      · simp only [htask, hdue, if_true, Option.some.injEq] at h
        exact h ▸ .flush since htask
      · simp [htask, hdue] at h
    | batch _ _ | running _ _ _ | exited | panicked => simp [htask] at h
  | runPipeline =>
    cases htask : worker.task with
    | batch pending received =>
      cases pending with
      | nil => simp [htask] at h
      | cons msg pending =>
        simp only [htask, Option.some.injEq] at h
        exact h ▸ .runPipeline msg pending received htask
    | waiting _ | running _ _ _ | exited | panicked => simp [htask] at h
  | pipelineReturns =>
    cases htask : worker.task with
    | running msg pending received =>
      simp only [htask, Option.some.injEq] at h
      exact h ▸ .pipelineReturns msg pending received htask
    | waiting _ | batch _ _ | exited | panicked => simp [htask] at h
  | panic =>
    cases htask : worker.task with
    | running msg pending received =>
      simp only [htask, Option.some.injEq] at h
      exact h ▸ .panic msg pending received htask
    | waiting _ | batch _ _ | exited | panicked => simp [htask] at h
  | batchDone =>
    cases htask : worker.task with
    | batch pending received =>
      cases pending with
      | cons msg pending => simp [htask] at h
      | nil =>
        cases received with
        | true =>
          simp only [htask, if_true, Option.some.injEq] at h
          exact h ▸ .receivedDone htask
        | false =>
          simp only [htask, Bool.false_eq_true, if_false, Option.some.injEq] at h
          exact h ▸ .batchDone htask
    | waiting _ | running _ _ _ | exited | panicked => simp [htask] at h

/-- The steps of the store, with what each of them found. -/
inductive StoreMove (config : Config) (s : Store) : StoreAction → Store → Prop where
  | advance (ms : Nat) : StoreMove config s (.advance ms) { s with clock := s.clock + ms }
  | enqueue (key : RouteKey) (msg : Message) :
      StoreMove config s (.enqueue key msg) { s with calls := s.calls ++ [⟨key, msg, .start⟩] }
  | call (i : Nat) (stored : Bool) (call : EnqueueCall) (s' : Store)
      (hcall : s.calls[i]? = some call) (hmove : CallMove config s i call s') :
      StoreMove config s (.call i stored) s'
  | collectIdle (idleTimeoutSecs : Nat) :
      StoreMove config s (.collectIdle idleTimeoutSecs) (s.collectIdle idleTimeoutSecs)
  | collection (j : Nat) (stored : Bool) (key : RouteKey) (collections : List Collection) :
      StoreMove config s (.collection j stored)
        { s.persistState key .closed stored with collections := collections }
  | worker (w : Nat) (step : WorkerStep) (worker : Worker) (s' : Store)
      (hworker : s.workers[w]? = some worker) (hmove : WorkerMove s w worker step s') :
      StoreMove config s (.worker w step) s'

theorem storeMove_of_step {config : Config} {s s' : Store} {action : StoreAction}
    (h : s.step config action = some s') : StoreMove config s action s' := by
  unfold Store.step at h
  cases action with
  | advance ms => exact Option.some.inj h ▸ .advance ms
  | enqueue key msg => exact Option.some.inj h ▸ .enqueue key msg
  | call i stored =>
    cases hcall : s.calls[i]? with
    | none => simp [hcall] at h
    | some call =>
      simp only [hcall] at h
      exact .call i stored call s' hcall (callMove_of_stepCall h)
  | collectIdle idleTimeoutSecs => exact Option.some.inj h ▸ .collectIdle idleTimeoutSecs
  | collection j stored =>
    cases hcollection : s.collections[j]? with
    | none => simp [hcollection] at h
    | some collection =>
      simp only [hcollection] at h
      unfold Store.stepCollection at h
      cases hkeys : collection.toPersist with
      | nil => simp [hkeys] at h
      | cons key keys =>
        simp only [hkeys, Option.some.injEq] at h
        exact h ▸ .collection j stored key _
  | worker w step =>
    cases hworker : s.workers[w]? with
    | none => simp [hworker] at h
    | some worker =>
      simp only [hworker] at h
      exact .worker w step worker s' hworker (workerMove_of_stepWorker h)

/-! ## A route and its messages -/

def wechatRoute : RouteKey where
  channel := ⟨"wechat"⟩
  conversationId := "c1"
  peerId := "user_a"
  conversationType := .direct

/-- A message without a sequence, which the route orders by its time. -/
def wechatText (id : String) (timestampMs : Int64) : Message :=
  Message.newInbound id wechatRoute none timestampMs (.text "hi")

/-- The first message of a route, from `enqueue` to the return of `pipeline.run`. -/
def firstMessage : List StoreAction :=
  [.enqueue wechatRoute (wechatText "m1" 1700000000000), .call 0 true, .call 0 true, .call 0 true,
    .call 0 true, .worker 0 (.recv 1700000000000), .worker 0 .batchDone, .advance 200,
    .worker 0 .flush, .worker 0 .runPipeline, .worker 0 .pipelineReturns, .worker 0 .batchDone]

end MagicLaw.Routing
