import MagicLaw.Lib.Channel
import MagicLaw.Lib.Machine
import MagicLaw.Mcp.Tools
import MagicLaw.Mcp.Transport

/-!
# A session of the MCP server

`adapters/mcp/handler.rs` and `McpServer::run` of `adapters/mcp/server.rs`.
The thread of the transport reads standard input and sends the messages over a
channel of 256 places; the task of the server takes them, answers the requests
on standard output, and ends when the channel is closed.  Meanwhile the worker
and other processes write to the outbox, and enqueue messages of their own.

* `session_answers`: whatever the interleaving, the server takes the messages
  that the transport reads before its first error, in their order, none twice
  and none left out, and the client reads one answer for each request, in this
  order and with its id.
* `session_submissions`: the accepted sends leave a row each, and every other
  row is one of before, a replay, or one that another writer has inserted.
-/

namespace MagicLaw.Mcp

open Lib Lib.Bytes Lib.Channel Lib.Machine
open MagicLaw.Outbox (OutboxEntry)
open MagicLaw.Routing (ConversationType RouteKey)

/-! ## The handler -/

structure ProtocolHandler where
  serverName : String
  serverVersion : String

namespace ProtocolHandler

variable (handler : ProtocolHandler)

def handleInitialize (id : Json) : JsonRpcResponse :=
  .success id (.obj
    [("capabilities", .obj [("tools", .obj [])]),
      ("protocolVersion", .str "2024-11-05"),
      ("serverInfo", .obj
        [("name", .str handler.serverName), ("version", .str handler.serverVersion)])])

def handleToolsList (id : Json) : JsonRpcResponse :=
  .success id (.obj [("tools", .arr (allTools.map ToolDef.toJson))])

/-- The tool that is called and its arguments. -/
def toolCall (params : Option Json) : Except String (String × Json) :=
  match params with
  | none => .error "missing params"
  | some params =>
    match params.str? "name" with
    | none => .error "missing tool name"
    | some toolName => .ok (toolName, (params.get? "arguments").getD .null)

/-- The one block of text in an answer. -/
def textContent (text : String) : Json := .arr [.obj [("text", .str text), ("type", .str "text")]]

/-- The answer with the result of a tool. -/
def toolResponse (serde : Serde) (id : Json) : Except String Json → JsonRpcResponse
  | .ok result => .success id (.obj [("content", textContent (serde.toString result))])
  | .error e =>
    .success id (.obj [("content", textContent s!"error: {e}"), ("isError", .bool true)])

def handleToolsCall (serde : Serde) (env : Surroundings) (id : Json) (params : Option Json)
    (outbox : Outbox.World) : JsonRpcResponse × Outbox.World :=
  match toolCall params with
  | .error message => (.errorResponse id invalidParams message, outbox)
  | .ok (toolName, args) =>
    let (result, outbox) := dispatch serde env toolName args outbox
    (toolResponse serde id result, outbox)

/-- The answer to a request, and the outbox after it. -/
def handleRequest (serde : Serde) (env : Surroundings) (request : JsonRpcRequest)
    (outbox : Outbox.World) : JsonRpcResponse × Outbox.World :=
  if request.method = methodInitialize then (handler.handleInitialize request.id, outbox)
  else if request.method = methodToolsList then (handleToolsList request.id, outbox)
  else if request.method = methodToolsCall then
    handleToolsCall serde env request.id request.params outbox
  else
    (.errorResponse request.id methodNotFound s!"unknown method: {request.method}", outbox)

end ProtocolHandler

open ProtocolHandler

/-! ## What a request does -/

/-- The arguments and the entry of a request that is accepted for delivery. -/
def JsonRpcRequest.submission? (serde : Serde) (env : Surroundings) (request : JsonRpcRequest) :
    Option (SendArgs × OutboxEntry) :=
  if request.method = methodToolsCall then
    match toolCall request.params with
    | .error _ => none
    | .ok (toolName, args) => Mcp.submission? serde.columns env toolName args
  else none

section Requests

variable (handler : ProtocolHandler) {serde : Serde} {env : Surroundings}
  {request : JsonRpcRequest} (outbox : Outbox.World)

theorem id_toolResponse (id : Json) (result : Except String Json) :
    (toolResponse serde id result).id = id := by
  cases result <;> rfl

theorem id_handleRequest :
    (handler.handleRequest serde env request outbox).1.id = request.id := by
  unfold handleRequest
  split_ifs
  · rfl
  · rfl
  · unfold handleToolsCall
    split
    · rfl
    · exact id_toolResponse _ _
  · rfl

theorem handleRequest_submission {args : SendArgs} {entry : OutboxEntry}
    (h : request.submission? serde env = some (args, entry)) :
    handler.handleRequest serde env request outbox =
      (toolResponse serde request.id (.ok (sendReport args entry.id)), outbox.enqueue entry) := by
  obtain ⟨hmethod, hcall⟩ := Option.ite_none_right_eq_some.mp h
  have hinitialize : request.method ≠ methodInitialize := by rw [hmethod]; decide
  have hlist : request.method ≠ methodToolsList := by rw [hmethod]; decide
  unfold handleRequest handleToolsCall
  rw [if_neg hinitialize, if_neg hlist, if_pos hmethod]
  split at hcall
  · cases hcall
  · simp only [dispatch_submission hcall]

theorem handleRequest_of_none (h : request.submission? serde env = none) :
    (handler.handleRequest serde env request outbox).2 = outbox := by
  unfold handleRequest
  split_ifs with hinitialize hlist hcall
  · rfl
  · rfl
  · rw [JsonRpcRequest.submission?, if_pos hcall] at h
    unfold handleToolsCall
    split at h
    · rfl
    · exact dispatch_of_none h outbox
  · rfl

end Requests

/-! ## The machine -/

/-- `serde_json::from_str::<JsonRpcMessage>` -/
def Serde.message? (serde : Serde) (raw : String) : Option JsonRpcMessage :=
  (serde.fromStr raw).bind JsonRpcMessage.ofJson

/-- One round of the transport: a body is read, and it is a message or is
logged.  The thread ends at the end of the input and at an error. -/
def readMessage (serde : Serde) (input : List UInt8) :
    Option (Option JsonRpcMessage × List UInt8) :=
  match readFramedOrJsonLine input with
  | .ok (some (raw, rest)) => some (serde.message? raw, rest)
  | .ok none | .error _ => none

/-- The messages of an input, in its order, up to the first error of the
reader: the transport ends there, so what comes after a body that is no text
is not read. -/
def messagesOf (serde : Serde) (input : List UInt8) : List JsonRpcMessage :=
  (runBlocking serde.message? (fun _ => true) [] input).1

/-- `mpsc::channel::<JsonRpcMessage>(256)` -/
def channelCapacity : Nat := 256

/-- A message that the server took, what it met, and the answer. -/
structure Exchange where
  message : JsonRpcMessage
  env : Surroundings
  response? : Option JsonRpcResponse

/-- The state of the process, with its standard output, the database, and the
exchanges so far. -/
structure Session where
  link : Link (List UInt8) JsonRpcMessage
  stopped : Bool
  stdout : List UInt8
  outbox : Outbox.World
  served : List Exchange

def Session.start (input : List UInt8) (outbox : Outbox.World) : Session :=
  ⟨Link.start input, false, [], outbox, []⟩

inductive Action where
  /-- the transport reads a body -/
  | read
  /-- `blocking_send` finds a place in the channel -/
  | send
  /-- the server takes a message -/
  | serve (env : Surroundings)
  /-- the channel is closed, and the server ends -/
  | stop
  /-- a statement of the worker or of a replay -/
  | other (call : Outbox.Call) (outcome : Outbox.Outcome)
  /-- the row of a push job, of the pipeline, or of another send -/
  | enqueue (entry : OutboxEntry)

/-- What `write_response` writes. -/
def Serde.written (serde : Serde) (response : JsonRpcResponse) : List UInt8 :=
  asBytes (framed (serde.toString response.toJson))

/-- The handler on a message that was taken.  A notification is logged. -/
def Session.serve (serde : Serde) (handler : ProtocolHandler) (env : Surroundings)
    (message : JsonRpcMessage) (s : Session) : Session :=
  match message with
  | .request request =>
    let (response, outbox) := handler.handleRequest serde env request s.outbox
    { s with
      stdout := s.stdout ++ serde.written response
      outbox := outbox
      served := s.served ++ [⟨message, env, some response⟩] }
  | .notification _ => { s with served := s.served ++ [⟨message, env, none⟩] }

def step (serde : Serde) (handler : ProtocolHandler) (s : Session) : Action → Option Session
  | .read => (s.link.produce (readMessage serde)).map fun link => { s with link := link }
  | .send => (s.link.send channelCapacity).map fun link => { s with link := link }
  | .serve env =>
    if s.stopped then none
    else s.link.take.map fun (message, link) => { s with link := link }.serve serde handler env message
  | .stop => if !s.stopped && s.link.isClosed then some { s with stopped := true } else none
  | .other call outcome => some { s with outbox := (Outbox.handle s.outbox outcome call).2 }
  | .enqueue entry => some { s with outbox := s.outbox.enqueue entry }

def Session.responses (s : Session) : List JsonRpcResponse := s.served.filterMap Exchange.response?

/-! ## The messages of the input -/

section Messages

variable {serde : Serde} {handler : ProtocolHandler}

theorem runBlocking_eof {Msg : Type} {fromStr : String → Option Msg} {isOpen : List Msg → Bool}
    {input : List UInt8} (h : readFramedOrJsonLine input = .ok none) (delivered : List Msg) :
    runBlocking fromStr isOpen delivered input = (delivered, .eof) := by
  rw [runBlocking]
  split
  case h_1 h' => exact nomatch h.symm.trans h'
  case h_2 => rfl
  case h_3 h' => exact nomatch h.symm.trans h'

variable (serde) in
theorem readMessage_of_read {input rest : List UInt8} {raw : String}
    (h : readFramedOrJsonLine input = .ok (some (raw, rest))) :
    readMessage serde input = some (serde.message? raw, rest) := by
  simp only [readMessage, h]

variable (serde) in
/-- The rounds of the transport yield what the loop delivers. -/
theorem emits_runBlocking (input : List UInt8) :
    ∃ messages, Emits (readMessage serde) input messages ∧ ∀ delivered,
      (runBlocking serde.message? (fun _ => true) delivered input).1 = delivered ++ messages := by
  induction hlen : input.length using Nat.strong_induction_on generalizing input with
  | h n ih =>
    cases hread : readFramedOrJsonLine input with
    | error e =>
      refine ⟨[], .ended (by simp only [readMessage, hread]), fun delivered => ?_⟩
      rw [runBlocking_error hread, List.append_nil]
    | ok found =>
      cases found with
      | none =>
        refine ⟨[], .ended (by simp only [readMessage, hread]), fun delivered => ?_⟩
        rw [runBlocking_eof hread, List.append_nil]
      | some found =>
        obtain ⟨raw, rest⟩ := found
        obtain ⟨messages, hemits, hloop⟩ := ih rest.length (hlen ▸ read_shorter hread) rest rfl
        have hnext := readMessage_of_read serde hread
        refine ⟨(serde.message? raw).toList ++ messages, ?_, fun delivered => ?_⟩
        · cases hmessage : serde.message? raw with
          | none => exact .skipped (hmessage ▸ hnext) hemits
          | some message => exact .yielded (hmessage ▸ hnext) hemits
        · rw [runBlocking_some hread, hloop, List.append_assoc]

theorem emits_messagesOf (input : List UInt8) :
    Emits (readMessage serde) input (messagesOf serde input) := by
  obtain ⟨messages, hemits, hloop⟩ := emits_runBlocking serde input
  have hall : messagesOf serde input = messages := hloop []
  rw [hall]
  exact hemits

/-- A client reads the bodies of what is written, one after the other. -/
theorem read_responses (responses : List JsonRpcResponse) (delivered : List String) :
    runBlocking some (fun _ => true) delivered (responses.flatMap serde.written) =
      (delivered ++ responses.map fun response => serde.toString response.toJson, .eof) := by
  induction responses generalizing delivered with
  | nil =>
    rw [List.flatMap_nil, runBlocking_nil]
    simp
  | cons response responses ih =>
    have hread := @read_written (.frame _ (serde.toString_le response.toJson)) _ rfl
      (responses.flatMap serde.written)
    rw [List.flatMap_cons, List.map_cons]
    exact (runBlocking_some hread delivered).trans ((ih _).trans (by simp))

end Messages

/-! ## Runs -/

section Runs

variable {serde : Serde} {handler : ProtocolHandler}

/-- What the server has read, taken and answered. -/
structure Session.Answering (serde : Serde) (input : List UInt8) (s : Session) : Prop where
  pending : ∃ rest, messagesOf serde input = s.served.map Exchange.message ++ rest ∧
    s.link.Pending (readMessage serde) rest ∧ (s.stopped = true → rest = [])
  queue_le : s.link.queue.length ≤ channelCapacity
  stdout : s.stdout = s.responses.flatMap serde.written
  ids : s.responses.map JsonRpcResponse.id =
    ((s.served.map Exchange.message).filterMap JsonRpcMessage.request?).map JsonRpcRequest.id

variable (serde handler) in
/-- The server takes the message and answers it. -/
theorem Session.serve_eq (env : Surroundings) (message : JsonRpcMessage) (s : Session) :
    ∃ response? outbox, s.serve serde handler env message =
        { s with
          stdout := s.stdout ++ response?.toList.flatMap serde.written
          outbox := outbox
          served := s.served ++ [⟨message, env, response?⟩] } ∧
      response?.map JsonRpcResponse.id = message.request?.map JsonRpcRequest.id := by
  cases message with
  | request request =>
    refine ⟨some (handler.handleRequest serde env request s.outbox).1,
      (handler.handleRequest serde env request s.outbox).2, ?_, ?_⟩
    · simp [Session.serve]
    · exact congrArg some (id_handleRequest handler s.outbox)
  | notification _ => exact ⟨none, s.outbox, by simp [Session.serve], rfl⟩

theorem step_serve {s t : Session} {env : Surroundings}
    (h : step serde handler s (.serve env) = some t) :
    ¬s.stopped = true ∧ ∃ message link, s.link.take = some (message, link) ∧
      t = { s with link := link }.serve serde handler env message := by
  obtain ⟨hrunning, htaken⟩ := Option.ite_none_left_eq_some.mp h
  obtain ⟨⟨message, link⟩, htake, ht⟩ := Option.map_eq_some_iff.mp htaken
  exact ⟨hrunning, message, link, htake, ht.symm⟩

theorem answering_start (input : List UInt8) (outbox : Outbox.World) :
    (Session.start input outbox).Answering serde input where
  pending := ⟨messagesOf serde input, rfl, Link.pending_start (emits_messagesOf input), nofun⟩
  queue_le := Nat.zero_le _
  stdout := rfl
  ids := rfl

theorem answering_step {input : List UInt8} {s t : Session} {a : Action}
    (h : s.Answering serde input) (hstep : step serde handler s a = some t) :
    t.Answering serde input := by
  obtain ⟨rest, hmessages, hpending, hstopped⟩ := h.pending
  cases a with
  | read =>
    obtain ⟨link, hlink, rfl⟩ := Option.map_eq_some_iff.mp hstep
    exact
      { pending := ⟨rest, hmessages, Link.pending_produce hpending hlink, hstopped⟩
        queue_le := by
          rw [Link.length_produce hlink]
          exact h.queue_le
        stdout := h.stdout
        ids := h.ids }
  | send =>
    obtain ⟨link, hlink, rfl⟩ := Option.map_eq_some_iff.mp hstep
    exact
      { pending := ⟨rest, hmessages, Link.pending_send hpending hlink, hstopped⟩
        queue_le := Link.length_send hlink
        stdout := h.stdout
        ids := h.ids }
  | serve env =>
    obtain ⟨hrunning, message, link, htake, rfl⟩ := step_serve hstep
    obtain ⟨after, rfl, hafter⟩ := Link.pending_take hpending htake
    obtain ⟨response?, outbox, hserve, hid⟩ :=
      Session.serve_eq serde handler env message { s with link := link }
    rw [hserve]
    have hresponses : ∀ s' : Session, s'.served = s.served ++ [⟨message, env, response?⟩] →
        s'.responses = s.responses ++ response?.toList := by
      intro s' hs'
      rw [Session.responses, hs', List.filterMap_append]
      cases response? <;> rfl
    exact
      { pending := ⟨after, by simp [hmessages], hafter, fun hstop => absurd hstop hrunning⟩
        queue_le := (Link.length_take htake).trans h.queue_le
        stdout := by
          rw [hresponses _ rfl, List.flatMap_append, ← h.stdout]
        ids := by
          rw [hresponses _ rfl, List.map_append, h.ids, List.map_append, List.filterMap_append,
            List.map_append, List.append_cancel_left_eq]
          cases message with
          | request request =>
            obtain ⟨response, rfl⟩ : ∃ response, response? = some response :=
              (Option.map_eq_some_iff.mp hid).imp fun _ found => found.1
            exact congrArg (·.toList) hid
          | notification _ =>
            obtain rfl := Option.map_eq_none_iff.mp hid
            rfl }
  | stop =>
    obtain ⟨hclosed, ht⟩ := Option.ite_none_right_eq_some.mp hstep
    rw [Bool.and_eq_true] at hclosed
    cases ht
    exact
      { pending := ⟨rest, hmessages, hpending, fun _ => Link.pending_closed hpending hclosed.2⟩
        queue_le := h.queue_le
        stdout := h.stdout
        ids := h.ids }
  | other call outcome =>
    cases hstep
    exact ⟨⟨rest, hmessages, hpending, hstopped⟩, h.queue_le, h.stdout, h.ids⟩
  | enqueue entry =>
    cases hstep
    exact ⟨⟨rest, hmessages, hpending, hstopped⟩, h.queue_le, h.stdout, h.ids⟩

/-- Whatever the channel holds, the transport and the server come to an end. -/
theorem exists_stopped (env : Surroundings) (s : Session) :
    ∃ actions t, run (step serde handler) s actions = some t ∧ t.stopped = true := by
  have hshrinks : ∀ (input : List UInt8) message? rest,
      readMessage serde input = some (message?, rest) → rest.length < input.length := by
    intro input message? rest hnext
    unfold readMessage at hnext
    split at hnext
    · next hread =>
      cases hnext
      exact read_shorter hread
    · cases hnext
    · cases hnext
  -- every move but the last one leaves less work on the link
  let work (s : Session) : Nat := s.link.work List.length + if s.stopped then 0 else 1
  have hgoes : ∀ s : Session, s.stopped = false →
      ∃ a t, step serde handler s a = some t ∧ work t < work s := by
    intro s hrunning
    have hless : ∀ t : Session, t.stopped = false →
        t.link.work List.length < s.link.work List.length → work t < work s := by
      intro t ht hlink
      simp only [work, ht, hrunning]
      omega
    rcases Link.progress (show 0 < channelCapacity by decide) hshrinks s.link with
      hclosed | ⟨link, hlink, hlinkless⟩ | ⟨link, hlink, hlinkless⟩ |
        ⟨message, link, htake, hlinkless⟩
    · refine ⟨.stop, { s with stopped := true }, ?_, ?_⟩
      · simp [step, hrunning, hclosed]
      · simp [work, hrunning]
    · exact ⟨.read, { s with link := link }, congrArg (Option.map _) hlink,
        hless _ hrunning hlinkless⟩
    · exact ⟨.send, { s with link := link }, congrArg (Option.map _) hlink,
        hless _ hrunning hlinkless⟩
    · obtain ⟨response?, outbox, hserve, -⟩ :=
        Session.serve_eq serde handler env message { s with link := link }
      refine ⟨.serve env, ({ s with link := link }.serve serde handler env message), ?_, ?_⟩
      · simp [step, hrunning, htake]
      · rw [hserve]
        exact hless _ hrunning hlinkless
  have hend : ∃ actions t, (∀ a ∈ actions, True) ∧ run (step serde handler) s actions = some t ∧
      True ∧ t.stopped = true := by
    refine exists_run_of_descent work ?_ trivial
    intro s _ hrunning
    obtain ⟨a, t, hstep, hlt⟩ := hgoes s (Bool.eq_false_iff.mpr hrunning)
    exact ⟨[a], t, fun _ _ => trivial, run_cons_eq_some.mpr ⟨t, hstep, rfl⟩, trivial, hlt⟩
  obtain ⟨actions, t, -, hrun, -, hstopped⟩ := hend
  exact ⟨actions, t, hrun, hstopped⟩

/-- In every interleaving of the transport, the server and the other writers
of the outbox, the server takes the messages that the input has before the
first error of the reader, in their order, none twice and none left out; the
channel holds 256 messages at most; the client
reads an answer for each request, in this order and with its id, and nothing
else; and the session can always be brought to its end, where all of these
messages were taken. -/
theorem session_answers {serde : Serde} {handler : ProtocolHandler} {input : List UInt8}
    {outbox : Outbox.World} {actions : List Action} {s : Session}
    (hrun : run (step serde handler) (Session.start input outbox) actions = some s) :
    s.served.map Exchange.message <+: messagesOf serde input ∧
      (s.stopped = true → s.served.map Exchange.message = messagesOf serde input) ∧
      s.link.queue.length ≤ channelCapacity ∧
      runBlocking some (fun _ => true) [] s.stdout =
        (s.responses.map fun response => serde.toString response.toJson, .eof) ∧
      s.responses.map JsonRpcResponse.id =
        ((s.served.map Exchange.message).filterMap JsonRpcMessage.request?).map
          JsonRpcRequest.id ∧
      ∀ _env : Surroundings, ∃ more t, run (step serde handler) s more = some t ∧
        t.stopped = true := by
  have h : s.Answering serde input :=
    run_invariant (fun _ _ _ => answering_step) (answering_start input outbox) hrun
  obtain ⟨rest, hmessages, -, hstopped⟩ := h.pending
  refine ⟨⟨rest, hmessages.symm⟩, fun hstop => ?_, h.queue_le, ?_, h.ids,
    fun env => exists_stopped env s⟩
  · rw [hmessages, hstopped hstop, List.append_nil]
  · rw [h.stdout]
    exact read_responses s.responses []

end Runs

/-! ## The rows of the accepted sends -/

/-- What a statement leaves of the rows: it drops none and changes no route
key, and a row that it adds, or whose payload it changes, is replayed, unless
it is one of those that were inserted. -/
structure RowsKept (inserted : List String) (w w' : Outbox.World) : Prop where
  trace : w.trace ⊆ w'.trace
  rows : ∀ id row, w.outbox.find? id = some row → ∃ row', w'.outbox.find? id = some row' ∧
    row'.routeKey = row.routeKey ∧ (row'.payload = row.payload ∨ .replayed id ∈ w'.trace)
  only : ∀ id, (w'.outbox.find? id).isSome →
    (w.outbox.find? id).isSome ∨ .replayed id ∈ w'.trace ∨ id ∈ inserted

section RowsKept

variable {inserted : List String} {w w' : Outbox.World}

theorem rowsKept_of_same (houtbox : w'.outbox = w.outbox) (htrace : w.trace ⊆ w'.trace) :
    RowsKept inserted w w' where
  trace := htrace
  rows := fun _ row hrow => ⟨row, houtbox ▸ hrow, rfl, .inl rfl⟩
  only := fun _ hrow => .inl (houtbox ▸ hrow)

theorem rowsKept_of_update {id : String} {f : OutboxEntry → OutboxEntry}
    (hf : ∀ row, (f row).id = row.id) (houtbox : w'.outbox = w.outbox.update id f hf)
    (hroute : ∀ row, (f row).routeKey = row.routeKey)
    (hpayload : (∀ row, (f row).payload = row.payload) ∨ .replayed id ∈ w'.trace)
    (htrace : w.trace ⊆ w'.trace) :
    RowsKept inserted w w' where
  trace := htrace
  rows := by
    intro id' row hrow
    rw [houtbox, KeyedTable.find?_update]
    by_cases hid : id' = id
    · subst hid
      rw [if_pos rfl, hrow]
      exact ⟨f row, rfl, hroute row, hpayload.imp_left fun h => h row⟩
    · rw [if_neg hid]
      exact ⟨row, hrow, rfl, .inl rfl⟩
  only := by
    intro id' hrow
    rw [houtbox, KeyedTable.find?_update] at hrow
    by_cases hid : id' = id
    · subst hid
      rw [if_pos rfl, Option.isSome_map] at hrow
      exact .inl hrow
    · rw [if_neg hid] at hrow
      exact .inl hrow

theorem rowsKept_of_insert {row : OutboxEntry} {outbox : KeyedTable OutboxEntry.id}
    (hinsert : w.outbox.insert row = some outbox) (houtbox : w'.outbox = outbox)
    (hreplayed : .replayed row.id ∈ w'.trace) (htrace : w.trace ⊆ w'.trace) :
    RowsKept inserted w w' := by
  obtain ⟨hfree, rfl⟩ := KeyedTable.eq_append_of_insert hinsert
  constructor
  · exact htrace
  · intro id old hold
    have hid : id ≠ row.id := by
      rintro rfl
      exact nomatch hold.symm.trans hfree
    rw [houtbox, KeyedTable.find?_append, if_neg hid]
    exact ⟨old, hold, rfl, .inl rfl⟩
  · intro id hrow
    rw [houtbox, KeyedTable.find?_append] at hrow
    by_cases hid : id = row.id
    · exact .inr (.inl (hid ▸ hreplayed))
    · rw [if_neg hid] at hrow
      exact .inl hrow

theorem rowsKept_statement {α : Type} {o : Outbox.Outcome} {a : α} (h : RowsKept inserted w w') :
    RowsKept inserted w (Outbox.statement w o a w').2 := by
  unfold Outbox.statement
  cases o.fault with
  | some e => exact rowsKept_of_same rfl fun _ hmem => hmem
  | none => exact h

/-- Every statement and every call of the worker keeps the rows. -/
theorem rowsKept_handle (w : Outbox.World) (o : Outbox.Outcome) (call : Outbox.Call) :
    RowsKept [] w (Outbox.handle w o call).2 := by
  have hsame : RowsKept [] w w := rowsKept_of_same rfl fun _ hmem => hmem
  have hcons : ∀ event, w.trace ⊆ event :: w.trace := List.subset_cons_self (l := w.trace)
  cases call with
  | fetchPending | fetchRetryable | fetchInFlight | selectRouteKey =>
    exact rowsKept_statement hsame
  | timestamp | timestampMillis => exact hsame
  | record => exact rowsKept_of_same rfl fun _ hmem => hmem
  | markStatus id status error =>
    have hid := OutboxEntry.setStatus_id status error o.seconds
    exact rowsKept_statement
      (rowsKept_of_update hid rfl (fun _ => rfl) (.inl fun _ => rfl) fun _ hmem => hmem)
  | markRetrying id retryCount nextRetryAt error =>
    have hid := OutboxEntry.setRetrying_id retryCount nextRetryAt error o.seconds
    exact rowsKept_statement
      (rowsKept_of_update hid rfl (fun _ => rfl) (.inl fun _ => rfl) fun _ hmem => hmem)
  | resetForReplay id payload now =>
    have hid := OutboxEntry.reset_id payload now
    exact rowsKept_statement
      (rowsKept_of_update hid rfl (fun _ => rfl) (.inr List.mem_cons_self) (hcons _))
  | deleteDeadLetter =>
    exact rowsKept_statement (rowsKept_of_same rfl fun _ hmem => hmem)
  | insertDeadLetter entry =>
    simp only [Outbox.handle]
    split
    · exact hsame
    · exact rowsKept_statement (rowsKept_of_same rfl fun _ hmem => hmem)
  | selectDeadLetter id =>
    simp only [Outbox.handle]
    split
    · exact hsame
    · exact rowsKept_statement hsame
  | insertReplayed =>
    simp only [Outbox.handle]
    split
    · exact hsame
    · next hinsert =>
      exact rowsKept_statement
        (rowsKept_of_insert hinsert rfl List.mem_cons_self (hcons _))
  | send entry =>
    simp only [Outbox.handle]
    split
    · exact rowsKept_of_same rfl (hcons _)
    · exact rowsKept_of_same rfl (hcons _)

/-- A row that another writer enqueues, which is ignored when its id is taken. -/
theorem rowsKept_enqueue (w : Outbox.World) (entry : OutboxEntry) :
    RowsKept [entry.id] w (w.enqueue entry) := by
  have hfind : ∀ id, (w.enqueue entry).outbox.find? id =
      if id = entry.id then some ((w.outbox.find? id).getD entry) else w.outbox.find? id :=
    KeyedTable.find?_insertOrIgnore w.outbox entry
  constructor
  · unfold Outbox.World.enqueue
    dsimp only
    split
    · exact List.Subset.refl _
    · exact List.subset_cons_self _ _
  · intro id row hrow
    refine ⟨row, ?_, rfl, .inl rfl⟩
    rw [hfind, hrow, Option.getD_some]
    split <;> rfl
  · intro id hrow
    rw [hfind] at hrow
    by_cases hid : id = entry.id
    · exact .inr (.inr (List.mem_singleton.mpr hid))
    · rw [if_neg hid] at hrow
      exact .inl hrow

end RowsKept

/-- The arguments and the entry of an exchange that is accepted for delivery. -/
def Exchange.submission? (serde : Serde) (x : Exchange) : Option (SendArgs × OutboxEntry) :=
  x.message.request?.bind fun request => request.submission? serde x.env

/-- The entries of the accepted sends. -/
def Session.submitted (serde : Serde) (s : Session) : List OutboxEntry :=
  s.served.filterMap fun x => (x.submission? serde).map Prod.snd

/-- The id that the server draws for a message is new. -/
def FreshUuid (s : Session) : Action → Prop
  | .serve env => s.outbox.outbox.find? env.uuid = none
  | _ => True

section Submissions

variable {serde : Serde} {handler : ProtocolHandler}

/-- One of the actions is the insert of a row with this id by another writer. -/
def InsertedBy (actions : List Action) (id : String) : Prop :=
  ∃ entry, .enqueue entry ∈ actions ∧ entry.id = id

/-- The accepted sends, their rows and their answers, for a session that began
with the database `w` and whose actions are among these. -/
structure Session.Submitting (serde : Serde) (w : Outbox.World) (actions : List Action)
    (s : Session) : Prop where
  rows : ∀ entry ∈ s.submitted serde, ∃ row, s.outbox.outbox.find? entry.id = some row ∧
    row.routeKey = entry.routeKey ∧
      (row.payload = entry.payload ∨ .replayed entry.id ∈ s.outbox.trace)
  nodup : ((s.submitted serde).map OutboxEntry.id).Nodup
  only : ∀ id, (s.outbox.outbox.find? id).isSome → (w.outbox.find? id).isSome ∨
    id ∈ (s.submitted serde).map OutboxEntry.id ∨ .replayed id ∈ s.outbox.trace ∨
      InsertedBy actions id
  answers : ∀ x ∈ s.served, ∀ args entry, x.submission? serde = some (args, entry) →
    ∃ request, x.message = .request request ∧
      x.response? = some (toolResponse serde request.id (.ok (sendReport args entry.id)))

variable (serde handler) in
/-- What a message that is taken leaves in the outbox. -/
theorem Session.serve_submission (env : Surroundings) (message : JsonRpcMessage) (s : Session) :
    ∃ x : Exchange, (s.serve serde handler env message).served = s.served ++ [x] ∧ x.env = env ∧
      match x.submission? serde with
      | some (args, entry) =>
        (s.serve serde handler env message).outbox = s.outbox.enqueue entry ∧
          ∃ request, x.message = .request request ∧
            x.response? = some (toolResponse serde request.id (.ok (sendReport args entry.id)))
      | none => (s.serve serde handler env message).outbox = s.outbox := by
  cases message with
  | notification _ => exact ⟨_, rfl, rfl, rfl⟩
  | request request =>
    refine ⟨_, rfl, rfl, ?_⟩
    show match request.submission? serde env with
      | some (args, entry) => _
      | none => _
    cases hsubmission : request.submission? serde env with
    | none => exact handleRequest_of_none handler s.outbox hsubmission
    | some sent =>
      have hrequest := handleRequest_submission handler s.outbox hsubmission
      exact ⟨congrArg Prod.snd hrequest, request, rfl, congrArg (some ·.1) hrequest⟩

theorem Exchange.id_submission {x : Exchange} {args : SendArgs} {entry : OutboxEntry}
    (h : x.submission? serde = some (args, entry)) : entry.id = x.env.uuid := by
  obtain ⟨request, -, hrequest⟩ := Option.bind_eq_some_iff.mp h
  obtain ⟨-, hcall⟩ := Option.ite_none_right_eq_some.mp hrequest
  split at hcall
  · cases hcall
  · obtain ⟨-, hsent⟩ := Option.ite_none_right_eq_some.mp hcall
    obtain ⟨parsed, -, hentry⟩ := Option.bind_eq_some_iff.mp hsent
    obtain ⟨found, hfound, heq⟩ := Option.map_eq_some_iff.mp hentry
    cases heq
    exact id_entry? hfound

theorem submitting_start (input : List UInt8) (w : Outbox.World) (actions : List Action) :
    (Session.start input w).Submitting serde w actions where
  rows := nofun
  nodup := List.nodup_nil
  only := fun _ hrow => .inl hrow
  answers := nofun

variable {w : Outbox.World} {actions : List Action} {s t : Session}

/-- The statements of others. -/
theorem Session.Submitting.kept (h : s.Submitting serde w actions) (hserved : t.served = s.served)
    {inserted : List String} (hkept : RowsKept inserted s.outbox t.outbox)
    (hinserted : ∀ id ∈ inserted, InsertedBy actions id) : t.Submitting serde w actions := by
  have hsubmitted : t.submitted serde = s.submitted serde := by
    rw [Session.submitted, hserved]
    rfl
  constructor
  · intro entry hentry
    obtain ⟨row, hrow, hroute, hpayload⟩ := h.rows entry (hsubmitted ▸ hentry)
    obtain ⟨row', hrow', hroute', hpayload'⟩ := hkept.rows entry.id row hrow
    refine ⟨row', hrow', hroute'.trans hroute, ?_⟩
    rcases hpayload' with hsame | hreplayed
    · exact hpayload.imp (hsame.trans ·) (hkept.trace ·)
    · exact .inr hreplayed
  · rw [hsubmitted]
    exact h.nodup
  · intro id hrow
    rw [hsubmitted]
    rcases hkept.only id hrow with hold | hreplayed | hnew
    · rcases h.only id hold with hold | hmem | hreplayed | hothers
      · exact .inl hold
      · exact .inr (.inl hmem)
      · exact .inr (.inr (.inl (hkept.trace hreplayed)))
      · exact .inr (.inr (.inr hothers))
    · exact .inr (.inr (.inl hreplayed))
    · exact .inr (.inr (.inr (hinserted id hnew)))
  · rw [hserved]
    exact h.answers

/-- A message that is taken and submits nothing. -/
theorem Session.Submitting.unsubmitted (h : s.Submitting serde w actions) {x : Exchange}
    (hserved : t.served = s.served ++ [x]) (houtbox : t.outbox = s.outbox)
    (hx : x.submission? serde = none) : t.Submitting serde w actions := by
  have hsubmitted : t.submitted serde = s.submitted serde := by
    rw [Session.submitted, hserved, List.filterMap_append]
    simp [hx, Session.submitted]
  constructor
  · rw [hsubmitted, houtbox]
    exact h.rows
  · rw [hsubmitted]
    exact h.nodup
  · rw [hsubmitted, houtbox]
    exact h.only
  · rw [hserved]
    refine forall_mem_concat h.answers fun args entry hentry => ?_
    exact nomatch hx.symm.trans hentry

/-- An accepted send, with a new id. -/
theorem Session.Submitting.submitted (h : s.Submitting serde w actions) {x : Exchange}
    {args : SendArgs} {entry : OutboxEntry} (hserved : t.served = s.served ++ [x])
    (hx : x.submission? serde = some (args, entry))
    (houtbox : t.outbox = s.outbox.enqueue entry) (hfresh : s.outbox.outbox.find? entry.id = none)
    (hanswer : ∃ request, x.message = .request request ∧
      x.response? = some (toolResponse serde request.id (.ok (sendReport args entry.id)))) :
    t.Submitting serde w actions := by
  have hsubmitted : t.submitted serde = s.submitted serde ++ [entry] := by
    rw [Session.submitted, hserved, List.filterMap_append]
    simp [hx, Session.submitted]
  have hfind : ∀ id, t.outbox.outbox.find? id =
      if id = entry.id then some entry else s.outbox.outbox.find? id := by
    intro id
    rw [houtbox]
    refine (KeyedTable.find?_insertOrIgnore _ _ _).trans ?_
    by_cases hid : id = entry.id
    · rw [if_pos hid, if_pos hid, hid, hfresh, Option.getD_none]
    · rw [if_neg hid, if_neg hid]
  have htrace : s.outbox.trace ⊆ t.outbox.trace := by
    simp only [houtbox, Outbox.World.enqueue, hfresh]
    exact List.subset_cons_self _ _
  have hnew : entry.id ∉ (s.submitted serde).map OutboxEntry.id := by
    intro hmem
    obtain ⟨old, hold, hid⟩ := List.mem_map.mp hmem
    obtain ⟨row, hrow, -⟩ := h.rows old hold
    rw [hid, hfresh] at hrow
    cases hrow
  constructor
  · rw [hsubmitted]
    refine forall_mem_concat (fun old hold => ?_) ⟨entry, ?_, rfl, .inl rfl⟩
    · obtain ⟨row, hrow, hroute, hpayload⟩ := h.rows old hold
      have hid : old.id ≠ entry.id := fun hid => hnew (List.mem_map.mpr ⟨old, hold, hid⟩)
      rw [hfind, if_neg hid]
      exact ⟨row, hrow, hroute, hpayload.imp_right (htrace ·)⟩
    · rw [hfind, if_pos rfl]
  · rw [hsubmitted, List.map_append, List.map_singleton, List.nodup_append_comm]
    exact List.nodup_cons.mpr ⟨hnew, h.nodup⟩
  · intro id hrow
    rw [hsubmitted, List.map_append, List.map_singleton, List.mem_append, List.mem_singleton]
    rw [hfind] at hrow
    by_cases hid : id = entry.id
    · exact .inr (.inl (.inr hid))
    · rw [if_neg hid] at hrow
      rcases h.only id hrow with hold | hmem | hreplayed | hothers
      · exact .inl hold
      · exact .inr (.inl (.inl hmem))
      · exact .inr (.inr (.inl (htrace hreplayed)))
      · exact .inr (.inr (.inr hothers))
  · rw [hserved]
    refine forall_mem_concat h.answers fun args' entry' hentry => ?_
    cases hx.symm.trans hentry
    exact hanswer

theorem submitting_step {a : Action} (h : s.Submitting serde w actions) (ha : a ∈ actions)
    (hfresh : FreshUuid s a) (hstep : step serde handler s a = some t) :
    t.Submitting serde w actions := by
  have hsame : RowsKept [] s.outbox s.outbox := rowsKept_of_same rfl fun _ hmem => hmem
  have hnone : ∀ id ∈ [], InsertedBy actions id := fun _ hid => absurd hid List.not_mem_nil
  cases a with
  | read | send =>
    obtain ⟨link, -, rfl⟩ := Option.map_eq_some_iff.mp hstep
    exact h.kept rfl hsame hnone
  | stop =>
    obtain ⟨-, ht⟩ := Option.ite_none_right_eq_some.mp hstep
    cases ht
    exact h.kept rfl hsame hnone
  | other call outcome =>
    cases hstep
    exact h.kept rfl (rowsKept_handle s.outbox outcome call) hnone
  | enqueue entry =>
    cases hstep
    refine h.kept rfl (rowsKept_enqueue s.outbox entry) fun id hid => ?_
    exact ⟨entry, ha, (List.mem_singleton.mp hid).symm⟩
  | serve env =>
    obtain ⟨-, message, link, -, rfl⟩ := step_serve hstep
    have hlink : ({ s with link := link } : Session).Submitting serde w actions :=
      h.kept rfl hsame hnone
    obtain ⟨x, hserved, henv, hx⟩ := Session.serve_submission serde handler env message
      { s with link := link }
    cases hsubmission : x.submission? serde with
    | none =>
      rw [hsubmission] at hx
      exact hlink.unsubmitted hserved hx hsubmission
    | some sent =>
      obtain ⟨args, entry⟩ := sent
      rw [hsubmission] at hx
      have hid : entry.id = env.uuid := (Exchange.id_submission hsubmission).trans (congrArg _ henv)
      exact hlink.submitted hserved hsubmission hx.1 (hid ▸ hfresh) hx.2

/-- In every session whose ids are new, every send that is accepted has one
row in the outbox, with its id and its route key, and with its payload unless
it was replayed since, whatever the worker and other processes do; it was
answered with this id; no two of them have the same id; and every other row
was there before, is a replay, or was inserted by another writer. -/
theorem session_submissions {input : List UInt8} {actions : List Action}
    (hfresh : EveryStep (step serde handler) FreshUuid (Session.start input w) actions)
    (hrun : run (step serde handler) (Session.start input w) actions = some s) :
    (∀ entry ∈ s.submitted serde, ∃ row, s.outbox.outbox.find? entry.id = some row ∧
        row.routeKey = entry.routeKey ∧
          (row.payload = entry.payload ∨ .replayed entry.id ∈ s.outbox.trace)) ∧
      ((s.submitted serde).map OutboxEntry.id).Nodup ∧
      (∀ id, (s.outbox.outbox.find? id).isSome → (w.outbox.find? id).isSome ∨
        id ∈ (s.submitted serde).map OutboxEntry.id ∨ .replayed id ∈ s.outbox.trace ∨
          InsertedBy actions id) ∧
      ∀ x ∈ s.served, ∀ args entry, x.submission? serde = some (args, entry) →
        ∃ request, x.message = .request request ∧
          x.response? = some (toolResponse serde request.id (.ok (sendReport args entry.id))) := by
  have hboth : EveryStep (step serde handler) (fun s a => FreshUuid s a ∧ a ∈ actions)
      (Session.start input w) actions :=
    hfresh.and (fun _ _ hfresh ha => ⟨hfresh, ha⟩) (everyStep_mem _ actions)
  have h : s.Submitting serde w actions := run_invariant_of_everyStep
    (fun _ _ _ hs hP hstep => submitting_step hs hP.2 hP.1 hstep)
    (submitting_start input w actions) hboth hrun
  exact ⟨h.rows, h.nodup, h.only, h.answers⟩

end Submissions

/-! ## A session with two requests and a notification -/

section Greeting

/-- A text without control characters, in quotes. -/
def quoted (s : String) : String :=
  "\"" ++ String.ofList (s.toList.flatMap fun c => if c ∈ "\"\\".toList then ['\\', c] else [c]) ++
    "\""

mutual

/-- `serde_json::to_string`, for texts without control characters. -/
def plainText : Json → String
  | .null => "null"
  | .bool b => if b then "true" else "false"
  | .int n => toString n
  | .float text => text
  | .str s => quoted s
  | .arr elements => "[" ++ String.intercalate "," (plainTexts elements) ++ "]"
  | .obj fields => "\x7b" ++ String.intercalate "," (plainFields fields) ++ "\x7d"

def plainTexts : List Json → List String
  | [] => []
  | element :: elements => plainText element :: plainTexts elements

def plainFields : List (String × Json) → List String
  | [] => []
  | field :: fields => plainField field :: plainFields fields

def plainField : String × Json → String
  | (name, value) => quoted name ++ ":" ++ plainText value

end

def opening : JsonRpcRequest := ⟨"2.0", .int 1, methodInitialize, none⟩

def opened : JsonRpcNotification := ⟨"2.0", methodNotificationsInitialized, none⟩

def greeting : JsonRpcRequest where
  jsonrpc := "2.0"
  id := .int 2
  method := methodToolsCall
  params := some (.obj
    [("arguments", .obj
        [("channel", .str "wechat"), ("content", .str "hello"), ("conversation_id", .str "c-1"),
          ("conversation_type", .str "direct"), ("peer_id", .str "alice")]),
      ("name", .str "send")])

def greetingJson : Json :=
  .obj [("jsonrpc", .str greeting.jsonrpc), ("id", greeting.id), ("method", .str greeting.method),
    ("params", greeting.params.getD .null)]

def openingText : String := "\x7b\"jsonrpc\":\"2.0\",\"id\":1,\"method\":\"initialize\"\x7d"

def openedText : String :=
  "\x7b\"jsonrpc\":\"2.0\",\"method\":\"notifications/initialized\"\x7d"

def greetingText : String :=
  "\x7b\"jsonrpc\":\"2.0\",\"id\":2,\"method\":\"tools/call\",\"params\":\x7b\"arguments\":" ++
    "\x7b\"channel\":\"wechat\",\"content\":\"hello\",\"conversation_id\":\"c-1\"," ++
    "\"conversation_type\":\"direct\",\"peer_id\":\"alice\"\x7d,\"name\":\"send\"\x7d\x7d"

/-- `serde_json` on the texts of this session. -/
def greetingSerde : Serde where
  fromStr raw :=
    if raw = openingText then
      some (.obj [("jsonrpc", .str "2.0"), ("id", .int 1), ("method", .str methodInitialize)])
    else if raw = openedText then
      some (.obj [("jsonrpc", .str "2.0"), ("method", .str methodNotificationsInitialized)])
    else if raw = greetingText then some greetingJson
    else none
  toString value :=
    if (asBytes (plainText value)).length ≤ 2 ^ 63 - 1 then plainText value else ""
  toString_le value := by
    split
    · assumption
    · decide
  accountError _ := "expected value at line 1 column 1"
  argumentsError type _ := s!"invalid type: null, expected struct {type}"
  columns :=
    { routeKey := fun routeKey => .ok s!"\x7b\"conversation_id\":\"{routeKey.conversationId}\"\x7d"
      content := fun
        | .text text => .ok s!"\x7b\"Text\":\"{text}\"\x7d"
        | _ => .ok "\"Unknown\"" }

def greetingEnv : Surroundings where
  var _ := none
  readToString _ := .error "No such file or directory (os error 2)"
  openStore _ := .ok ()
  getAll _ := .ok []
  uuid := "m-1"
  timestamp := 1700000000
  outboxFault := none

def greetingHandler : ProtocolHandler := ⟨"magiclaw", "0.1.0"⟩

def greetingInput : List UInt8 :=
  [openingText, openedText, greetingText].flatMap fun text => asBytes (framed text)

/-- The row of a push job. -/
def pushed : OutboxEntry :=
  .new "push-1" "\x7b\"conversation_id\":\"c-2\"\x7d" "\x7b\"Text\":\"news\"\x7d" 1700000000

/-- The three messages were taken.  Before the last one a push job has enqueued
its row, and after it the worker marks the greeting as sent. -/
def greeted : Session :=
  let s : Session := ⟨⟨.ended, []⟩, true, [], Outbox.World.init, []⟩
  let s := s.serve greetingSerde greetingHandler greetingEnv (.request opening)
  let s := s.serve greetingSerde greetingHandler greetingEnv (.notification opened)
  let s := { s with outbox := s.outbox.enqueue pushed }
  let s := s.serve greetingSerde greetingHandler greetingEnv (.request greeting)
  { s with
    outbox := (Outbox.handle s.outbox (.working 1700000001 1700000001000)
      (.markStatus "m-1" .sent none)).2 }

def greetingActions : List Action :=
  [.read, .send, .serve greetingEnv, .read, .send, .read, .send, .serve greetingEnv,
    .enqueue pushed, .serve greetingEnv,
    .other (.markStatus "m-1" .sent none) (.working 1700000001 1700000001000), .read, .stop]

theorem readMessage_framed {text : String} {message : JsonRpcMessage}
    (hle : (asBytes text).length ≤ isizeMax) (hmessage : greetingSerde.message? text = some message)
    (rest : List UInt8) :
    readMessage greetingSerde (asBytes (framed text) ++ rest) = some (some message, rest) := by
  have hread := @read_written (.frame text hle) _ rfl rest
  have hbytes : asBytes (framed text) = (Written.frame text hle).bytes := rfl
  rw [hbytes, readMessage_of_read _ hread, hmessage]

theorem message?_opening : greetingSerde.message? openingText = some (.request opening) := by
  unfold Serde.message? greetingSerde
  dsimp only
  rw [if_pos rfl]
  rfl

theorem message?_opened : greetingSerde.message? openedText = some (.notification opened) := by
  unfold Serde.message? greetingSerde
  dsimp only
  rw [if_neg (by decide), if_pos rfl]
  rfl

theorem message?_greeting : greetingSerde.message? greetingText = some (.request greeting) := by
  unfold Serde.message? greetingSerde
  dsimp only
  rw [if_neg (by decide), if_neg (by decide), if_pos rfl]
  rfl

/-- The run, and its ids, which are new. -/
theorem run_greeting :
    run (step greetingSerde greetingHandler) (Session.start greetingInput Outbox.World.init)
        greetingActions = some greeted ∧
      EveryStep (step greetingSerde greetingHandler) FreshUuid
        (Session.start greetingInput Outbox.World.init) greetingActions := by
  have hopening := readMessage_framed (by decide +kernel) message?_opening
  have hopened := readMessage_framed (by decide +kernel) message?_opened
  have hgreeting := readMessage_framed (by decide +kernel) message?_greeting
  have hend : readMessage greetingSerde [] = none := by
    simp only [readMessage, read_nil]
  refine run_and_everyStep_cons trivial
    (congrArg (Option.map _) (Link.produce_yielded (hopening _))) ?_
  refine run_and_everyStep_cons trivial rfl ?_
  refine run_and_everyStep_cons rfl rfl ?_
  refine run_and_everyStep_cons trivial
    (congrArg (Option.map _) (Link.produce_yielded (hopened _))) ?_
  refine run_and_everyStep_cons trivial rfl ?_
  refine run_and_everyStep_cons trivial
    (congrArg (Option.map _) (Link.produce_yielded (hgreeting _))) ?_
  refine run_and_everyStep_cons trivial rfl ?_
  refine run_and_everyStep_cons rfl rfl ?_
  refine run_and_everyStep_cons trivial rfl ?_
  refine run_and_everyStep_cons rfl rfl ?_
  refine run_and_everyStep_cons trivial rfl ?_
  refine run_and_everyStep_cons trivial (congrArg (Option.map _) (Link.produce_ended hend)) ?_
  refine run_and_everyStep_cons trivial rfl ?_
  exact ⟨rfl, trivial⟩

theorem session_answers_greeting :
    greeted.served.map Exchange.message = messagesOf greetingSerde greetingInput ∧
      greeted.responses.map JsonRpcResponse.id = [.int 1, .int 2] := by
  have hanswers := session_answers run_greeting.1
  exact ⟨hanswers.2.1 rfl, hanswers.2.2.2.2.1⟩

theorem session_submissions_greeting :
    ∃ row, greeted.outbox.outbox.find? "m-1" = some row ∧
      row.routeKey = "\x7b\"conversation_id\":\"c-1\"\x7d" ∧
        (row.payload = "\x7b\"Text\":\"hello\"\x7d" ∨ .replayed "m-1" ∈ greeted.outbox.trace) := by
  have hentry : OutboxEntry.new "m-1" "\x7b\"conversation_id\":\"c-1\"\x7d"
      "\x7b\"Text\":\"hello\"\x7d" 1700000000 ∈ greeted.submitted greetingSerde :=
    .head _
  exact (session_submissions run_greeting.2 run_greeting.1).1 _ hentry

end Greeting

end MagicLaw.Mcp
