import MagicLaw.Pipeline.Middleware

/-!
# One reply for each text

What a message leaves in the outbox.  The chain falls into three parts: the
agent commands, which may answer at once (`agentCommand_spec`), the guards,
which may stop what is not answered (`run_guards`), and the delivery, which
queues an answer if there is one (`run_delivery_of_answered`,
`run_delivery_of_unanswered`).
-/

namespace MagicLaw.Pipeline

open Lib Lib.Stages
open MagicLaw.Outbox (OutboxEntry)
open MagicLaw.Routing (RouteKey Message MessageContent)

/-- The statements of the stores work. -/
structure StorageWorks (env : Surroundings) : Prop where
  preferences : env.preferenceFault = none
  outbox : env.outboxFault = none

/-- `serde_json` has a text for every route key and every content. -/
structure SerdeText.Total (serde : SerdeText) : Prop where
  routeKey : ∀ routeKey, ∃ text, serde.routeKey routeKey = .ok text
  content : ∀ content, ∃ text, serde.content content = .ok text

/-- The rows after the message are those before it and a pending one, with the
message's id, the text of its route key and the text of a text. -/
def QueuesReply (serde : SerdeText) (env : Surroundings) (message : Message)
    (s s' : PipelineState) : Prop :=
  ∃ routeKeyJson reply payloadJson, serde.routeKey message.routeKey = .ok routeKeyJson ∧
    serde.content (.text reply) = .ok payloadJson ∧
    s'.database.outbox.rows = s.database.outbox.rows ++
      [OutboxEntry.new message.id routeKeyJson payloadJson env.timestamp]

section Ai

variable (serde : SerdeText) (env : Surroundings) (s : PipelineState)

/-- The trace of a call is all that `recordCall` changes. -/
theorem recordCall_eq (routeKey : RouteKey) (backend : Backend) :
    ∃ calls, recordCall s env routeKey backend = { s with calls := calls } := by
  unfold recordCall
  split
  · exact ⟨s.calls, rfl⟩
  · exact ⟨_, rfl⟩

/-- The AI answers every text that reaches it, with one call. -/
theorem aiProcess_of_text (config : AiConfig) {ctx : PipelineContext} {text : String}
    (htext : ctx.message.content = .text text) :
    ∃ c s' response, aiProcess config serde env ctx s = (.ok c, s') ∧
      c.message = ctx.message ∧ c.aiResponse = some response ∧
      c.userAgentSelection = ctx.userAgentSelection ∧
      s'.preferences = s.preferences ∧ s'.windows = s.windows ∧
      s'.database.outbox = s.database.outbox ∧
      s'.calls = (recordCall s env ctx.message.routeKey
        (selectBackend config ctx.userAgentSelection)).calls := by
  let backend := selectBackend config ctx.userAgentSelection
  unfold aiProcess
  rw [htext]
  dsimp only
  obtain ⟨calls, hcalls⟩ := recordCall_eq env s ctx.message.routeKey backend
  rw [hcalls]
  cases backend.generate env text with
  | ok response => exact ⟨_, _, response, rfl, rfl, rfl, rfl, rfl, rfl, rfl, rfl⟩
  | error e => exact ⟨_, _, _, rfl, rfl, rfl, rfl, rfl, rfl, rfl, rfl⟩

theorem aiProcess_of_not_text (config : AiConfig) {ctx : PipelineContext}
    (hnot : ∀ text, ctx.message.content ≠ .text text) :
    aiProcess config serde env ctx s = (.ok ctx, s) := by
  unfold aiProcess
  split
  · exact absurd ‹_› (hnot _)
  · rfl

end Ai

section Delivery

variable {serde : SerdeText} {env : Surroundings} {ctx : PipelineContext} {s : PipelineState}

theorem enqueue_rows_of_free {w : Outbox.World} {entry : OutboxEntry}
    (h : w.outbox.find? entry.id = none) :
    (w.enqueue entry).outbox.rows = w.outbox.rows ++ [entry] := by
  show (w.outbox.insertOrIgnore entry).rows = _
  unfold KeyedTable.insertOrIgnore
  rw [dif_pos h]
  rfl

/-- The last two stages queue an answer. -/
theorem run_delivery_of_answered (hserde : serde.Total) (hworks : StorageWorks env)
    (hfree : s.database.outbox.find? ctx.message.id = none) {response : String}
    (hanswered : ctx.aiResponse = some response) :
    QueuesReply serde env ctx.message s
      (runPipeline [formatter, outboxStage serde env] ctx s).2 := by
  obtain ⟨routeKeyJson, hrouteKey⟩ := hserde.routeKey ctx.message.routeKey
  obtain ⟨payloadJson, hpayload⟩ :=
    hserde.content (.text (addResponderPrefix response ctx.responder))
  let entry := OutboxEntry.new ctx.message.id routeKeyJson payloadJson env.timestamp
  let ctx' := { ctx with
    aiResponse := none
    message := { ctx.message with
      direction := .outbound
      content := .text (addResponderPrefix response ctx.responder) } }
  have hformatter : formatter.process ctx s = (.ok ctx', s) := by
    simp only [formatter, hanswered, ctx']
  have houtbox : (outboxStage serde env).process ctx' s =
      (.ok ctx', { s with database := s.database.enqueue entry }) := by
    simp only [outboxStage, outboxProcess, ctx', hrouteKey, hpayload, hworks.outbox, entry]
  have hrun : runPipeline [formatter, outboxStage serde env] ctx s =
      (.ok ctx', { s with database := s.database.enqueue entry }) := by
    unfold runPipeline
    rw [run_cons_of_ok (.inr rfl) hformatter, run_cons_of_ok (.inr rfl) houtbox, run_nil]
  rw [hrun]
  exact ⟨routeKeyJson, _, payloadJson, hrouteKey, hpayload, enqueue_rows_of_free hfree⟩

/-- Without an answer they leave the outbox alone. -/
theorem run_delivery_of_unanswered (hinbound : ctx.message.direction = .inbound)
    (hunanswered : ctx.aiResponse = none) :
    runPipeline [formatter, outboxStage serde env] ctx s = (.ok ctx, s) := by
  unfold runPipeline
  have hformatter : formatter.process ctx s = (.ok ctx, s) := by
    simp only [formatter, hunanswered]
  have houtbox : (outboxStage serde env).process ctx s = (.ok ctx, s) := by
    simp only [outboxStage, outboxProcess, hinbound]
  rw [run_cons_of_ok (.inr rfl) hformatter, run_cons_of_ok (.inr rfl) houtbox, run_nil]

/-- A text that is not stopped is answered by the AI, and the answer is
queued. -/
theorem run_tail_of_open (config : AiConfig) (hserde : serde.Total) (hworks : StorageWorks env)
    (hfree : s.database.outbox.find? ctx.message.id = none) {text : String}
    (htext : ctx.message.content = .text text) (hopen : ctx.shortCircuit = false) :
    QueuesReply serde env ctx.message s
      (runPipeline [ai config serde env, formatter, outboxStage serde env] ctx s).2 := by
  obtain ⟨c, s', response, hai, hmessage, hresponse, -, -, -, hs', -⟩ :=
    aiProcess_of_text serde env s config htext
  have hrun : runPipeline [ai config serde env, formatter, outboxStage serde env] ctx s =
      runPipeline [formatter, outboxStage serde env] c s' :=
    run_cons_of_ok (.inl hopen) hai
  rw [← hmessage, ← hs'] at hfree
  have hreply := run_delivery_of_answered hserde hworks hfree hresponse
  unfold QueuesReply at hreply
  rw [hmessage, hs'] at hreply
  rw [hrun]
  exact hreply

/-- A stopped message skips the AI. -/
theorem run_tail_of_stopped (config : AiConfig) (hstopped : ctx.shortCircuit = true) :
    runPipeline [ai config serde env, formatter, outboxStage serde env] ctx s =
      runPipeline [formatter, outboxStage serde env] ctx s :=
  run_cons_of_skip hstopped rfl

/-- A text that is answered and stopped, or neither, leaves its reply. -/
theorem run_tail_of_text (config : AiConfig) (hserde : serde.Total) (hworks : StorageWorks env)
    (hfree : s.database.outbox.find? ctx.message.id = none) {text : String}
    (htext : ctx.message.content = .text text)
    (hdone : ctx.shortCircuit = ctx.aiResponse.isSome) :
    QueuesReply serde env ctx.message s
      (runPipeline [ai config serde env, formatter, outboxStage serde env] ctx s).2 := by
  cases hresponse : ctx.aiResponse with
  | some response =>
    rw [hresponse] at hdone
    rw [run_tail_of_stopped config hdone]
    exact run_delivery_of_answered hserde hworks hfree hresponse
  | none =>
    rw [hresponse] at hdone
    exact run_tail_of_open config hserde hworks hfree htext hdone

end Delivery

/-! ## The commands and the guards -/

section Entry

variable (s : PipelineState) (env : Surroundings)

/-- A text leaves the commands answered and stopped, or neither.  Its id, its
route and its direction stay, and the outbox does. -/
theorem agentCommand_spec {env : Surroundings} (config : AgentConfig)
    (hworks : env.preferenceFault = none) {ctx : PipelineContext}
    (hfresh : ctx.aiResponse = none ∧ ctx.shortCircuit = false) {text : String}
    (htext : ctx.message.content = .text text) (s : PipelineState) :
    ∃ ctx' s' text', agentCommandProcess config env ctx s = (.ok ctx', s') ∧
      ctx'.message = { ctx.message with content := .text text' } ∧
      ctx'.shortCircuit = ctx'.aiResponse.isSome ∧
      s'.database = s.database := by
  obtain ⟨hnone, hopen⟩ := hfresh
  have hmessage : ctx.message = { ctx.message with content := .text text } := by
    rw [← htext]
  rw [agentCommandProcess_of_text htext]
  unfold handleCommand
  simp only [getUserAgentViaPort_of_works _ hworks, setUserAgentViaPort_of_works _ hworks]
  cases parse config.parser text with
  | switch agent => exact ⟨_, _, text, rfl, hmessage, rfl, rfl⟩
  | query =>
    cases getUserAgent s.preferences ctx.preferenceKey with
    | some agent => exact ⟨_, _, text, rfl, hmessage, rfl, rfl⟩
    | none => exact ⟨_, _, text, rfl, hmessage, rfl, rfl⟩
  | switchAndProcess agent newText =>
    refine ⟨_, _, newText, rfl, rfl, ?_, rfl⟩
    show ctx.shortCircuit = ctx.aiResponse.isSome
    rw [hopen, hnone]
    rfl
  | notCommand =>
    by_cases henabled : config.enableUserPreferences = true
    · rw [henabled]
      dsimp only [Bool.not_true, Bool.false_eq_true, if_false]
      cases getUserAgent s.preferences ctx.preferenceKey with
      | some agent =>
        refine ⟨_, _, text, rfl, hmessage, ?_, rfl⟩
        show ctx.shortCircuit = ctx.aiResponse.isSome
        rw [hopen, hnone]
        rfl
      | none => exact ⟨_, _, text, rfl, hmessage, rfl, rfl⟩
    · rw [Bool.not_eq_true] at henabled
      rw [henabled]
      refine ⟨ctx, s, text, rfl, hmessage, ?_, rfl⟩
      rw [hopen, hnone]
      rfl

theorem guards_not_terminal (config : AppConfig) :
    ∀ stage ∈ guards config env, stage.isTerminal = false := by
  intro stage hstage
  unfold guards at hstage
  rcases List.mem_append.mp hstage with hfirst | hlimit
  · simp only [List.mem_cons, List.not_mem_nil, or_false] at hfirst
    rcases hfirst with rfl | rfl <;> rfl
  · split at hlimit
    · rw [List.mem_singleton.mp hlimit]
      rfl
    · exact absurd hlimit List.not_mem_nil

/-- The guards stop nothing but what comes too soon. -/
theorem run_guards (config : AppConfig) (ctx : PipelineContext) :
    ∃ c s', runPipeline (guards config env) ctx s = (.ok c, s') ∧
      c.message = ctx.message ∧ c.aiResponse = ctx.aiResponse ∧
      s'.database = s.database ∧
      c.shortCircuit = (ctx.shortCircuit ||
        stoppedBy PipelineContext.shortCircuit "rate_limit" (guards config env) ctx s) := by
  cases hstopped : ctx.shortCircuit with
  | true =>
    refine ⟨ctx, s, ?_, rfl, rfl, rfl, ?_⟩
    · unfold runPipeline
      rw [run_of_stopped hstopped (guards_not_terminal env config)]
    · rw [hstopped, Bool.true_or]
  | false =>
    unfold runPipeline guards
    rw [List.cons_append, run_cons_of_ok (.inl hstopped) rfl, List.cons_append,
      run_cons_of_ok (.inl hstopped) rfl, List.nil_append]
    split
    · rw [run_cons_of_ok (.inl hstopped) rfl, run_nil]
      refine ⟨_, _, rfl, rfl, rfl, rfl, ?_⟩
      simp [stoppedBy, hstopped, normalize, permission, rateLimit]
    · refine ⟨ctx, s, rfl, rfl, rfl, rfl, ?_⟩
      simp [stoppedBy, hstopped, normalize, permission]

end Entry

section Assembly

variable {config : AppConfig} {serde : SerdeText} {env : Surroundings}
  {ctx ctx' : PipelineContext} {s s' : PipelineState}

/-- The chain after the commands and the guards. -/
theorem run_assemble (hopen : ctx.shortCircuit = false)
    (hcommand : agentCommandProcess config.agent env ctx s = (.ok ctx', s'))
    {c : PipelineContext} {s'' : PipelineState}
    (hguards : runPipeline (guards config env) ctx' s' = (.ok c, s'')) :
    runPipeline (assemble config serde env) ctx s =
      runPipeline [ai config.ai serde env, formatter, outboxStage serde env] c s'' := by
  unfold runPipeline at hguards
  unfold runPipeline assemble
  rw [List.cons_append, run_cons_of_ok (.inl hopen) hcommand, run_append_of_ok hguards]

/-- Only the guards can be the rate limit. -/
theorem stoppedBy_assemble (hopen : ctx.shortCircuit = false)
    (hcommand : agentCommandProcess config.agent env ctx s = (.ok ctx', s')) :
    stoppedBy PipelineContext.shortCircuit "rate_limit" (assemble config serde env) ctx s =
      stoppedBy PipelineContext.shortCircuit "rate_limit" (guards config env) ctx' s' := by
  have htail : ∀ c s'', stoppedBy PipelineContext.shortCircuit "rate_limit"
      [ai config.ai serde env, formatter, outboxStage serde env] c s'' = false := by
    intro c s''
    refine stoppedBy_of_name_ne ?_ c s''
    simp [ai, formatter, outboxStage]
  have hprocess : (agentCommand config.agent env).process ctx s = (.ok ctx', s') := hcommand
  have hname : (agentCommand config.agent env).name ≠ "rate_limit" := by
    show "agent_command" ≠ "rate_limit"
    decide
  unfold assemble
  rw [List.cons_append, stoppedBy, if_neg (by rw [hopen]; exact Bool.false_ne_true), hprocess]
  dsimp only
  rw [decide_eq_false hname, Bool.false_and, Bool.false_and, Bool.false_or, stoppedBy_append]
  split
  · rw [Bool.or_false]
  · rw [htail, Bool.or_false]

end Assembly

/-! ## The chain -/

/-- The rate limit stops the message. -/
def RateLimited (config : AppConfig) (serde : SerdeText) (env : Surroundings)
    (ctx : PipelineContext) (s : PipelineState) : Prop :=
  stoppedBy PipelineContext.shortCircuit "rate_limit" (assemble config serde env) ctx s = true

section Chain

variable {config : AppConfig} {serde : SerdeText} {env : Surroundings} {s : PipelineState}
  {ctx : PipelineContext} {text : String}

/-- A text that is not stopped leaves its reply. -/
theorem run_assemble_of_text (hserde : serde.Total) (hworks : StorageWorks env)
    (hfree : s.database.outbox.find? ctx.message.id = none)
    (hfresh : ctx.aiResponse = none ∧ ctx.shortCircuit = false)
    (htext : ctx.message.content = .text text) (hpasses : ¬ RateLimited config serde env ctx s) :
    QueuesReply serde env ctx.message s (runPipeline (assemble config serde env) ctx s).2 := by
  obtain ⟨ctx', s', text', hcommand, hmessage, hanswered, hdatabase⟩ :=
    agentCommand_spec config.agent hworks.preferences hfresh htext s
  obtain ⟨c, s'', hguards, hmessage', hresponse, hdatabase', hstopped⟩ :=
    run_guards s' env config ctx'
  have houtbox : s''.database.outbox = s.database.outbox := by
    rw [hdatabase', hdatabase]
  unfold RateLimited at hpasses
  rw [stoppedBy_assemble hfresh.2 hcommand, Bool.not_eq_true] at hpasses
  -- the reply is to the message as the commands left it
  have hmessage'' : c.message = { ctx.message with content := .text text' } :=
    hmessage'.trans hmessage
  have hid : c.message.id = ctx.message.id := by
    rw [hmessage'']
  have hroute : c.message.routeKey = ctx.message.routeKey := by
    rw [hmessage'']
  have hfree' : s''.database.outbox.find? c.message.id = none := by
    rw [houtbox, hid]
    exact hfree
  have hdone : c.shortCircuit = c.aiResponse.isSome := by
    rw [hstopped, hpasses, Bool.or_false, hresponse, hanswered]
  obtain ⟨routeKeyJson, reply, payloadJson, hrouteKey, hpayload, hrows⟩ :=
    run_tail_of_text config.ai hserde hworks hfree' (congrArg Message.content hmessage'') hdone
  rw [hroute] at hrouteKey
  rw [hid, houtbox] at hrows
  rw [run_assemble hfresh.2 hcommand hguards]
  exact ⟨routeKeyJson, reply, payloadJson, hrouteKey, hpayload, hrows⟩

/-- A text that is stopped leaves nothing. -/
theorem run_assemble_of_rateLimited (hworks : StorageWorks env)
    (hinbound : ctx.message.direction = .inbound)
    (hfresh : ctx.aiResponse = none ∧ ctx.shortCircuit = false)
    (htext : ctx.message.content = .text text) (hlimited : RateLimited config serde env ctx s) :
    (runPipeline (assemble config serde env) ctx s).2.database.outbox = s.database.outbox := by
  obtain ⟨ctx', s', text', hcommand, hmessage, hanswered, hdatabase⟩ :=
    agentCommand_spec config.agent hworks.preferences hfresh htext s
  obtain ⟨c, s'', hguards, hmessage', hresponse, hdatabase', hstopped⟩ :=
    run_guards s' env config ctx'
  unfold RateLimited at hlimited
  rw [stoppedBy_assemble hfresh.2 hcommand] at hlimited
  have hskip : c.shortCircuit = true := by
    rw [hstopped, hlimited, Bool.or_true]
  have hunanswered : c.aiResponse = none := by
    rw [hresponse]
    cases hanswer : ctx'.aiResponse with
    | none => rfl
    | some response =>
      -- what the commands answered is stopped before the guards
      have hstopped' : ctx'.shortCircuit = true := by
        rw [hanswered, hanswer]
        rfl
      rw [stoppedBy_of_stopped hstopped' (guards_not_terminal env config)] at hlimited
      exact absurd hlimited Bool.false_ne_true
  have hinbound' : c.message.direction = .inbound := by
    rw [hmessage', hmessage]
    exact hinbound
  rw [run_assemble hfresh.2 hcommand hguards, run_tail_of_stopped config.ai hskip,
    run_delivery_of_unanswered hinbound' hunanswered, hdatabase', hdatabase]

/-- What is not a text passes through. -/
theorem run_assemble_of_not_text (hinbound : ctx.message.direction = .inbound)
    (hfresh : ctx.aiResponse = none ∧ ctx.shortCircuit = false)
    (hnot : ∀ text, ctx.message.content ≠ .text text) :
    (runPipeline (assemble config serde env) ctx s).2.database.outbox = s.database.outbox := by
  have hcommand : agentCommandProcess config.agent env ctx s = (.ok ctx, s) :=
    agentCommandProcess_of_not_text hnot
  obtain ⟨c, s', hguards, hmessage, hresponse, hdatabase, -⟩ := run_guards s env config ctx
  have hunanswered : c.aiResponse = none := hresponse.trans hfresh.1
  have hinbound' : c.message.direction = .inbound := by
    rw [hmessage]
    exact hinbound
  have hnot' : ∀ text, c.message.content ≠ .text text := by
    rw [hmessage]
    exact hnot
  have htail : runPipeline [ai config.ai serde env, formatter, outboxStage serde env] c s' =
      runPipeline [formatter, outboxStage serde env] c s' := by
    cases hstopped : c.shortCircuit with
    | true => exact run_tail_of_stopped config.ai hstopped
    | false => exact run_cons_of_ok (.inl hstopped) (aiProcess_of_not_text serde env s' config.ai hnot')
  rw [run_assemble hfresh.2 hcommand hguards, htail,
    run_delivery_of_unanswered hinbound' hunanswered, hdatabase]

end Chain

/-- Every inbound message that is new to the outbox leaves exactly one row
there if it is a text that the rate limit lets through, whatever the backend
replies, and leaves the outbox as it is otherwise. -/
theorem reply_complete (config : AppConfig) (serde : SerdeText) (env : Surroundings)
    (conversation : ConversationSnapshot) (message : Message) (s : PipelineState)
    (hserde : serde.Total) (hworks : StorageWorks env) (hinbound : message.direction = .inbound)
    (hnew : s.database.outbox.find? message.id = none) :
    let ctx := PipelineContext.new config conversation message
    let s' := (runPipeline (assemble config serde env) ctx s).2
    (∀ text, message.content = .text text → ¬ RateLimited config serde env ctx s →
        QueuesReply serde env message s s') ∧
      (∀ text, message.content = .text text → RateLimited config serde env ctx s →
        s'.database.outbox = s.database.outbox) ∧
      ((∀ text, message.content ≠ .text text) → s'.database.outbox = s.database.outbox) := by
  have hfresh : (PipelineContext.new config conversation message).aiResponse = none ∧
      (PipelineContext.new config conversation message).shortCircuit = false := ⟨rfl, rfl⟩
  refine ⟨?passes, ?limited, ?other⟩
  case passes =>
    intro text htext hpasses
    exact run_assemble_of_text hserde hworks hnew hfresh htext hpasses
  case limited =>
    intro text htext hlimited
    exact run_assemble_of_rateLimited hworks hinbound hfresh htext hlimited
  case other =>
    intro hnot
    exact run_assemble_of_not_text hinbound hfresh hnot

/-! ## A reply -/

/-- The text of a string in JSON. -/
def escapeChar (c : Char) : String :=
  match c with
  | '"' => "\\\""
  | '\\' => "\\\\"
  | '\n' => "\\n"
  | '\r' => "\\r"
  | '\t' => "\\t"
  | c =>
    if c.toNat = 8 then "\\b"
    else if c.toNat = 12 then "\\f"
    else if c.toNat < 32 then
      "\\u00" ++ String.ofList [Nat.digitChar (c.toNat / 16), Nat.digitChar (c.toNat % 16)]
    else String.ofList [c]

def quote (s : String) : String :=
  "\"" ++ String.join (s.toList.map escapeChar) ++ "\""

/-- An object with the texts of its values. -/
def objectText (fields : List (String × String)) : String :=
  "\x7b" ++ ",".intercalate (fields.map fun (name, value) => quote name ++ ":" ++ value) ++ "\x7d"

def variantName : Routing.ConversationType → String
  | .direct => "Direct"
  | .group => "Group"
  | .thread => "Thread"
  | .botSession => "BotSession"

/-- The texts of the derived `Serialize` instances. -/
def derivedText : SerdeText where
  routeKey routeKey := .ok <| objectText
    [("channel", quote routeKey.channel.name), ("conversation_id", quote routeKey.conversationId),
      ("peer_id", quote routeKey.peerId),
      ("conversation_type", quote (variantName routeKey.conversationType))]
  content content := .ok <|
    match content with
    | .text text => objectText [("Text", quote text)]
    | .image url mediaId => objectText [("Image", objectText
        [("url", quote url), ("media_id", (mediaId.map quote).getD "null")])]
    | .file url name size => objectText [("File", objectText
        [("url", quote url), ("name", quote name), ("size", toString size.toNat)])]
    | .unknown => quote "Unknown"

theorem derivedText_total : derivedText.Total :=
  ⟨fun _ => ⟨_, rfl⟩, fun _ => ⟨_, rfl⟩⟩

/-- A user asks, and the backend fails. -/
def question : Message :=
  .newInbound "m1" ⟨⟨"wechat"⟩, "", "alice", .direct⟩ none 1700000000000 (.text "what is new?")

def failingBackend : Surroundings :=
  ⟨none, 1700000000, 5000000, 5000000, none, .error (.timeout 60000), 1700000000, none⟩

def limitedConfig : AppConfig := ⟨⟨"claude_code", [], 3000⟩, ⟨false, []⟩, "default"⟩

def idleState : PipelineState := ⟨KeyedTable.empty, fun _ => none, Outbox.World.init, []⟩

/-- Also the failure is replied. -/
theorem question_replied :
    QueuesReply derivedText failingBackend question idleState
      (runPipeline (assemble limitedConfig derivedText failingBackend)
        (.new limitedConfig ⟨[]⟩ question) idleState).2 :=
  (reply_complete limitedConfig derivedText failingBackend ⟨[]⟩ question idleState derivedText_total
    ⟨rfl, rfl⟩ rfl rfl).1 "what is new?" rfl (by unfold RateLimited; decide +kernel)

end MagicLaw.Pipeline
