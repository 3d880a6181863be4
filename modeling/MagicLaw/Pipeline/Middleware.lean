import MagicLaw.Lib.Bytes
import MagicLaw.Lib.Stages
import MagicLaw.Lib.Text
import MagicLaw.Outbox.Storage
import MagicLaw.Routing.ReorderWindow

/-!
# The pipeline of inbound messages

The middleware of `core/pipeline` and the chain that `AppRuntime::new` of
`infrastructure/runtime.rs` assembles from it, with the store of
`adapters/sqlite_user_preference_store.rs`.

Each middleware is a stage over the state that the stages share: the table of
preferences, the windows of the rate limit and the database of the outbox.
What a message meets on its way (faults of the store, what the clocks show,
what the AI backend replies) is its `Surroundings`.

The state also carries a trace of the calls to the AI backends.  No stage
reads it.
-/

namespace MagicLaw.Pipeline

open Lib Lib.Stages
open Lib.Text (trim stripPrefix? toAsciiLowercase)
open MagicLaw.Outbox (OutboxEntry)
open MagicLaw.Routing (RouteKey Message MessageContent Direction)

/-! ## Configuration -/

/-- `ai.agents` by the names of the agents. -/
structure AiConfig where
  backend : String
  agents : List String
  rateLimitMinIntervalMs : UInt64

/-- The aliases of each agent, in the order in which the map is iterated. -/
structure AgentConfig where
  enableUserPreferences : Bool
  aliases : List (String × List String)

/-- The fields of `AppConfig` that the stages read. -/
structure AppConfig where
  ai : AiConfig
  agent : AgentConfig
  wechatAccountId : String

def defaultAgentAliases : List (String × List String) :=
  [("claude_code", ["cc", "claude", "claude code"]), ("codex", ["cx", "codex"]),
    ("openclaw", ["oc", "openclaw"]), ("hermes", ["h", "hermes"])]

/-! ## AI backends -/

inductive AiError where
  | transport (detail : String)
  | backend (status : UInt16) (body : String)
  | timeout (ms : UInt64)
  | rateLimited (retryAfterSecs : UInt64)
  | refused (detail : String)
  | noBackend
  | internal (detail : String)

def AiError.toString : AiError → String
  | .transport detail => s!"backend transport error: {detail}"
  | .backend status body => s!"backend error: status={status} body={body}"
  | .timeout ms => s!"backend timeout after {ms}ms"
  | .rateLimited retryAfterSecs => s!"rate limited, retry after {retryAfterSecs}s"
  | .refused detail => s!"backend refused: {detail}"
  | .noBackend => "no AI backend configured"
  | .internal detail => s!"internal error: {detail}"

inductive Backend where
  | echo
  | claudeCode
  /-- `CliAgentBackend`, custom or preset -/
  | cli (name : String)
  deriving DecidableEq

def Backend.name : Backend → String
  | .echo => "echo"
  | .claudeCode => "claude_code"
  | .cli name => name

/-- `cli_agent::preset` has one for these names. -/
def presets : List String := ["codex", "copilot"]

def createBackend (config : AiConfig) (name : String) : Backend :=
  match name with
  | "echo" => .echo
  | "claude_code" => .claudeCode
  | other =>
    if other ∈ config.agents then .cli other
    else if other ∈ presets then .cli other
    else .echo

def builtinAgents : List String := ["echo", "claude_code", "codex", "openclaw", "hermes"]

/-- `backend_map` -/
def backendMap (config : AiConfig) (name : String) : Option Backend :=
  if name ∈ builtinAgents || name ∈ config.agents then some (createBackend config name) else none

/-! ## Contexts and the shared state -/

structure ConversationSnapshot where
  participants : List String

structure PipelineContext where
  message : Message
  conversation : ConversationSnapshot
  config : AppConfig
  aiResponse : Option String
  shortCircuit : Bool
  userAgentSelection : Option String

/-- The context that a message enters the pipeline with. -/
def PipelineContext.new (config : AppConfig) (conversation : ConversationSnapshot)
    (message : Message) : PipelineContext where
  message := message
  conversation := conversation
  config := config
  aiResponse := none
  shortCircuit := false
  userAgentSelection := none

/-- The one variant of `PipelineError` that a stage returns: a string error is
an unavailable upstream. -/
inductive PipelineError where
  | upstreamUnavailable (detail : String)

/-- A row of `user_agent_preferences`. -/
structure UserAgentPreference where
  channel : String
  accountScope : String
  peerId : String
  agentName : String
  updatedAt : UInt64

def UserAgentPreference.key (row : UserAgentPreference) : String × String × String :=
  (row.channel, row.accountScope, row.peerId)

/-- A call to a backend that the gate let through. -/
structure BackendCall where
  routeKey : RouteKey
  backend : Backend
  passedAt : Nat

structure PipelineState where
  preferences : KeyedTable UserAgentPreference.key
  /-- the instants of `RateLimit`, in nanoseconds -/
  windows : String → Option Nat
  database : Outbox.World
  /-- the latest call first -/
  calls : List BackendCall

/-- What fails in the preference store: the call, with its error, or the fetch of
the row, which `get` takes for no row. -/
inductive PreferenceFault where
  | call (e : String)
  | fetch

/-- What a message meets on its way: the faults of the preference store and of
the outbox, the instants at which `RateLimit` checks and at which it stores,
and the backend's reply, unless the gate refuses the call. -/
structure Surroundings where
  preferenceFault : Option PreferenceFault
  unixSecs : UInt64
  checkedAt : Nat
  passedAt : Nat
  refusal : Option AiError
  reply : Except AiError String
  timestamp : Int64
  outboxFault : Option String

/-- `serde_json::to_string` on the two columns of the outbox. -/
structure SerdeText where
  routeKey : RouteKey → Except String String
  content : MessageContent → Except String String

abbrev Middleware := Stage PipelineContext PipelineState PipelineError

/-! ## Agent commands -/

inductive AgentCommand where
  | switch (agent : String)
  | query
  | switchAndProcess (agent text : String)
  | notCommand
  deriving DecidableEq, Repr

/-- The texts of a query.  Outside ASCII no letter has one of these for its
small letter, so `to_lowercase` is that of ASCII here. -/
def isQuery (trimmed : String) : Bool :=
  toAsciiLowercase trimmed ∈ ["当前 agent", "当前agent", "/agent", "agent"]

/-- Every alias with its agent, the longest first. -/
def candidates (aliases : List (String × List String)) : List (String × String) :=
  (aliases.flatMap fun (agent, agentAliases) => agentAliases.map fun a => (agent, a)).insertionSort
    fun a b => b.2.utf8ByteSize ≤ a.2.utf8ByteSize

/-- What is left after the prefix, if it is not blank. -/
def contentAfter (pattern trimmed : String) : Option String :=
  ((stripPrefix? pattern trimmed).map trim).filter (· ≠ "")

def matchAlias (trimmed agent name : String) : Option AgentCommand :=
  if trimmed = name || trimmed = s!"/{name}" then some (.switch agent)
  else
    match contentAfter s!"{name} " trimmed with
    | some content => some (.switchAndProcess agent content)
    | none =>
      match contentAfter s!"/{name} " trimmed with
      | some content => some (.switchAndProcess agent content)
      | none => none

/-- `AgentCommandParser::parse` -/
def parse (aliases : List (String × List String)) (text : String) : AgentCommand :=
  let trimmed := trim text
  if isQuery trimmed then .query
  else
    ((candidates aliases).findSome? fun (agent, name) => matchAlias trimmed agent name).getD
      .notCommand

/-- Without aliases the parser of the middleware has the default ones. -/
def AgentConfig.parser (config : AgentConfig) : List (String × List String) :=
  if config.aliases.isEmpty then defaultAgentAliases else config.aliases

/-! ## The preference store -/

section Store

variable (preferences : KeyedTable UserAgentPreference.key)

/-- `SELECT agent_name FROM user_agent_preferences WHERE …`. -/
def getUserAgent (key : String × String × String) : Option String :=
  (preferences.find? key).map UserAgentPreference.agentName

/-- `INSERT OR REPLACE INTO user_agent_preferences`. -/
def setUserAgent (key : String × String × String) (agent : String) (now : UInt64) :
    KeyedTable UserAgentPreference.key :=
  preferences.upsert ⟨key.1, key.2.1, key.2.2, agent, now⟩

theorem getUserAgent_setUserAgent (key key' : String × String × String) (agent : String)
    (now : UInt64) :
    getUserAgent (setUserAgent preferences key agent now) key' =
      if key' = key then some agent else getUserAgent preferences key' := by
  unfold getUserAgent setUserAgent
  have hrow : UserAgentPreference.key ⟨key.1, key.2.1, key.2.2, agent, now⟩ = key := rfl
  rw [KeyedTable.find?_upsert, hrow]
  by_cases h : key' = key
  · rw [if_pos h, if_pos h]
    rfl
  · rw [if_neg h, if_neg h]

def getUserAgentViaPort (env : Surroundings) (key : String × String × String) :
    Except String (Option String) :=
  match env.preferenceFault with
  | some (.call e) => .error e
  -- `query_row(…).ok()`
  | some .fetch => .ok none
  | none => .ok (getUserAgent preferences key)

def setUserAgentViaPort (env : Surroundings) (key : String × String × String) (agent : String) :
    Except String (KeyedTable UserAgentPreference.key) :=
  match env.preferenceFault with
  | some (.call e) => .error e
  | some .fetch | none => .ok (setUserAgent preferences key agent env.unixSecs)

theorem getUserAgentViaPort_of_works {env : Surroundings} (hworks : env.preferenceFault = none)
    (key : String × String × String) :
    getUserAgentViaPort preferences env key = .ok (getUserAgent preferences key) := by
  unfold getUserAgentViaPort
  rw [hworks]

theorem setUserAgentViaPort_of_works {env : Surroundings} (hworks : env.preferenceFault = none)
    (key : String × String × String) (agent : String) :
    setUserAgentViaPort preferences env key agent =
      .ok (setUserAgent preferences key agent env.unixSecs) := by
  unfold setUserAgentViaPort
  rw [hworks]

end Store

/-! ## The stages -/

/-- The channel, the account scope and the peer of a message. -/
def PipelineContext.preferenceKey (ctx : PipelineContext) : String × String × String :=
  (ctx.message.routeKey.channel.name, ctx.config.wechatAccountId, ctx.message.routeKey.peerId)

def notSelectedText : String := "还未选择 agent，请发送 cc/cx/oc/h 或完整名称进行切换"

def selectionPrompt : String :=
  "请先选择 AI agent。发送以下命令之一进行切换：\n• cc (claude code)\n• cx (codex)\n" ++
    "• oc (openclaw)\n• h (hermes)"

/-- What the middleware does for each command.  A call of the store that fails
ends the run. -/
def handleCommand (config : AgentConfig) (env : Surroundings) (ctx : PipelineContext)
    (s : PipelineState) : AgentCommand → Except PipelineError PipelineContext × PipelineState
  | .switch agent =>
    match setUserAgentViaPort s.preferences env ctx.preferenceKey agent with
    | .error e => (.error (.upstreamUnavailable e), s)
    | .ok preferences =>
      (.ok { ctx with aiResponse := some s!"已切换到 {agent}", shortCircuit := true },
        { s with preferences := preferences })
  | .query =>
    match getUserAgentViaPort s.preferences env ctx.preferenceKey with
    | .error e => (.error (.upstreamUnavailable e), s)
    | .ok (some agent) =>
      (.ok { ctx with aiResponse := some s!"当前使用 {agent}", shortCircuit := true }, s)
    | .ok none => (.ok { ctx with aiResponse := some notSelectedText, shortCircuit := true }, s)
  | .switchAndProcess agent newText =>
    match setUserAgentViaPort s.preferences env ctx.preferenceKey agent with
    | .error e => (.error (.upstreamUnavailable e), s)
    | .ok preferences =>
      (.ok { ctx with
          message := { ctx.message with content := .text newText }
          userAgentSelection := some agent },
        { s with preferences := preferences })
  | .notCommand =>
    if !config.enableUserPreferences then (.ok ctx, s)
    else
      match getUserAgentViaPort s.preferences env ctx.preferenceKey with
      | .error e => (.error (.upstreamUnavailable e), s)
      | .ok (some agent) => (.ok { ctx with userAgentSelection := some agent }, s)
      | .ok none => (.ok { ctx with aiResponse := some selectionPrompt, shortCircuit := true }, s)

/-- Where preferences count, a text that is no command gets the user's agent, or
the prompt. -/
theorem handleCommand_notCommand {config : AgentConfig} {env : Surroundings} {ctx : PipelineContext}
    {s : PipelineState} (henabled : config.enableUserPreferences = true)
    (hworks : env.preferenceFault = none) :
    handleCommand config env ctx s .notCommand =
      match getUserAgent s.preferences ctx.preferenceKey with
      | some agent => (.ok { ctx with userAgentSelection := some agent }, s)
      | none =>
        (.ok { ctx with aiResponse := some selectionPrompt, shortCircuit := true }, s) := by
  unfold handleCommand
  simp only [henabled, getUserAgentViaPort_of_works _ hworks]
  cases getUserAgent s.preferences ctx.preferenceKey <;> rfl

/-- A command changes nothing but preferences. -/
theorem handleCommand_keeps (config : AgentConfig) (env : Surroundings) (ctx : PipelineContext)
    (s : PipelineState) (command : AgentCommand) :
    ∃ preferences, (handleCommand config env ctx s command).2 =
      { s with preferences := preferences } := by
  unfold handleCommand
  cases command with
  | switch agent | switchAndProcess agent newText =>
    dsimp only
    split
    · exact ⟨_, rfl⟩
    · exact ⟨_, rfl⟩
  | query =>
    refine ⟨s.preferences, ?_⟩
    dsimp only
    split <;> rfl
  | notCommand =>
    refine ⟨s.preferences, ?_⟩
    dsimp only
    split
    · rfl
    · split <;> rfl

def agentCommandProcess (config : AgentConfig) (env : Surroundings) (ctx : PipelineContext)
    (s : PipelineState) : Except PipelineError PipelineContext × PipelineState :=
  match ctx.message.content with
  | .text text => handleCommand config env ctx s (parse config.parser text)
  | _ => (.ok ctx, s)

theorem agentCommandProcess_of_text {config : AgentConfig} {env : Surroundings}
    {ctx : PipelineContext} {s : PipelineState} {text : String}
    (h : ctx.message.content = .text text) :
    agentCommandProcess config env ctx s =
      handleCommand config env ctx s (parse config.parser text) := by
  unfold agentCommandProcess
  rw [h]

theorem agentCommandProcess_of_not_text {config : AgentConfig} {env : Surroundings}
    {ctx : PipelineContext} {s : PipelineState} (h : ∀ text, ctx.message.content ≠ .text text) :
    agentCommandProcess config env ctx s = (.ok ctx, s) := by
  unfold agentCommandProcess
  cases hcontent : ctx.message.content with
  | text text => exact absurd hcontent (h text)
  | image url mediaId => rfl
  | file url name size => rfl
  | unknown => rfl

def agentCommand (config : AgentConfig) (env : Surroundings) : Middleware where
  name := "agent_command"
  isTerminal := false
  process := agentCommandProcess config env

def normalize : Middleware where
  name := "normalize"
  isTerminal := false
  process ctx s := (.ok ctx, s)

def permission : Middleware where
  name := "permission"
  isTerminal := false
  process ctx s := (.ok ctx, s)

/-- The conversation of a message, or the peer where it has none. -/
def scope (routeKey : RouteKey) : String :=
  if routeKey.conversationId = "" then routeKey.peerId else routeKey.conversationId

def windowKey (routeKey : RouteKey) : String := s!"{routeKey.channel.name}:{scope routeKey}"

/-- `as_millis() as u64` of a span of nanoseconds -/
def asMillis (nanos : Nat) : UInt64 := UInt64.ofNat (nanos / 1000000)

/-- The last message of the window came too short a time ago. -/
def tooSoon (minIntervalMs : UInt64) (last : Option Nat) (now : Nat) : Bool :=
  match last with
  | none => false
  | some last => asMillis (now - last) < minIntervalMs

def rateLimit (minIntervalMs : UInt64) (env : Surroundings) : Middleware where
  name := "rate_limit"
  isTerminal := false
  process ctx s :=
    let key := windowKey ctx.message.routeKey
    (.ok { ctx with
        shortCircuit := ctx.shortCircuit || tooSoon minIntervalMs (s.windows key) env.checkedAt },
      { s with windows := Function.update s.windows key (some env.passedAt) })

/-- `generate` of a backend behind its gate. -/
def Backend.generate (backend : Backend) (env : Surroundings) (input : String) :
    Except AiError String :=
  match env.refusal with
  | some e => .error e
  | none =>
    match backend with
    | .echo => .ok s!"[echo] {input}"
    | _ => env.reply

/-- The backend that serves a message. -/
def selectBackend (config : AiConfig) (selection : Option String) : Backend :=
  match selection with
  | some agent => (backendMap config agent).getD (createBackend config config.backend)
  | none => createBackend config config.backend

def recordAudit (s : PipelineState) (routeKey : Option String) (action result : String) :
    PipelineState :=
  { s with database := { s.database with
      audit := (routeKey, action, result) :: s.database.audit } }

/-- The trace of a call to the backend. -/
def recordCall (s : PipelineState) (env : Surroundings) (routeKey : RouteKey)
    (backend : Backend) : PipelineState :=
  match env.refusal with
  | some _ => s
  | none => { s with calls := ⟨routeKey, backend, env.passedAt⟩ :: s.calls }

def aiProcess (config : AiConfig) (serde : SerdeText) (env : Surroundings) (ctx : PipelineContext)
    (s : PipelineState) : Except PipelineError PipelineContext × PipelineState :=
  match ctx.message.content with
  | .text input =>
    let backend := selectBackend config ctx.userAgentSelection
    let routeKeyStr := (serde.routeKey ctx.message.routeKey).toOption
    let s := recordCall s env ctx.message.routeKey backend
    match backend.generate env input with
    | .ok response =>
      (.ok { ctx with aiResponse := some response },
        recordAudit s routeKeyStr "ai_generate"
          s!"ok backend={backend.name} len={response.utf8ByteSize}")
    | .error e =>
      (.ok { ctx with aiResponse := some s!"[ai error: {e.toString}] {input}" },
        recordAudit s routeKeyStr "ai_generate"
          s!"degraded backend={backend.name} error={e.toString}")
  | _ => (.ok ctx, s)

def ai (config : AiConfig) (serde : SerdeText) (env : Surroundings) : Middleware where
  name := "ai"
  isTerminal := false
  process := aiProcess config serde env

def addResponderPrefix (text responder : String) : String :=
  let tag := s!"[{responder}] "
  if (stripPrefix? tag text).isSome then text else tag ++ text

def PipelineContext.responder (ctx : PipelineContext) : String :=
  match ctx.userAgentSelection with
  | some agent => agent
  | none => if ctx.shortCircuit then "system" else ctx.config.ai.backend

def formatter : Middleware where
  name := "formatter"
  isTerminal := true
  process ctx s :=
    match ctx.aiResponse with
    | none => (.ok ctx, s)
    | some response =>
      (.ok { ctx with
          aiResponse := none
          message := { ctx.message with
            direction := .outbound
            content := .text (addResponderPrefix response ctx.responder) } }, s)

def outboxProcess (serde : SerdeText) (env : Surroundings) (ctx : PipelineContext)
    (s : PipelineState) : Except PipelineError PipelineContext × PipelineState :=
  match ctx.message.direction with
  | .inbound => (.ok ctx, s)
  | .outbound =>
    match serde.routeKey ctx.message.routeKey with
    | .error _ => (.ok ctx, s)
    | .ok routeKeyJson =>
      match serde.content ctx.message.content with
      | .error _ => (.ok ctx, s)
      | .ok payloadJson =>
        match env.outboxFault with
        | some _ => (.ok ctx, s)
        | none =>
          let entry := OutboxEntry.new ctx.message.id routeKeyJson payloadJson env.timestamp
          (.ok ctx, { s with database := s.database.enqueue entry })

def outboxStage (serde : SerdeText) (env : Surroundings) : Middleware where
  name := "outbox"
  isTerminal := true
  process := outboxProcess serde env

/-! ## The chain -/

/-- The stages between the commands and the AI. -/
def guards (config : AppConfig) (env : Surroundings) : List Middleware :=
  [normalize, permission] ++
    if config.ai.backend ≠ "echo" then [rateLimit config.ai.rateLimitMinIntervalMs env] else []

/-- The chain of `AppRuntime::new`. -/
def assemble (config : AppConfig) (serde : SerdeText) (env : Surroundings) : List Middleware :=
  agentCommand config.agent env :: guards config env ++
    [ai config.ai serde env, formatter, outboxStage serde env]

/-- `Pipeline::run` -/
def runPipeline (stages : List Middleware) (ctx : PipelineContext) (s : PipelineState) :
    Except PipelineError PipelineContext × PipelineState :=
  run PipelineContext.shortCircuit stages ctx s

end MagicLaw.Pipeline
