import MagicLaw.Lib.Text
import MagicLaw.Mcp.Protocol
import MagicLaw.Outbox.Storage
import MagicLaw.Pipeline.Middleware

/-!
# The tools of the MCP server

`adapters/mcp/tools.rs`, and `submit_outbound_for_delivery` of
`application/send_message.rs`, which the tool `send` calls.

`serde_json` is a parameter (`Serde`).  What a request finds outside the
process is in its `Surroundings`: the environment variables, the account file,
the context tokens, the clock, a fresh id, and the error of the outbox if its
statement fails.

`dispatch_submission` and `dispatch_of_none`: a call adds one pending entry to
the outbox and reports its id, or it leaves the outbox as it is.
-/

namespace MagicLaw.Mcp

open Lib Lib.Bytes
open MagicLaw.Outbox (OutboxEntry)
open MagicLaw.Routing (ChannelId ConversationType MessageContent RouteKey)
open MagicLaw.Pipeline (SerdeText)

/-! ## Surroundings -/

/-- `serde_json`.  `fromStr` keeps the fields of the outermost object as they
are written; inside it the last of two equal keys counts.  The texts of the
errors are that of `from_str` on the account file and that of `from_value` on
the arguments of a tool. -/
structure Serde where
  fromStr : String → Option Json
  toString : Json → String
  /-- no string has more than `isize::MAX` bytes -/
  toString_le : ∀ value, (asBytes (toString value)).length ≤ 2 ^ 63 - 1
  accountError : String → String
  argumentsError : String → Json → String
  columns : SerdeText

/-- The environment variables, `fs::read_to_string`, opening the store of
the context tokens at a path, the tokens of an account, `Uuid::new_v4`,
`Utc::now().timestamp()`, and the error of the insert. -/
structure Surroundings where
  var : String → Option String
  readToString : String → Except String String
  openStore : String → Except String Unit
  getAll : String → Except String (List (String × String))
  uuid : String
  timestamp : Int64
  outboxFault : Option String

/-! ## Submitting a message -/

/-- `Persist` and `Serialization` of `SendError`, with the text of a database
error. -/
inductive SendError where
  | persist (e : String)
  | serialization (e : String)
  deriving DecidableEq

def SendError.text : SendError → String
  | .persist e => s!"failed to persist outbound message: database error: {e}"
  | .serialization e => s!"failed to serialize outbound message: {e}"

/-- The entry that a submission inserts. -/
def outboundEntry (columns : SerdeText) (env : Surroundings) (routeKey : RouteKey)
    (content : MessageContent) : Except SendError OutboxEntry := do
  let routeKeyJson ← (columns.routeKey routeKey).mapError SendError.serialization
  let payloadJson ← (columns.content content).mapError SendError.serialization
  return OutboxEntry.new env.uuid routeKeyJson payloadJson env.timestamp

def submitOutboundForDelivery (columns : SerdeText) (env : Surroundings)
    (channel conversationId peerId : String) (conversationType : ConversationType)
    (content : MessageContent) (outbox : Outbox.World) : Except SendError String × Outbox.World :=
  let routeKey : RouteKey := ⟨⟨channel⟩, conversationId, peerId, conversationType⟩
  match outboundEntry columns env routeKey content with
  | .error e => (.error e, outbox)
  | .ok entry =>
    match env.outboxFault with
    | some e => (.error (.persist e), outbox)
    | none => (.ok env.uuid, outbox.enqueue entry)

def submitTextForDelivery (columns : SerdeText) (env : Surroundings)
    (channel conversationId peerId : String) (conversationType : ConversationType)
    (content : String) (outbox : Outbox.World) : Except SendError String × Outbox.World :=
  submitOutboundForDelivery columns env channel conversationId peerId conversationType
    (.text content) outbox

/-! ## The definitions of the tools -/

structure ToolDef where
  name : String
  description : String
  inputSchema : Json

def ToolDef.toJson (tool : ToolDef) : Json :=
  .obj [("description", .str tool.description), ("inputSchema", tool.inputSchema),
    ("name", .str tool.name)]

/-- The schema of a string. -/
def stringSchema (description : String) : Json :=
  .obj [("description", .str description), ("type", .str "string")]

def channelSchema : Json := stringSchema "Channel: wechat, dingtalk, feishu"

def texts (elements : List String) : Json := .arr (elements.map Json.str)

def objectSchema (properties : List (String × Json)) (required : List String) : Json :=
  .obj [("properties", .obj properties), ("required", texts required), ("type", .str "object")]

/-- The keys of every object are in the order of a `BTreeMap`. -/
def allTools : List ToolDef :=
  [ { name := "send"
      description := "Send a text message to a conversation"
      inputSchema := objectSchema
        [ ("channel", channelSchema),
          ("content", stringSchema "Text content to send"),
          ("conversation_id", stringSchema "Conversation ID"),
          ("conversation_type", .obj
            [("enum", texts ["direct", "group", "thread", "bot_session"]),
              ("type", .str "string")]),
          ("peer_id", stringSchema "Peer user or group ID") ]
        ["channel", "conversation_id", "peer_id", "conversation_type", "content"] },
    { name := "list_peers"
      description := "List peers discovered from the local WeChat channel directory"
      inputSchema := objectSchema [("channel", channelSchema)] ["channel"] },
    { name := "login"
      description := "Inspect the configured WeChat account and login readiness"
      inputSchema := objectSchema
        [("account", stringSchema "Account identifier"), ("channel", channelSchema)]
        ["channel", "account"] } ]

/-! ## Arguments -/

structure SendArgs where
  channel : String
  conversationId : String
  peerId : String
  conversationType : String
  content : String

structure ListPeersArgs where
  channel : String

structure LoginArgs where
  channel : String
  account : String

/-- A text that has to be there. -/
def textField? (value : Json) (i : Nat) (name : String) : Option String :=
  (requiredField? value i name).bind Json.asStr?

def SendArgs.ofJson (value : Json) : Option SendArgs := do
  guard (value.isRecord 5)
  let channel ← textField? value 0 "channel"
  let conversationId ← textField? value 1 "conversation_id"
  let peerId ← textField? value 2 "peer_id"
  let conversationType ← textField? value 3 "conversation_type"
  let content ← textField? value 4 "content"
  return ⟨channel, conversationId, peerId, conversationType, content⟩

def ListPeersArgs.ofJson (value : Json) : Option ListPeersArgs := do
  guard (value.isRecord 1)
  let channel ← textField? value 0 "channel"
  return ⟨channel⟩

def LoginArgs.ofJson (value : Json) : Option LoginArgs := do
  guard (value.isRecord 2)
  let channel ← textField? value 0 "channel"
  let account ← textField? value 1 "account"
  return ⟨channel, account⟩

def parseConversationType : String → Option ConversationType
  | "direct" => some .direct
  | "group" => some .group
  | "thread" => some .thread
  | "bot_session" => some .botSession
  | _ => none

/-! ## The account -/

structure ProjectWechatAccount where
  token : String
  baseUrl : String
  accountId : String
  userId : Option String

/-- A text or `null`, or no such field. -/
def optionalTextField? (value : Json) (i : Nat) (name : String) : Option (Option String) :=
  match uniqueField? value i name with
  | none => none
  | some none => some none
  | some (some .null) => some none
  | some (some field) => field.asStr?.map some

def ProjectWechatAccount.ofJson (value : Json) : Option ProjectWechatAccount := do
  guard (value.isRecord 4)
  let token ← textField? value 0 "token"
  let baseUrl ← textField? value 1 "baseUrl"
  let accountId ← textField? value 2 "accountId"
  let userId ← optionalTextField? value 3 "userId"
  return ⟨token, baseUrl, accountId, userId⟩

/-- `Path::join` with a relative path. -/
def join (path name : String) : String :=
  if path = "" ∨ path.endsWith "/" then path ++ name else path ++ "/" ++ name

def resolveWechatDataDir (env : Surroundings) : String :=
  match env.var "WECHAT_CHANNEL_DIR" with
  | some dir => dir
  | none =>
    match env.var "HOME" with
    | some home => join (join (join home ".claude") "channels") "wechat"
    | none => ".claude/channels/wechat"

def loadProjectWechatAccount (serde : Serde) (env : Surroundings) (dataDir : String) :
    Except String ProjectWechatAccount :=
  let accountPath := join dataDir "account.json"
  match env.readToString accountPath with
  | .error e => .error s!"failed to read {accountPath}: {e}"
  | .ok content =>
    match (serde.fromStr content).bind ProjectWechatAccount.ofJson with
    | none => .error s!"failed to parse {accountPath}: {serde.accountError content}"
    | some account => .ok account

/-- The path of the database, by default that of `AppConfig::default()`. -/
def tokenStorePath (env : Surroundings) : String :=
  (((env.var "MAGICLAW_DB_PATH").map Text.trim).filter (· ≠ "")).getD "data/magiclaw.db"

/-- `open_context_token_store` and the tokens of an account. -/
def contextTokensOf (env : Surroundings) (accountId : String) :
    Except String (List (String × String)) := do
  (env.openStore (tokenStorePath env)).mapError fun e =>
    s!"failed to open context token store: database error: {e}"
  (env.getAll accountId).mapError fun e =>
    s!"failed to load context tokens: database error: {e}"

/-! ## The dispatcher -/

def isSupportedChannel (channel : String) : Bool := channel = "wechat"

/-- What `send` reports. -/
def sendReport (args : SendArgs) (messageId : String) : Json :=
  .obj
    [("channel", .str args.channel), ("conversation_id", .str args.conversationId),
      ("message_id", .str messageId), ("status", .str "pending")]

def handleSend (serde : Serde) (env : Surroundings) (args : SendArgs) (outbox : Outbox.World) :
    Except String Json × Outbox.World :=
  match parseConversationType args.conversationType with
  | none => (.error s!"unknown conversation_type: {args.conversationType}", outbox)
  | some conversationType =>
    match submitTextForDelivery serde.columns env args.channel args.conversationId args.peerId
        conversationType args.content outbox with
    | (.error e, outbox) => (.error s!"send failed: {e.text}", outbox)
    | (.ok messageId, outbox) => (.ok (sendReport args messageId), outbox)

/-- A peer as `list_peers` reports it. -/
def peerJson (channel peerId : String) (hasContextToken : Bool) : Json :=
  .obj [("channel", .str channel), ("has_context_token", .bool hasContextToken),
    ("peer_id", .str peerId)]

/-- The peer of an account without tokens. -/
def ProjectWechatAccount.fallbackPeer (account : ProjectWechatAccount) : String :=
  (account.userId.filter fun value => Text.trim value ≠ "").getD account.accountId

def handleListPeers (serde : Serde) (env : Surroundings) (args : ListPeersArgs) :
    Except String Json := do
  if !isSupportedChannel args.channel then throw s!"unsupported channel: {args.channel}"
  let account ← loadProjectWechatAccount serde env (resolveWechatDataDir env)
  let contextTokens ← contextTokensOf env account.accountId
  let known := contextTokens.map fun (peerId, _) => peerJson args.channel peerId true
  let peers :=
    if known.isEmpty then [peerJson args.channel account.fallbackPeer false] else known
  return .obj
    [("account_id", .str account.accountId), ("base_url", .str account.baseUrl),
      ("channel", .str args.channel), ("peer_count", .int peers.length),
      ("peers", .arr peers), ("status", .str "ok")]

def handleLogin (serde : Serde) (env : Surroundings) (args : LoginArgs) : Except String Json := do
  if !isSupportedChannel args.channel then throw s!"unsupported channel: {args.channel}"
  let dataDir := resolveWechatDataDir env
  let account ← loadProjectWechatAccount serde env dataDir
  if account.accountId ≠ args.account then
    throw s!"account mismatch: requested {args.account}, configured {account.accountId}"
  let contextTokens ← contextTokensOf env account.accountId
  let hasContextToken := contextTokens.any fun (_, token) => Text.trim token ≠ ""
  return .obj
    [("account_id", .str account.accountId), ("base_url", .str account.baseUrl),
      ("channel", .str args.channel), ("data_dir", .str dataDir),
      ("has_context_token", .bool hasContextToken), ("status", .str "ok")]

/-- `serde_json::from_value` on the arguments. -/
def arguments {α : Type} (serde : Serde) (type : String) (ofJson : Json → Option α) (args : Json) :
    Except String α :=
  match ofJson args with
  | some parsed => .ok parsed
  | none => .error s!"invalid arguments: {serde.argumentsError type args}"

/-- `ToolDispatcher::dispatch` -/
def dispatch (serde : Serde) (env : Surroundings) (toolName : String) (args : Json)
    (outbox : Outbox.World) : Except String Json × Outbox.World :=
  match toolName with
  | "send" =>
    match arguments serde "SendArgs" SendArgs.ofJson args with
    | .error e => (.error e, outbox)
    | .ok args => handleSend serde env args outbox
  | "list_peers" =>
    (arguments serde "ListPeersArgs" ListPeersArgs.ofJson args >>= handleListPeers serde env,
      outbox)
  | "login" =>
    (arguments serde "LoginArgs" LoginArgs.ofJson args >>= handleLogin serde env, outbox)
  | _ => (.error s!"unknown tool: {toolName}", outbox)

/-! ## Accepted sends -/

/-- The entry of a send that is accepted for delivery. -/
def SendArgs.entry? (columns : SerdeText) (env : Surroundings) (args : SendArgs) :
    Option OutboxEntry :=
  match parseConversationType args.conversationType with
  | none => none
  | some conversationType =>
    match outboundEntry columns env
        ⟨⟨args.channel⟩, args.conversationId, args.peerId, conversationType⟩
        (.text args.content) with
    | .error _ => none
    | .ok entry => if env.outboxFault.isNone then some entry else none

/-- The arguments and the entry of a tool call that is accepted for delivery. -/
def submission? (columns : SerdeText) (env : Surroundings) (toolName : String) (args : Json) :
    Option (SendArgs × OutboxEntry) :=
  if toolName = "send" then
    (SendArgs.ofJson args).bind fun args => (args.entry? columns env).map fun entry => (args, entry)
  else none

section Submissions

variable {columns : SerdeText} {serde : Serde} {env : Surroundings}

theorem id_outboundEntry {routeKey : RouteKey} {content : MessageContent} {entry : OutboxEntry}
    (h : outboundEntry columns env routeKey content = .ok entry) :
    entry.id = env.uuid := by
  unfold outboundEntry at h
  cases hroute : columns.routeKey routeKey with
  | error e =>
    rw [hroute] at h
    cases h
  | ok routeKeyJson =>
    cases hcontent : columns.content content with
    | error e =>
      rw [hroute, hcontent] at h
      cases h
    | ok payloadJson =>
      rw [hroute, hcontent] at h
      cases h
      rfl

theorem id_entry? {args : SendArgs} {entry : OutboxEntry}
    (h : args.entry? columns env = some entry) : entry.id = env.uuid := by
  unfold SendArgs.entry? at h
  split at h
  · cases h
  · split at h
    · cases h
    · next hentry =>
      split at h
      · cases h
        exact id_outboundEntry hentry
      · cases h

theorem handleSend_entry {args : SendArgs} {entry : OutboxEntry}
    (h : args.entry? serde.columns env = some entry) (outbox : Outbox.World) :
    handleSend serde env args outbox =
      (.ok (sendReport args entry.id), outbox.enqueue entry) := by
  have hid := id_entry? h
  unfold SendArgs.entry? at h
  unfold handleSend submitTextForDelivery submitOutboundForDelivery
  split at h
  · cases h
  · split at h
    · cases h
    · next hentry =>
      split at h
      · next hfault =>
        cases h
        simp only [hentry, Option.isNone_iff_eq_none.mp hfault, hid]
      · cases h

theorem handleSend_of_none {args : SendArgs} (h : args.entry? serde.columns env = none)
    (outbox : Outbox.World) : (handleSend serde env args outbox).2 = outbox := by
  unfold SendArgs.entry? at h
  unfold handleSend submitTextForDelivery submitOutboundForDelivery
  split at h
  · rfl
  · split at h
    · next hentry => simp only [hentry]
    · next hentry =>
      split at h
      · cases h
      · next hfault =>
        obtain ⟨e, he⟩ := Option.ne_none_iff_exists'.mp fun hnone =>
          hfault (Option.isNone_iff_eq_none.mpr hnone)
        simp only [hentry, he]

theorem dispatch_submission {toolName : String} {args : Json} {sent : SendArgs}
    {entry : OutboxEntry} (h : submission? serde.columns env toolName args = some (sent, entry))
    (outbox : Outbox.World) :
    dispatch serde env toolName args outbox =
      (.ok (sendReport sent entry.id), outbox.enqueue entry) := by
  obtain ⟨rfl, hsent⟩ := Option.ite_none_right_eq_some.mp h
  obtain ⟨parsed, hparsed, hentry⟩ := Option.bind_eq_some_iff.mp hsent
  obtain ⟨found, hfound, heq⟩ := Option.map_eq_some_iff.mp hentry
  cases heq
  unfold dispatch arguments
  rw [hparsed]
  exact handleSend_entry hfound outbox

theorem dispatch_of_none {toolName : String} {args : Json}
    (h : submission? serde.columns env toolName args = none) (outbox : Outbox.World) :
    (dispatch serde env toolName args outbox).2 = outbox := by
  unfold dispatch
  split
  · rw [submission?, if_pos rfl] at h
    unfold arguments
    cases hparsed : SendArgs.ofJson args with
    | none => rfl
    | some parsed =>
      rw [hparsed, Option.bind_some, Option.map_eq_none_iff] at h
      exact handleSend_of_none h outbox
  · rfl
  · rfl
  · rfl

end Submissions

end MagicLaw.Mcp
