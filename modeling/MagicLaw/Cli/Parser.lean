import MagicLaw.Feishu.Authenticity
import MagicLaw.Feishu.Delivery
import MagicLaw.Lib.Flags

/-!
# The arguments of the command line

`parse_cli_args` of `cli/parser.rs`, with the parsers of all commands, and
`run_send_feishu` of `main.rs`, which prints the delivery result of a send
that asks for it.  `run_send_feishu` expects an invocation id there, and
panics without one.

* `send_opts_in`: the command that `parse_cli_args` makes of any arguments
  asks for the result exactly when it has an invocation id.  Then it is for
  Feishu, and the id is the canonical text of a UUID of version 4.  So
  `run_send_feishu` does not panic.
* `opted_in_by_args`: such a command comes of arguments that have the flag
  and the id.
* `invocationId_of_printed`: the result that is printed has the id.
-/

namespace MagicLaw.Cli

open Lib Lib.Text Lib.Flags
open MagicLaw.Feishu (Behaviour CanonicalUuidV4 FeishuDeliveryResultV1 FeishuMode JsonText
  OpenApiConfig ParseUuid Uuid bind_eq_ok_iff canonicalUuidV4_of_validLocalId deliveryResult
  validLocalId)

/-! ## The commands -/

inductive SendChannel where
  | wechat
  | feishu
  deriving DecidableEq

def SendChannel.parse (value : String) : Except String SendChannel :=
  match toAsciiLowercase (trim value) with
  | "wechat" | "weixin" | "wx" => .ok .wechat
  | "feishu" | "lark" => .ok .feishu
  | other => .error s!"unknown channel: '{other}' (expected: wechat | feishu)"

structure SendCommand where
  channel : SendChannel
  dataDir : String
  /-- `to` -/
  toRecipient : Option String
  contextToken : Option String
  receiveIdType : Option String
  deliveryResultJsonV1 : Bool
  invocationId : Option String
  message : String
  deriving DecidableEq

structure AuthIssueCommand where
  projectId : String
  clientName : String
  scopes : List String
  ttlSecs : Int64
  deriving DecidableEq

structure AuthListCommand where
  projectId : Option String
  deriving DecidableEq

structure AuthRevokeCommand where
  token : String
  deriving DecidableEq

inductive AuthCommand where
  | issue (cmd : AuthIssueCommand)
  | list (cmd : AuthListCommand)
  | revoke (cmd : AuthRevokeCommand)
  deriving DecidableEq

structure WechatLoginCommand where
  dataDir : Option String
  accountId : Option String
  deriving DecidableEq

inductive WechatCommand where
  | login (cmd : WechatLoginCommand)
  deriving DecidableEq

inductive ImportFormat where
  | jsonl
  | csv
  deriving DecidableEq

structure ImportCommand where
  format : ImportFormat
  path : String
  deriving DecidableEq

inductive CliCommand where
  | daemon
  | mcp
  | send (cmd : SendCommand)
  | auth (cmd : AuthCommand)
  | weChat (cmd : WechatCommand)
  | bindImport (cmd : ImportCommand)
  | pushImport (cmd : ImportCommand)
  | pushRun (jobId : String)
  | projectList
  | bindingList (projectKey : String)
  deriving DecidableEq

def usage : String := "\n".intercalate [
  "Usage:",
  "  magiclaw                Start daemon mode",
  "  magiclaw --mcp          Start MCP server mode",
  "  magiclaw send --message <text> [--channel <wechat|feishu>] [--to <recipient>] " ++
    "[--receive-id-type <type>] [--context-token <token>] [--data-dir <wechat-dir>]",
  "  magiclaw auth issue --project <project_id> --name <client_name> " ++
    "--scopes send,window_status --ttl-secs <secs>",
  "  magiclaw auth list [--project <project_id>]",
  "  magiclaw auth revoke --token <raw_token>",
  "  magiclaw wechat login [--data-dir <dir>] [--account-id <id>]",
  "  magiclaw bind import (--jsonl <path> | --csv <path>)",
  "  magiclaw push import (--jsonl <path> | --csv <path>)",
  "  magiclaw push run --job <job_id>",
  "  magiclaw project list",
  "  magiclaw binding list --project <project_key>",
  "",
  "Channels:",
  "  --channel wechat (default)  Send via WeChat (ilink). " ++
    "Recipient inferred from context tokens if omitted.",
  "  --channel feishu            Send via Feishu OpenAPI. " ++
    "--to is required (open_id/chat_id/...).",
  "                              receive_id_type auto-detected from prefix " ++
    "(oc_->chat_id, ou_->open_id) or via --receive-id-type.",
  "",
  "Environment:",
  "  MAGICLAW_DB_PATH      SQLite database path shared by daemon and auth commands",
  "  WECHAT_CHANNEL_DIR    Default WeChat data directory (fallback: ~/.claude/channels/wechat)",
  "  MAGICLAW_API_TOKEN    Optional bearer token for localhost daemon " ++
    "/api/send and /api/window_status",
  "  MAGICLAW_API_SEND_DEBUG  Set to 1/true to include diagnostics in /api/send responses",
  "  FEISHU_*              Feishu channel config (APP_ID, APP_SECRET, RECEIVE_ID_TYPE, ...)"]

/-! ## Flags -/

/-- An error that is followed by the usage. -/
def withUsage (error : String) : String := s!"{error}\n{usage}"

/-- `ok_or_else` -/
def okOr {α : Type} (error : String) : Option α → Except String α
  | none => .error error
  | some a => .ok a

/-- A flag with a value that is kept as it is. -/
def stored {σ : Type} (name : String) (set : String → σ → σ) : FlagKind σ :=
  .value (withUsage s!"missing value for {name}") fun v s => .ok (set v s)

/-- The last branch of the loops. -/
def otherFlag {σ : Type} (other : String) : FlagKind σ := .refuse (withUsage s!"unknown flag: {other}")

def helpOr {σ : Type} (arg help : String) : FlagKind σ :=
  if arg = "--help" || arg = "-h" then .refuse help else otherFlag arg

def requiredFlag {α : Type} (name : String) : Option α → Except String α :=
  okOr (withUsage s!"missing required flag: {name}")

/-! ## `send` -/

structure SendFlags where
  dataDir : Option String := none
  toRecipient : Option String := none
  contextToken : Option String := none
  message : Option String := none
  channel : Option SendChannel := none
  receiveIdType : Option String := none
  deliveryResultJsonV1 : Bool := false
  invocationId : Option String := none

def sendFlag : String → FlagKind SendFlags
  | "--delivery-result-json-v1" => .switch fun s => { s with deliveryResultJsonV1 := true }
  | "--invocation-id" =>
    .value "missing --invocation-id value" fun v s => .ok { s with invocationId := some v }
  | "--channel" =>
    .value (withUsage "missing value for --channel") fun v s =>
      match SendChannel.parse v with
      | .error e => .error (withUsage e)
      | .ok channel => .ok { s with channel := some channel }
  | "--receive-id-type" => stored "--receive-id-type" fun v s => { s with receiveIdType := some v }
  | "--data-dir" => stored "--data-dir" fun v s => { s with dataDir := some v }
  | "--to" => stored "--to" fun v s => { s with toRecipient := some v }
  | "--message" | "--text" => stored "--message" fun v s => { s with message := some v }
  | "--context-token" => stored "--context-token" fun v s => { s with contextToken := some v }
  | arg => helpOr arg usage

/-- The check of the two flags of the delivery result, after the loop. -/
def checkInvocation (parseStr : ParseUuid) (s : SendFlags) : Except String Unit :=
  if s.deliveryResultJsonV1 || s.invocationId.isSome then
    if !s.deliveryResultJsonV1 || s.channel ≠ some .feishu then
      .error "delivery-result-json-v1 requires feishu and --invocation-id"
    else
      match s.invocationId with
      | none => .error "missing --invocation-id"
      | some id =>
        match parseStr id with
        | none => .error "invocation-id must be a canonical UUIDv4"
        | some parsed =>
          if parsed.versionNum ≠ 4 || !parsed.isRfc4122 || parsed.toString ≠ id then
            .error "invocation-id must be a canonical UUIDv4"
          else .ok ()
  else .ok ()

def SendFlags.command (s : SendFlags) (message : String) : SendCommand where
  channel := s.channel.getD .wechat
  dataDir := s.dataDir.getD ""
  toRecipient := s.toRecipient
  contextToken := s.contextToken
  receiveIdType := s.receiveIdType
  deliveryResultJsonV1 := s.deliveryResultJsonV1
  invocationId := s.invocationId
  message := message

def parseSendArgs (parseStr : ParseUuid) (args : List String) : Except String CliCommand := do
  let s ← parse sendFlag args {}
  let message ← requiredFlag "--message" s.message
  checkInvocation parseStr s
  pure (.send (s.command message))

/-! ## The other commands -/

structure ImportFlags where
  format : Option ImportFormat := none
  path : Option String := none

def importFlag : String → FlagKind ImportFlags
  | "--jsonl" => .value (withUsage "missing path for --jsonl") fun v _ => .ok ⟨some .jsonl, some v⟩
  | "--csv" => .value (withUsage "missing path for --csv") fun v _ => .ok ⟨some .csv, some v⟩
  | other => otherFlag other

def parseImportCommand : List String → Except String ImportCommand
  | "import" :: rest => do
    let s ← parse importFlag rest {}
    let format ← okOr (withUsage "missing --jsonl or --csv") s.format
    let path ← okOr (withUsage "missing import path") s.path
    pure ⟨format, path⟩
  | _ => .error (withUsage "expected `import` subcommand")

def parseBindArgs (args : List String) : Except String CliCommand :=
  (parseImportCommand args).map .bindImport

def parsePushArgs : List String → Except String CliCommand
  | "import" :: rest => (parseImportCommand ("import" :: rest)).map .pushImport
  | "run" :: rest =>
    match rest with
    | ["--job", job] => .ok (.pushRun job)
    | _ => .error (withUsage "usage: magiclaw push run --job <job_id>")
  | _ => .error (withUsage "usage: magiclaw push (import ... | run --job <id>)")

def parseBindingArgs : List String → Except String CliCommand
  | ["list", "--project", project] => .ok (.bindingList project)
  | _ => .error (withUsage "usage: magiclaw binding list --project <project_key>")

def parseProjectArgs : List String → Except String CliCommand
  | ["list"] => .ok .projectList
  | _ => .error (withUsage "usage: magiclaw project list")

def parseScopes (value : String) : Except String (List String) :=
  match ((split ',' value).map trim).filter (· ≠ "") with
  | [] => .error "scopes cannot be empty"
  | scopes => .ok scopes

/-- The text of the `ParseIntError` for these digits: the first character that
cannot be added is not a digit, or makes the number too large. -/
def digitsError (limit : Nat) (overflow : String) : List Char → Nat → String
  | [], _ => "invalid digit found in string"
  | c :: cs, n =>
    if !c.isDigit then "invalid digit found in string"
    else
      let n := n * 10 + (c.toNat - '0'.toNat)
      if limit < n then overflow else digitsError limit overflow cs n

/-- The text of the error of `parse::<i64>`. -/
def parseIntError (value : String) : String :=
  match value.toList with
  | [] => "cannot parse integer from empty string"
  | '-' :: cs => digitsError (2 ^ 63) "number too small to fit in target type" cs 0
  | '+' :: cs => digitsError (2 ^ 63 - 1) "number too large to fit in target type" cs 0
  | cs => digitsError (2 ^ 63 - 1) "number too large to fit in target type" cs 0

structure IssueFlags where
  projectId : Option String := none
  clientName : Option String := none
  scopes : Option (List String) := none
  ttlSecs : Int64 := 86400

def issueFlag : String → FlagKind IssueFlags
  | "--project" => stored "--project" fun v s => { s with projectId := some v }
  | "--name" => stored "--name" fun v s => { s with clientName := some v }
  | "--scopes" =>
    .value (withUsage "missing value for --scopes") fun v s =>
      match parseScopes v with
      | .error e => .error e
      | .ok scopes => .ok { s with scopes := some scopes }
  | "--ttl-secs" =>
    .value (withUsage "missing value for --ttl-secs") fun v s =>
      match parseI64 v with
      | none => .error s!"invalid --ttl-secs value: {parseIntError v}"
      | some ttlSecs => .ok { s with ttlSecs := ttlSecs }
  | arg => helpOr arg usage

def projectFlag : String → FlagKind AuthListCommand
  | "--project" => stored "--project" fun v s => { s with projectId := some v }
  | arg => helpOr arg usage

def tokenFlag : String → FlagKind (Option String)
  | "--token" => stored "--token" fun v _ => some v
  | arg => helpOr arg usage

def parseAuthArgs : List String → Except String AuthCommand
  | "issue" :: rest => do
    let s ← parse issueFlag rest {}
    let projectId ← requiredFlag "--project" s.projectId
    let clientName ← requiredFlag "--name" s.clientName
    let scopes ← requiredFlag "--scopes" s.scopes
    pure (.issue ⟨projectId, clientName, scopes, s.ttlSecs⟩)
  | "list" :: rest => do
    let s ← parse projectFlag rest ⟨none⟩
    pure (.list s)
  | "revoke" :: rest => do
    let s ← parse tokenFlag rest none
    let token ← requiredFlag "--token" s
    pure (.revoke ⟨token⟩)
  | _ => .error (withUsage "usage: magiclaw auth (issue|list|revoke)")

def loginFlag : String → FlagKind WechatLoginCommand
  | "--data-dir" => stored "--data-dir" fun v s => { s with dataDir := some v }
  | "--account-id" => stored "--account-id" fun v s => { s with accountId := some v }
  | arg => helpOr arg "usage: magiclaw wechat login [--data-dir <dir>] [--account-id <id>]"

def parseWechatArgs : List String → Except String WechatCommand
  | "login" :: rest => do
    let s ← parse loginFlag rest ⟨none, none⟩
    pure (.login s)
  | _ => .error (withUsage "usage: magiclaw wechat (login)")

/-- The first argument is the program. -/
def parseCliArgs (parseStr : ParseUuid) : List String → Except String CliCommand
  | [] | [_] => .ok .daemon
  | _ :: "--mcp" :: rest | _ :: "mcp" :: rest =>
    if rest ≠ [] then .error (withUsage "--mcp does not accept extra arguments") else .ok .mcp
  | _ :: "bind" :: rest => parseBindArgs rest
  | _ :: "push" :: rest => parsePushArgs rest
  | _ :: "auth" :: rest => (parseAuthArgs rest).map .auth
  | _ :: "project" :: rest => parseProjectArgs rest
  | _ :: "binding" :: rest => parseBindingArgs rest
  | _ :: "wechat" :: rest => (parseWechatArgs rest).map .weChat
  | _ :: "send" :: rest => parseSendArgs parseStr rest
  | _ :: command :: _ => .error (withUsage s!"unknown command: {command}")

/-! ## Sending to Feishu -/

def validReceiveIdTypes : List String := ["open_id", "user_id", "chat_id", "union_id", "email"]

def validateFeishuConfig (cfg : OpenApiConfig) : Except String Unit :=
  if !cfg.enabled then .ok ()
  else if cfg.receiveIdType ∉ validReceiveIdTypes then
    .error (s!"invalid feishu receive_id_type: '{cfg.receiveIdType}' (must be one of: " ++
      ", ".intercalate validReceiveIdTypes ++ ")")
  else
    let hasPreissuedToken := !isBlank cfg.tenantAccessToken
    let hasAppCredentials := !isBlank cfg.appId || !isBlank cfg.appSecret
    if !hasPreissuedToken && !hasAppCredentials then
      .error ("feishu enabled but no authentication: set either FEISHU_TENANT_ACCESS_TOKEN " ++
        "or both APP_ID + APP_SECRET")
    else if hasAppCredentials && (isBlank cfg.appId || isBlank cfg.appSecret) then
      .error ("feishu: if using app-based token exchange, both FEISHU_APP_ID and " ++
        "FEISHU_APP_SECRET must be set")
    else .ok ()

def detectFeishuReceiveIdType (recipient : String) : Option String :=
  let r := trim recipient
  if (stripPrefix? "oc_" r).isSome then some "chat_id"
  else if (stripPrefix? "ou_" r).isSome then some "open_id"
  else if (stripPrefix? "on_" r).isSome then some "union_id"
  else if '@' ∈ r.toList then some "email"
  else none

/-- The flag goes first, then the id of the recipient, then the environment. -/
def SendCommand.feishuConfig (cmd : SendCommand) (env : OpenApiConfig) (recipient : String) :
    OpenApiConfig :=
  match cmd.receiveIdType.bind trimmed? with
  | some rt => { env with receiveIdType := rt }
  | none =>
    match detectFeishuReceiveIdType recipient with
    | some detected => { env with receiveIdType := detected }
    | none => env

/-- How `run_send_feishu` goes on. -/
inductive FeishuRun where
  | failed (error : String)
  | panicked (message : String)
  /-- the delivery result is printed -/
  | printed (result : FeishuDeliveryResultV1)
  /-- an ordinary message is sent -/
  | sends (cfg : OpenApiConfig) (recipient : String)

/-- `env` is what `load_feishu_config_from_env` gives. -/
def runSendFeishu (parseStr : ParseUuid) (toText : JsonText) (behaviour : Nat → Behaviour)
    (env : OpenApiConfig) (cmd : SendCommand) : FeishuRun :=
  match cmd.toRecipient.bind trimmed? with
  | none => .failed "飞书发送必须指定 --to（open_id / chat_id / user_id / union_id / email）"
  | some recipient =>
    let cfg := cmd.feishuConfig env recipient
    if cmd.deliveryResultJsonV1 then
      match cmd.invocationId with
      | none => .panicked "parser validates opt-in invocation"
      | some id =>
        match validateFeishuConfig cfg with
        | .error _ => .printed (.new id cfg recipient cmd.message)
        | .ok () =>
          .printed (deliveryResult parseStr toText id cfg (.fromConfig cfg) cfg.tenantAccessToken
            recipient cmd.message behaviour).1
    else
      match validateFeishuConfig cfg with
      | .error e => .failed s!"飞书配置无效: {e}"
      | .ok () => .sends cfg recipient

/-! ## What a command that is sent has -/

section Results

variable {parseStr : ParseUuid} {args : List String} {cmd : SendCommand}

/-- The two flags come together, for Feishu, with an id that is canonical. -/
theorem checkInvocation_eq_ok_iff {s : SendFlags} :
    checkInvocation parseStr s = .ok () ↔
      (s.deliveryResultJsonV1 = true ↔ s.invocationId.isSome = true) ∧
        ∀ id ∈ s.invocationId, s.channel = some .feishu ∧ validLocalId parseStr id = true := by
  unfold checkInvocation validLocalId
  cases hid : s.invocationId with
  | none =>
    cases hjson : s.deliveryResultJsonV1 with
    | false => simp
    | true => by_cases hchannel : s.channel = some .feishu <;> simp [hchannel]
  | some id =>
    cases hjson : s.deliveryResultJsonV1 with
    | false => simp
    | true =>
      by_cases hchannel : s.channel = some .feishu
      · cases hparse : parseStr id with
        | none => simp [hchannel, hparse]
        | some parsed => simp [hchannel, hparse]
      · simp [hchannel]

theorem map_ne_send {α : Type} {f : α → CliCommand} (hf : ∀ a cmd, f a ≠ .send cmd)
    {x : Except String α} : x.map f ≠ .ok (.send cmd) := by
  cases x with
  | error e => nofun
  | ok a => exact fun h => hf a cmd (Except.ok.inj h)

theorem parsePushArgs_ne_send : parsePushArgs args ≠ .ok (.send cmd) := by
  unfold parsePushArgs
  split
  · exact map_ne_send fun _ _ => CliCommand.noConfusion
  · split <;> nofun
  · nofun

theorem parseBindingArgs_ne_send : parseBindingArgs args ≠ .ok (.send cmd) := by
  unfold parseBindingArgs
  split <;> nofun

theorem parseProjectArgs_ne_send : parseProjectArgs args ≠ .ok (.send cmd) := by
  unfold parseProjectArgs
  split <;> nofun

/-- No other command makes a `send`. -/
theorem parseCliArgs_eq_send (h : parseCliArgs parseStr args = .ok (.send cmd)) :
    ∃ program rest, args = program :: "send" :: rest ∧
      parseSendArgs parseStr rest = .ok (.send cmd) := by
  unfold parseCliArgs at h
  split at h
  case h_1 | h_2 => cases h
  case h_3 | h_4 => split at h <;> cases h
  case h_5 => exact absurd h (map_ne_send fun _ _ => CliCommand.noConfusion)
  case h_6 => exact absurd h parsePushArgs_ne_send
  case h_7 => exact absurd h (map_ne_send fun _ _ => CliCommand.noConfusion)
  case h_8 => exact absurd h parseProjectArgs_ne_send
  case h_9 => exact absurd h parseBindingArgs_ne_send
  case h_10 => exact absurd h (map_ne_send fun _ _ => CliCommand.noConfusion)
  case h_11 program rest => exact ⟨program, rest, rfl, h⟩
  case h_12 => cases h

/-- What the loop has read passed the check. -/
theorem parseSendArgs_eq_send (h : parseSendArgs parseStr args = .ok (.send cmd)) :
    ∃ s message, parse sendFlag args {} = .ok s ∧ checkInvocation parseStr s = .ok () ∧
      cmd = s.command message := by
  unfold parseSendArgs at h
  obtain ⟨s, hread, h⟩ := bind_eq_ok_iff.mp h
  obtain ⟨message, -, h⟩ := bind_eq_ok_iff.mp h
  obtain ⟨⟨⟩, hcheck, h⟩ := bind_eq_ok_iff.mp h
  cases h
  exact ⟨s, message, hread, hcheck, rfl⟩

/-- With an id there is no reason to panic. -/
theorem runSendFeishu_ne_panicked {toText : JsonText} {behaviour : Nat → Behaviour}
    {env : OpenApiConfig} {message : String}
    (h : cmd.deliveryResultJsonV1 = true → cmd.invocationId.isSome = true) :
    runSendFeishu parseStr toText behaviour env cmd ≠ .panicked message := by
  unfold runSendFeishu
  cases hto : cmd.toRecipient.bind trimmed? with
  | none => nofun
  | some recipient =>
    cases hjson : cmd.deliveryResultJsonV1 with
    | false =>
      simp only [Bool.false_eq_true, if_false]
      split <;> nofun
    | true =>
      obtain ⟨id, hid⟩ := Option.isSome_iff_exists.mp (h hjson)
      simp only [hid, if_true]
      split <;> nofun

theorem invocationId_finish (self : FeishuDeliveryResultV1)
    (evidence : Feishu.FeishuTextDeliveryEvidence) :
    (self.finish parseStr evidence).invocationId = self.invocationId := by
  cases evidence with
  | authBeforeMessage => rfl
  | unavailable => rfl
  | messageResult result started =>
    cases started with
    | false => rfl
    | true =>
      simp only [FeishuDeliveryResultV1.finish, if_true]
      cases Feishu.acceptedReceipt parseStr result with
      | none => rfl
      | some receipt => rfl

/-- The delivery result that is printed names the invocation of the command. -/
theorem invocationId_of_printed {toText : JsonText} {behaviour : Nat → Behaviour}
    {env : OpenApiConfig} {result : FeishuDeliveryResultV1}
    (h : runSendFeishu parseStr toText behaviour env cmd = .printed result) :
    cmd.invocationId = some result.invocationId := by
  unfold runSendFeishu at h
  cases hto : cmd.toRecipient.bind trimmed? with
  | none => simp [hto] at h
  | some recipient =>
    simp only [hto] at h
    split at h
    case isTrue =>
      cases hid : cmd.invocationId with
      | none => simp [hid] at h
      | some id =>
        simp only [hid] at h
        split at h
        · cases h
          rfl
        · cases h
          rw [deliveryResult, invocationId_finish]
          rfl
    case isFalse => split at h <;> cases h

/-- What was read of the two flags is among the arguments. -/
def SendFlags.FromArgs (all : List String) (s : SendFlags) : Prop :=
  (s.deliveryResultJsonV1 = true → "--delivery-result-json-v1" ∈ all) ∧
    ∀ id ∈ s.invocationId, id ∈ all

theorem fromArgs_empty (all : List String) : SendFlags.FromArgs all {} := by
  constructor
  · intro hjson
    cases hjson
  · intro id hid
    cases hid

theorem sendFlag_keeps {all : List String} {arg : String} (harg : arg ∈ all) :
    (sendFlag arg).Keeps (SendFlags.FromArgs all) all := by
  unfold sendFlag
  split
  · exact fun s hs => ⟨fun _ => harg, hs.2⟩
  · intro v hv s t hs hset
    cases hset
    refine ⟨hs.1, fun id hid => ?_⟩
    cases hid
    exact hv
  · intro v hv s t hs hset
    dsimp only at hset
    split at hset
    · cases hset
    · cases hset
      exact hs
  -- the flags that are stored leave the two alone
  iterate 6
    · intro v hv s t hs hset
      cases hset
      exact hs
  · unfold helpOr
    split <;> trivial

/-- A command asks for the delivery result because the arguments do. -/
theorem opted_in_by_args (h : parseCliArgs parseStr args = .ok (.send cmd))
    (hjson : cmd.deliveryResultJsonV1 = true) :
    "--delivery-result-json-v1" ∈ args ∧ ∀ id ∈ cmd.invocationId, id ∈ args := by
  obtain ⟨program, rest, rfl, hsend⟩ := parseCliArgs_eq_send h
  obtain ⟨s, message, hread, -, rfl⟩ := parseSendArgs_eq_send hsend
  have hrest : rest ⊆ program :: "send" :: rest := fun a ha =>
    List.mem_cons_of_mem _ (List.mem_cons_of_mem _ ha)
  have hfrom := parse_invariant (fun arg => sendFlag_keeps) hrest (fromArgs_empty _) hread
  exact ⟨hfrom.1 hjson, hfrom.2⟩

/-- Whatever the arguments are, a command to send asks for the delivery result
exactly when it has an invocation id.  Then it goes to Feishu and the id is a
canonical UUID of version 4.  Sending it does not panic. -/
theorem send_opts_in (h : parseCliArgs parseStr args = .ok (.send cmd)) :
    (cmd.deliveryResultJsonV1 = true ↔ cmd.invocationId.isSome = true) ∧
      (∀ id ∈ cmd.invocationId, cmd.channel = .feishu ∧ CanonicalUuidV4 id) ∧
      ∀ toText behaviour env message,
        runSendFeishu parseStr toText behaviour env cmd ≠ .panicked message := by
  obtain ⟨program, rest, -, hsend⟩ := parseCliArgs_eq_send h
  obtain ⟨s, message, -, hcheck, rfl⟩ := parseSendArgs_eq_send hsend
  obtain ⟨htogether, hvalid⟩ := checkInvocation_eq_ok_iff.mp hcheck
  refine ⟨htogether, fun id hid => ?_, fun _ _ _ _ => runSendFeishu_ne_panicked htogether.mp⟩
  obtain ⟨hchannel, hlocal⟩ := hvalid id hid
  refine ⟨?_, canonicalUuidV4_of_validLocalId hlocal⟩
  show s.channel.getD .wechat = .feishu
  rw [hchannel]
  rfl

end Results

/-- The id of an invocation. -/
def invocation : Uuid :=
  #v[0x6b, 0xa7, 0xb8, 0x10, 0x9d, 0xad, 0x41, 0xd1, 0x80, 0xb4, 0x00, 0xc0, 0x4f, 0xd4, 0x30, 0xc8]

def readsInvocation : ParseUuid := fun text =>
  if text = "6ba7b810-9dad-41d1-80b4-00c04fd430c8" then some invocation else none

/-- The channel and the id are given twice, and the message looks like a
flag. -/
def optInArgs : List String :=
  ["magiclaw", "send", "--channel", "wechat", "--invocation-id", "--text", "--message", "--to",
    "--delivery-result-json-v1", "--channel", " Lark", "--invocation-id",
    "6ba7b810-9dad-41d1-80b4-00c04fd430c8"]

theorem send_opts_in_repeated :
    ∃ cmd, parseCliArgs readsInvocation optInArgs = .ok (.send cmd) ∧
      cmd.message = "--to" ∧ cmd.deliveryResultJsonV1 = true ∧ cmd.channel = .feishu ∧
      CanonicalUuidV4 "6ba7b810-9dad-41d1-80b4-00c04fd430c8" := by
  obtain ⟨cmd, hparse, hid, hmessage⟩ : ∃ cmd,
      parseCliArgs readsInvocation optInArgs = .ok (.send cmd) ∧
      cmd.invocationId = some "6ba7b810-9dad-41d1-80b4-00c04fd430c8" ∧ cmd.message = "--to" :=
    ⟨_, rfl, rfl, rfl⟩
  have h := send_opts_in hparse
  exact ⟨cmd, hparse, hmessage, h.1.mpr (by rw [hid]; rfl), h.2.1 _ hid⟩

end MagicLaw.Cli
