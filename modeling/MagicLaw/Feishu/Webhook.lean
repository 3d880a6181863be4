import MagicLaw.Inbound.Gate
import MagicLaw.Lib.Bytes
import MagicLaw.Lib.Json
import MagicLaw.Lib.Mac

/-!
# The webhook of Feishu

The handler of `/api/feishu/webhook` in `infrastructure/runtime.rs`, with
`parse_webhook_event` and `verify_webhook_signature` of
`channels/feishu/channel.rs`.

A request is a list of headers and a body.  The handler picks a configuration
for it, checks the signature and then the token against this one, and hands a
message to `Inbound.handleInbound`.  How `serde_json` reads bytes is a
parameter; how a record is read from a value is `Lib.Json`.
-/

namespace MagicLaw.Feishu

open Lib Lib.Mac Lib.Program Lib.Text
open MagicLaw.Routing (ChannelId ConversationType RouteKey Message MessageContent)

/-! ## Configurations and requests -/

/-- The fields of `FeishuConfig` that the handler reads. -/
structure FeishuConfig where
  enabled : Bool
  accountId : String
  verificationToken : String
  signingSecret : String
  deriving DecidableEq

def FeishuConfig.default : FeishuConfig where
  enabled := false
  accountId := "default"
  verificationToken := ""
  signingSecret := ""

/-- `feishu_configs`: the one of the runtime, which may be disabled, and those
of the accounts. -/
def feishuConfigs (feishu : FeishuConfig) (feishuAccounts : List FeishuConfig) :
    List FeishuConfig :=
  feishu :: feishuAccounts

/-- The names of headers in small letters, and their values. -/
abbrev HeaderMap := List (String × List UInt8)

/-- `HeaderValue::to_str`: visible ASCII characters, spaces and tabs. -/
def toStr (value : List UInt8) : Option String :=
  if value.all fun b => (0x20 ≤ b && b < 0x7f) || b = 0x09 then
    some (String.ofList (value.map fun b => Char.ofNat b.toNat))
  else none

/-- What `serde_json` makes of bytes, and what it says of a value that is not
an envelope. -/
structure SerdeJson where
  fromSlice : List UInt8 → Except String Json
  envelopeError : Json → String

/-- What is new with each request: an id and the time. -/
structure Fresh where
  uuid : String
  nowMs : Int64

/-! ## The event -/

structure EventHeader where
  eventId : String
  eventType : String
  createTime : String
  token : String
  deriving DecidableEq

def EventHeader.fromValue (value : Json) : Option EventHeader := do
  guard (value.isRecord 4)
  let eventId ← value.textField 0 "event_id"
  let eventType ← value.textField 1 "event_type"
  let createTime ← value.textField 2 "create_time"
  let token ← value.textField 3 "token"
  pure ⟨eventId, eventType, createTime, token⟩

structure SenderId where
  openId : String
  userId : String
  unionId : String
  deriving DecidableEq

def SenderId.fromValue (value : Json) : Option SenderId := do
  guard (value.isRecord 3)
  let openId ← value.textField 0 "open_id"
  let userId ← value.textField 1 "user_id"
  let unionId ← value.textField 2 "union_id"
  pure ⟨openId, userId, unionId⟩

/-- `FeishuSender`, which has one field. -/
def senderFromValue (value : Json) : Option SenderId := do
  guard (value.isRecord 1)
  match value.field? 0 "sender_id" with
  | none => pure ⟨"", "", ""⟩
  | some senderId => SenderId.fromValue senderId

structure InboundMessage where
  messageId : String
  chatId : String
  chatType : String
  messageType : String
  content : String
  createTime : String
  deriving DecidableEq

def InboundMessage.fromValue (value : Json) : Option InboundMessage := do
  guard (value.isRecord 6)
  let messageId ← value.textField 0 "message_id"
  let chatId ← value.textField 1 "chat_id"
  let chatType ← value.textField 2 "chat_type"
  let messageType ← value.textField 3 "message_type"
  let content ← value.textField 4 "content"
  let createTime ← value.textField 5 "create_time"
  pure ⟨messageId, chatId, chatType, messageType, content, createTime⟩

structure EventBody where
  senderId : SenderId
  message : InboundMessage
  deriving DecidableEq

def EventBody.fromValue (value : Json) : Option EventBody := do
  guard (value.isRecord 2)
  let senderId ←
    match value.field? 0 "sender" with
    | none => pure ⟨"", "", ""⟩
    | some sender => senderFromValue sender
  let message ←
    match value.field? 1 "message" with
    | none => pure ⟨"", "", "", "", "", ""⟩
    | some message => InboundMessage.fromValue message
  pure ⟨senderId, message⟩

/-- A field that may be missing or null. -/
def optionField {α : Type} (fromValue : Json → Option α) : Option Json → Option (Option α)
  | none => some none
  | some .null => some none
  | some value => (fromValue value).map some

structure Envelope where
  type : String
  challenge : String
  token : String
  header : Option EventHeader
  event : Option EventBody
  deriving DecidableEq

def Envelope.fromValue (value : Json) : Option Envelope := do
  guard (value.isRecord 5)
  let type ← value.textField 0 "type"
  let challenge ← value.textField 1 "challenge"
  let token ← value.textField 2 "token"
  let header ← optionField EventHeader.fromValue (value.field? 3 "header")
  let event ← optionField EventBody.fromValue (value.field? 4 "event")
  pure ⟨type, challenge, token, header, event⟩

/-- `candidate`: the token of the envelope, or else the one of its header. -/
def Envelope.candidate (envelope : Envelope) : String :=
  if trim envelope.token ≠ "" then trim envelope.token
  else (envelope.header.map fun header => trim header.token).getD ""

/-! ### The message of an event -/

/-- `feishu_channel_id` -/
def feishuChannelId (accountId : String) : ChannelId :=
  let acc := trim accountId
  if acc = "" || acc = "default" then ⟨"feishu"⟩ else ⟨"feishu:" ++ acc⟩

def messageId (header : EventHeader) (event : EventBody) (uuid : String) : String :=
  ((trimmed? event.message.messageId).or (trimmed? header.eventId)).getD uuid

def peerId (sender : SenderId) : String :=
  (((trimmed? sender.openId).or (trimmed? sender.userId)).or (trimmed? sender.unionId)).getD ""

def conversationId (event : EventBody) : String :=
  match trimmed? event.message.chatId with
  | some chatId => chatId
  | none => if isBlank (peerId event.senderId) then "unknown" else peerId event.senderId

/-- The content, where `content` is the parsed text of the event. -/
def messageContent (messageType : String) (content : Json) : MessageContent :=
  if messageType = "text" then
    ((content.str? "text").map MessageContent.text).getD .unknown
  else if messageType = "image" then
    let imageKey := (content.str? "image_key").getD ""
    if imageKey = "" then .unknown else .image "" (some imageKey)
  else if messageType = "file" then
    let fileKey := (content.str? "file_key").getD ""
    let name := (content.str? "file_name").getD "file"
    let size := ((content.get? "file_size").bind Json.asU64?).getD 0
    if fileKey = "" then .unknown else .file fileKey name (UInt64.ofNat size)
  else .unknown

/-- The inbound message that is made of an event. -/
def eventMessage (serde : SerdeJson) (fresh : Fresh) (cfg : FeishuConfig) (header : EventHeader)
    (event : EventBody) : Message :=
  let content := (serde.fromSlice (Bytes.asBytes event.message.content)).toOption.getD .null
  let timestampMs :=
    ((parseI64 event.message.createTime).or (parseI64 header.createTime)).getD fresh.nowMs
  .newInbound (messageId header event fresh.uuid)
    { channel := feishuChannelId cfg.accountId
      conversationId := conversationId event
      peerId := peerId event.senderId
      conversationType := if event.message.chatType = "group" then .group else .direct }
    none timestampMs (messageContent event.message.messageType content)

inductive FeishuWebhookDispatch where
  | urlVerification (challenge : String)
  | message (msg : Message)
  | ignore

/-- `parse_webhook_event`, once the token is the one that is expected -/
def dispatchOf (serde : SerdeJson) (fresh : Fresh) (cfg : FeishuConfig) (envelope : Envelope) :
    FeishuWebhookDispatch :=
  if envelope.type = "url_verification" then .urlVerification envelope.challenge
  else
    match envelope.header with
    | none => .ignore
    | some header =>
      if header.eventType ≠ "im.message.receive_v1" then .ignore
      else
        match envelope.event with
        | none => .ignore
        | some event => .message (eventMessage serde fresh cfg header event)

/-- `parse_webhook_event` -/
def parseWebhookEvent (serde : SerdeJson) (fresh : Fresh) (payload : Json) (cfg : FeishuConfig) :
    Except String FeishuWebhookDispatch :=
  match Envelope.fromValue payload with
  | none => .error ("invalid feishu webhook payload: " ++ serde.envelopeError payload)
  | some envelope =>
    let expectedToken := trim cfg.verificationToken
    if expectedToken ≠ "" && envelope.candidate ≠ expectedToken then
      .error "feishu webhook token mismatch"
    else .ok (dispatchOf serde fresh cfg envelope)

/-! ## The signature -/

/-- A header that has to be there, and not blank. -/
def requiredHeader (headers : HeaderMap) (name : String) : Except String String :=
  match (headers.lookup name).bind toStr with
  | none => .error ("missing " ++ name)
  | some value => if isBlank value then .error ("missing " ++ name) else .ok value

/-- `eq_ignore_ascii_case` -/
def eqIgnoreAsciiCase (s t : String) : Bool := toAsciiLowercase s = toAsciiLowercase t

/-- What is signed with the secret. -/
def signedText (ts nonce secret : String) (body : List UInt8) : String :=
  ts ++ nonce ++ secret ++ fromUtf8Lossy body

/-- The last step of `verify_webhook_signature`: the signature is compared. -/
def checkSignature (digest : List UInt8) (signature : String) : Except String Unit :=
  let provided := trim (stripPrefix "sha256=" signature)
  if base64 digest = provided then .ok ()
  else if eqIgnoreAsciiCase (hex digest) provided then .ok ()
  else .error "invalid feishu webhook signature"

/-- `verify_webhook_signature` -/
def verifyWebhookSignature (headers : HeaderMap) (body : List UInt8) (cfg : FeishuConfig) :
    Except String Unit :=
  let secret := trim cfg.signingSecret
  if secret = "" then .ok ()
  else do
    let ts ← requiredHeader headers "x-lark-request-timestamp"
    let nonce ← requiredHeader headers "x-lark-request-nonce"
    let signature ← requiredHeader headers "x-lark-signature"
    checkSignature
      (hmacSha256 (Bytes.asBytes secret) (Bytes.asBytes (signedText ts nonce secret body))) signature

/-! ## The handler -/

/-- `extract_feishu_verification_token` -/
def extractFeishuVerificationToken (payload : Json) : Option String :=
  ((payload.str? "token").bind trimmed?).or
    (((payload.get? "header").bind fun header => header.str? "token").bind trimmed?)

/-- The first configuration that has the token of the payload. -/
def matchingConfig (configs : List FeishuConfig) (payload : Json) : Option FeishuConfig :=
  (extractFeishuVerificationToken payload).bind fun token =>
    configs.find? fun c => trim c.verificationToken ≠ "" && trim c.verificationToken = token

/-- The only configuration, or else the first one without a token. -/
def fallbackConfig (configs : List FeishuConfig) : Option FeishuConfig :=
  if configs.length = 1 then configs.head?
  else configs.find? fun c => trim c.verificationToken = ""

/-- `select_feishu_config` -/
def selectFeishuConfig (configs : List FeishuConfig) (payload : Json) : Option FeishuConfig :=
  if configs.isEmpty then none
  else (matchingConfig configs payload).or (fallbackConfig configs)

structure FeishuWebhookResponse where
  ok : Bool
  challenge : Option String
  duplicate : Option Bool
  ignored : Option Bool
  error : Option String

def FeishuWebhookResponse.failure (error : String) : FeishuWebhookResponse where
  ok := false
  challenge := none
  duplicate := none
  ignored := none
  error := some error

def FeishuWebhookResponse.received (duplicate : Bool) : FeishuWebhookResponse where
  ok := true
  challenge := none
  duplicate := some duplicate
  ignored := none
  error := none

/-- The status and the body of an answer. -/
abbrev HttpAnswer := Nat × FeishuWebhookResponse

/-- The handler up to its `dispatch`, with the configuration that it is
under. -/
def webhookDispatch (serde : SerdeJson) (fresh : Fresh) (configs : List FeishuConfig)
    (headers : HeaderMap) (body : List UInt8) :
    Except HttpAnswer (FeishuConfig × FeishuWebhookDispatch) :=
  match serde.fromSlice body with
  | .error e => .error (400, .failure ("invalid feishu webhook JSON: " ++ e))
  | .ok payload =>
    match selectFeishuConfig configs payload with
    | none => .error (400, .failure "no matching feishu account config for webhook")
    | some cfg =>
      match verifyWebhookSignature headers body cfg with
      | .error e => .error (401, .failure e)
      | .ok () =>
        match parseWebhookEvent serde fresh payload cfg with
        | .error e => .error (401, .failure e)
        | .ok dispatch => .ok (cfg, dispatch)

/-- What is answered to a message. -/
def inboundAnswer (msg : Message) : Inbound.Answer → HttpAnswer
  | .duplicate => (200, .received true)
  | .enqueued => (200, .received false)
  | .dropped messageId =>
    (503, { FeishuWebhookResponse.failure ("feishu route queue full, dropped message_id=" ++ messageId) with
      duplicate := some false })
  | .storageError e =>
    (500, .failure ("failed to persist feishu inbound message " ++ msg.id ++ ": " ++ e))

/-- The handler of `/api/feishu/webhook`. -/
def feishuWebhook (serde : SerdeJson) (fresh : Fresh) (configs : List FeishuConfig)
    (headers : HeaderMap) (body : List UInt8) : Inbound.Work HttpAnswer :=
  match webhookDispatch serde fresh configs headers body with
  | .error answer => pure answer
  | .ok (_, .urlVerification challenge) => pure (200, ⟨true, some challenge, none, none, none⟩)
  | .ok (_, .ignore) => pure (200, ⟨true, none, none, some true, none⟩)
  | .ok (_, .message msg) => do
    let answer ← Inbound.handleInbound msg
    pure (inboundAnswer msg answer)

end MagicLaw.Feishu
