import MagicLaw.Feishu.Webhook
import MagicLaw.Outbox.Classification

/-!
# The delivery evidence of a Feishu text

The opt-in text send of `channels/feishu/channel.rs` and the result that
`cli/delivery_result.rs` builds from its evidence.

A send is a program of calls: the session's lock, the HTTP requests, the clock
and the random ids.  Whatever is outside the process is up to the environment,
which picks a reply to every call.  The world keeps what was sent, and what
came back.

`deliveryResult_truthful` says that the result agrees with what was sent,
whatever the server does.
-/

namespace MagicLaw.Feishu

open Lib Lib.Program Lib.Text
open MagicLaw.Outbox (ChannelError SendReceipt)
open MagicLaw.Routing (MessageContent)

/-! ## Requests and responses -/

/-- The fields of `FeishuConfig` that sending reads. -/
structure OpenApiConfig extends FeishuConfig where
  baseUrl : String
  appId : String
  appSecret : String
  tenantAccessToken : String
  receiveIdType : String
  timeoutMs : UInt64

/-- A status code and its text. -/
structure StatusCode where
  code : UInt16
  text : String

def StatusCode.isSuccess (status : StatusCode) : Bool := 200 ≤ status.code && status.code < 300

/-- What comes of a request: no response at all, or a status and what the
body is decoded as. -/
inductive Http (α : Type) where
  | failed (error : String)
  | response (status : StatusCode) (body : Except String α)

structure FeishuTokenResponse where
  code : Int32
  msg : String
  tenantAccessToken : String

structure FeishuSendData where
  messageId : String

structure FeishuSendEnvelope where
  code : Int32
  msg : String
  data : Option FeishuSendData

structure FeishuUploadData where
  imageKey : String
  fileKey : String

structure FeishuSendRequest where
  receiveId : String
  msgType : String
  content : String

/-- The client of the channel, and the one that follows no redirects. -/
inductive Client where
  | channel
  | auth

structure UploadMediaParams where
  client : Client
  token : String
  endpoint : String
  mediaField : String
  typeField : String
  typeValue : String
  source : String
  fallbackName : String

/-! ## The calls of a send -/

inductive SendCall where
  /-- `session.lock().await.tenant_access_token` -/
  | lockToken
  | storeToken (token : String)
  /-- whether the client could be built -/
  | buildAuthClient (timeoutMs : UInt64)
  | postAuth (client : Client) (endpoint appId appSecret : String)
  | postMessages (client : Client) (endpoint receiveIdType token : String)
      (request : FeishuSendRequest)
  | uploadMedia (params : UploadMediaParams)
  | pathExists (path : String)
  | newUuid
  | timestampMillis

def SendCall.Reply : SendCall → Type
  | .lockToken => String
  | .storeToken _ => Unit
  | .buildAuthClient _ => Bool
  | .postAuth _ _ _ _ => Http FeishuTokenResponse
  | .postMessages _ _ _ _ _ => Http FeishuSendEnvelope
  | .uploadMedia _ => Except String FeishuUploadData
  | .pathExists _ => Bool
  | .newUuid => String
  | .timestampMillis => Int64

/-- The session's token, and what came of the requests, the latest first. -/
structure Exchange where
  token : String
  auths : List (Http FeishuTokenResponse)
  messages : List (Http FeishuSendEnvelope)

/-- The environment replies to a call as it likes. -/
abbrev Behaviour := (c : SendCall) → c.Reply

def exchange (w : Exchange) (o : Behaviour) : (c : SendCall) → c.Reply × Exchange
  | .lockToken => (w.token, w)
  | .storeToken token => ((), { w with token := token })
  | .postAuth client endpoint appId appSecret =>
    let reply := o (.postAuth client endpoint appId appSecret)
    (reply, { w with auths := reply :: w.auths })
  | .postMessages client endpoint receiveIdType token request =>
    let reply := o (.postMessages client endpoint receiveIdType token request)
    (reply, { w with messages := reply :: w.messages })
  | .buildAuthClient timeoutMs => (o (.buildAuthClient timeoutMs), w)
  | .uploadMedia params => (o (.uploadMedia params), w)
  | .pathExists path => (o (.pathExists path), w)
  | .newUuid => (o .newUuid, w)
  | .timestampMillis => (o .timestampMillis, w)

abbrev Send := Prog SendCall.Reply

section Calls

def ask (c : SendCall) : Send c.Reply := .perform c

def lockToken : Send String := ask .lockToken

def storeToken (token : String) : Send Unit := ask (.storeToken token)

def buildAuthClient (timeoutMs : UInt64) : Send Bool := ask (.buildAuthClient timeoutMs)

def postAuth (client : Client) (endpoint appId appSecret : String) :
    Send (Http FeishuTokenResponse) :=
  ask (.postAuth client endpoint appId appSecret)

def postMessages (client : Client) (endpoint receiveIdType token : String)
    (request : FeishuSendRequest) : Send (Http FeishuSendEnvelope) :=
  ask (.postMessages client endpoint receiveIdType token request)

def uploadMedia (params : UploadMediaParams) : Send (Except String FeishuUploadData) :=
  ask (.uploadMedia params)

def pathExists (path : String) : Send Bool := ask (.pathExists path)

def newUuid : Send String := ask .newUuid

def timestampMillis : Send Int64 := ask .timestampMillis

end Calls

/-! ## The send -/

/-- `trim_end_matches('/')` -/
def trimEndSlashes (s : String) : String := String.ofList (s.toList.rdropWhile (· = '/'))

def ensureTenantToken (client : Client) (cfg : OpenApiConfig) : Send (Except String String) := do
  let cached ← lockToken
  if trim cached ≠ "" then pure (.ok cached)
  else if trim cfg.appId = "" || trim cfg.appSecret = "" then
    pure (.error "feishu token missing: set tenant_access_token or app_id/app_secret")
  else
    let endpoint :=
      s!"{trimEndSlashes cfg.baseUrl}/open-apis/auth/v3/tenant_access_token/internal"
    match ← postAuth client endpoint cfg.appId cfg.appSecret with
    | .failed e => pure (.error s!"feishu token request failed: {e}")
    | .response _ (.error e) => pure (.error s!"feishu token parse failed: {e}")
    | .response status (.ok parsed) =>
      if !status.isSuccess || parsed.code ≠ 0 || trim parsed.tenantAccessToken = "" then
        pure (.error (s!"feishu token exchange failed: status={status.text} code={parsed.code} " ++
          s!"msg={parsed.msg}"))
      else do
        storeToken parsed.tenantAccessToken
        pure (.ok parsed.tenantAccessToken)

/-- `serde_json::Value::to_string` -/
abbrev JsonText := Json → String

def mapContent (toText : JsonText) : MessageContent → Except String (String × String)
  | .text t => .ok ("text", toText (.obj [("text", .str t)]))
  | .image _ mediaId =>
    match mediaId.filter fun v => trim v ≠ "" with
    | none => .error "feishu image send requires media_id as image_key"
    | some key => .ok ("image", toText (.obj [("image_key", .str key)]))
  | .file url _ _ =>
    if trim url = "" then .error "feishu file send requires pre-uploaded file_key in url"
    else .ok ("file", toText (.obj [("file_key", .str url)]))
  | .unknown => .error "feishu cannot send Unknown content"

def looksLikeUploadSource (value : String) : Send Bool :=
  let trimmed := trim value
  if (stripPrefix? "file://" trimmed).isSome || (stripPrefix? "http://" trimmed).isSome ||
      (stripPrefix? "https://" trimmed).isSome then
    pure true
  else pathExists trimmed

def imageBody (toText : JsonText) (token url : String) :
    Send (Except String (String × String)) := do
  if trim url = "" then
    pure (.error "feishu image send requires media_id or uploadable url/path")
  else do
    let isSource ← looksLikeUploadSource url
    if !isSource then pure (.ok ("image", toText (.obj [("image_key", .str url)])))
    else
      match ← uploadMedia ⟨.channel, token, "/open-apis/im/v1/images", "image", "image_type",
        "message", url, "image.bin"⟩ with
      | .error e => pure (.error e)
      | .ok uploaded =>
        if trim uploaded.imageKey = "" then
          pure (.error "feishu image upload returned empty image_key")
        else pure (.ok ("image", toText (.obj [("image_key", .str uploaded.imageKey)])))

def fileBody (toText : JsonText) (token url name : String) :
    Send (Except String (String × String)) := do
  if trim url = "" then
    pure (.error "feishu file send requires uploadable url/path or file_key")
  else do
    let isSource ← looksLikeUploadSource url
    if !isSource then pure (.ok ("file", toText (.obj [("file_key", .str url)])))
    else
      match ← uploadMedia ⟨.channel, token, "/open-apis/im/v1/files", "file", "file_type",
        "stream", url, if trim name = "" then "file.bin" else name⟩ with
      | .error e => pure (.error e)
      | .ok uploaded =>
        -- without a key the url is taken for one
        let fileKey := if trim uploaded.fileKey = "" then url else uploaded.fileKey
        pure (.ok ("file", toText (.obj [("file_key", .str fileKey)])))

/-- The type and the body of the message to send. -/
def messageBody (toText : JsonText) (token : String) (content : MessageContent) :
    Send (Except String (String × String)) :=
  match content with
  | .image url mediaId =>
    if trim (mediaId.getD "") = "" then imageBody toText token url
    else pure (mapContent toText content)
  | .file url name _ => fileBody toText token url name
  | content => pure (mapContent toText content)

/-- A string error is an internal one. -/
def ofString (e : String) : ChannelError := .internal e

/-- The messages request, and what its response says. -/
def requestMessage (cfg : OpenApiConfig) (token : String) (request : FeishuSendRequest) :
    Send (Except ChannelError SendReceipt) := do
  let endpoint := s!"{trimEndSlashes cfg.baseUrl}/open-apis/im/v1/messages"
  match ← postMessages .channel endpoint cfg.receiveIdType token request with
  | .failed e => pure (.error (ofString s!"feishu send failed: {e}"))
  | .response _ (.error e) => pure (.error (ofString s!"feishu send parse failed: {e}"))
  | .response status (.ok parsed) =>
    if !status.isSuccess || parsed.code ≠ 0 then
      pure (.error (.contentRejected
        s!"feishu send rejected: status={status.text} code={parsed.code} msg={parsed.msg}"))
    else do
      let messageId ← newUuid
      let now ← timestampMillis
      pure (.ok ⟨messageId, (parsed.data.map FeishuSendData.messageId).filter (· ≠ ""), now⟩)

inductive FeishuMode where
  | stub
  | openApi (config : OpenApiConfig)

def FeishuMode.fromConfig (cfg : OpenApiConfig) : FeishuMode :=
  if cfg.enabled then .openApi cfg else .stub

/-- `send_message_inner`, with what the marker `message_request_started` shows
after it. -/
def sendMessageInner (toText : JsonText) (mode : FeishuMode) (recipient : String)
    (content : MessageContent) : Send (Except ChannelError SendReceipt × Bool) :=
  match mode with
  | .stub =>
    match mapContent toText content with
    | .error e => pure (.error (ofString e), false)
    | .ok _ => do
      let messageId ← newUuid
      let stubbedAt ← timestampMillis
      let now ← timestampMillis
      pure (.ok ⟨messageId, some s!"feishu_stub_{stubbedAt}", now⟩, false)
  | .openApi cfg => do
    match ← ensureTenantToken .channel cfg with
    | .error e => pure (.error (ofString e), false)
    | .ok token =>
      match ← messageBody toText token content with
      | .error e => pure (.error (ofString e), false)
      | .ok (msgType, bodyContent) => do
        let result ← requestMessage cfg token ⟨recipient, msgType, bodyContent⟩
        pure (result, true)

inductive FeishuTextDeliveryEvidence where
  | authBeforeMessage
  | messageResult (result : Except ChannelError SendReceipt) (messageRequestStarted : Bool)
  | unavailable

def sendTextWithDeliveryEvidence (toText : JsonText) (mode : FeishuMode)
    (recipient text : String) : Send FeishuTextDeliveryEvidence :=
  match mode with
  | .stub => pure .unavailable
  | .openApi cfg => do
    let built ← buildAuthClient (max cfg.timeoutMs 1000)
    if !built then pure .unavailable
    else
      match ← ensureTenantToken .auth cfg with
      | .error _ => pure .authBeforeMessage
      | .ok _ =>
        let (result, started) ← sendMessageInner toText mode recipient (.text text)
        pure (.messageResult result started)

/-! ## The result -/

/-- An id of the `uuid` crate, by its octets as RFC 4122 has them. -/
abbrev Uuid := Vector UInt8 16

/-- `get_version_num` of the crate: the version of RFC 4122, in the upper half of
octet 6. -/
def Uuid.versionNum (id : Uuid) : UInt8 := id[6] >>> 4

/-- `get_variant() == Variant::RFC4122` of the crate: the upper two bits of octet
8 are 10, as RFC 4122 has it. -/
def Uuid.isRfc4122 (id : Uuid) : Bool := id[8] &&& 0xc0 = 0x80

/-- `Display` of the crate: the text form of RFC 4122, in small letters and with
hyphens. -/
def Uuid.toString (id : Uuid) : String :=
  let part := fun i n => Mac.hex ((id.toList.drop i).take n)
  s!"{part 0 4}-{part 4 2}-{part 6 2}-{part 8 2}-{part 10 6}"

/-- `Uuid::parse_str` -/
abbrev ParseUuid := String → Option Uuid

def validLocalId (parseStr : ParseUuid) (value : String) : Bool :=
  (parseStr value).any fun id =>
    id.versionNum = 4 && id.isRfc4122 && id.toString = value

def isLowerOrDigit (b : UInt8) : Bool := (0x61 ≤ b && b ≤ 0x7a) || (0x30 ≤ b && b ≤ 0x39)

def validRemoteId (value : String) : Bool :=
  (stripPrefix? "om_" value).any fun suffix =>
    suffix ≠ "" && (Bytes.asBytes suffix).length ≤ 128 &&
      (Bytes.asBytes suffix).all isLowerOrDigit

inductive DeliveryKind where
  | uncertain | rejectedBeforeMessage | accepted
  deriving DecidableEq, Repr

def DeliveryKind.asStr : DeliveryKind → String
  | .uncertain => "Uncertain"
  | .rejectedBeforeMessage => "RejectedBeforeMessage"
  | .accepted => "Accepted"

inductive DeliveryPhase where
  | preflight | auth | message
  deriving DecidableEq, Repr

def DeliveryPhase.asStr : DeliveryPhase → String
  | .preflight => "preflight"
  | .auth => "auth"
  | .message => "message"

structure ReceiptV1 where
  messageId : String
  platformMessageId : String
  deriving DecidableEq

structure FeishuDeliveryResultV1 where
  schema : String
  invocationId : String
  channel : String
  accountId : String
  appIdSha256 : String
  receiveIdType : String
  targetSha256 : String
  contentSha256 : String
  kind : DeliveryKind
  phase : DeliveryPhase
  messageRequestStarted : Bool
  reasonCode : String
  receipt : Option ReceiptV1

def sha256Bytes (bytes : List UInt8) : String := Mac.hex (Sha256.digest bytes).toList

def FeishuDeliveryResultV1.new (invocationId : String) (cfg : OpenApiConfig)
    (target text : String) : FeishuDeliveryResultV1 where
  schema := "magiclaw.feishu_delivery.v1"
  invocationId := invocationId
  channel := "feishu"
  accountId := cfg.accountId
  appIdSha256 := sha256Bytes (Bytes.asBytes cfg.appId)
  receiveIdType := cfg.receiveIdType
  targetSha256 := sha256Bytes (Bytes.asBytes (trim target))
  contentSha256 := sha256Bytes (Bytes.asBytes text)
  kind := .uncertain
  phase := .preflight
  messageRequestStarted := false
  reasonCode := "feishu_preflight_unconfirmed"
  receipt := none

/-- The receipt of a result that proves the delivery. -/
def acceptedReceipt (parseStr : ParseUuid) (result : Except ChannelError SendReceipt) :
    Option ReceiptV1 :=
  match result with
  | .error _ => none
  | .ok receipt =>
    match receipt.platformMsgId.filter validRemoteId with
    | none => none
    | some platformMessageId =>
      if validLocalId parseStr receipt.messageId then
        some ⟨receipt.messageId, platformMessageId⟩
      else none

def FeishuDeliveryResultV1.finish (parseStr : ParseUuid) (self : FeishuDeliveryResultV1) :
    FeishuTextDeliveryEvidence → FeishuDeliveryResultV1
  | .authBeforeMessage =>
    { self with
      kind := .rejectedBeforeMessage
      phase := .auth
      reasonCode := "feishu_auth_failed_before_message" }
  | .messageResult result started =>
    let self := { self with messageRequestStarted := started }
    if started then
      let self :=
        { self with phase := .message, reasonCode := "feishu_message_result_unconfirmed" }
      match acceptedReceipt parseStr result with
      | none => self
      | some receipt =>
        { self with kind := .accepted, reasonCode := "accepted", receipt := some receipt }
    else self
  | .unavailable => self

/-- The result of one invocation, and what was sent for it: a session with the
given token, and a remote server that behaves as it likes. -/
def deliveryResult (parseStr : ParseUuid) (toText : JsonText) (invocationId : String)
    (cfg : OpenApiConfig) (mode : FeishuMode) (token recipient text : String)
    (behaviour : Nat → Behaviour) : FeishuDeliveryResultV1 × Exchange :=
  let send := sendTextWithDeliveryEvidence toText mode recipient text
  let (evidence, w) := send.play exchange behaviour ⟨token, [], []⟩
  ((FeishuDeliveryResultV1.new invocationId cfg recipient text).finish parseStr evidence, w)

/-! ## The ids -/

/-- `om_` and 1 to 128 small letters or digits. -/
def RemoteId (id : String) : Prop :=
  ∃ suffix : List Char, id = "om_" ++ String.ofList suffix ∧
    1 ≤ suffix.length ∧ suffix.length ≤ 128 ∧
    ∀ c ∈ suffix, ('a' ≤ c ∧ c ≤ 'z') ∨ ('0' ≤ c ∧ c ≤ '9')

/-- The canonical text of a UUID of version 4. -/
def CanonicalUuidV4 (id : String) : Prop :=
  ∃ u : Uuid, u.versionNum = 4 ∧ u.isRfc4122 = true ∧ id = u.toString

theorem canonicalUuidV4_of_validLocalId {parseStr : ParseUuid} {value : String}
    (h : validLocalId parseStr value = true) : CanonicalUuidV4 value := by
  unfold validLocalId at h
  cases hparse : parseStr value with
  | none => simp [hparse] at h
  | some u =>
    simp only [hparse, Option.any_some, Bool.and_eq_true, decide_eq_true_eq] at h
    exact ⟨u, h.1.1, h.1.2, h.2.symm⟩

theorem remoteId_of_validRemoteId {value : String} (h : validRemoteId value = true) :
    RemoteId value := by
  unfold validRemoteId at h
  cases hstrip : stripPrefix? "om_" value with
  | none => simp [hstrip] at h
  | some suffix =>
    simp only [hstrip, Option.any_some, Bool.and_eq_true, decide_eq_true_eq, ne_eq,
      List.all_eq_true] at h
    obtain ⟨⟨hne, hlength⟩, hall⟩ := h
    have hascii : ∀ b ∈ Bytes.asBytes suffix, b.toNat < 128 := by
      intro b hb
      have hb := hall b hb
      unfold isLowerOrDigit at hb
      simp only [Bool.or_eq_true, Bool.and_eq_true, decide_eq_true_eq,
        UInt8.le_iff_toNat_le] at hb
      simp at hb
      omega
    obtain ⟨hchars, hbytes⟩ := Bytes.asBytes_of_ascii hascii
    rw [hbytes] at hlength hall
    refine ⟨suffix.toList, ?_, ?_, by simpa using hlength, ?_⟩
    · rw [String.ofList_toList]
      exact stripPrefix?_eq_some_iff.mp hstrip
    · refine List.length_pos_iff.mpr fun hnil => hne ?_
      rw [← String.ofList_toList (s := suffix), hnil]
    · intro c hc
      have hsmall := hchars c hc
      have hc := hall _ (List.mem_map_of_mem hc)
      unfold isLowerOrDigit at hc
      simp only [Bool.or_eq_true, Bool.and_eq_true, decide_eq_true_eq, UInt8.le_iff_toNat_le,
        UInt8.toNat_ofNat', Nat.mod_eq_of_lt (show c.toNat < 2 ^ 8 by omega)] at hc
      exact hc

/-! ## What the evidence says -/

/-- A response with a success status and the code 0 carried the platform's
id. -/
def Confirms (w : Exchange) (id : String) : Prop :=
  ∃ status parsed data, Http.response status (.ok parsed) ∈ w.messages ∧
    status.isSuccess = true ∧ parsed.code = 0 ∧ parsed.data = some data ∧ data.messageId = id

/-- The evidence agrees with what was sent. -/
def EvidenceHolds : FeishuTextDeliveryEvidence → Exchange → Prop
  | .authBeforeMessage, w => w.messages = []
  | .unavailable, w => w.messages = []
  | .messageResult result started, w =>
    (started = true ↔ w.messages ≠ []) ∧
      ∀ receipt id, result = .ok receipt → started = true →
        receipt.platformMsgId = some id → Confirms w id

section Rules

variable {toText : JsonText} {cfg : OpenApiConfig} {w : Exchange}

theorem wp_lockToken {Q : String → Exchange → Prop} (h : Q w.token w) :
    wp exchange anyOutcome Q lockToken w :=
  wp_perform.mpr ⟨fun _ => trivial, fun _ _ => h⟩

theorem wp_storeToken {token : String} {Q : Unit → Exchange → Prop}
    (h : Q () { w with token := token }) : wp exchange anyOutcome Q (storeToken token) w :=
  wp_perform.mpr ⟨fun _ => trivial, fun _ _ => h⟩

theorem wp_buildAuthClient {timeoutMs : UInt64} {Q : Bool → Exchange → Prop}
    (h : ∀ r, Q r w) : wp exchange anyOutcome Q (buildAuthClient timeoutMs) w :=
  wp_perform.mpr ⟨fun _ => trivial, fun o _ => h (o (.buildAuthClient timeoutMs))⟩

theorem wp_postAuth {client : Client} {endpoint appId appSecret : String}
    {Q : Http FeishuTokenResponse → Exchange → Prop}
    (h : ∀ reply, Q reply { w with auths := reply :: w.auths }) :
    wp exchange anyOutcome Q (postAuth client endpoint appId appSecret) w :=
  wp_perform.mpr ⟨fun _ => trivial,
    fun o _ => h (o (.postAuth client endpoint appId appSecret))⟩

theorem wp_postMessages {client : Client} {endpoint receiveIdType token : String}
    {request : FeishuSendRequest} {Q : Http FeishuSendEnvelope → Exchange → Prop}
    (h : ∀ reply, Q reply { w with messages := reply :: w.messages }) :
    wp exchange anyOutcome Q (postMessages client endpoint receiveIdType token request) w :=
  wp_perform.mpr ⟨fun _ => trivial,
    fun o _ => h (o (.postMessages client endpoint receiveIdType token request))⟩

theorem wp_newUuid {Q : String → Exchange → Prop} (h : ∀ id, Q id w) :
    wp exchange anyOutcome Q newUuid w :=
  wp_perform.mpr ⟨fun _ => trivial, fun o _ => h (o .newUuid)⟩

theorem wp_timestampMillis {Q : Int64 → Exchange → Prop} (h : ∀ now, Q now w) :
    wp exchange anyOutcome Q timestampMillis w :=
  wp_perform.mpr ⟨fun _ => trivial, fun o _ => h (o .timestampMillis)⟩

/-- Getting a token sends no messages request. -/
theorem wp_ensureTenantToken {client : Client} {Q : Except String String → Exchange → Prop}
    (h : ∀ r w', w'.messages = w.messages → Q r w') :
    wp exchange anyOutcome Q (ensureTenantToken client cfg) w := by
  refine wp_bind.mpr (wp_lockToken ?_)
  -- a token that is cached
  split
  · exact h _ _ rfl
  -- no credentials to get one with
  split
  · exact h _ _ rfl
  refine wp_bind.mpr (wp_postAuth fun reply => ?_)
  match reply with
  | .failed e => exact h _ _ rfl
  | .response status (.error e) => exact h _ _ rfl
  | .response status (.ok parsed) =>
    by_cases hrejected : (!status.isSuccess || parsed.code ≠ 0 ||
        trim parsed.tenantAccessToken = "") = true
    · simp only [hrejected, if_true]
      exact h _ _ rfl
    · simp only [hrejected]
      exact wp_bind.mpr (wp_storeToken (h _ _ rfl))

/-- The messages request is sent, and a receipt with the platform's id comes
from a response that confirms it. -/
theorem wp_requestMessage {token : String} {request : FeishuSendRequest} :
    wp exchange anyOutcome (fun result w' => w'.messages ≠ [] ∧
      ∀ receipt id, result = .ok receipt → receipt.platformMsgId = some id → Confirms w' id)
      (requestMessage cfg token request) w := by
  refine wp_bind.mpr (wp_postMessages fun reply => ?_)
  match reply with
  | .failed e => exact ⟨List.cons_ne_nil _ _, fun _ _ h => by cases h⟩
  | .response status (.error e) => exact ⟨List.cons_ne_nil _ _, fun _ _ h => by cases h⟩
  | .response status (.ok parsed) =>
    by_cases hrejected : (!status.isSuccess || parsed.code ≠ 0) = true
    · simp only [hrejected, if_true]
      exact ⟨List.cons_ne_nil _ _, fun _ _ h => by cases h⟩
    · simp only [hrejected]
      refine wp_bind.mpr (wp_newUuid fun messageId => ?_)
      refine wp_bind.mpr (wp_timestampMillis fun now => ?_)
      refine ⟨List.cons_ne_nil _ _, fun receipt id hreceipt hid => ?_⟩
      cases hreceipt
      obtain ⟨hdata, -⟩ := Option.filter_eq_some_iff.mp hid
      obtain ⟨data, hdata, hdataId⟩ := Option.map_eq_some_iff.mp hdata
      simp only [Bool.or_eq_true, Bool.not_eq_true', decide_eq_true_eq, not_or,
        Bool.not_eq_false, not_not] at hrejected
      exact ⟨status, parsed, data, List.mem_cons_self, hrejected.1, hrejected.2, hdata, hdataId⟩

theorem wp_sendText {recipient text : String} (hw : w.messages = []) :
    wp exchange anyOutcome (fun r w' => EvidenceHolds (.messageResult r.1 r.2) w')
      (sendMessageInner toText (.openApi cfg) recipient (.text text)) w := by
  refine wp_bind.mpr (wp_ensureTenantToken fun r w' hw' => ?_)
  cases r with
  | error e =>
    exact ⟨iff_of_false Bool.false_ne_true fun h => h (hw'.trans hw), fun _ _ h => by cases h⟩
  | ok token =>
    show wp exchange anyOutcome _ (do
      let body := toText (.obj [("text", .str text)])
      let result ← requestMessage cfg token ⟨recipient, "text", body⟩
      pure (result, true)) w'
    refine wp_bind.mpr (wp_mono (fun result w'' h => ?_) wp_requestMessage)
    exact ⟨iff_of_true rfl h.1, fun receipt id hok _ hid => h.2 receipt id hok hid⟩

theorem wp_sendTextWithDeliveryEvidence {mode : FeishuMode} {recipient text : String}
    (hw : w.messages = []) :
    wp exchange anyOutcome EvidenceHolds
      (sendTextWithDeliveryEvidence toText mode recipient text) w := by
  cases mode with
  | stub => exact hw
  | openApi cfg =>
    refine wp_bind.mpr (wp_buildAuthClient fun built => ?_)
    cases built with
    | false => exact hw
    | true =>
      refine wp_bind.mpr (wp_ensureTenantToken fun r w' hw' => ?_)
      cases r with
      | error e => exact hw'.trans hw
      | ok token => exact wp_bind.mpr (wp_mono (fun _ _ h => h) (wp_sendText (hw'.trans hw)))

end Rules

/-! ## What the result says -/

/-- The result agrees with what was sent: a rejection before the message means
that none was sent, the marker that one was, and an acceptance that the server
confirmed it.  Everything else is uncertain and has no receipt. -/
structure Truthful (result : FeishuDeliveryResultV1) (w : Exchange) : Prop where
  rejected : result.kind = .rejectedBeforeMessage → w.messages = [] ∧ result.receipt = none
  started : result.messageRequestStarted = true ↔ w.messages ≠ []
  accepted : result.kind = .accepted → ∃ receipt, result.receipt = some receipt ∧
    Confirms w receipt.platformMessageId ∧ RemoteId receipt.platformMessageId ∧
    CanonicalUuidV4 receipt.messageId
  other : result.kind ≠ .rejectedBeforeMessage → result.kind ≠ .accepted →
    result.kind = .uncertain ∧ result.receipt = none

theorem acceptedReceipt_eq_some {parseStr : ParseUuid} {result : Except ChannelError SendReceipt}
    {receipt : ReceiptV1} (h : acceptedReceipt parseStr result = some receipt) :
    ∃ sent, result = .ok sent ∧ sent.platformMsgId = some receipt.platformMessageId ∧
      RemoteId receipt.platformMessageId ∧ CanonicalUuidV4 receipt.messageId := by
  unfold acceptedReceipt at h
  cases result with
  | error e => cases h
  | ok sent =>
    cases hid : sent.platformMsgId.filter validRemoteId with
    | none => simp [hid] at h
    | some id =>
      by_cases hlocal : validLocalId parseStr sent.messageId = true
      · simp only [hid, hlocal, if_true, Option.some.injEq] at h
        subst h
        obtain ⟨hplatform, hremote⟩ := Option.filter_eq_some_iff.mp hid
        exact ⟨sent, rfl, hplatform, remoteId_of_validRemoteId hremote,
          canonicalUuidV4_of_validLocalId hlocal⟩
      · simp [hid, hlocal] at h

/-- Evidence that agrees with what was sent is finished to a result that
does. -/
theorem truthful_finish {parseStr : ParseUuid} {invocationId target text : String}
    {cfg : OpenApiConfig} {evidence : FeishuTextDeliveryEvidence} {w : Exchange}
    (h : EvidenceHolds evidence w) :
    Truthful ((FeishuDeliveryResultV1.new invocationId cfg target text).finish parseStr evidence)
      w := by
  cases evidence with
  | authBeforeMessage =>
    exact {
      rejected := fun _ => ⟨h, rfl⟩
      started := iff_of_false Bool.false_ne_true fun hne => hne h
      accepted := fun hkind => by cases hkind
      other := fun hkind => absurd rfl hkind }
  | unavailable =>
    exact {
      rejected := fun hkind => by cases hkind
      started := iff_of_false Bool.false_ne_true fun hne => hne h
      accepted := fun hkind => by cases hkind
      other := fun _ _ => ⟨rfl, rfl⟩ }
  | messageResult result started =>
    obtain ⟨hstarted, hconfirms⟩ := h
    cases started with
    | false =>
      exact {
        rejected := fun hkind => by cases hkind
        started := hstarted
        accepted := fun hkind => by cases hkind
        other := fun _ _ => ⟨rfl, rfl⟩ }
    | true =>
      simp only [FeishuDeliveryResultV1.finish, if_true]
      cases hreceipt : acceptedReceipt parseStr result with
      | none =>
        exact {
          rejected := fun hkind => by cases hkind
          started := hstarted
          accepted := fun hkind => by cases hkind
          other := fun _ _ => ⟨rfl, rfl⟩ }
      | some receipt =>
        obtain ⟨sent, hok, hplatform, hremote, hlocal⟩ := acceptedReceipt_eq_some hreceipt
        exact {
          rejected := fun hkind => by cases hkind
          started := hstarted
          accepted := fun _ =>
            ⟨receipt, rfl, hconfirms sent _ hok rfl hplatform, hremote, hlocal⟩
          other := fun _ hkind => absurd rfl hkind }

/-- Whatever the configuration, the recipient and the text are, and whatever
the server does, the result is truthful. -/
theorem deliveryResult_truthful (parseStr : ParseUuid) (toText : JsonText)
    (invocationId : String) (cfg : OpenApiConfig) (mode : FeishuMode)
    (token recipient text : String) (behaviour : Nat → Behaviour) :
    let r := deliveryResult parseStr toText invocationId cfg mode token recipient text behaviour
    Truthful r.1 r.2 :=
  truthful_finish (play_of_wp (wp_sendTextWithDeliveryEvidence rfl) behaviour)

end MagicLaw.Feishu
