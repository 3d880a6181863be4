import MagicLaw.Lib.Json
import MagicLaw.Lib.Text

/-!
# The ilink client

The parts of `channels/wechat/ilink.rs` that decide what an answer of the
server means, and where a `context_token` is taken from.

`Http` is what came of a request, with the body as `serde_json` reads it.
`getUpdatesResult` and `sendTextResult` are `get_updates_via_ilink` and
`send_text_via_ilink` from there on.
-/

namespace MagicLaw.WeChat

open Lib Lib.Text

/-! ## Requests over HTTP -/

/-- What came of a request. -/
inductive Http (β : Type) where
  /-- a timeout, or no connection -/
  | noAnswer (err : String)
  | failed (err : String)
  /-- the body could not be read -/
  | unreadable (err : String)
  /-- an answer with a status that is not a success -/
  | status (status body : String)
  /-- a body of white space alone -/
  | empty
  /-- a body that is not the JSON that is expected -/
  | invalid (err : String)
  | body (value : β)

/-- The body of an answer. -/
def Http.body? {β : Type} : Http β → Option β
  | .body value => some value
  | _ => none

/-! ## `getupdates` -/

structure ILinkTextItem where
  text : Option String
  deriving DecidableEq

structure ILinkItem where
  itemType : Option Int32
  textItem : Option ILinkTextItem
  deriving DecidableEq

/-- `ILinkMessage`, with the place that it has among all messages of the
server, which the code does not know. -/
structure ILinkMessage where
  place : Nat
  messageType : Option Int32
  fromUserId : Option String
  toUserId : Option String
  groupId : Option String
  contextToken : Option String
  itemList : List ILinkItem
  deriving DecidableEq

structure ILinkGetUpdatesResponse where
  ret : Int32
  errcode : Option Int32
  errmsg : Option String
  msgs : List ILinkMessage
  getUpdatesBuf : Option String

inductive ILinkGetUpdatesError where
  | transport (msg : String)
  | sessionExpired (errcode : Int32) (errmsg : String)
  | business (ret errcode : Int32) (errmsg : String)

/-- No messages, and the cursor that was sent. -/
def ILinkGetUpdatesResponse.nothing (syncBuf : String) : ILinkGetUpdatesResponse where
  ret := 0
  errcode := none
  errmsg := none
  msgs := []
  getUpdatesBuf := some syncBuf

/-- `get_updates_via_ilink` -/
def getUpdatesResult (syncBuf : String) :
    Http ILinkGetUpdatesResponse → Except ILinkGetUpdatesError ILinkGetUpdatesResponse
  -- a long poll that timed out is no error
  | .noAnswer _ => .ok (.nothing syncBuf)
  | .failed err => .error (.transport ("ilink getupdates failed: " ++ err))
  | .unreadable err => .error (.transport ("failed to read ilink getupdates response: " ++ err))
  | .status status body =>
    .error (.transport ("ilink getupdates HTTP " ++ status ++ ": " ++ body))
  | .empty => .ok (.nothing syncBuf)
  | .invalid err => .error (.transport ("invalid ilink getupdates JSON response: " ++ err))
  | .body value =>
    if value.errcode = some (-14) then
      .error (.sessionExpired (-14) (value.errmsg.getD "session expired"))
    else if value.ret ≠ 0 then
      .error (.business value.ret (value.errcode.getD 0) (value.errmsg.getD "unknown error"))
    else .ok value

/-- An answer without an error is one of the server, or nothing came. -/
theorem getUpdatesResult_eq_ok {syncBuf : String} {http : Http ILinkGetUpdatesResponse}
    {updates : ILinkGetUpdatesResponse} (h : getUpdatesResult syncBuf http = .ok updates) :
    updates = .nothing syncBuf ∨
      http = .body updates ∧ updates.errcode ≠ some (-14) ∧ updates.ret = 0 := by
  unfold getUpdatesResult at h
  split at h
  · exact .inl (Except.ok.inj h).symm
  · cases h
  · cases h
  · cases h
  · exact .inl (Except.ok.inj h).symm
  · cases h
  · split at h
    · cases h
    · rename_i herrcode
      split at h
      · cases h
      · rename_i hret
        cases h
        exact .inr ⟨rfl, herrcode, by simpa using hret⟩

/-- An expired session is never reported as an error of the business. -/
theorem getUpdatesResult_ne_business {syncBuf : String} {http : Http ILinkGetUpdatesResponse}
    {ret errcode : Int32} {errmsg : String}
    (h : getUpdatesResult syncBuf http = .error (.business ret errcode errmsg)) :
    errcode ≠ -14 := by
  unfold getUpdatesResult at h
  split at h
  · cases h
  · cases h
  · cases h
  · cases h
  · cases h
  · cases h
  · rename_i value
    split at h
    · cases h
    · rename_i hexpired
      split at h
      · cases h
        intro herrcode
        cases hvalue : value.errcode with
        | none =>
          rw [hvalue] at herrcode
          exact absurd herrcode (by decide)
        | some e =>
          rw [hvalue] at herrcode hexpired
          exact hexpired (congrArg some herrcode)
      · cases h

/-- `extract_latest_context_token` for a peer -/
def extractLatestContextToken (msgs : List ILinkMessage) (peer : String) : Option String :=
  msgs.reverse.findSome? fun msg =>
    match msg.contextToken with
    | none => none
    | some token =>
      let samePeer := msg.fromUserId = some peer || msg.toUserId = some peer
      if samePeer && !isBlank token then some token else none

/-- Of one message, only a token that is not blank is taken, and only for its
sender or its receiver. -/
theorem extractLatestContextToken_singleton {msg : ILinkMessage} {peer token : String}
    (h : extractLatestContextToken [msg] peer = some token) :
    msg.contextToken = some token ∧ isBlank token = false ∧
      (msg.fromUserId = some peer ∨ msg.toUserId = some peer) := by
  unfold extractLatestContextToken at h
  rw [List.reverse_singleton, List.findSome?_singleton] at h
  cases htoken : msg.contextToken with
  | none => simp [htoken] at h
  | some t =>
    simp only [htoken] at h
    split at h
    · rename_i hif
      simp only [Bool.and_eq_true, Bool.or_eq_true, decide_eq_true_eq, Bool.not_eq_eq_eq_not,
        Bool.not_true] at hif
      cases h
      exact ⟨rfl, hif.2, hif.1⟩
    · exact absurd h (by simp)

/-! ## `sendmessage` -/

/-- `server_id` of an answer -/
def serverId (value : Json) : Option String :=
  ((value.get? "msg").bind fun msg => msg.str? "server_id").or (value.str? "server_id")

/-- The answer acknowledges the message. -/
def hasServerId (value : Json) : Bool :=
  (((value.get? "msg").bind fun msg => msg.str? "server_id").any fun id => !isBlank id) ||
    (value.str? "server_id").any fun id => !isBlank id

/-- `send_text_via_ilink`, from the parsed answer on -/
def acceptSend (value : Json) : Except String Json :=
  let errcode := Int32.ofInt (((value.get? "errcode").bind Json.asI64?).getD 0)
  let ret := ((value.get? "ret").bind Json.asI64?).getD 0
  let errmsg := (value.str? "errmsg").getD "unknown error"
  if errcode = -14 then
    .error ("wechat session expired (errcode=-14): " ++
      (value.str? "errmsg").getD "session expired")
  else if errcode ≠ 0 then
    .error ("ilink business error: ret=" ++ toString ret ++ ", errcode=" ++
      toString errcode.toInt ++ ", errmsg=" ++ errmsg)
  else if ret ≠ 0 && !hasServerId value then
    .error ("ilink send rejected: ret=" ++ toString ret ++ ", errcode=" ++
      toString errcode.toInt ++ ", errmsg=" ++ errmsg)
  else .ok value

/-- `send_text_via_ilink` -/
def sendTextResult : Http Json → Except String Json
  | .noAnswer err => .error ("ilink request failed: " ++ err)
  | .failed err => .error ("ilink request failed: " ++ err)
  | .unreadable err => .error ("failed to read ilink response: " ++ err)
  | .status status body => .error ("ilink HTTP " ++ status ++ ": " ++ body)
  | .empty => .error "ilink empty response body (session may be expired)"
  | .invalid err => .error ("invalid ilink JSON response: " ++ err)
  | .body value => acceptSend value

theorem sendTextResult_eq_ok {http : Http Json} {value : Json}
    (h : sendTextResult http = .ok value) : http.body? = some value := by
  cases http with
  | body v =>
    simp only [sendTextResult, acceptSend] at h
    split at h
    · cases h
    · split at h
      · cases h
      · split at h
        · cases h
        · cases h
          rfl
  | _ => cases h

/-- The token in an answer: the one of `msg`, or else the one next to it. -/
def returnedContextToken (value : Json) : Option String :=
  ((value.get? "msg").bind fun msg => msg.str? "context_token").or (value.str? "context_token")

/-- `extract_context_token_from_send_response` -/
def extractContextTokenFromSendResponse (value : Json) : Option String :=
  (returnedContextToken value).filter fun token => !isBlank token

theorem extractContextTokenFromSendResponse_eq_some_iff {value : Json} {token : String} :
    extractContextTokenFromSendResponse value = some token ↔
      returnedContextToken value = some token ∧ isBlank token = false := by
  unfold extractContextTokenFromSendResponse
  rw [Option.filter_eq_some_iff]
  simp

/-- `is_ret_minus_2_error` -/
def isRetMinus2Error (err : String) : Bool :=
  contains err "ret=-2" || contains err "ret=-2," || contains err "ret=-2 "

end MagicLaw.WeChat
