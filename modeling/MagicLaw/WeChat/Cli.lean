import MagicLaw.WeChat.Daemon

/-!
# The CLI that sends, and the daemon that serves it

`runSendWechat` is `run_send_wechat` of `main.rs`.  It asks the daemon over
HTTP, and sends by itself when the daemon cannot be reached or does not accept
it.  The request and its answer are two calls, between which `serve`, the
side of the daemon, takes up the request and answers it.
-/

namespace MagicLaw.WeChat

open Lib Lib.Program Lib.Text

structure SendCommand where
  toPeer : Option String
  message : String
  contextToken : Option String

structure ProjectWechatAccount where
  accountId : String
  userId : Option String

/-! ## The daemon -/

/-- One request over HTTP is taken up, handled and answered. -/
def serve (account : String) : Work Unit := do
  match ← call .accept with
  | none => pure ()
  | some (id, req) =>
    let answer ← apiSend account req
    call (.respond id answer.1 answer.2)

/-! ## The CLI -/

inductive DaemonSendError where
  | unreachable (err : String)
  | rejected (err : String)

/-- The token of an answer that is a success. -/
def daemonAnswer (status : Nat) (response : SendResponse) :
    Except DaemonSendError (Option String) :=
  if 200 ≤ status && status < 300 && response.ok then .ok response.contextToken
  else .error (.rejected (response.error.getD ("daemon returned status " ++ toString status)))

/-- `try_daemon_api_send`, with the number of attempts that are left. -/
def tryDaemonApiSend (req : SendRequest) (origin : TokenOrigin) :
    Nat → String → Work (Except DaemonSendError (Option String))
  | 0, lastErr => pure (.error (.unreachable ("daemon unreachable: " ++ lastErr)))
  | attempts + 1, _ => do
    let id ← call (.post req origin)
    match ← call (.answer id) with
    | .missing .timedOut =>
      pure (.error (.rejected "daemon send timed out while waiting for inbound token"))
    | .missing (.failed err) => tryDaemonApiSend req origin attempts err
    | .missing (.unreadable err) => pure (.error (.rejected ("daemon bad response: " ++ err)))
    | .missing (.refused detail) => pure (.error (.rejected detail))
    | .answered status response => pure (daemonAnswer status response)

/-- The recipient: the one of the command, or any peer with a token, or the
user of the account. -/
def recipientOf (account : ProjectWechatAccount) (cmd : SendCommand) (tokens : Tokens) :
    Work (Except String String) :=
  match cmd.toPeer with
  | some peer => pure (if isBlank peer then .error "--to 不能为空" else .ok peer)
  | none => do
    let key ← call (.firstKey tokens)
    match key.or account.userId with
    | some peer => pure (.ok peer)
    | none => pure (.error ("无法从 context token store 或 account.json 推断收件人，" ++
        "请先在微信里给 ClawBot 发一条消息后重试"))

/-- `cmd.context_token`, trimmed -/
def SendCommand.explicitToken (cmd : SendCommand) : Option String := cmd.contextToken.bind trimmed?

/-- The token: the one of the command, or the one of the recipient, or any. -/
def chooseToken (cmd : SendCommand) (tokens : Tokens) (recipient : String) :
    Work (String × TokenOrigin) :=
  match cmd.explicitToken with
  | some token => pure (token, .supplied)
  | none =>
    match tokens.lookup recipient with
    | some token => pure (token, .stored)
    | none => do
      let token ← call (.firstValue tokens)
      pure (token.getD "", .borrowed)

/-- `token_store.set`, when there is a token. -/
def keepToken (account : String) (recipient : String) : Option String → Work Unit
  | none => pure ()
  | some token => do
    let _ ← call (.storeSet account recipient token)

/-- The direct call of ilink. -/
def directSend (account : ProjectWechatAccount) (cmd : SendCommand)
    (recipient contextToken : String) : Work (Except String (Option String)) := do
  match ← sendTextViaIlink contextToken recipient cmd.message with
  | .error e => pure (.error ("wechat send failed: " ++ e))
  | .ok value =>
    keepToken account.accountId recipient ((returnedContextToken value).bind trimmed?)
    pure (.ok (serverId value))

/-- After these errors the CLI sends by itself. -/
def DaemonSendError.fallsBack : DaemonSendError → Bool
  | .unreachable _ => true
  | .rejected err =>
    contains (toAsciiLowercase err) "unauthorized" || contains (toAsciiLowercase err) "401"

/-- `run_send_wechat`, once it knows the recipient and the token. -/
def sendWith (account : ProjectWechatAccount) (cmd : SendCommand) (recipient : String)
    (chosen : String × TokenOrigin) : Work (Except String (Option String)) := do
  let req : SendRequest :=
    { toPeer := recipient
      text := cmd.message
      contextToken := if chosen.1 = "" then none else some chosen.1 }
  match ← tryDaemonApiSend req chosen.2 3 "" with
  | .ok returned =>
    keepToken account.accountId recipient ((returned.bind trimmed?).or cmd.explicitToken)
    pure (.ok none)
  | .error e =>
    if e.fallsBack then
      directSend account cmd recipient chosen.1
    else
      match e with
      | .rejected err => pure (.error ("daemon send failed: " ++ err))
      | .unreachable err => pure (.error err)

/-- `run_send_wechat` -/
def runSendWechat (account : ProjectWechatAccount) (cmd : SendCommand) :
    Work (Except String (Option String)) := do
  match ← call (.storeGetAll account.accountId) with
  | .error e => pure (.error e)
  | .ok tokens =>
    match ← recipientOf account cmd tokens with
    | .error e => pure (.error e)
    | .ok recipient =>
      let chosen ← chooseToken cmd tokens recipient
      sendWith account cmd recipient chosen

end MagicLaw.WeChat
