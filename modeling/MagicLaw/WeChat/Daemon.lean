import MagicLaw.Lib.Maps
import MagicLaw.Lib.Program
import MagicLaw.Routing.ReorderWindow
import MagicLaw.WeChat.ILink

/-!
# The WeChat side of the daemon

The programs of the daemon that work with an ilink account, call by call:

* `channelPoller`: the poll loop of `channels/wechat/channel.rs`, which hands
  the messages to the inbound channel;
* `tokenPoller`: the long poll of `infrastructure/runtime.rs`, which keeps the
  tokens of the peers;
* `apiSend`: the handler of `/api/send`;
* `channelSend`: `send_message` of the channel, for a text.

A call is one statement on the database, one section under a lock of the
memory, or one request to the server.  Between two calls anything else may
happen.  What only logs, audits, counts or sleeps is left out; a sleep is a
stretch between two calls.  Both loops are cut off after a number of rounds,
which is any number.
-/

namespace MagicLaw.WeChat

open Lib Lib.Program Lib.Text MagicLaw.Routing

/-! ## The state -/

/-- `PeerTokenState`, with an `Instant` as a number of milliseconds. -/
structure PeerTokenState where
  token : String
  observedAt : Nat
  lastSuccessAt : Option Nat
  sendCount : UInt32
  stale : Bool

def PeerTokenState.new (token : String) (now : Nat) : PeerTokenState where
  token := token
  observedAt := now
  lastSuccessAt := none
  sendCount := 0
  stale := false

/-- The token is replaced by another one that is not blank. -/
def PeerTokenState.replace (entry : PeerTokenState) (next : Option String) (now : Nat) :
    PeerTokenState :=
  match next.filter fun token => !isBlank token with
  | none => entry
  | some token =>
    if token = entry.token then entry
    else { entry with token := token, sendCount := 0, observedAt := now }

def PeerTokenState.markSuccess (entry : PeerTokenState) (next : Option String) (now : Nat) :
    PeerTokenState :=
  let entry := entry.replace next now
  { entry with
    lastSuccessAt := some now
    -- `saturating_add(1)`
    sendCount := if entry.sendCount = 0xffffffff then entry.sendCount else entry.sendCount + 1
    stale := false }

/-- The token after a success: the one of the answer, unless it has none. -/
theorem PeerTokenState.markSuccess_token (entry : PeerTokenState) (next : Option String)
    (now : Nat) : (entry.markSuccess next now).token =
      (next.filter fun token => !isBlank token).getD entry.token := by
  show (entry.replace next now).token = _
  unfold PeerTokenState.replace
  cases next.filter fun token => !isBlank token with
  | none => rfl
  | some token =>
    rw [Option.getD_some]
    by_cases h : token = entry.token
    · simp [h]
    · simp [h]

/-- The tokens of the peers of one account. -/
abbrev Tokens := Map String String

structure SessionState where
  contextTokens : Tokens
  syncBuf : String

/-- The request of `/api/send`, where `toPeer` is its field `to`. -/
structure SendRequest where
  toPeer : String
  text : String
  contextToken : Option String

structure SendResponse where
  ok : Bool
  contextToken : Option String
  error : Option String

structure World where
  /-- the row of `sync_buf` of the account -/
  syncBuf : Option String
  /-- `context_tokens`: the token of an account and a peer -/
  contextTokens : Map (String × String) String
  session : SessionState
  tokenCache : Map String PeerTokenState
  /-- the peers whose lock is held -/
  sendPeerLocks : List String
  /-- what was handed to the inbound channel, with its place in the server's log -/
  inbound : List (Nat × Message)
  /-- all requests to the daemon, and the numbers of those that nobody has
  taken up -/
  requests : List SendRequest
  waiting : List Nat
  /-- the answers: the number of the request, the status and the body -/
  responses : List (Nat × Nat × SendResponse)

def World.init : World where
  syncBuf := none
  contextTokens := ∅
  session := ⟨∅, ""⟩
  tokenCache := ∅
  sendPeerLocks := []
  inbound := []
  requests := []
  waiting := []
  responses := []

/-- What a crash of the daemon leaves: the database, and what was handed over. -/
def World.crashed (w : World) : World :=
  { w with
    session := ⟨∅, ""⟩
    tokenCache := ∅
    sendPeerLocks := []
    waiting := []
    responses := [] }

/-- `SELECT user_id, token FROM context_tokens WHERE account_id = ?1` -/
def World.getAll (w : World) (account : String) : Tokens := w.contextTokens.row account

/-! ## The calls -/

/-- Who polls. -/
inductive Poller where
  | channel | token
  deriving DecidableEq

/-- Where the CLI has the token of a request from. -/
inductive TokenOrigin where
  /-- from its command line -/
  | supplied
  /-- from the row of the recipient -/
  | stored
  /-- from the row of any peer -/
  | borrowed
  deriving DecidableEq

inductive Call where
  | loadSyncBuf (poller : Poller)
  | saveSyncBuf (poller : Poller) (buf : String)
  | storeGetAll (account : String)
  | storeSet (account user token : String)
  | storeDelete (account user : String)
  | storeDeleteAll (account : String)
  | sessionNew (syncBuf : String)
  | sessionSetAll (tokens : Tokens)
  | sessionSetSyncBuf (buf : String)
  | sessionSet (user token : String)
  | sessionGet (user : String)
  | sessionClear
  | cacheLoad (tokens : Tokens)
  | cacheGet (peer : String)
  | cacheInsert (peer token : String)
  /-- `entry`, `or_insert_with` and `mark_success` under one lock -/
  | cacheSuccess (peer ctx : String) (next : Option String)
  | cacheRemove (peer : String)
  | cacheClear
  | lockPeer (peer : String)
  | unlockPeer (peer : String)
  | getUpdates (syncBuf : String)
  | sendMessage (contextToken peer text : String)
  | inboundSend (place : Nat) (message : Message)
  /-- `Uuid::new_v4()` -/
  | uuid
  /-- `Utc::now().timestamp_millis()` -/
  | timestampMillis
  | accept
  | respond (id status : Nat) (response : SendResponse)
  | firstKey (tokens : Tokens)
  | firstValue (tokens : Tokens)
  | post (req : SendRequest) (origin : TokenOrigin)
  | answer (id : Nat)

/-- Why the CLI has no answer of the handler. -/
inductive NoAnswer where
  | timedOut
  | failed (err : String)
  | unreadable (err : String)
  /-- an answer that is not one of the handler -/
  | refused (detail : String)

/-- What the CLI gets for a request to the daemon. -/
inductive DaemonAnswer where
  | missing (why : NoAnswer)
  | answered (status : Nat) (response : SendResponse)

def Call.Reply : Call → Type
  | .loadSyncBuf _ => Except String String
  | .saveSyncBuf _ _ | .storeSet _ _ _ | .storeDelete _ _ | .storeDeleteAll _ => Except String Unit
  | .storeGetAll _ => Except String Tokens
  | .sessionGet _ => Option String
  | .cacheGet _ => Option PeerTokenState
  | .cacheSuccess _ _ _ => PeerTokenState
  | .getUpdates _ => Http ILinkGetUpdatesResponse
  | .sendMessage _ _ _ => Http Json
  | .inboundSend _ _ => Bool
  | .uuid => String
  | .timestampMillis => Int64
  | .accept => Option (Nat × SendRequest)
  | .firstKey _ | .firstValue _ => Option String
  | .post _ _ => Nat
  | .answer _ => DaemonAnswer
  | _ => Unit

/-- What the environment picks for a call. -/
structure Outcome where
  /-- the error of a statement -/
  fault : Option String
  now : Nat
  nowMs : Int64
  uuid : String
  /-- nobody receives from the inbound channel any more -/
  closed : Bool
  updates : Http ILinkGetUpdatesResponse
  reply : Http Json
  /-- which entry an iteration starts with, or which request is next -/
  pick : Nat
  /-- why the handler's answer does not get to the CLI -/
  noAnswer : Option NoAnswer

/-- Everything works, and the server has nothing. -/
def fine : Outcome where
  fault := none
  now := 0
  nowMs := 0
  uuid := ""
  closed := false
  updates := .noAnswer ""
  reply := .noAnswer ""
  pick := 0
  noAnswer := none

/-- A statement that yields `a` and leaves `w'`, or fails. -/
def statement {α : Type} (w : World) (o : Outcome) (a : α) (w' : World) :
    Except String α × World :=
  match o.fault with
  | some e => (.error e, w)
  | none => (.ok a, w')

/-- One of the elements, when there is one. -/
def pickFrom (l : List String) (n : Nat) : Option String := (l[n]?).or l.head?

def World.setToken (w : World) (account user token : String) : World :=
  { w with contextTokens := w.contextTokens.insert (account, user) token }

def World.deleteToken (w : World) (account user : String) : World :=
  { w with contextTokens := w.contextTokens.erase (account, user) }

/-- `DELETE FROM context_tokens WHERE account_id = ?1` -/
def World.deleteAllTokens (w : World) (account : String) : World :=
  { w with contextTokens := w.contextTokens.dropRow account }

/-- The entries that the cache starts with. -/
def loadedCache (tokens : Tokens) (now : Nat) : Map String PeerTokenState :=
  tokens.filterMap fun token => if isBlank token then none else some (.new token now)

/-- `or_insert_with` and `mark_success` -/
def World.succeeded (w : World) (peer ctx : String) (next : Option String) (now : Nat) :
    PeerTokenState :=
  ((w.tokenCache.lookup peer).getD (.new ctx now)).markSuccess next now

/-- One more request. -/
def World.post (w : World) (req : SendRequest) : World :=
  { w with
    requests := w.requests ++ [req]
    waiting := w.waiting ++ [w.requests.length] }

/-- The next request that is taken up. -/
def World.next? (w : World) (pick : Nat) : Option (Nat × SendRequest) :=
  (w.waiting[pick]?).bind fun id => (w.requests[id]?).map fun req => (id, req)

/-- What the CLI gets for its request: the answer of the handler, if there is
one and it arrives. -/
def World.answerTo (w : World) (o : Outcome) (id : Nat) : DaemonAnswer :=
  match o.noAnswer with
  | some why => .missing why
  | none =>
    match w.responses.find? fun response => response.1 = id with
    | none => .missing .timedOut
    | some (_, status, response) => .answered status response

/-- What a call yields and leaves behind. -/
def handle (w : World) (o : Outcome) : (call : Call) → call.Reply × World
  | .loadSyncBuf _ => statement w o (w.syncBuf.getD "") w
  | .saveSyncBuf _ buf => statement w o () { w with syncBuf := some buf }
  | .storeGetAll account => statement w o (w.getAll account) w
  | .storeSet account user token => statement w o () (w.setToken account user token)
  | .storeDelete account user => statement w o () (w.deleteToken account user)
  | .storeDeleteAll account => statement w o () (w.deleteAllTokens account)
  | .sessionNew syncBuf => ((), { w with session := ⟨∅, syncBuf⟩ })
  | .sessionSetAll tokens =>
    ((), { w with
      session := { w.session with contextTokens := tokens.union w.session.contextTokens } })
  | .sessionSetSyncBuf buf => ((), { w with session := { w.session with syncBuf := buf } })
  | .sessionSet user token =>
    ((), { w with
      session := { w.session with contextTokens := w.session.contextTokens.insert user token } })
  | .sessionGet user => (w.session.contextTokens.lookup user, w)
  | .sessionClear => ((), { w with session := { w.session with contextTokens := ∅ } })
  | .cacheLoad tokens => ((), { w with tokenCache := loadedCache tokens o.now })
  | .cacheGet peer => (w.tokenCache.lookup peer, w)
  | .cacheInsert peer token =>
    ((), { w with tokenCache := w.tokenCache.insert peer (.new token o.now) })
  | .cacheSuccess peer ctx next =>
    let entry := w.succeeded peer ctx next o.now
    (entry, { w with tokenCache := w.tokenCache.insert peer entry })
  | .cacheRemove peer => ((), { w with tokenCache := w.tokenCache.erase peer })
  | .cacheClear => ((), { w with tokenCache := ∅ })
  | .lockPeer peer => ((), { w with sendPeerLocks := peer :: w.sendPeerLocks })
  | .unlockPeer peer => ((), { w with sendPeerLocks := w.sendPeerLocks.erase peer })
  | .getUpdates _ => (o.updates, w)
  | .sendMessage _ _ _ => (o.reply, w)
  | .inboundSend place message =>
    if o.closed then (false, w) else (true, { w with inbound := (place, message) :: w.inbound })
  | .uuid => (o.uuid, w)
  | .timestampMillis => (o.nowMs, w)
  | .accept => (w.next? o.pick, { w with waiting := w.waiting.eraseIdx o.pick })
  | .respond id status response =>
    ((), { w with responses := (id, status, response) :: w.responses })
  | .firstKey tokens => (pickFrom tokens.keys o.pick, w)
  | .firstValue tokens => (pickFrom (tokens.entries.map fun row => row.2) o.pick, w)
  | .post req _ => (w.requests.length, w.post req)
  | .answer id => (w.answerTo o id, w)

/-- Only a save changes the persisted cursor. -/
theorem handle_syncBuf (w : World) (o : Outcome) (c : Call)
    (hsave : ∀ poller buf, c ≠ .saveSyncBuf poller buf) :
    (handle w o c).2.syncBuf = w.syncBuf := by
  cases c with
  | saveSyncBuf poller buf => exact absurd rfl (hsave poller buf)
  | loadSyncBuf _ | storeGetAll _ | storeSet _ _ _ | storeDelete _ _ | storeDeleteAll _ =>
    simp only [handle, statement]
    split <;> rfl
  | inboundSend _ _ =>
    simp only [handle]
    split <;> rfl
  | _ => rfl

/-- What was handed to the inbound channel is not taken back. -/
theorem inbound_subset_handle (w : World) (o : Outcome) (c : Call) :
    w.inbound ⊆ (handle w o c).2.inbound := by
  cases c with
  | loadSyncBuf _ | saveSyncBuf _ _ | storeGetAll _ | storeSet _ _ _ | storeDelete _ _
  | storeDeleteAll _ =>
    simp only [handle, statement]
    split <;> exact List.Subset.refl _
  | inboundSend place message =>
    simp only [handle]
    split
    · exact List.Subset.refl _
    · exact List.subset_cons_self _ _
  | _ => exact List.Subset.refl _

/-! ## The programs -/

abbrev Work := Prog Call.Reply

def call (c : Call) : Work c.Reply := .perform c

/-- `get_updates_via_ilink` -/
def getUpdatesViaIlink (syncBuf : String) :
    Work (Except ILinkGetUpdatesError ILinkGetUpdatesResponse) := do
  let http ← call (.getUpdates syncBuf)
  pure (getUpdatesResult syncBuf http)

/-- `send_text_via_ilink` -/
def sendTextViaIlink (contextToken peer text : String) : Work (Except String Json) := do
  let http ← call (.sendMessage contextToken peer text)
  pure (sendTextResult http)

/-! ### The poll loop of the channel -/

/-- The first text of a message that is not blank. -/
def messageText (msg : ILinkMessage) : String :=
  (msg.itemList.findSome? fun item =>
    (item.textItem.bind ILinkTextItem.text).filter fun text => !isBlank text).getD ""

/-- The inbound message that is made of a message of the user. -/
def inboundMessage (channelId : ChannelId) (msg : ILinkMessage) (fromUserId id : String)
    (nowMs : Int64) : Message :=
  let text := messageText msg
  .newInbound id
    { channel := channelId
      conversationId := msg.groupId.getD fromUserId
      peerId := fromUserId
      conversationType := if msg.groupId.isSome then .group else .direct }
    none nowMs (if text = "" then .unknown else .text text)

/-- The id of the message: its token, or else a new id. -/
def messageId (msg : ILinkMessage) : Work String :=
  match msg.contextToken with
  | some token => pure token
  | none => call .uuid

/-- The token of the message is kept for its user. -/
def channelToken (account : String) (msg : ILinkMessage) (fromUserId : String) : Work Unit :=
  match extractLatestContextToken [msg] fromUserId with
  | none => pure ()
  | some ctx => do
    call (.sessionSet fromUserId ctx)
    let _ ← call (.storeSet account fromUserId ctx)

/-- One round of the loop over `updates.msgs`; `false` when the loop is to end. -/
def channelMessage (account : String) (channelId : ChannelId) (msg : ILinkMessage) :
    Work Bool :=
  if msg.messageType ≠ some 1 then pure true
  else
    match msg.fromUserId with
    | none => pure true
    | some fromUserId => do
      let id ← messageId msg
      let nowMs ← call .timestampMillis
      channelToken account msg fromUserId
      call (.inboundSend msg.place (inboundMessage channelId msg fromUserId id nowMs))

/-- The loop over `updates.msgs`; `false` when the receiver is closed. -/
def channelMessages (account : String) (channelId : ChannelId) : List ILinkMessage → Work Bool
  | [] => pure true
  | msg :: msgs => do
    if ← channelMessage account channelId msg then
      channelMessages account channelId msgs
    else
      pure false

/-- The cursor for the next poll, which is saved when it is a new one. -/
def channelCursor (syncBuf : String) : Option String → Work String
  | none => pure syncBuf
  | some buf => do
    call (.sessionSetSyncBuf buf)
    let _ ← call (.saveSyncBuf .channel buf)
    pure buf

/-- The poll loop of `start`. -/
def channelLoop (account : String) (channelId : ChannelId) : Nat → String → Work Unit
  | 0, _ => pure ()
  | rounds + 1, syncBuf => do
    match ← getUpdatesViaIlink syncBuf with
    | .error (.sessionExpired _ _) =>
      call .sessionClear
      let _ ← call (.storeDeleteAll account)
      channelLoop account channelId rounds syncBuf
    | .error _ => channelLoop account channelId rounds syncBuf
    | .ok updates =>
      let next ← channelCursor syncBuf updates.getUpdatesBuf
      if ← channelMessages account channelId updates.msgs then
        channelLoop account channelId rounds next
      else
        pure ()

/-- `from_config_with_store` and `start` -/
def channelPoller (account : String) (channelId : ChannelId) (rounds : Nat) : Work Unit := do
  let loaded ← call (.loadSyncBuf .channel)
  call (.sessionNew (loaded.toOption.getD ""))
  let tokens ← call (.storeGetAll account)
  -- a table that cannot be read leaves the session without tokens
  call (.sessionSetAll (tokens.toOption.getD ∅))
  channelLoop account channelId rounds (loaded.toOption.getD "")

/-! ### The long poll of the runtime -/

/-- One round of the loop over `updates.msgs`: the token of a peer. -/
def tokenMessage (account : String) (msg : ILinkMessage) : Work Unit :=
  if msg.messageType ≠ some 1 then pure ()
  else
    match msg.contextToken, msg.fromUserId with
    | some token, some uid =>
      if isBlank token || isBlank uid || uid = account then pure ()
      else do
        call (.cacheInsert uid token)
        let _ ← call (.storeSet account uid token)
    | _, _ => pure ()

/-- The cursor for the next poll, which is saved when it is a new one. -/
def tokenCursor (syncBuf : String) : Option String → Work String
  | none => pure syncBuf
  | some buf => do
    let _ ← call (.saveSyncBuf .token buf)
    pure buf

/-- `MAX_SESSION_RETRIES` -/
def maxSessionRetries : Nat := 3

/-- The loop of `wechat_token_poller`. -/
def tokenLoop (account : String) : Nat → Nat → String → Work Unit
  | 0, _, _ => pure ()
  | rounds + 1, sessionRetries, syncBuf => do
    match ← getUpdatesViaIlink syncBuf with
    | .ok updates =>
      let next ← tokenCursor syncBuf updates.getUpdatesBuf
      Prog.forEach (tokenMessage account) updates.msgs
      tokenLoop account rounds 0 next
    | .error (.business _ errcode _) =>
      if errcode = -14 then
        if maxSessionRetries ≤ sessionRetries + 1 then
          pure ()
        else
          call .cacheClear
          let _ ← call (.storeDeleteAll account)
          tokenLoop account rounds (sessionRetries + 1) syncBuf
      else
        tokenLoop account rounds sessionRetries syncBuf
    | .error _ => tokenLoop account rounds sessionRetries syncBuf

/-- The task `wechat_token_poller`. -/
def tokenPoller (account : String) (rounds : Nat) : Work Unit := do
  let loaded ← call (.loadSyncBuf .token)
  tokenLoop account rounds 0 (loaded.toOption.getD "")

/-! ### Sending -/

/-- The beginning of `start_http_api`: the cache gets the persisted tokens. -/
def startHttpApi (account : String) : Work Unit := do
  let loaded ← call (.storeGetAll account)
  call (.cacheLoad (loaded.toOption.getD ∅))

/-- What `/api/send` does with the answer to a message that was sent with
`ctx`, and what it answers itself. -/
def apiSent (account : String) (req : SendRequest) (ctx : String) :
    Except String Json → Work (Nat × SendResponse)
  | .ok resp => do
    let next := extractContextTokenFromSendResponse resp
    let entry ← call (.cacheSuccess req.toPeer ctx next)
    let _ ← call (.storeSet account req.toPeer entry.token)
    pure (200, ⟨true, some (next.getD ctx), none⟩)
  | .error e => do
    if isRetMinus2Error e then
      call (.cacheRemove req.toPeer)
      let _ ← call (.storeDelete account req.toPeer)
      pure (412, ⟨false, none, some ("upstream rejected context_token (ret=-2); " ++
        "wait for a new inbound user message, then retry")⟩)
    else
      pure (502, ⟨false, none, some e⟩)

/-- The token that `/api/send` uses: the one of the cache, or else the one of
the request. -/
def selectToken (entry : Option PeerTokenState) (req : SendRequest) : Option String :=
  match entry with
  | some entry => some entry.token
  | none => req.contextToken.bind trimmed?

/-- The one attempt to send with the token that was selected. -/
def apiSendWith (account : String) (req : SendRequest) : Option String → Work (Nat × SendResponse)
  | some ctx => do
    let sent ← sendTextViaIlink ctx req.toPeer req.text
    apiSent account req ctx sent
  | none =>
    pure (412, ⟨false, none,
      some "no valid context_token for peer; wait for inbound user message then retry"⟩)

/-- The handler of `/api/send`, with the status of its answer.  The lock of
the peer is held to its end. -/
def apiSend (account : String) (req : SendRequest) : Work (Nat × SendResponse) := do
  call (.lockPeer req.toPeer)
  let entry ← call (.cacheGet req.toPeer)
  let answer ← apiSendWith account req (selectToken entry req)
  call (.unlockPeer req.toPeer)
  pure answer

/-- `send_message` of the channel, for a text: the `server_id`. -/
def channelSend (peer body : String) : Work (Except String (Option String)) := do
  match ← call (.sessionGet peer) with
  | none => pure (.error ("wechat: no context_token cached for user " ++ peer))
  | some contextToken =>
    match ← sendTextViaIlink contextToken peer body with
    | .error e => pure (.error e)
    | .ok resp => pure (.ok (serverId resp))

end MagicLaw.WeChat
