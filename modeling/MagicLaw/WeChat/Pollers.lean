import MagicLaw.Lib.Processes
import MagicLaw.WeChat.Daemon

/-!
# The two pollers under a contract

The channel poller and the token poller ask of their calls for three things:
that they may poll with a cursor and save it, that they may store the token of
a message for its user, and that they may put the loaded tokens into the
session.  `PollerContract` says that a contract grants these, where `cursor` is
what it knows of a cursor.  Both pollers respect every such contract, and keep
whatever held when they started.
-/

namespace MagicLaw.WeChat

open Lib Lib.Program Lib.Interference Lib.Processes MagicLaw.Routing

/-- The user and the token of a message of a user. -/
def receivedToken (msg : ILinkMessage) : Option (String × String) :=
  if msg.messageType = some 1 then
    msg.fromUserId.bind fun peer => msg.contextToken.map fun token => (peer, token)
  else none

theorem receivedToken_eq {msg : ILinkMessage} {peer token : String}
    (hmessageType : msg.messageType = some 1) (hpeer : msg.fromUserId = some peer)
    (htoken : msg.contextToken = some token) : receivedToken msg = some (peer, token) := by
  rw [receivedToken, if_pos hmessageType, hpeer, htoken]
  rfl

/-- The peer and the token that the call writes. -/
def writtenToken? : Call → Option (String × String)
  | .storeSet _ peer token | .sessionSet peer token | .cacheInsert peer token => some (peer, token)
  | _ => none

/-- The calls of the pollers that write neither a cursor nor a token. -/
def isPlain : Call → Bool
  | .loadSyncBuf _ | .storeGetAll _ | .storeDeleteAll _ => true
  | .sessionNew _ | .sessionSetSyncBuf _ | .sessionClear | .cacheClear => true
  | .uuid | .timestampMillis | .inboundSend _ _ => true
  | _ => false

structure PollerContract {σ : Type} {handle : Handler Call.Reply σ Outcome}
    {E : Surroundings Call σ Outcome} (C : Contract handle E) (cursor : String → Assert E) :
    Prop where
  plain : ∀ s c, isPlain c → (C.fits c).holds s
  load : ∀ s poller loaded, (C.told (.loadSyncBuf poller) loaded).holds s →
    (cursor (loaded.toOption.getD "")).holds s
  poll : ∀ s syncBuf, (cursor syncBuf).holds s → (C.fits (.getUpdates syncBuf)).holds s
  next : ∀ s syncBuf http updates, (cursor syncBuf).holds s →
    (C.told (.getUpdates syncBuf) http).holds s → getUpdatesResult syncBuf http = .ok updates →
    ∀ buf ∈ updates.getUpdatesBuf, (cursor buf).holds s
  save : ∀ s poller buf, (cursor buf).holds s → (C.fits (.saveSyncBuf poller buf)).holds s
  write : ∀ s syncBuf http updates, (C.told (.getUpdates syncBuf) http).holds s →
    getUpdatesResult syncBuf http = .ok updates → ∀ msg ∈ updates.msgs, ∀ e ∈ receivedToken msg,
    ∀ c, writtenToken? c = some e → (C.fits c).holds s
  session : ∀ s account loaded, (C.told (.storeGetAll account) loaded).holds s →
    (C.fits (.sessionSetAll (loaded.toOption.getD ∅))).holds s

section Pollers

variable {σ : Type} {handle : Handler Call.Reply σ Outcome} {E : Surroundings Call σ Outcome}
  {C : Contract handle E} {cursor : String → Assert E} {A : Assert E} {account : String}

/-- The token of the message may be written for its user. -/
def Writes (C : Contract handle E) (A : Assert E) (msg : ILinkMessage) : Prop :=
  ∀ s, A.holds s → ∀ e ∈ receivedToken msg, ∀ c, writtenToken? c = some e → (C.fits c).holds s

variable (hE : E.Lawful) (h : PollerContract C cursor)
include hE h

/-- A call that is plain may be made at any time. -/
theorem PollerContract.then {α : Type} {c : Call} {k : c.Reply → Work α} {R : α → Assert E}
    (hc : isPlain c) (hk : ∀ r, Triple handle A (k r) R) :
    Triple handle A (call c >>= k) R :=
  C.triple_then hE (fun s _ => h.plain s c hc) hk

omit hE in
theorem PollerContract.last {c : Call} (hc : isPlain c) :
    Triple handle A (call c) fun _ => A :=
  C.triple_keep fun s _ => h.plain s c hc

/-! ## The messages -/

omit h in
theorem triple_channelToken {msg : ILinkMessage} {peer : String} (hwrites : Writes C A msg)
    (hmessageType : msg.messageType = some 1) (hpeer : msg.fromUserId = some peer) :
    Triple handle A (channelToken account msg peer) fun _ => A := by
  unfold channelToken
  split
  · exact triple_self
  · rename_i ctx hctx
    have hreceived : receivedToken msg = some (peer, ctx) :=
      receivedToken_eq hmessageType hpeer (extractLatestContextToken_singleton hctx).1
    apply C.triple_then hE
    · exact fun s hs => hwrites s hs _ hreceived _ rfl
    · intro _
      apply C.triple_then hE
      · exact fun s hs => hwrites s hs _ hreceived _ rfl
      · exact fun _ => triple_self

omit hE in
theorem triple_messageId (msg : ILinkMessage) : Triple handle A (messageId msg) fun _ => A := by
  unfold messageId
  split
  · exact triple_self
  · exact h.last rfl

theorem triple_channelMessage {channelId : ChannelId} {msg : ILinkMessage}
    (hwrites : Writes C A msg) :
    Triple handle A (channelMessage account channelId msg) fun _ => A := by
  unfold channelMessage
  split
  · exact triple_self
  · rename_i hmessageType
    split
    · exact triple_self
    · rename_i peer hpeer
      apply triple_bind hE (triple_messageId h msg)
      intro id
      apply h.then hE rfl
      intro nowMs
      apply triple_bind hE (triple_channelToken hE hwrites (not_not.mp hmessageType) hpeer)
      exact fun _ => h.last rfl

theorem triple_channelMessages {channelId : ChannelId} {msgs : List ILinkMessage}
    (hwrites : ∀ msg ∈ msgs, Writes C A msg) :
    Triple handle A (channelMessages account channelId msgs) fun _ => A := by
  induction msgs with
  | nil => exact triple_self
  | cons msg msgs ih =>
    apply triple_bind hE (triple_channelMessage hE h (hwrites msg List.mem_cons_self))
    intro goOn
    split
    · exact ih fun m hm => hwrites m (List.mem_cons_of_mem _ hm)
    · exact triple_self

omit h in
theorem triple_tokenMessage {msg : ILinkMessage} (hwrites : Writes C A msg) :
    Triple handle A (tokenMessage account msg) fun _ => A := by
  unfold tokenMessage
  split
  · exact triple_self
  · rename_i hmessageType
    split
    · rename_i token peer htoken hpeer
      split
      · exact triple_self
      · have hreceived : receivedToken msg = some (peer, token) :=
          receivedToken_eq (not_not.mp hmessageType) hpeer htoken
        apply C.triple_then hE
        · exact fun s hs => hwrites s hs _ hreceived _ rfl
        · intro _
          apply C.triple_then hE
          · exact fun s hs => hwrites s hs _ hreceived _ rfl
          · exact fun _ => triple_self
    · exact triple_self

/-! ## The cursors -/

theorem triple_channelCursor {syncBuf : String} {next : Option String}
    (hsyncBuf : ∀ s, A.holds s → (cursor syncBuf).holds s)
    (hnext : ∀ s, A.holds s → ∀ buf ∈ next, (cursor buf).holds s) :
    Triple handle A (channelCursor syncBuf next) fun buf => A.and (cursor buf) := by
  cases next with
  | none => exact triple_pure fun s hs => ⟨hs, hsyncBuf s hs⟩
  | some buf =>
    apply h.then hE rfl
    intro _
    apply C.triple_then hE
    · exact fun s hs => h.save s _ buf (hnext s hs buf rfl)
    · exact fun _ => triple_pure fun s hs => ⟨hs, hnext s hs buf rfl⟩

theorem triple_tokenCursor {syncBuf : String} {next : Option String}
    (hsyncBuf : ∀ s, A.holds s → (cursor syncBuf).holds s)
    (hnext : ∀ s, A.holds s → ∀ buf ∈ next, (cursor buf).holds s) :
    Triple handle A (tokenCursor syncBuf next) fun buf => A.and (cursor buf) := by
  cases next with
  | none => exact triple_pure fun s hs => ⟨hs, hsyncBuf s hs⟩
  | some buf =>
    apply C.triple_then hE
    · exact fun s hs => h.save s _ buf (hnext s hs buf rfl)
    · exact fun _ => triple_pure fun s hs => ⟨hs, hnext s hs buf rfl⟩

/-! ## The loops -/

theorem triple_updates {α : Type} {syncBuf : String}
    {k : Except ILinkGetUpdatesError ILinkGetUpdatesResponse → Work α} {R : α → Assert E}
    (hsyncBuf : ∀ s, A.holds s → (cursor syncBuf).holds s)
    (hk : ∀ http, Triple handle (A.and (C.told (.getUpdates syncBuf) http))
      (k (getUpdatesResult syncBuf http)) R) :
    Triple handle A (getUpdatesViaIlink syncBuf >>= k) R :=
  C.triple_bind hE (fun s hs => h.poll s syncBuf (hsyncBuf s hs)) hk

theorem triple_channelLoop {channelId : ChannelId} {rounds : Nat} {syncBuf : String}
    (hsyncBuf : ∀ s, A.holds s → (cursor syncBuf).holds s) :
    Triple handle A (channelLoop account channelId rounds syncBuf) fun _ => A := by
  induction rounds generalizing A syncBuf with
  | zero => exact triple_self
  | succ rounds ih =>
    apply triple_updates hE h hsyncBuf
    intro http
    split
    · apply h.then hE rfl
      intro _
      apply h.then hE rfl
      exact fun _ => (ih hsyncBuf).of_and
    · exact (ih hsyncBuf).of_and
    · rename_i updates hresult
      apply triple_bind hE
      · apply triple_channelCursor hE h
        · exact fun s hs => hsyncBuf s hs.1
        · exact fun s hs => h.next s syncBuf http updates (hsyncBuf s hs.1) hs.2 hresult
      · intro next
        apply triple_bind hE
        · apply triple_channelMessages hE h
          exact fun msg hmsg s hs => h.write s syncBuf http updates hs.1.2 hresult msg hmsg
        · intro goOn
          split
          · refine (ih ?_).post fun _ _ hs => hs.1.1
            exact fun s hs => hs.2
          · exact triple_pure fun s hs => hs.1.1

theorem triple_tokenLoop {rounds sessionRetries : Nat} {syncBuf : String}
    (hsyncBuf : ∀ s, A.holds s → (cursor syncBuf).holds s) :
    Triple handle A (tokenLoop account rounds sessionRetries syncBuf) fun _ => A := by
  induction rounds generalizing A sessionRetries syncBuf with
  | zero => exact triple_self
  | succ rounds ih =>
    apply triple_updates hE h hsyncBuf
    intro http
    split
    · rename_i updates hresult
      apply triple_bind hE
      · apply triple_tokenCursor hE h
        · exact fun s hs => hsyncBuf s hs.1
        · exact fun s hs => h.next s syncBuf http updates (hsyncBuf s hs.1) hs.2 hresult
      · intro next
        apply triple_bind hE
        · apply triple_forEach hE
          intro msg hmsg
          apply triple_tokenMessage hE
          exact fun s hs => h.write s syncBuf http updates hs.1.2 hresult msg hmsg
        · intro _
          refine (ih ?_).post fun _ _ hs => hs.1.1
          exact fun s hs => hs.2
    · split
      · split
        · exact triple_pure fun s hs => hs.1
        · apply h.then hE rfl
          intro _
          apply h.then hE rfl
          exact fun _ => (ih hsyncBuf).of_and
      · exact (ih hsyncBuf).of_and
    · exact (ih hsyncBuf).of_and

/-! ## The pollers -/

theorem triple_channelPoller (channelId : ChannelId) (rounds : Nat) :
    Triple handle A (channelPoller account channelId rounds) fun _ => A := by
  apply C.triple_bind hE
  · exact fun s _ => h.plain s _ rfl
  · intro loaded
    apply h.then hE rfl
    intro _
    apply C.triple_bind hE
    · exact fun s _ => h.plain s _ rfl
    · intro tokens
      apply C.triple_then hE
      · exact fun s hs => h.session s account tokens hs.2
      · intro _
        refine (triple_channelLoop hE h ?_).post fun _ _ hs => hs.1.1
        exact fun s hs => h.load s _ loaded hs.1.2

theorem triple_tokenPoller (rounds : Nat) :
    Triple handle A (tokenPoller account rounds) fun _ => A := by
  apply C.triple_bind hE
  · exact fun s _ => h.plain s _ rfl
  · intro loaded
    refine (triple_tokenLoop hE h ?_).post fun _ _ hs => hs.1
    exact fun s hs => h.load s _ loaded hs.2

end Pollers

end MagicLaw.WeChat
