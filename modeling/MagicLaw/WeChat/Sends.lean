import Mathlib.Logic.Function.Basic
import MagicLaw.Lib.Tasks
import MagicLaw.WeChat.Daemon

/-!
# The token poller and the requests to send

Any number of long polls of the runtime and of requests to `/api/send` run
over the cache and the table of the tokens.  The two are written one after the
other: each program writes the cache and then, with its next call, the table.

* `tokenPairing` says which calls the programs make, which of them write the
  cache, and which write the table.
* `cachedToken_handle` and `storedToken_handle`: what a call of them does to
  the tokens of the cache and of the table.
* `paired_program`: every program writes to the table what it wrote to the
  cache with the call before, and nothing else.
-/

namespace MagicLaw.WeChat

open Lib Lib.Program Lib.Tasks Lib.Text

/-- What runs: the long poll of the runtime, and a request. -/
inductive TokenTask where
  | poller (rounds : Nat)
  | send (req : SendRequest)

def TokenTask.program (account : String) : TokenTask → Work Unit
  | .poller rounds => tokenPoller account rounds
  | .send req => do
    let _ ← apiSend account req
    pure ()

/-- The calls that these programs make. -/
def isTokenCall (account : String) : Call → Bool
  | .loadSyncBuf _ | .saveSyncBuf _ _ | .getUpdates _ | .sendMessage _ _ _ => true
  | .cacheGet _ | .cacheInsert _ _ | .cacheSuccess _ _ _ | .cacheRemove _ => true
  | .lockPeer _ | .unlockPeer _ => true
  | .storeSet account' _ _ | .storeDelete account' _ => account' = account
  | _ => false

/-- What the cache has of a peer after the call. -/
def cacheWrite? : (c : Call) → c.Reply → Option (String × Option String)
  | .cacheInsert peer token, _ => some (peer, some token)
  | .cacheSuccess peer _ _, (entry : PeerTokenState) => some (peer, some entry.token)
  | .cacheRemove peer, _ => some (peer, none)
  | _, _ => none

/-- What the table has of a peer after the call. -/
def storeWrite? : Call → Option (String × Option String)
  | .storeSet _ user token => some (user, some token)
  | .storeDelete _ user => some (user, none)
  | _ => none

def tokenPairing (account : String) : Pairing Call.Reply (String × Option String) where
  legal := fun c => isTokenCall account c
  opens := cacheWrite?
  closes := storeWrite?

/-- The lock that the call takes. -/
def locked? : Call → Option String
  | .lockPeer peer => some peer
  | _ => none

/-- A lock is taken when nobody holds it. -/
def LockFree (w : World) (c : Call) (_ : Outcome) : Prop :=
  ∀ peer ∈ locked? c, peer ∉ w.sendPeerLocks

instance (w : World) (c : Call) (o : Outcome) : Decidable (LockFree w c o) :=
  inferInstanceAs (Decidable (∀ peer ∈ locked? c, peer ∉ w.sendPeerLocks))

/-! ## What a call does to the tokens -/

/-- The token that the cache has for a peer. -/
def World.cachedToken (w : World) (peer : String) : Option String :=
  (w.tokenCache.lookup peer).map PeerTokenState.token

/-- The token that the table has for a peer of the account. -/
def World.storedToken (w : World) (account peer : String) : Option String :=
  w.contextTokens.lookup (account, peer)

/-- The tokens after the write of one, or after none. -/
def written (tokens : String → Option String) :
    Option (String × Option String) → String → Option String
  | none => tokens
  | some (peer, token) => Function.update tokens peer token

theorem cachedToken_insert (w : World) (peer : String) (entry : PeerTokenState) :
    World.cachedToken { w with tokenCache := w.tokenCache.insert peer entry } =
      Function.update w.cachedToken peer (some entry.token) := by
  funext p
  unfold World.cachedToken
  by_cases h : p = peer
  · rw [h, AList.lookup_insert, Function.update_self]
    rfl
  · rw [AList.lookup_insert_ne h, Function.update_of_ne h]

theorem cachedToken_erase (w : World) (peer : String) :
    World.cachedToken { w with tokenCache := w.tokenCache.erase peer } =
      Function.update w.cachedToken peer none := by
  funext p
  unfold World.cachedToken
  by_cases h : p = peer
  · rw [h, AList.lookup_erase, Function.update_self]
    rfl
  · rw [AList.lookup_erase_ne h, Function.update_of_ne h]

theorem storedToken_setToken (w : World) (account user token : String) :
    (w.setToken account user token).storedToken account =
      Function.update (w.storedToken account) user (some token) := by
  funext p
  unfold World.storedToken World.setToken
  by_cases h : p = user
  · rw [h, AList.lookup_insert, Function.update_self]
  · rw [AList.lookup_insert_ne (by simp [h]), Function.update_of_ne h]

theorem storedToken_deleteToken (w : World) (account user : String) :
    (w.deleteToken account user).storedToken account =
      Function.update (w.storedToken account) user none := by
  funext p
  unfold World.storedToken World.deleteToken
  by_cases h : p = user
  · rw [h, AList.lookup_erase, Function.update_self]
  · rw [AList.lookup_erase_ne (by simp [h]), Function.update_of_ne h]

theorem written_of_ne {tokens : String → Option String} {write : Option (String × Option String)}
    {peer : String} (h : ∀ put ∈ write, put.1 ≠ peer) : written tokens write peer = tokens peer := by
  cases write with
  | none => rfl
  | some put => exact Function.update_of_ne (h put rfl).symm _ _

section Calls

variable {account : String} {w : World} {o : Outcome} {c : Call}

theorem cachedToken_handle (hlegal : isTokenCall account c) :
    (handle w o c).2.cachedToken = written w.cachedToken (cacheWrite? c (handle w o c).1) := by
  cases c with
  | cacheInsert peer token => exact cachedToken_insert w peer _
  | cacheSuccess peer ctx next => exact cachedToken_insert w peer _
  | cacheRemove peer => exact cachedToken_erase w peer
  | loadSyncBuf _ | saveSyncBuf _ _ | storeSet _ _ _ | storeDelete _ _ =>
    simp only [handle, statement]
    split <;> rfl
  | getUpdates _ | sendMessage _ _ _ | cacheGet _ | lockPeer _ | unlockPeer _ => rfl
  | _ => cases hlegal

/-- A call that writes the table does not write the cache. -/
theorem cacheWrite?_of_storeWrite? {write : String × Option String}
    (h : storeWrite? c = some write) (r : c.Reply) : cacheWrite? c r = none := by
  cases c with
  | storeSet _ _ _ | storeDelete _ _ => rfl
  | _ => cases h

/-- As long as a statement that writes the tokens works. -/
theorem storedToken_handle (hlegal : isTokenCall account c)
    (hworks : (storeWrite? c).isSome → o.fault = none) :
    (handle w o c).2.storedToken account = written (w.storedToken account) (storeWrite? c) := by
  cases c with
  | storeSet account' user token =>
    have haccount : account' = account := of_decide_eq_true hlegal
    subst haccount
    simp only [handle, statement, hworks rfl]
    exact storedToken_setToken w account' user token
  | storeDelete account' user =>
    have haccount : account' = account := of_decide_eq_true hlegal
    subst haccount
    simp only [handle, statement, hworks rfl]
    exact storedToken_deleteToken w account' user
  | loadSyncBuf _ | saveSyncBuf _ _ =>
    simp only [handle, statement]
    split <;> rfl
  | cacheInsert _ _ | cacheSuccess _ _ _ | cacheRemove _ | getUpdates _ | sendMessage _ _ _
  | cacheGet _ | lockPeer _ | unlockPeer _ => rfl
  | _ => cases hlegal

end Calls

/-! ## The programs write in pairs -/

section Programs

variable {account : String}

theorem paired_updates {syncBuf : String}
    {k : Except ILinkGetUpdatesError ILinkGetUpdatesResponse → Work Unit}
    (hk : ∀ http, Paired (tokenPairing account) none (k (getUpdatesResult syncBuf http))) :
    Paired (tokenPairing account) none (getUpdatesViaIlink syncBuf >>= k) :=
  paired_perform_bind rfl rfl hk

theorem paired_tokenMessage (msg : ILinkMessage) :
    Paired (tokenPairing account) none (tokenMessage account msg) := by
  unfold tokenMessage
  split
  · exact paired_pure ()
  · split
    · split
      · exact paired_pure ()
      · apply paired_perform_bind rfl rfl
        intro _
        apply paired_perform_bind (decide_eq_true rfl) rfl
        exact fun _ => paired_pure ()
    · exact paired_pure ()

theorem paired_tokenCursor (syncBuf : String) (buf : Option String) :
    Paired (tokenPairing account) none (tokenCursor syncBuf buf) := by
  cases buf with
  | none => exact paired_pure _
  | some buf => exact paired_perform_bind rfl rfl fun _ => paired_pure buf

/-- The branch for an expired session, which would write the cache and the
table of all peers, is never taken. -/
theorem paired_tokenLoop (rounds sessionRetries : Nat) (syncBuf : String) :
    Paired (tokenPairing account) none (tokenLoop account rounds sessionRetries syncBuf) := by
  induction rounds generalizing sessionRetries syncBuf with
  | zero => exact paired_pure ()
  | succ rounds ih =>
    apply paired_updates
    intro http
    split
    · apply paired_bind (paired_tokenCursor syncBuf _)
      intro next
      apply paired_bind (paired_forEach paired_tokenMessage _)
      exact fun _ => ih 0 next
    · rename_i hresult
      rw [if_neg (getUpdatesResult_ne_business hresult)]
      exact ih sessionRetries syncBuf
    · exact ih sessionRetries syncBuf

theorem paired_apiSent (req : SendRequest) (ctx : String) (sent : Except String Lib.Json) :
    Paired (tokenPairing account) none (apiSent account req ctx sent) := by
  cases sent with
  | ok resp =>
    apply paired_perform_bind rfl rfl
    intro _
    apply paired_perform_bind (decide_eq_true rfl) rfl
    exact fun _ => paired_pure _
  | error e =>
    simp only [apiSent]
    split
    · apply paired_perform_bind rfl rfl
      intro _
      apply paired_perform_bind (decide_eq_true rfl) rfl
      exact fun _ => paired_pure _
    · exact paired_pure _

theorem paired_apiSendWith (req : SendRequest) (selected : Option String) :
    Paired (tokenPairing account) none (apiSendWith account req selected) := by
  cases selected with
  | none => exact paired_pure _
  | some ctx =>
    apply paired_bind (paired_perform_bind rfl rfl fun _ => paired_pure _)
    exact paired_apiSent req ctx

theorem paired_apiSend (req : SendRequest) :
    Paired (tokenPairing account) none (apiSend account req) := by
  apply paired_perform_bind rfl rfl
  intro _
  apply paired_perform_bind rfl rfl
  intro entry
  apply paired_bind (paired_apiSendWith req _)
  intro answer
  apply paired_perform_bind rfl rfl
  exact fun _ => paired_pure answer

/-- Every program writes to the table what it wrote to the cache with the call
before, and nothing else. -/
theorem paired_program (task : TokenTask) :
    Paired (tokenPairing account) none (task.program account) := by
  cases task with
  | poller rounds =>
    apply paired_perform_bind rfl rfl
    exact fun _ => paired_tokenLoop rounds 0 _
  | send req => exact paired_bind (paired_apiSend req) fun _ => paired_pure ()

end Programs

/-! ## A peer and its messages -/

/-- The daemon has the token `ctx-1` of alice. -/
def aliceKnown : World :=
  { World.init with
    contextTokens := (∅ : Map (String × String) String).insert ("bot", "alice") "ctx-1"
    tokenCache := (∅ : Map String PeerTokenState).insert "alice" (.new "ctx-1" 0) }

def toAlice : SendRequest := ⟨"alice", "hi", none⟩

/-- A message of alice with a new token. -/
def fromAlice : Outcome :=
  { fine with
    updates := .body ⟨0, none, none, [⟨0, some 1, some "alice", none, none, some "ctx-2", []⟩], none⟩ }

end MagicLaw.WeChat
