import MagicLaw.WeChat.Sends

/-!
# A newer token during a send

A request to `/api/send` takes the token of its peer from the cache, waits for
the server, and then writes to the cache: the token of the answer if it has
one, or nothing at all after `ret=-2`.  Meanwhile the long poll may store a
token of the peer that is newer than the one in use.

* `Kept`: for every peer, the newest token that was stored since the last send
  to it took its own is the one that the cache has.
* `KeepsNewer`: what a send puts in place of the cached token, when it
  completes, is not something else than such a newer token.
* `newer_kept_iff`: in every interleaving of long polls and requests, newer
  tokens are kept exactly when every completion is such a one.
-/

namespace MagicLaw.WeChat.NewerToken

open Lib Lib.Program Lib.Machine Lib.Tasks Lib.Text

/-! ## The sends in flight -/

/-- For each peer, the token that the last send to it uses, and the newest
other token that was stored since it took its own. -/
structure Flights where
  inUse : String → Option String
  newer : String → Option String

abbrev State := World × Flights

def watch (g : Flights) (_ : World) (_ : Outcome) : (c : Call) → c.Reply → Flights
  | .cacheGet peer, _ =>
    { inUse := Function.update g.inUse peer none
      newer := Function.update g.newer peer none }
  | .sendMessage ctx peer _, _ =>
    { inUse := Function.update g.inUse peer (some ctx)
      newer := Function.update g.newer peer ((g.newer peer).filter fun token => token ≠ ctx) }
  | .cacheInsert peer token, _ =>
    { g with
      newer := Function.update g.newer peer
        (if g.inUse peer = some token then none else some token) }
  | _, _ => g

def step (account : String) :
    Pool Call.Reply Unit State → Move TokenTask Empty Outcome → Option (Pool Call.Reply Unit State) :=
  Pool.step (Handler.watched handle watch) (TokenTask.program account) Empty.elim

/-- Nothing is in flight. -/
def State.start (w : World) : State := (w, ⟨fun _ => none, fun _ => none⟩)

/-! ## The claim and the condition -/

/-- The newer token of each peer is the one that the cache has. -/
def Kept (s : State) : Prop :=
  ∀ peer token, s.2.newer peer = some token → s.1.cachedToken peer = some token

/-- What the completion of a send puts in place of the cached token: another
one, or nothing. -/
def putsInPlace? : Call → Option (String × Option String)
  | .cacheSuccess peer _ next => (next.filter fun token => !isBlank token).map fun token =>
      (peer, some token)
  | .cacheRemove peer => some (peer, none)
  | _ => none

/-- What a completion puts in place is no other than the newer token. -/
def KeepsNewer (s : State) (c : Call) (_ : Outcome) : Prop :=
  ∀ put ∈ putsInPlace? c, ∀ token ∈ s.2.newer put.1, put.2 = some token

instance (s : State) (c : Call) (o : Outcome) : Decidable (KeepsNewer s c o) :=
  inferInstanceAs (Decidable (∀ put ∈ putsInPlace? c, ∀ token ∈ s.2.newer put.1,
    put.2 = some token))

/-! ## One call -/

section Calls

variable {account : String} {s : State} {o : Outcome} {c : Call}

/-- The token after a success: the one of the answer, or else the cached one,
or else the one that was sent. -/
theorem succeeded_token (w : World) (peer ctx : String) (next : Option String) (now : Nat) :
    (w.succeeded peer ctx next now).token =
      (next.filter fun token => !isBlank token).getD ((w.cachedToken peer).getD ctx) := by
  unfold World.succeeded World.cachedToken
  rw [PeerTokenState.markSuccess_token]
  cases w.tokenCache.lookup peer with
  | none => rfl
  | some entry => rfl

/-- Both tokens of a peer are replaced, and the newer one is then the one of
the cache. -/
theorem kept_update {newer cached : String → Option String}
    (h : ∀ peer token, newer peer = some token → cached peer = some token) {peer : String}
    {next entry : Option String} (hnext : ∀ token, next = some token → entry = some token) :
    ∀ p token, Function.update newer peer next p = some token →
      Function.update cached peer entry p = some token := by
  intro p token hp
  by_cases hpeer : p = peer
  · rw [hpeer, Function.update_self] at hp ⊢
    exact hnext token hp
  · rw [Function.update_of_ne hpeer] at hp ⊢
    exact h p token hp

/-- One of the two is replaced. -/
theorem kept_update_newer {newer cached : String → Option String}
    (h : ∀ peer token, newer peer = some token → cached peer = some token) {peer : String}
    {next : Option String} (hnext : ∀ token, next = some token → cached peer = some token) :
    ∀ p token, Function.update newer peer next p = some token → cached p = some token := by
  have hcached : Function.update cached peer (cached peer) = cached := Function.update_eq_self _ _
  rw [← hcached]
  exact kept_update h hnext

theorem kept_update_cached {newer cached : String → Option String}
    (h : ∀ peer token, newer peer = some token → cached peer = some token) {peer : String}
    {entry : Option String} (hentry : ∀ token, newer peer = some token → entry = some token) :
    ∀ p token, newer p = some token → Function.update cached peer entry p = some token := by
  have hnewer : Function.update newer peer (newer peer) = newer := Function.update_eq_self _ _
  rw [← hnewer]
  exact kept_update h hentry

theorem kept_call (hkept : Kept s) (hlegal : isTokenCall account c) (hkeeps : KeepsNewer s c o) :
    Kept (Handler.watched handle watch s o c).2 := by
  show ∀ p token, (watch s.2 s.1 o c (handle s.1 o c).1).newer p = some token →
    (handle s.1 o c).2.cachedToken p = some token
  rw [cachedToken_handle hlegal]
  cases c with
  | cacheGet peer =>
    apply kept_update_newer hkept
    intro token htoken
    cases htoken
  | sendMessage ctx peer text =>
    apply kept_update_newer hkept
    intro token hnext
    exact hkept peer token (Option.filter_eq_some_iff.mp hnext).1
  | cacheInsert peer t =>
    apply kept_update hkept
    intro token hnext
    split at hnext
    · cases hnext
    · exact hnext
  | cacheSuccess peer ctx next =>
    apply kept_update_cached hkept
    intro token hnewer
    show some (s.1.succeeded peer ctx next o.now).token = some token
    rw [succeeded_token, hkept peer token hnewer]
    cases hnext : next.filter fun token => !isBlank token with
    | none => rfl
    | some t => exact hkeeps (peer, some t) (by simp [putsInPlace?, hnext]) token hnewer
  | cacheRemove peer =>
    apply kept_update_cached hkept
    exact fun token hnewer => hkeeps (peer, none) rfl token hnewer
  | loadSyncBuf _ | saveSyncBuf _ _ | storeSet _ _ _ | storeDelete _ _ | getUpdates _
  | lockPeer _ | unlockPeer _ => exact hkept
  | _ => cases hlegal

/-- A completion after which the newer token is cached put nothing else in its
place. -/
theorem keepsNewer_of_kept (hlegal : isTokenCall account c)
    (hkept : Kept (Handler.watched handle watch s o c).2) : KeepsNewer s c o := by
  intro put hput token hnewer
  have hcached : (handle s.1 o c).2.cachedToken put.1 = some token := by
    cases c with
    | cacheSuccess peer ctx next => exact hkept put.1 token hnewer
    | cacheRemove peer => exact hkept put.1 token hnewer
    | _ => cases hput
  rw [cachedToken_handle hlegal] at hcached
  cases c with
  | cacheSuccess peer ctx next =>
    have hcached : Function.update s.1.cachedToken peer
      (some (s.1.succeeded peer ctx next o.now).token) put.1 = some token := hcached
    obtain ⟨t, hnext, rfl⟩ := Option.map_eq_some_iff.mp hput
    rw [Function.update_self, succeeded_token, hnext] at hcached
    exact hcached
  | cacheRemove peer =>
    cases hput
    have hcached : Function.update s.1.cachedToken peer none peer = some token := hcached
    rw [Function.update_self] at hcached
    exact hcached
  | _ => cases hput

end Calls

/-! ## Every run -/

section Runs

variable {account : String}

/-- The programs write in pairs, and the newer tokens are kept. -/
structure Sound (account : String) (s : Pool Call.Reply Unit State) : Prop where
  paired : AllPaired (tokenPairing account) s
  kept : Kept s.shared

theorem sound_step {s t : Pool Call.Reply Unit State} {m : Move TokenTask Empty Outcome}
    (hs : Sound account s) (hkeeps : Tasks.Meets KeepsNewer s m)
    (hstep : step account s m = some t) : Sound account t := by
  have hpaired := allPaired_step paired_program hs.paired hstep
  constructor
  · exact hpaired
  · cases m with
    | start task =>
      cases hstep
      exact hs.kept
    | call n o =>
      obtain ⟨c, next, hn, hget, hlegal, -, rfl⟩ := paired_call hs.paired hstep
      exact kept_call hs.kept hlegal (meets_call hkeeps hn hget)
    | other e => exact e.elim

/-- In every interleaving of long polls and requests, the newer tokens are
kept in every state exactly when each completion of a send puts nothing else
in place of one. -/
theorem newer_kept_iff {w : World} {moves : List (Move TokenTask Empty Outcome)}
    {s : Pool Call.Reply Unit State}
    (hrun : run (step account) (Pool.init (State.start w)) moves = some s)
    (hlocks : EveryStep (step account) (Tasks.Meets fun s => LockFree s.1) (Pool.init (State.start w)) moves) :
    EveryState (step account) (fun s => Kept s.shared) (Pool.init (State.start w)) moves ↔
      EveryStep (step account) (Tasks.Meets KeepsNewer) (Pool.init (State.start w)) moves := by
  have hinit : Sound account (Pool.init (State.start w)) := by
    constructor
    · exact allPaired_init _
    · intro peer token hnewer
      cases hnewer
  apply everyState_iff_everyStep (fun s (h : Sound account s) => h.kept) _ _ hinit hlocks hrun
  · exact fun s m t hs _ hkeeps hstep => sound_step hs hkeeps hstep
  · intro s m t hs _ hstep hkept
    cases m with
    | start task => trivial
    | call n o =>
      obtain ⟨c, next, hn, hget, hlegal, -, rfl⟩ := paired_call hs.paired hstep
      intro p hp c' hc'
      have hp' : s.tasks[n]? = some (.call c next) := List.getElem?_eq_some_iff.mpr ⟨hn, hget⟩
      cases hp'.symm.trans hp
      cases hc'
      exact keepsNewer_of_kept hlegal hkept
    | other e => exact e.elim

end Runs

/-! ## A send that loses a newer token, and one that does not -/

/-- When every send that was in flight has completed, the newer tokens are the
ones that the cache has. -/
def NoNewerTokenLost : Prop :=
  ∀ (account : String) (w : World) (moves : List (Move TokenTask Empty Outcome))
    (s : Pool Call.Reply Unit State),
    run (step account) (Pool.init (State.start w)) moves = some s →
    EveryStep (step account) (Tasks.Meets fun s => LockFree s.1) (Pool.init (State.start w)) moves →
    s.shared.1.sendPeerLocks = [] → Kept s.shared

/-- `ret=-2`, without a `server_id` -/
def rejected : Outcome := { fine with reply := .body (.obj [("ret", .int (-2))]) }

/-- An answer without a token. -/
def accepted : Outcome := { fine with reply := .body (.obj [("ret", .int 0)]) }

/-- While a send is in flight, the long poll stores a new token; then the
server's answer to the send, `reply`, is worked off. -/
def newTokenDuring (reply : Outcome) : List (Move TokenTask Empty Outcome) :=
  [.start (.send toAlice), .start (.poller 1), .call 0 fine, .call 0 fine, .call 0 reply,
    .call 1 fine, .call 1 fromAlice, .call 1 fine, .call 1 fine,
    .call 0 fine, .call 0 fine, .call 0 fine]

theorem not_noNewerTokenLost : ¬ NoNewerTokenLost := by
  intro h
  have hkept := h "bot" aliceKnown (newTokenDuring rejected)
    (Option.get (run (step "bot") (Pool.init (State.start aliceKnown)) (newTokenDuring rejected))
      (by decide +kernel)) (Option.some_get _).symm (by decide +kernel) (by decide +kernel)
    "alice" "ctx-2" (by decide +kernel)
  exact absurd hkept (by decide +kernel)

theorem newTokenDuring_accepted_kept :
    EveryState (step "bot") (fun s => Kept s.shared) (Pool.init (State.start aliceKnown))
      (newTokenDuring accepted) := by
  have henabled : (run (step "bot") (Pool.init (State.start aliceKnown))
      (newTokenDuring accepted)).isSome := by
    decide +kernel
  exact (newer_kept_iff (Option.some_get henabled).symm (by decide +kernel)).mpr
    (by decide +kernel)

end MagicLaw.WeChat.NewerToken
