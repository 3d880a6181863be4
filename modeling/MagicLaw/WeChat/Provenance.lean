import MagicLaw.WeChat.Cli
import MagicLaw.WeChat.Pollers
import MagicLaw.WeChat.Sends

/-!
# Where the tokens of a peer come from

The daemon, with both pollers, its API and its outbox, and any number of runs
of the CLI work on one table of tokens.  A token is a peer's own when it came
with an inbound message of the peer, was supplied for it by a caller, or was
returned by the server for a send to it.

* `Isolated`: every token that is stored or cached for a peer, and every one
  that is used to send to it, is its own.
* `OwnTokenSent`: no send uses a token that the CLI took from the row of some
  other peer because it found none for the recipient.
* `Fits` is what a call asks for and `Told` what its reply tells;
  `between_call` and `told_call` say that a call that fits keeps what every
  state has, and that its reply can be relied on.
-/

namespace MagicLaw.WeChat.Provenance

open Lib Lib.Program Lib.Machine Lib.Interference Lib.Processes Lib.Text MagicLaw.Routing

/-! ## The sources of the tokens -/

/-- Tokens and the peers that they are for. -/
structure Sources where
  /-- received from the peer, supplied for it, or returned for a send to it -/
  own : List (String × String)
  /-- taken for the peer from the row of any peer -/
  borrowed : List (String × String)
  /-- used to send to the peer -/
  sent : List (String × String)

abbrev State := World × Sources

def State.init : State := (.init, ⟨[], [], []⟩)

/-- The token that a request has for its recipient. -/
def requestToken (req : SendRequest) : Option (String × String) :=
  req.contextToken.map fun token => (req.toPeer, token)

def receivedTokens (http : Http ILinkGetUpdatesResponse) : List (String × String) :=
  match http.body? with
  | none => []
  | some value => value.msgs.filterMap receivedToken

def returnedTokens (peer : String) (http : Http Json) : List (String × String) :=
  ((http.body?.bind returnedContextToken).map fun token => (peer, token)).toList

def watch (g : Sources) (_ : World) (_ : Outcome) : (c : Call) → c.Reply → Sources
  | .getUpdates _, (http : Http ILinkGetUpdatesResponse) =>
    { g with own := receivedTokens http ++ g.own }
  | .sendMessage ctx peer _, (http : Http Json) =>
    { g with
      own := returnedTokens peer http ++ g.own
      sent := (peer, ctx) :: g.sent }
  | .post req .supplied, _ => { g with own := (requestToken req).toList ++ g.own }
  | .post req .borrowed, _ => { g with borrowed := (requestToken req).toList ++ g.borrowed }
  | _, _ => g

/-- Some other client of the API sends a request. -/
def request (req : SendRequest) (s : State) : State :=
  (s.1.post req, { s.2 with own := (requestToken req).toList ++ s.2.own })

inductive Process where
  | daemon | cli
  deriving DecidableEq

/-- What runs in the daemon, and a run of the CLI. -/
inductive Body where
  | api (account : String)
  | channel (account : String) (channelId : ChannelId) (rounds : Nat)
  | token (account : String) (rounds : Nat)
  | serve (account : String)
  | outbox (peer body : String)
  | cli (account : ProjectWechatAccount) (cmd : SendCommand)

def Body.program : Body → Work Unit
  | .api account => startHttpApi account
  | .channel account channelId rounds => channelPoller account channelId rounds
  | .token account rounds => tokenPoller account rounds
  | .serve account => WeChat.serve account
  | .outbox peer body => do
    let _ ← channelSend peer body
    pure ()
  | .cli account cmd => do
    let _ ← runSendWechat account cmd
    pure ()

def Body.home : Body → Process
  | .cli _ _ => .cli
  | _ => .daemon

def plan : Plan Process Body SendRequest Call.Reply State Outcome where
  handle := Handler.watched handle watch
  body := Body.program
  home := Body.home
  other := request
  reset := fun process s =>
    match process with
    | .daemon => (s.1.crashed, s.2)
    | .cli => s

/-! ## The claim and the condition -/

/-- The token is one of these of the peer, up to white space around it, which
the code trims. -/
def Has (tokens : List (String × String)) (peer token : String) : Prop :=
  (peer, trim token) ∈ tokens.map fun e => (e.1, trim e.2)

instance (tokens : List (String × String)) (peer token : String) :
    Decidable (Has tokens peer token) :=
  inferInstanceAs (Decidable ((peer, trim token) ∈ tokens.map fun e => (e.1, trim e.2)))

/-- Every token of the map is one of the peer's own. -/
def OwnTokens (own : List (String × String)) (tokens : String → Option String) : Prop :=
  ∀ peer token, tokens peer = some token → Has own peer token

structure Isolated (s : State) : Prop where
  cached : OwnTokens s.2.own s.1.cachedToken
  stored : ∀ account, OwnTokens s.2.own (s.1.storedToken account)
  session : OwnTokens s.2.own fun peer => s.1.session.contextTokens.lookup peer
  sent : ∀ e ∈ s.2.sent, isBlank e.2 = false → Has s.2.own e.1 e.2

/-- The peer that the call sends to, and the token that it uses. -/
def sent? : Call → Option (String × String)
  | .sendMessage ctx peer _ => some (peer, ctx)
  | _ => none

/-- A token that was taken from the row of any peer is not used to send, unless
it is the peer's own as well, or the server returns that very token. -/
def OwnTokenSent (s : State) (c : Call) (o : Outcome) : Prop :=
  ∀ e ∈ sent? c, isBlank e.2 = false → Has s.2.borrowed e.1 e.2 →
    Has (returnedTokens e.1 o.reply ++ s.2.own) e.1 e.2

instance (s : State) (c : Call) (o : Outcome) : Decidable (OwnTokenSent s c o) :=
  inferInstanceAs (Decidable (∀ e ∈ sent? c, isBlank e.2 = false → Has s.2.borrowed e.1 e.2 →
    Has (returnedTokens e.1 o.reply ++ s.2.own) e.1 e.2))

/-- Requests may come at any time. -/
def anyRequest (_ : State) (_ : SendRequest) : Prop := True

instance (s : State) (req : SendRequest) : Decidable (anyRequest s req) := isTrue trivial

/-! ## Own tokens -/

section Has

variable {tokens more : List (String × String)} {peer token : String}

theorem Has.mono (h : Has tokens peer token) (hsub : tokens ⊆ more) : Has more peer token :=
  List.map_subset _ hsub h

theorem has_of_mem (h : (peer, token) ∈ tokens) : Has tokens peer token :=
  List.mem_map_of_mem (f := fun e : String × String => (e.1, trim e.2)) h

/-- Trimming makes no other token of it. -/
theorem Has.of_trimmed? {t : String} (h : Has tokens peer token) (ht : trimmed? token = some t) :
    Has tokens peer t := by
  obtain ⟨-, rfl⟩ := trimmed?_eq_some_iff.mp ht
  unfold Has
  rw [trim_trim]
  exact h

/-- The token, if there is one, is one of these of the peer. -/
def HasAll (tokens : List (String × String)) (peer : String) (token : Option String) : Prop :=
  ∀ t ∈ token, Has tokens peer t

theorem HasAll.mono {t : Option String} (h : HasAll tokens peer t) (hsub : tokens ⊆ more) :
    HasAll more peer t :=
  fun a ha => (h a ha).mono hsub

theorem hasAll_none : HasAll tokens peer none := by
  intro t ht
  cases ht

theorem HasAll.trimmed {t : Option String} (h : HasAll tokens peer t) :
    HasAll tokens peer (t.bind trimmed?) := by
  intro a ha
  obtain ⟨b, hb, hba⟩ := Option.bind_eq_some_iff.mp ha
  exact (h b hb).of_trimmed? hba

theorem HasAll.or {a b : Option String} (ha : HasAll tokens peer a) (hb : HasAll tokens peer b) :
    HasAll tokens peer (a.or b) := by
  cases a with
  | none => exact hb
  | some t => exact ha

end Has

section OwnTokens

variable {own more : List (String × String)} {tokens : String → Option String}

theorem OwnTokens.mono (h : OwnTokens own tokens) (hsub : own ⊆ more) : OwnTokens more tokens :=
  fun peer token htoken => (h peer token htoken).mono hsub

theorem ownTokens_none : OwnTokens own fun _ => none := by
  intro peer token htoken
  cases htoken

theorem OwnTokens.update {peer : String} {token : Option String} (h : OwnTokens own tokens)
    (htoken : HasAll own peer token) : OwnTokens own (Function.update tokens peer token) := by
  intro p t ht
  by_cases hp : p = peer
  · subst hp
    rw [Function.update_self] at ht
    exact htoken t ht
  · rw [Function.update_of_ne hp] at ht
    exact h p t ht

end OwnTokens

/-! ## What every state has -/

/-- One of the peer's own, or one that was taken for it from some row. -/
def Claimed (g : Sources) (peer token : String) : Prop :=
  Has g.own peer token ∨ Has g.borrowed peer token

/-- Trimming makes no other token of it. -/
theorem Claimed.of_trimmed? {g : Sources} {peer token t : String} (h : Claimed g peer token)
    (ht : trimmed? token = some t) : Claimed g peer t :=
  h.imp (fun hown => hown.of_trimmed? ht) fun hborrowed => hborrowed.of_trimmed? ht

/-- Where the token of a request is from. -/
def Posted (g : Sources) (req : SendRequest) : TokenOrigin → Prop
  | .supplied | .stored => HasAll g.own req.toPeer req.contextToken
  | .borrowed => HasAll g.borrowed req.toPeer req.contextToken

theorem Posted.claimed {g : Sources} {req : SendRequest} {origin : TokenOrigin}
    (h : Posted g req origin) : ∀ token ∈ req.contextToken, Claimed g req.toPeer token := by
  intro token htoken
  cases origin with
  | supplied | stored => exact .inl (h token htoken)
  | borrowed => exact .inr (h token htoken)

/-- The answer to the request has only a token of its recipient. -/
def OwnAnswer (s : State) (id : Nat) (response : SendResponse) : Prop :=
  ∃ req, s.1.requests[id]? = some req ∧ HasAll s.2.own req.toPeer response.contextToken

structure Always (s : State) : Prop where
  isolated : Isolated s
  requests : ∀ req ∈ s.1.requests, ∀ token ∈ req.contextToken, Claimed s.2 req.toPeer token
  responses : ∀ r ∈ s.1.responses, OwnAnswer s r.1 r.2.2

/-- Sources and requests are only added. -/
structure Extends (s t : State) : Prop where
  own : s.2.own ⊆ t.2.own
  borrowed : s.2.borrowed ⊆ t.2.borrowed
  requests : s.1.requests <+: t.1.requests

def surroundings : Surroundings Call State Outcome where
  allowed := OwnTokenSent
  between := fun s t => Extends s t ∧ (Always s → Always t)
  always := Always

theorem extends_refl (s : State) : Extends s s :=
  ⟨List.Subset.refl _, List.Subset.refl _, List.prefix_refl _⟩

theorem Extends.trans {s t u : State} (hst : Extends s t) (htu : Extends t u) : Extends s u where
  own := List.Subset.trans hst.own htu.own
  borrowed := List.Subset.trans hst.borrowed htu.borrowed
  requests := List.IsPrefix.trans hst.requests htu.requests

theorem surroundings_lawful : surroundings.Lawful where
  refl := fun s => ⟨extends_refl s, id⟩
  trans := fun _ _ _ hst htu => ⟨hst.1.trans htu.1, htu.2 ∘ hst.2⟩
  always := fun _ _ hs hst => hst.2 hs

theorem Claimed.mono {s t : State} {peer token : String} (h : Claimed s.2 peer token)
    (hst : Extends s t) : Claimed t.2 peer token :=
  h.imp (fun hown => hown.mono hst.own) fun hborrowed => hborrowed.mono hst.borrowed

theorem Extends.request {s t : State} {id : Nat} {req : SendRequest} (hst : Extends s t)
    (h : s.1.requests[id]? = some req) : t.1.requests[id]? = some req := by
  obtain ⟨more, hmore⟩ := hst.requests
  have hlt : id < s.1.requests.length := (List.getElem?_eq_some_iff.mp h).1
  rw [← hmore, List.getElem?_append_left hlt]
  exact h

theorem Posted.mono {s t : State} {req : SendRequest} {origin : TokenOrigin}
    (h : Posted s.2 req origin) (hst : Extends s t) : Posted t.2 req origin := by
  cases origin with
  | supplied | stored => exact HasAll.mono h hst.own
  | borrowed => exact HasAll.mono h hst.borrowed

theorem OwnAnswer.mono {s t : State} {id : Nat} {response : SendResponse}
    (h : OwnAnswer s id response) (hst : Extends s t) : OwnAnswer t id response := by
  obtain ⟨req, hreq, hown⟩ := h
  exact ⟨req, hst.request hreq, hown.mono hst.own⟩

/-! ## One call -/

/-- The tokens that the call writes are own ones, and the one that it sends is
claimed for the peer. -/
def Fits (s : State) : Call → Prop
  | .storeSet _ peer token | .sessionSet peer token | .cacheInsert peer token =>
    Has s.2.own peer token
  | .sessionSetAll tokens | .cacheLoad tokens => OwnTokens s.2.own fun peer => tokens.lookup peer
  | .cacheSuccess peer ctx next => Has s.2.own peer ctx ∧ HasAll s.2.own peer next
  | .sendMessage ctx peer _ => isBlank ctx = false → Claimed s.2 peer ctx
  | .respond id _ response => OwnAnswer s id response
  | .post req .stored => HasAll s.2.own req.toPeer req.contextToken
  | _ => True

theorem fits_mono {s t : State} {c : Call} (hst : Extends s t) (h : Fits s c) : Fits t c := by
  cases c with
  | storeSet _ _ _ | sessionSet _ _ | cacheInsert _ _ => exact Has.mono h hst.own
  | sessionSetAll _ | cacheLoad _ => exact OwnTokens.mono h hst.own
  | cacheSuccess _ _ _ => exact ⟨h.1.mono hst.own, h.2.mono hst.own⟩
  | sendMessage _ _ _ => exact fun hctx => (h hctx).mono hst
  | respond _ _ _ => exact OwnAnswer.mono h hst
  | post _ origin =>
    cases origin with
    | stored => exact HasAll.mono h hst.own
    | supplied | borrowed => trivial
  | _ => trivial

section Call

variable {s : State} {o : Outcome} {c : Call}

/-- After a success, the token of the peer is the one that the server returned,
or the one that the cache had, or the one that was sent. -/
theorem own_succeeded {peer ctx : String} {next : Option String} {now : Nat}
    (h : OwnTokens s.2.own s.1.cachedToken) (hctx : Has s.2.own peer ctx)
    (hnext : HasAll s.2.own peer next) :
    Has s.2.own peer (s.1.succeeded peer ctx next now).token := by
  have hentry : Has s.2.own peer ((s.1.tokenCache.lookup peer).getD (.new ctx now)).token := by
    cases hlookup : s.1.tokenCache.lookup peer with
    | none => exact hctx
    | some entry =>
      apply h
      show (s.1.tokenCache.lookup peer).map PeerTokenState.token = _
      rw [hlookup]
      rfl
  unfold World.succeeded
  rw [PeerTokenState.markSuccess_token]
  cases hfilter : next.filter fun token => !isBlank token with
  | none => exact hentry
  | some token => exact hnext token (Option.eq_some_of_filter_eq_some hfilter)

theorem cached_call (h : OwnTokens s.2.own s.1.cachedToken) (hfits : Fits s c) :
    OwnTokens s.2.own (handle s.1 o c).2.cachedToken := by
  cases c with
  | cacheLoad tokens =>
    intro peer token htoken
    simp only [handle, World.cachedToken, loadedCache, Map.lookup_filterMap] at htoken
    cases hlookup : tokens.lookup peer with
    | none => simp [hlookup] at htoken
    | some t =>
      rw [hlookup, Option.bind_some] at htoken
      split at htoken
      · cases htoken
      · cases htoken
        exact hfits peer t hlookup
  | cacheInsert peer token =>
    simp only [handle, cachedToken_insert]
    apply h.update
    intro t ht
    cases ht
    exact hfits
  | cacheSuccess peer ctx next =>
    simp only [handle, cachedToken_insert]
    apply h.update
    intro t ht
    cases ht
    exact own_succeeded h hfits.1 hfits.2
  | cacheRemove peer =>
    simp only [handle, cachedToken_erase]
    exact h.update hasAll_none
  | cacheClear => exact ownTokens_none
  | loadSyncBuf _ | saveSyncBuf _ _ | storeGetAll _ | storeSet _ _ _ | storeDelete _ _
  | storeDeleteAll _ =>
    simp only [handle, statement]
    split <;> exact h
  | inboundSend _ _ =>
    simp only [handle]
    split <;> exact h
  | _ => exact h

theorem own_setToken {account user token : String}
    (h : ∀ account, OwnTokens s.2.own (s.1.storedToken account)) (htoken : Has s.2.own user token) :
    ∀ account', OwnTokens s.2.own ((s.1.setToken account user token).storedToken account') := by
  intro account' peer t ht
  unfold World.storedToken World.setToken at ht
  by_cases hkey : (account', peer) = (account, user)
  · cases hkey
    rw [AList.lookup_insert] at ht
    cases ht
    exact htoken
  · rw [AList.lookup_insert_ne hkey] at ht
    exact h account' peer t ht

theorem own_deleteToken {account user : String}
    (h : ∀ account, OwnTokens s.2.own (s.1.storedToken account)) :
    ∀ account', OwnTokens s.2.own ((s.1.deleteToken account user).storedToken account') := by
  intro account' peer t ht
  unfold World.storedToken World.deleteToken at ht
  by_cases hkey : (account', peer) = (account, user)
  · rw [hkey, AList.lookup_erase] at ht
    cases ht
  · rw [AList.lookup_erase_ne hkey] at ht
    exact h account' peer t ht

theorem own_deleteAllTokens {account : String}
    (h : ∀ account, OwnTokens s.2.own (s.1.storedToken account)) :
    ∀ account', OwnTokens s.2.own ((s.1.deleteAllTokens account).storedToken account') := by
  intro account' peer t ht
  unfold World.storedToken World.deleteAllTokens at ht
  rw [Map.lookup_dropRow] at ht
  split at ht
  · cases ht
  · exact h account' peer t ht

theorem stored_call (h : ∀ account, OwnTokens s.2.own (s.1.storedToken account))
    (hfits : Fits s c) :
    ∀ account, OwnTokens s.2.own ((handle s.1 o c).2.storedToken account) := by
  cases c with
  | storeSet account user token =>
    simp only [handle, statement]
    split
    · exact h
    · exact own_setToken h hfits
  | storeDelete account user =>
    simp only [handle, statement]
    split
    · exact h
    · exact own_deleteToken h
  | storeDeleteAll account =>
    simp only [handle, statement]
    split
    · exact h
    · exact own_deleteAllTokens h
  | loadSyncBuf _ | saveSyncBuf _ _ | storeGetAll _ =>
    simp only [handle, statement]
    split <;> exact h
  | inboundSend _ _ =>
    simp only [handle]
    split <;> exact h
  | _ => exact h

/-- The token that the session of the channel has for a peer. -/
abbrev sessionToken (w : World) (peer : String) : Option String :=
  w.session.contextTokens.lookup peer

theorem session_call (h : OwnTokens s.2.own (sessionToken s.1)) (hfits : Fits s c) :
    OwnTokens s.2.own (sessionToken (handle s.1 o c).2) := by
  cases c with
  | sessionNew syncBuf => exact ownTokens_none
  | sessionClear => exact ownTokens_none
  | sessionSet user token =>
    intro peer t ht
    by_cases hpeer : peer = user
    · subst hpeer
      simp only [handle, sessionToken, AList.lookup_insert] at ht
      cases ht
      exact hfits
    · simp only [handle, sessionToken, AList.lookup_insert_ne hpeer] at ht
      exact h peer t ht
  | sessionSetAll tokens =>
    intro peer t ht
    rcases AList.mem_lookup_union.mp ht with ht | ht
    · exact hfits peer t ht
    · exact h peer t ht.2
  | loadSyncBuf _ | saveSyncBuf _ _ | storeGetAll _ | storeSet _ _ _ | storeDelete _ _
  | storeDeleteAll _ =>
    simp only [handle, statement]
    split <;> exact h
  | inboundSend _ _ =>
    simp only [handle]
    split <;> exact h
  | _ => exact h

/-- A token that is claimed for a peer and may be sent to it is its own. -/
theorem sent_call {ctx peer text : String} (hfits : Fits s (.sendMessage ctx peer text))
    (hsent : OwnTokenSent s (.sendMessage ctx peer text) o) (hctx : isBlank ctx = false) :
    Has (returnedTokens peer o.reply ++ s.2.own) peer ctx := by
  rcases hfits hctx with hown | hborrowed
  · exact hown.mono (List.subset_append_right _ _)
  · exact hsent _ rfl hctx hborrowed

theorem requests_handle {w : World} (hpost : ∀ req origin, c ≠ .post req origin) :
    (handle w o c).2.requests = w.requests := by
  cases c with
  | post req origin => exact absurd rfl (hpost req origin)
  | loadSyncBuf _ | saveSyncBuf _ _ | storeGetAll _ | storeSet _ _ _ | storeDelete _ _
  | storeDeleteAll _ =>
    simp only [handle, statement]
    split <;> rfl
  | inboundSend _ _ =>
    simp only [handle]
    split <;> rfl
  | _ => rfl

theorem responses_handle {w : World} (hrespond : ∀ id status response, c ≠ .respond id status response) :
    (handle w o c).2.responses = w.responses := by
  cases c with
  | respond id status response => exact absurd rfl (hrespond id status response)
  | loadSyncBuf _ | saveSyncBuf _ _ | storeGetAll _ | storeSet _ _ _ | storeDelete _ _
  | storeDeleteAll _ =>
    simp only [handle, statement]
    split <;> rfl
  | inboundSend _ _ =>
    simp only [handle]
    split <;> rfl
  | _ => rfl

theorem extends_call (s : State) (o : Outcome) (c : Call) : Extends s (plan.handle s o c).2 := by
  constructor
  · cases c with
    | getUpdates _ | sendMessage _ _ _ => exact List.subset_append_right _ _
    | post req origin =>
      cases origin with
      | supplied => exact List.subset_append_right _ _
      | stored | borrowed => exact List.Subset.refl _
    | _ => exact List.Subset.refl _
  · cases c with
    | post req origin =>
      cases origin with
      | borrowed => exact List.subset_append_right _ _
      | stored | supplied => exact List.Subset.refl _
    | _ => exact List.Subset.refl _
  · show s.1.requests <+: (handle s.1 o c).2.requests
    cases c with
    | post req origin => exact List.prefix_append _ _
    | _ =>
      rw [requests_handle (by simp)]

theorem isolated_call (h : Isolated s) (hfits : Fits s c) (hsent : OwnTokenSent s c o) :
    Isolated (plan.handle s o c).2 := by
  have hown := (extends_call s o c).own
  constructor
  · exact (cached_call h.cached hfits).mono hown
  · exact fun account => (stored_call h.stored hfits account).mono hown
  · exact (session_call h.session hfits).mono hown
  · intro e he hblank
    cases c with
    | sendMessage ctx peer text =>
      rcases List.mem_cons.mp he with rfl | he
      · exact sent_call hfits hsent hblank
      · exact (h.sent e he hblank).mono hown
    | post req origin =>
      cases origin with
      | supplied | stored | borrowed => exact (h.sent e he hblank).mono hown
    | _ => exact (h.sent e he hblank).mono hown

/-- Where the token of a new request is from. -/
theorem posted_post {req : SendRequest} {origin : TokenOrigin} (hfits : Fits s (.post req origin)) :
    Posted (plan.handle s o (.post req origin)).2.2 req origin := by
  have hnew : ∀ token ∈ req.contextToken, (req.toPeer, token) ∈ (requestToken req).toList := by
    intro token htoken
    rw [requestToken, Option.mem_def.mp htoken]
    exact List.mem_singleton_self _
  cases origin with
  | supplied | borrowed =>
    exact fun token htoken => has_of_mem (List.mem_append_left _ (hnew token htoken))
  | stored => exact hfits

theorem always_call (h : Always s) (hfits : Fits s c) (hsent : OwnTokenSent s c o) :
    Always (plan.handle s o c).2 := by
  have hext := extends_call s o c
  constructor
  · exact isolated_call h.isolated hfits hsent
  · intro req hreq token htoken
    cases c with
    | post new origin =>
      rcases List.mem_append.mp hreq with hreq | hreq
      · exact (h.requests req hreq token htoken).mono hext
      · rw [List.mem_singleton] at hreq
        subst hreq
        exact (posted_post hfits).claimed token htoken
    | _ =>
      have hreq : req ∈ (handle s.1 o _).2.requests := hreq
      rw [requests_handle (by simp)] at hreq
      exact (h.requests req hreq token htoken).mono hext
  · intro r hr
    cases c with
    | respond id status response =>
      rcases List.mem_cons.mp hr with rfl | hr
      · exact hfits.mono hext
      · exact (h.responses r hr).mono hext
    | _ =>
      have hr : r ∈ (handle s.1 o _).2.responses := hr
      rw [responses_handle (by simp)] at hr
      exact (h.responses r hr).mono hext

/-- Every call that fits is a step that the others count on. -/
theorem between_call (h : Always s) (hfits : Fits s c) (hsent : OwnTokenSent s c o) :
    surroundings.between s (plan.handle s o c).2 := by
  constructor
  · exact extends_call s o c
  · exact fun _ => always_call h hfits hsent

/-! ## What a reply tells -/

def Told (s : State) : (c : Call) → c.Reply → Prop
  | .storeGetAll _, (loaded : Except String Tokens) =>
    ∀ tokens, loaded = .ok tokens → OwnTokens s.2.own fun peer => tokens.lookup peer
  | .sessionGet peer, (token : Option String) => HasAll s.2.own peer token
  | .cacheGet peer, (entry : Option PeerTokenState) =>
    HasAll s.2.own peer (entry.map PeerTokenState.token)
  | .cacheSuccess peer _ _, (entry : PeerTokenState) => Has s.2.own peer entry.token
  | .getUpdates _, (http : Http ILinkGetUpdatesResponse) => receivedTokens http ⊆ s.2.own
  | .sendMessage ctx peer _, (http : Http Json) =>
    returnedTokens peer http ⊆ s.2.own ∧ (isBlank ctx = false → Has s.2.own peer ctx)
  | .accept, (taken : Option (Nat × SendRequest)) => ∀ id req, taken = some (id, req) →
    s.1.requests[id]? = some req ∧ ∀ token ∈ req.contextToken, Claimed s.2 req.toPeer token
  | .post req origin, (id : Nat) => s.1.requests[id]? = some req ∧ Posted s.2 req origin
  | .answer id, (answer : DaemonAnswer) =>
    ∀ status response, answer = .answered status response → OwnAnswer s id response
  | _, _ => True

/-- What was told once is true ever after. -/
theorem told_mono {t : State} (hst : Extends s t) : ∀ {c : Call} {r : c.Reply}, Told s c r →
    Told t c r := by
  intro c r h
  cases c with
  | storeGetAll _ => exact fun tokens htokens => (h tokens htokens).mono hst.own
  | sessionGet _ | cacheGet _ => exact HasAll.mono h hst.own
  | cacheSuccess _ _ _ => exact Has.mono h hst.own
  | getUpdates _ => exact List.Subset.trans h hst.own
  | sendMessage ctx peer text =>
    constructor
    · exact List.Subset.trans h.1 hst.own
    · exact fun hctx => (h.2 hctx).mono hst.own
  | accept =>
    intro id req htaken
    obtain ⟨hreq, hclaimed⟩ := h id req htaken
    constructor
    · exact hst.request hreq
    · exact fun token htoken => (hclaimed token htoken).mono hst
  | post req origin => exact ⟨hst.request h.1, h.2.mono hst⟩
  | answer id => exact fun status response hanswer => (h status response hanswer).mono hst
  | _ => trivial

/-- A new request is the last one. -/
theorem getElem?_post (w : World) (req : SendRequest) :
    (w.post req).requests[w.requests.length]? = some req := by
  show (w.requests ++ [req])[w.requests.length]? = some req
  rw [List.getElem?_append_right (Nat.le_refl _), Nat.sub_self]
  rfl

theorem next?_eq_some {w : World} {pick id : Nat} {req : SendRequest}
    (h : w.next? pick = some (id, req)) : w.requests[id]? = some req := by
  obtain ⟨id', -, h⟩ := Option.bind_eq_some_iff.mp h
  obtain ⟨req', hreq, heq⟩ := Option.map_eq_some_iff.mp h
  cases heq
  exact hreq

theorem answerTo_eq_answered {w : World} {id status : Nat} {response : SendResponse}
    (h : w.answerTo o id = .answered status response) : (id, status, response) ∈ w.responses := by
  unfold World.answerTo at h
  split at h
  · cases h
  · split at h
    · cases h
    · rename_i hfind
      cases h
      have hid := List.find?_some hfind
      simp only [decide_eq_true_eq] at hid
      subst hid
      exact List.mem_of_find?_eq_some hfind

/-- What the reply to a call tells is true after it. -/
theorem told_call (h : Always s) (hfits : Fits s c) (hsent : OwnTokenSent s c o) :
    Told (plan.handle s o c).2 c (plan.handle s o c).1 := by
  cases c with
  | storeGetAll account =>
    intro tokens htokens peer token htoken
    have htokens : s.1.getAll account = tokens := by
      simp only [plan, Handler.watched, handle, statement] at htokens
      split at htokens
      · cases htokens
      · exact Except.ok.inj htokens
    apply h.isolated.stored account
    rw [← htokens] at htoken
    exact (Map.lookup_row _ _ _).symm.trans htoken
  | sessionGet peer => exact fun token htoken => h.isolated.session peer token htoken
  | cacheGet peer => exact fun token htoken => h.isolated.cached peer token htoken
  | cacheSuccess peer ctx next =>
    show Has s.2.own peer (s.1.succeeded peer ctx next o.now).token
    exact own_succeeded h.isolated.cached hfits.1 hfits.2
  | getUpdates syncBuf => exact List.subset_append_left _ _
  | sendMessage ctx peer text =>
    constructor
    · exact List.subset_append_left _ _
    · exact sent_call hfits hsent
  | accept =>
    intro id req htaken
    have hreq := next?_eq_some htaken
    constructor
    · exact hreq
    · exact h.requests req (List.mem_of_getElem? hreq)
  | post req origin =>
    constructor
    · exact getElem?_post s.1 req
    · exact posted_post hfits
  | answer id => exact fun status response hanswer => h.responses _ (answerTo_eq_answered hanswer)
  | _ => trivial

end Call

end MagicLaw.WeChat.Provenance
