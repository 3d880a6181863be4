import MagicLaw.WeChat.Provenance

/-!
# Each peer has only its own tokens

Every program of the daemon and of the CLI writes own tokens alone, as long as
no send uses a token that was taken from the row of some other peer.  `A`
stands for what holds around a program: the programs keep it, and each call
adds to it what its reply tells.

`isolated_iff` is the result about whole runs.
-/

namespace MagicLaw.WeChat.Provenance

open Lib Lib.Program Lib.Machine Lib.Interference Lib.Processes Lib.Text MagicLaw.Routing

/-! ## Assertions -/

def fits (c : Call) : Assert surroundings where
  holds := fun s => Fits s c
  stable := fun _ _ hst h => fits_mono hst.1 h

def told (c : Call) (r : c.Reply) : Assert surroundings where
  holds := fun s => Told s c r
  stable := fun _ _ hst h => told_mono hst.1 h

def contract : Contract plan.handle surroundings where
  fits := fits
  told := told
  keep := fun _ _ _ halways hfits hsent =>
    ⟨between_call halways hfits hsent, told_call halways hfits hsent⟩

/-- The token, if there is one, is the peer's own. -/
def owned (peer : String) (token : Option String) : Assert surroundings where
  holds := fun s => HasAll s.2.own peer token
  stable := fun _ _ hst h => HasAll.mono h hst.1.own

/-- The token that was sent is the peer's own, and so is the one of the
answer. -/
def answered (ctx peer : String) (sent : Except String Json) : Assert surroundings where
  holds := fun s => (isBlank ctx = false → Has s.2.own peer ctx) ∧
    ∀ value, sent = .ok value → HasAll s.2.own peer (returnedContextToken value)
  stable := fun _ _ hst h =>
    ⟨fun hblank => (h.1 hblank).mono hst.1.own,
      fun value hvalue => (h.2 value hvalue).mono hst.1.own⟩

/-- The token that the daemon answered with is the recipient's own. -/
def returnedFor (peer : String) (result : Except DaemonSendError (Option String)) :
    Assert surroundings where
  holds := fun s => ∀ token, result = .ok token → HasAll s.2.own peer token
  stable := fun _ _ hst h token htoken => (h token htoken).mono hst.1.own

def posted (req : SendRequest) (origin : TokenOrigin) : Assert surroundings where
  holds := fun s => Posted s.2 req origin
  stable := fun _ _ hst h => h.mono hst.1

section Programs

variable {A : Assert surroundings} {α : Type} {account : String}

/-- The tokens that were loaded are their peers' own, also when none could
be. -/
theorem own_loaded {s : State} (account : String) {loaded : Except String Tokens}
    (h : Told s (.storeGetAll account) loaded) :
    OwnTokens s.2.own fun peer => (loaded.toOption.getD ∅).lookup peer := by
  cases loaded with
  | ok tokens => exact h tokens rfl
  | error e => exact ownTokens_none

/-- The pollers write the token of a message for its sender alone. -/
theorem pollerContract : PollerContract contract fun _ => Assert.pure surroundings True where
  plain := by
    intro s c hc
    cases c with
    | storeSet _ _ _ | sessionSet _ _ | cacheInsert _ _ | sessionSetAll _ | cacheLoad _ => cases hc
    | cacheSuccess _ _ _ | sendMessage _ _ _ | respond _ _ _ | post _ _ => cases hc
    | _ => trivial
  load := fun _ _ _ _ => trivial
  poll := fun _ _ _ => trivial
  next := fun _ _ _ _ _ _ _ _ _ => trivial
  save := fun _ _ _ _ => trivial
  write := by
    intro s syncBuf http updates htold hresult msg hmsg e he c hc
    have hown : Has s.2.own e.1 e.2 := by
      rcases getUpdatesResult_eq_ok hresult with rfl | ⟨rfl, -, -⟩
      · -- nothing came
        exact absurd hmsg List.not_mem_nil
      · apply has_of_mem
        apply htold
        exact List.mem_filterMap.mpr ⟨msg, hmsg, he⟩
    cases c with
    | storeSet _ _ _ | sessionSet _ _ | cacheInsert _ _ =>
      cases hc
      exact hown
    | _ => cases hc
  session := fun _ account _ htold => own_loaded account htold

/-! ## The API -/

/-- The cache starts with what the table has. -/
theorem triple_startHttpApi : Triple plan.handle A (startHttpApi account) fun _ => A := by
  refine contract.triple_bind surroundings_lawful (fun _ _ => trivial) fun loaded => ?_
  refine (contract.triple_keep ?_).post fun _ _ h => h.1
  exact fun s hs => own_loaded account hs.2

/-- What is sent in the name of a peer, and the token of the answer. -/
theorem triple_sendText {ctx peer text : String}
    {k : Except String Json → Work α} {R : α → Assert surroundings}
    (hctx : ∀ s, A.holds s → isBlank ctx = false → Claimed s.2 peer ctx)
    (hk : ∀ sent, Triple plan.handle (A.and (answered ctx peer sent)) (k sent) R) :
    Triple plan.handle A (sendTextViaIlink ctx peer text >>= k) R := by
  apply contract.triple_bind surroundings_lawful hctx
  intro http
  apply triple_weaken (hk (sendTextResult http)) _ fun _ _ h => h
  intro s hs
  constructor
  · exact hs.1
  · constructor
    · exact hs.2.2
    · intro value hvalue token htoken
      apply has_of_mem
      apply hs.2.1
      unfold returnedTokens
      rw [sendTextResult_eq_ok hvalue, Option.bind_some, Option.mem_def.mp htoken]
      exact List.mem_singleton_self _

theorem triple_apiSent {req : SendRequest} {ctx : String} {sent : Except String Json}
    (hctx : ∀ s, A.holds s → Has s.2.own req.toPeer ctx)
    (hsent : ∀ s, A.holds s → ∀ value, sent = .ok value →
      HasAll s.2.own req.toPeer (returnedContextToken value)) :
    Triple plan.handle A (apiSent account req ctx sent) fun answer =>
      A.and (owned req.toPeer answer.2.contextToken) := by
  cases sent with
  | ok value =>
    have hnext : ∀ s, A.holds s →
        HasAll s.2.own req.toPeer (extractContextTokenFromSendResponse value) := by
      intro s hs token htoken
      exact hsent s hs value rfl token (extractContextTokenFromSendResponse_eq_some_iff.mp htoken).1
    apply contract.triple_bind surroundings_lawful
    · exact fun s hs => ⟨hctx s hs, hnext s hs⟩
    · intro entry
      apply contract.triple_then surroundings_lawful
      · exact fun s hs => hs.2
      · intro _
        apply triple_pure
        intro s hs
        constructor
        · exact hs.1
        · intro token htoken
          cases htoken
          cases hvalue : extractContextTokenFromSendResponse value with
          | none => exact hctx s hs.1
          | some next => exact hnext s hs.1 next hvalue
  | error e =>
    have hanswer : ∀ (status : Nat) (error : Option String), Triple plan.handle A
        (pure (status, ⟨false, none, error⟩) : Work (Nat × SendResponse)) fun answer =>
          A.and (owned req.toPeer answer.2.contextToken) :=
      fun _ _ => triple_pure fun s hs => ⟨hs, hasAll_none⟩
    simp only [apiSent]
    split
    · refine contract.triple_then surroundings_lawful (fun _ _ => trivial) fun _ => ?_
      exact contract.triple_then surroundings_lawful (fun _ _ => trivial) fun _ => hanswer _ _
    · exact hanswer _ _

/-- The token is one of the peer's own, or one that was claimed for it. -/
def Usable (g : Sources) (peer token : String) : Prop :=
  Has g.own peer token ∨ isBlank token = false ∧ Claimed g peer token

theorem triple_apiSendWith {req : SendRequest} {selected : Option String}
    (hselected : ∀ s, A.holds s → ∀ ctx ∈ selected, Usable s.2 req.toPeer ctx) :
    Triple plan.handle A (apiSendWith account req selected) fun answer =>
      A.and (owned req.toPeer answer.2.contextToken) := by
  cases selected with
  | none => exact triple_pure fun s hs => ⟨hs, hasAll_none⟩
  | some ctx =>
    apply triple_sendText
    · intro s hs hblank
      rcases hselected s hs ctx rfl with hown | ⟨-, hclaimed⟩
      · exact .inl hown
      · exact hclaimed
    · intro sent
      refine (triple_apiSent ?_ ?_).post fun _ _ h => ⟨h.1.1, h.2⟩
      · intro s hs
        rcases hselected s hs.1 ctx rfl with hown | ⟨hblank, -⟩
        · exact hown
        · exact hs.2.1 hblank
      · exact fun s hs => hs.2.2

theorem triple_apiSend {req : SendRequest}
    (hreq : ∀ s, A.holds s → ∀ token ∈ req.contextToken, Claimed s.2 req.toPeer token) :
    Triple plan.handle A (apiSend account req) fun answer =>
      A.and (owned req.toPeer answer.2.contextToken) := by
  refine contract.triple_then surroundings_lawful (fun _ _ => trivial) fun _ => ?_
  refine contract.triple_bind surroundings_lawful (fun _ _ => trivial) fun entry => ?_
  apply triple_bind surroundings_lawful
  · apply triple_apiSendWith
    intro s hs ctx hctx
    cases entry with
    | some entry =>
      cases hctx
      exact .inl (hs.2 _ rfl)
    | none =>
      obtain ⟨token, htoken, htrim⟩ := Option.bind_eq_some_iff.mp hctx
      right
      constructor
      · exact isBlank_of_trimmed? htrim
      · exact (hreq s hs.1 token htoken).of_trimmed? htrim
  · intro answer
    refine contract.triple_then surroundings_lawful (fun _ _ => trivial) fun _ => ?_
    exact triple_pure fun s hs => ⟨hs.1.1, hs.2⟩

theorem triple_serve : Triple plan.handle A (serve account) fun _ => A := by
  refine contract.triple_bind surroundings_lawful (fun _ _ => trivial) fun taken => ?_
  split
  · exact triple_pure fun s hs => hs.1
  · rename_i id req
    apply triple_bind surroundings_lawful
    · apply triple_apiSend
      exact fun s hs => (hs.2 id req rfl).2
    · intro answer
      refine (contract.triple_keep ?_).post fun _ _ h => h.1.1
      exact fun s hs => ⟨req, (hs.1.2 id req rfl).1, hs.2⟩

/-- The channel sends with the token of its session. -/
theorem triple_channelSend (peer body : String) :
    Triple plan.handle A (channelSend peer body) fun _ => A := by
  refine contract.triple_bind surroundings_lawful (fun _ _ => trivial) fun token => ?_
  split
  · exact triple_pure fun s hs => hs.1
  · rename_i contextToken
    apply triple_sendText
    · exact fun s hs _ => .inl (hs.2 contextToken rfl)
    · intro sent
      split
      · exact triple_pure fun s hs => hs.1.1
      · exact triple_pure fun s hs => hs.1.1

/-! ## The CLI -/

/-- A success has the token of the answer. -/
theorem daemonAnswer_eq_ok {status : Nat} {response : SendResponse} {token : Option String}
    (h : daemonAnswer status response = .ok token) : response.contextToken = token := by
  unfold daemonAnswer at h
  split at h
  · exact Except.ok.inj h
  · cases h

/-- One attempt, where `hnext` is what the attempts after it do. -/
theorem triple_attempt {req : SendRequest} {origin : TokenOrigin} {attempts : Nat}
    (hA : ∀ s, A.holds s → Fits s (.post req origin))
    (hnext : ∀ err, Triple plan.handle (A.and (posted req origin))
      (tryDaemonApiSend req origin attempts err) fun result =>
        (A.and (posted req origin)).and (returnedFor req.toPeer result)) (lastErr : String) :
    Triple plan.handle A (tryDaemonApiSend req origin (attempts + 1) lastErr) fun result =>
      (A.and (posted req origin)).and (returnedFor req.toPeer result) := by
  apply contract.triple_bind surroundings_lawful hA
  intro id
  refine contract.triple_bind surroundings_lawful (fun _ _ => trivial) fun answer => ?_
  have hfail : ∀ e, Triple plan.handle ((A.and (told (.post req origin) id)).and
      (told (.answer id) answer)) (pure (.error e) : Work (Except DaemonSendError (Option String)))
      fun result => (A.and (posted req origin)).and (returnedFor req.toPeer result) := by
    intro e
    apply triple_pure
    intro s hs
    constructor
    · exact ⟨hs.1.1, hs.1.2.2⟩
    · intro token htoken
      cases htoken
  split
  · exact hfail _
  · exact triple_weaken (hnext _) (fun s hs => ⟨hs.1.1, hs.1.2.2⟩) fun _ _ h => h
  · exact hfail _
  · exact hfail _
  · rename_i status response
    apply triple_pure
    intro s hs
    constructor
    · exact ⟨hs.1.1, hs.1.2.2⟩
    · intro token htoken
      obtain ⟨req', hreq', hown⟩ := hs.2 status response rfl
      -- the answer is for the request that was sent
      cases Eq.trans (Eq.symm hs.1.2.1) hreq'
      rw [← daemonAnswer_eq_ok htoken]
      exact hown

/-- Each attempt sends the same request. -/
theorem Posted.fits {s : State} {req : SendRequest} {origin : TokenOrigin}
    (h : Posted s.2 req origin) : Fits s (.post req origin) := by
  cases origin with
  | stored => exact h
  | supplied | borrowed => trivial

theorem triple_retry {req : SendRequest} {origin : TokenOrigin} (attempts : Nat)
    (lastErr : String) :
    Triple plan.handle (A.and (posted req origin)) (tryDaemonApiSend req origin attempts lastErr)
      fun result => (A.and (posted req origin)).and (returnedFor req.toPeer result) := by
  induction attempts generalizing lastErr with
  | zero =>
    apply triple_pure
    intro s hs
    constructor
    · exact hs
    · intro token htoken
      cases htoken
  | succ attempts ih =>
    have hnext : ∀ err, Triple plan.handle ((A.and (posted req origin)).and (posted req origin))
        (tryDaemonApiSend req origin attempts err) fun result =>
          ((A.and (posted req origin)).and (posted req origin)).and
            (returnedFor req.toPeer result) :=
      fun err => triple_weaken (ih err) (fun _ hs => hs.1) fun _ _ h => ⟨⟨h.1, h.1.2⟩, h.2⟩
    have hfits : ∀ s, (A.and (posted req origin)).holds s → Fits s (.post req origin) :=
      fun s hs => Posted.fits hs.2
    exact (triple_attempt hfits hnext lastErr).post fun _ _ h => ⟨h.1.1, h.2⟩

theorem triple_keepToken {recipient : String} {token : Option String}
    (htoken : ∀ s, A.holds s → HasAll s.2.own recipient token) :
    Triple plan.handle A (keepToken account recipient token) fun _ => A := by
  cases token with
  | none => exact triple_self
  | some token =>
    apply contract.triple_then surroundings_lawful
    · exact fun s hs => htoken s hs token rfl
    · exact fun _ => triple_self

theorem triple_directSend {account : ProjectWechatAccount} {cmd : SendCommand}
    {recipient contextToken : String}
    (htoken : ∀ s, A.holds s → isBlank contextToken = false → Claimed s.2 recipient contextToken) :
    Triple plan.handle A (directSend account cmd recipient contextToken) fun _ => A := by
  apply triple_sendText htoken
  intro sent
  split
  · exact triple_pure fun s hs => hs.1
  · rename_i value
    apply triple_bind surroundings_lawful
    · apply triple_keepToken
      exact fun s hs => (hs.2.2 value rfl).trimmed
    · exact fun _ => triple_pure fun s hs => hs.1

/-- The token of the command is the one that is used, and one from the row of
the recipient is its own. -/
def chosenFor (cmd : SendCommand) (recipient : String) (chosen : String × TokenOrigin) :
    Assert surroundings where
  holds := fun s => (∀ token, cmd.explicitToken = some token → chosen = (token, .supplied)) ∧
    (chosen.2 = .stored → Has s.2.own recipient chosen.1)
  stable := fun _ _ hst h => ⟨h.1, fun hstored => (h.2 hstored).mono hst.1.own⟩

theorem triple_chooseToken {cmd : SendCommand} {tokens : Tokens} {recipient : String}
    (hA : ∀ s, A.holds s → OwnTokens s.2.own fun peer => tokens.lookup peer) :
    Triple plan.handle A (chooseToken cmd tokens recipient) fun chosen =>
      A.and (chosenFor cmd recipient chosen) := by
  unfold chooseToken
  split
  · rename_i token hexplicit
    apply triple_pure
    intro s hs
    constructor
    · exact hs
    · constructor
      · intro t ht
        rw [hexplicit] at ht
        cases ht
        rfl
      · intro h
        cases h
  · rename_i hexplicit
    have hnone : ∀ token chosen, cmd.explicitToken = some token →
        chosen = (token, TokenOrigin.supplied) := by
      intro t _ ht
      rw [hexplicit] at ht
      cases ht
    split
    · rename_i token hlookup
      apply triple_pure
      intro s hs
      constructor
      · exact hs
      · constructor
        · exact fun t => hnone t _
        · exact fun _ => hA s hs recipient token hlookup
    · refine contract.triple_then surroundings_lawful (fun _ _ => trivial) fun token => ?_
      apply triple_pure
      intro s hs
      constructor
      · exact hs
      · constructor
        · exact fun t => hnone t _
        · intro h
          cases h

theorem triple_recipientOf {account : ProjectWechatAccount} {cmd : SendCommand} {tokens : Tokens} :
    Triple plan.handle A (recipientOf account cmd tokens) fun _ => A := by
  unfold recipientOf
  split
  · exact triple_self
  · refine contract.triple_then surroundings_lawful (fun _ _ => trivial) fun key => ?_
    split
    · exact triple_self
    · exact triple_self

/-- A request has the chosen token, unless that is empty. -/
theorem mem_chosenToken {chosen token : String} :
    token ∈ (if chosen = "" then none else some chosen) ↔ chosen ≠ "" ∧ chosen = token := by
  split
  · rename_i hempty
    constructor
    · intro h
      cases h
    · exact fun h => absurd hempty h.1
  · rename_i hne
    constructor
    · intro h
      exact ⟨hne, Option.mem_some_iff.mp h⟩
    · intro hexists
      obtain ⟨-, rfl⟩ := hexists
      exact Option.mem_some_self _

theorem ne_empty_of_not_blank {token : String} (h : isBlank token = false) : token ≠ "" := by
  intro heq
  subst heq
  exact absurd h (by decide)

/-- The request that the CLI sends, with the token that it chose. -/
def Carries (req : SendRequest) (chosen : String) : Prop :=
  req.contextToken = if chosen = "" then none else some chosen

theorem Carries.mem_iff {req : SendRequest} {chosen token : String} (h : Carries req chosen) :
    token ∈ req.contextToken ↔ chosen ≠ "" ∧ chosen = token := by
  rw [h]
  exact mem_chosenToken

/-- A stored token is the recipient's own. -/
theorem fits_of_chosen {s : State} {cmd : SendCommand} {req : SendRequest}
    {chosen : String × TokenOrigin} (hreq : Carries req chosen.1)
    (hs : (chosenFor cmd req.toPeer chosen).holds s) : Fits s (.post req chosen.2) := by
  obtain ⟨token, origin⟩ := chosen
  cases origin with
  | stored =>
    intro t ht
    obtain ⟨-, rfl⟩ := hreq.mem_iff.mp ht
    exact hs.2 rfl
  | supplied | borrowed => trivial

/-- The token of the command, once it was sent, is the recipient's own. -/
theorem hasAll_of_explicit {s : State} {cmd : SendCommand} {req : SendRequest}
    {chosen : String × TokenOrigin} (hreq : Carries req chosen.1)
    (hs : (chosenFor cmd req.toPeer chosen).holds s) (hposted : Posted s.2 req chosen.2) :
    HasAll s.2.own req.toPeer cmd.explicitToken := by
  intro token hexplicit
  have hchosen := hs.1 token hexplicit
  obtain ⟨t, -, ht⟩ := Option.bind_eq_some_iff.mp hexplicit
  have hne : token ≠ "" := ne_empty_of_not_blank (isBlank_of_trimmed? ht)
  subst hchosen
  exact hposted token (hreq.mem_iff.mpr ⟨hne, rfl⟩)

/-- The chosen token was claimed for the recipient, once it was sent. -/
theorem claimed_of_posted {s : State} {req : SendRequest} {chosen : String × TokenOrigin}
    (hreq : Carries req chosen.1) (hposted : Posted s.2 req chosen.2)
    (hblank : isBlank chosen.1 = false) : Claimed s.2 req.toPeer chosen.1 :=
  hposted.claimed chosen.1 (hreq.mem_iff.mpr ⟨ne_empty_of_not_blank hblank, rfl⟩)

/-- The request that the CLI sends. -/
theorem triple_sendWith {account : ProjectWechatAccount} {cmd : SendCommand} {recipient : String}
    {chosen : String × TokenOrigin}
    (hA : ∀ s, A.holds s → (chosenFor cmd recipient chosen).holds s) :
    Triple plan.handle A (sendWith account cmd recipient chosen) fun _ => A := by
  unfold sendWith
  extract_lets req
  have hreq : Carries req chosen.1 := rfl
  have hfits : ∀ s, A.holds s → Fits s (.post req chosen.2) :=
    fun s hs => fits_of_chosen hreq (hA s hs)
  apply triple_bind surroundings_lawful (triple_attempt hfits (triple_retry 2) "")
  intro result
  split
  · rename_i returned
    apply triple_bind surroundings_lawful
    · apply triple_keepToken
      intro s hs
      apply HasAll.or (hs.2 returned rfl).trimmed
      exact hasAll_of_explicit hreq (hA s hs.1.1) hs.1.2
    · exact fun _ => triple_pure fun s hs => hs.1.1
  · split
    · refine (triple_directSend ?_).post fun _ _ h => h.1.1
      exact fun s hs hblank => claimed_of_posted hreq hs.1.2 hblank
    · split
      · exact triple_pure fun s hs => hs.1.1
      · exact triple_pure fun s hs => hs.1.1

theorem triple_runSendWechat (account : ProjectWechatAccount) (cmd : SendCommand) :
    Triple plan.handle A (runSendWechat account cmd) fun _ => A := by
  refine contract.triple_bind surroundings_lawful (fun _ _ => trivial) fun loaded => ?_
  split
  · exact triple_pure fun s hs => hs.1
  · rename_i tokens
    apply triple_bind surroundings_lawful triple_recipientOf
    intro recipient
    split
    · exact triple_pure fun s hs => hs.1
    · rename_i peer
      apply triple_bind surroundings_lawful
      · apply triple_chooseToken
        exact fun s hs => hs.2 tokens rfl
      · intro chosen
        refine (triple_sendWith ?_).post fun _ _ h => h.1.1
        exact fun s hs => hs.2

theorem triple_body (b : Body) : Triple plan.handle A b.program fun _ => A := by
  cases b with
  | api account => exact triple_startHttpApi
  | channel account channelId rounds =>
    exact triple_channelPoller surroundings_lawful pollerContract channelId rounds
  | token account rounds => exact triple_tokenPoller surroundings_lawful pollerContract rounds
  | serve account => exact triple_serve
  | outbox peer body =>
    apply triple_bind surroundings_lawful (triple_channelSend peer body)
    exact fun _ => triple_self
  | cli account cmd =>
    apply triple_bind surroundings_lawful (triple_runSendWechat account cmd)
    exact fun _ => triple_self

end Programs

/-! ## Runs -/

/-- The token of another client's request is supplied for the recipient. -/
theorem between_request {s : State} (req : SendRequest) :
    surroundings.between s (request req s) := by
  have hext : Extends s (request req s) := by
    constructor
    · exact List.subset_append_right _ _
    · exact List.Subset.refl _
    · exact List.prefix_append _ _
  constructor
  · exact hext
  · intro h
    constructor
    · constructor
      · exact h.isolated.cached.mono hext.own
      · exact fun account => (h.isolated.stored account).mono hext.own
      · exact h.isolated.session.mono hext.own
      · exact fun e he hblank => (h.isolated.sent e he hblank).mono hext.own
    · intro r hr token htoken
      rcases List.mem_append.mp hr with hr | hr
      · exact (h.requests r hr token htoken).mono hext
      · rw [List.mem_singleton] at hr
        subst hr
        left
        apply has_of_mem
        apply List.mem_append_left
        rw [requestToken, Option.mem_def.mp htoken]
        exact List.mem_singleton_self _
    · exact fun r hr => (h.responses r hr).mono hext

/-- A crash of the daemon leaves the table. -/
theorem between_crash {s : State} (process : Process) :
    surroundings.between s (plan.reset process s) := by
  cases process with
  | cli => exact surroundings_lawful.refl s
  | daemon =>
    constructor
    · exact ⟨List.Subset.refl _, List.Subset.refl _, List.prefix_refl _⟩
    · intro h
      constructor
      · constructor
        · exact ownTokens_none
        · exact h.isolated.stored
        · exact ownTokens_none
        · exact h.isolated.sent
      · exact h.requests
      · intro r hr
        exact absurd hr List.not_mem_nil

theorem plan_respectful : plan.Respectful surroundings anyRequest where
  lawful := surroundings_lawful
  body := fun b s _ =>
    respects_mono (fun _ _ _ => trivial)
      (triple_body (A := Assert.pure surroundings True) b s trivial)
  other := fun _ req _ _ => between_request req
  reset := fun _ process _ => between_crash process

theorem always_init : Always State.init := by
  constructor
  · constructor
    · exact ownTokens_none
    · exact fun _ => ownTokens_none
    · exact ownTokens_none
    · exact fun e he => absurd he List.not_mem_nil
  · exact fun req hreq => absurd hreq List.not_mem_nil
  · exact fun r hr => absurd hr List.not_mem_nil

/-- A send that leaves the tokens isolated used an own token. -/
theorem ownTokenSent_of_isolated {s : State} {o : Outcome} {c : Call}
    (h : Isolated (plan.handle s o c).2) : OwnTokenSent s c o := by
  intro e he hblank _
  cases c with
  | sendMessage ctx peer text =>
    cases he
    exact h.sent _ List.mem_cons_self hblank
  | _ => cases he

/-- In every run of the daemon and of the CLI, each peer has only its own
tokens in every state exactly when no send uses a token that was taken from
the row of some other peer. -/
theorem isolated_iff {events : List (Event Process Body SendRequest Outcome)}
    {s : System Process Call.Reply State}
    (hrun : run (System.step plan) (System.init State.init) events = some s) :
    EveryState (System.step plan) (fun s => Isolated s.shared) (System.init State.init) events ↔
      EveryStep (System.step plan) (System.Meets OwnTokenSent anyRequest)
        (System.init State.init) events := by
  have hany : ∀ (s : System Process Call.Reply State) (e : Event Process Body SendRequest Outcome),
      System.Meets (fun _ _ _ => True) anyRequest s e := by
    intro s e
    cases e with
    | call n o => exact fun _ _ _ _ => trivial
    | start b => trivial
    | other req => trivial
    | crash process => trivial
  apply everyState_iff plan_respectful (fun _ _ _ _ hsent => hsent) _ _ always_init hrun
    (everyStep_of_forall hany _ _)
  · exact fun s h => h.isolated
  · exact fun s c o _ h => ownTokenSent_of_isolated h

/-! ## A run that goes wrong, and one that does not -/

/-- In every run, each peer has only its own tokens. -/
def TokensIsolated : Prop :=
  ∀ (events : List (Event Process Body SendRequest Outcome)) (s : System Process Call.Reply State),
    run (System.step plan) (System.init State.init) events = some s → Isolated s.shared

def bot : ProjectWechatAccount := ⟨"bot", none⟩

/-- The first message of alice, with its token. -/
def aliceWrites : Outcome :=
  { fine with
    updates := .body ⟨0, none, none, [⟨0, some 1, some "alice", none, none, some "ctx-1", []⟩], none⟩ }

/-- The server takes the message, and returns no token. -/
def accepted : Outcome := { fine with reply := .body (.obj [("ret", .int 0)]) }

/-- The token poller has the message of alice. -/
def aliceOnly : List (Event Process Body SendRequest Outcome) :=
  [.start (.token "bot" 1), .call 0 fine, .call 0 aliceWrites, .call 0 fine, .call 0 fine]

/-- The CLI has no token for bob and takes the one of alice, and the daemon
sends with it and keeps it for bob. -/
def sendToBob : List (Event Process Body SendRequest Outcome) :=
  aliceOnly ++ [.start (.cli bot ⟨some "bob", "hi", none⟩), .call 1 fine, .call 1 fine,
    .call 1 fine, .start (.serve "bot"), .call 2 fine, .call 2 fine, .call 2 fine,
    .call 2 accepted, .call 2 fine, .call 2 fine]

theorem not_tokensIsolated : ¬ TokensIsolated := by
  intro h
  have hisolated := h sendToBob (Option.get (run (System.step plan) (System.init State.init)
    sendToBob) (by decide +kernel)) (Option.some_get _).symm
  have htoken := hisolated.stored "bot" "bob" "ctx-1" (by decide +kernel)
  exact absurd htoken (by decide +kernel)

/-- The CLI names nobody and sends to alice, with her own token. -/
def sendToAlice : List (Event Process Body SendRequest Outcome) :=
  aliceOnly ++ [.start (.cli bot ⟨none, "hi", none⟩), .call 1 fine, .call 1 fine,
    .call 1 fine, .start (.serve "bot"), .call 2 fine, .call 2 fine, .call 2 fine,
    .call 2 accepted, .call 2 fine, .call 2 fine, .call 2 fine, .call 2 fine, .call 1 fine,
    .call 1 fine]

theorem sendToAlice_isolated :
    EveryState (System.step plan) (fun s => Isolated s.shared) (System.init State.init)
      sendToAlice := by
  have henabled : (run (System.step plan) (System.init State.init) sendToAlice).isSome := by
    decide +kernel
  exact (isolated_iff (Option.some_get henabled).symm).mpr (by decide +kernel)

end MagicLaw.WeChat.Provenance
