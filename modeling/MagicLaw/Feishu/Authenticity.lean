import MagicLaw.Feishu.Webhook

/-!
# What the webhook lets in

A message that comes in over the webhook should be one of an enabled account,
with its token and its signature.

* `Accepts`: the request is an event with a message, and has the token and the
  signature of a configuration, as far as these are set.
* `Responsible`: which account of the list a payload falls to, by its token.
* `dispatches_iff`: the handler dispatches a message under a configuration
  exactly when this is the one that is selected and it accepts the request.
* `authentic_iff`: the webhook is as it should be, for a request, exactly when
  it does not fall to a disabled account that has no token or secret against it.
-/

namespace MagicLaw.Feishu

open Lib Lib.Mac Lib.Text
open MagicLaw.Routing (Message)

/-! ## Signatures -/

/-- The header is there, and not blank. -/
def HasHeader (headers : HeaderMap) (name value : String) : Prop :=
  (headers.lookup name).bind toStr = some value ∧ isBlank value = false

/-- The signature is one of the two texts of the digest, where the second one
may have large letters. -/
def Denotes (signature : String) (digest : List UInt8) : Prop :=
  trim (stripPrefix "sha256=" signature) = base64 digest ∨
    toAsciiLowercase (trim (stripPrefix "sha256=" signature)) = hex digest

/-- The request is signed with the secret. -/
def Signed (headers : HeaderMap) (body : List UInt8) (secret : String) : Prop :=
  ∃ ts nonce signature, HasHeader headers "x-lark-request-timestamp" ts ∧
    HasHeader headers "x-lark-request-nonce" nonce ∧
    HasHeader headers "x-lark-signature" signature ∧
    Denotes signature
      (hmacSha256 (Bytes.asBytes secret) (Bytes.asBytes (signedText ts nonce secret body)))

section Signatures

variable {headers : HeaderMap} {body : List UInt8} {cfg : FeishuConfig}

theorem requiredHeader_eq_ok_iff {name value : String} :
    requiredHeader headers name = .ok value ↔ HasHeader headers name value := by
  unfold requiredHeader HasHeader
  cases (headers.lookup name).bind toStr with
  | none => simp
  | some v =>
    show (if isBlank v then _ else _) = _ ↔ _
    by_cases hblank : isBlank v
    · rw [if_pos hblank, Option.some.injEq]
      constructor
      · intro h
        cases h
      · intro hexists
        obtain ⟨rfl, hvalue⟩ := hexists
        rw [hvalue] at hblank
        cases hblank
    · rw [if_neg hblank, Option.some.injEq, Except.ok.injEq]
      constructor
      · intro heq
        subst heq
        exact ⟨rfl, Bool.eq_false_iff.mpr hblank⟩
      · exact fun h => h.1

theorem checkSignature_eq_ok_iff {digest : List UInt8} {signature : String} :
    checkSignature digest signature = .ok () ↔ Denotes signature digest := by
  unfold checkSignature Denotes
  by_cases hbase64 : base64 digest = trim (stripPrefix "sha256=" signature)
  · simp [hbase64]
  · by_cases hhex : eqIgnoreAsciiCase (hex digest) (trim (stripPrefix "sha256=" signature))
    · simp only [hbase64, hhex, if_false, if_true, true_iff]
      right
      have hsame := of_decide_eq_true hhex
      rw [toAsciiLowercase_hex] at hsame
      exact hsame.symm
    · simp only [hbase64, hhex, if_false, Bool.false_eq_true, reduceCtorEq, false_iff, not_or]
      constructor
      · exact fun h => hbase64 h.symm
      · intro h
        apply hhex
        apply decide_eq_true
        rw [toAsciiLowercase_hex]
        exact h.symm

theorem bind_eq_ok_iff {α β : Type} {m : Except String α} {f : α → Except String β} {b : β} :
    (m >>= f) = .ok b ↔ ∃ a, m = .ok a ∧ f a = .ok b := by
  cases m with
  | error e => simp [bind, Except.bind]
  | ok a => simp [bind, Except.bind]

/-- Nothing is asked for when no secret is set. -/
theorem verifyWebhookSignature_eq_ok_iff :
    verifyWebhookSignature headers body cfg = .ok () ↔
      (trim cfg.signingSecret ≠ "" → Signed headers body (trim cfg.signingSecret)) := by
  unfold verifyWebhookSignature
  by_cases hsecret : trim cfg.signingSecret = ""
  · simp [hsecret]
  · simp only [hsecret, if_false, ne_eq, not_false_eq_true, forall_const, bind_eq_ok_iff,
      requiredHeader_eq_ok_iff, checkSignature_eq_ok_iff, Signed, exists_and_left]

end Signatures

/-! ## Requests that a configuration accepts -/

/-- The envelope is an event with a message. -/
def Envelope.IsMessage (envelope : Envelope) : Prop :=
  envelope.type ≠ "url_verification" ∧
    (∃ header ∈ envelope.header, header.eventType = "im.message.receive_v1") ∧
    envelope.event.isSome

/-- The request has what the configuration asks for. -/
structure Accepts (cfg : FeishuConfig) (headers : HeaderMap) (body : List UInt8)
    (envelope : Envelope) : Prop where
  signed : trim cfg.signingSecret ≠ "" → Signed headers body (trim cfg.signingSecret)
  token : trim cfg.verificationToken ≠ "" → envelope.candidate = trim cfg.verificationToken
  event : envelope.IsMessage

/-- The handler dispatches the message under the configuration. -/
def Dispatches (serde : SerdeJson) (fresh : Fresh) (configs : List FeishuConfig)
    (headers : HeaderMap) (body : List UInt8) (cfg : FeishuConfig) (msg : Message) : Prop :=
  webhookDispatch serde fresh configs headers body = .ok (cfg, .message msg)

/-- The body is an envelope, as far as `serde_json` is concerned. -/
def Reads (serde : SerdeJson) (body : List UInt8) (payload : Json) (envelope : Envelope) : Prop :=
  serde.fromSlice body = .ok payload ∧ Envelope.fromValue payload = some envelope

section Dispatch

variable {serde : SerdeJson} {fresh : Fresh} {configs : List FeishuConfig} {headers : HeaderMap}
  {body : List UInt8} {cfg : FeishuConfig}

/-- Only a dispatched message gets any further, and the handler makes no call
for any other request. -/
theorem feishuWebhook_eq_pure (h : ∀ cfg msg, ¬ Dispatches serde fresh configs headers body cfg msg) :
    ∃ answer, feishuWebhook serde fresh configs headers body = pure answer := by
  unfold feishuWebhook
  split
  · exact ⟨_, rfl⟩
  · exact ⟨_, rfl⟩
  · exact ⟨_, rfl⟩
  · rename_i cfg msg hdispatch
    exact absurd hdispatch (h cfg msg)

theorem feishuWebhook_of_dispatches {msg : Message}
    (h : Dispatches serde fresh configs headers body cfg msg) :
    feishuWebhook serde fresh configs headers body =
      (Inbound.handleInbound msg >>= fun answer => pure (inboundAnswer msg answer)) := by
  unfold feishuWebhook
  rw [h]

theorem dispatchOf_eq_message_iff {envelope : Envelope} :
    (∃ msg, dispatchOf serde fresh cfg envelope = .message msg) ↔ envelope.IsMessage := by
  unfold dispatchOf Envelope.IsMessage
  by_cases htype : envelope.type = "url_verification"
  · simp [htype]
  · rw [if_neg htype]
    cases envelope.header with
    | none => simp
    | some header =>
      by_cases hevent : header.eventType = "im.message.receive_v1"
      · cases envelope.event with
        | none => simp [hevent]
        | some event => simp [hevent, htype]
      · simp [hevent]

theorem parseWebhookEvent_eq_message_iff {payload : Json} {msg : Message} :
    parseWebhookEvent serde fresh payload cfg = .ok (.message msg) ↔
      ∃ envelope, Envelope.fromValue payload = some envelope ∧
        (trim cfg.verificationToken ≠ "" → envelope.candidate = trim cfg.verificationToken) ∧
        dispatchOf serde fresh cfg envelope = .message msg := by
  unfold parseWebhookEvent
  cases Envelope.fromValue payload with
  | none => simp
  | some envelope =>
    by_cases htoken : trim cfg.verificationToken = ""
    · simp [htoken]
    · by_cases hcandidate : envelope.candidate = trim cfg.verificationToken
      · simp [hcandidate]
      · simp [htoken, hcandidate]

/-- A message is dispatched under the configuration that is selected, when it
accepts the request. -/
theorem dispatches_iff (fresh : Fresh) :
    (∃ msg, Dispatches serde fresh configs headers body cfg msg) ↔
      ∃ payload envelope, Reads serde body payload envelope ∧
        selectFeishuConfig configs payload = some cfg ∧ Accepts cfg headers body envelope := by
  unfold Dispatches webhookDispatch
  constructor
  · intro hexists
    obtain ⟨msg, h⟩ := hexists
    split at h
    · cases h
    · rename_i payload hpayload
      split at h
      · cases h
      · rename_i selected hselected
        split at h
        · cases h
        · rename_i hverified
          split at h
          · cases h
          · rename_i dispatch hdispatch
            cases h
            obtain ⟨envelope, henvelope, htoken, hmsg⟩ :=
              parseWebhookEvent_eq_message_iff.mp hdispatch
            refine ⟨payload, envelope, ⟨hpayload, henvelope⟩, hselected, ?_⟩
            constructor
            · exact verifyWebhookSignature_eq_ok_iff.mp hverified
            · exact htoken
            · exact dispatchOf_eq_message_iff.mp ⟨msg, hmsg⟩
  · intro hexists
    obtain ⟨payload, envelope, ⟨hpayload, henvelope⟩, hselected, haccepts⟩ := hexists
    obtain ⟨msg, hmsg⟩ := dispatchOf_eq_message_iff.mpr haccepts.event
    have hverified := verifyWebhookSignature_eq_ok_iff.mpr haccepts.signed
    have hdispatch : parseWebhookEvent serde fresh payload cfg = .ok (.message msg) :=
      parseWebhookEvent_eq_message_iff.mpr ⟨envelope, henvelope, haccepts.token, hmsg⟩
    refine ⟨msg, ?_⟩
    simp only [hpayload, hselected, hverified, hdispatch]

/-- The selected configuration is one of the list. -/
theorem mem_of_selectFeishuConfig {payload : Json}
    (h : selectFeishuConfig configs payload = some cfg) : cfg ∈ configs := by
  unfold selectFeishuConfig at h
  split at h
  · cases h
  · rcases Option.or_eq_some_iff.mp h with hmatching | ⟨-, hfallback⟩
    · obtain ⟨token, -, hfind⟩ := Option.bind_eq_some_iff.mp hmatching
      exact List.mem_of_find?_eq_some hfind
    · unfold fallbackConfig at hfallback
      split at hfallback
      · exact List.mem_of_head? hfallback
      · exact List.mem_of_find?_eq_some hfallback

end Dispatch

/-! ## The webhook as it should be -/

/-- The token of the payload. -/
def HasToken (serde : SerdeJson) (body : List UInt8) (token : String) : Prop :=
  ∃ payload envelope, Reads serde body payload envelope ∧ envelope.candidate = token

/-- What a message is dispatched under is enabled, and has the token and the
signature of the request; and a request with no token of an enabled account is
not dispatched when each of them has one. -/
structure Authentic (serde : SerdeJson) (configs : List FeishuConfig) (headers : HeaderMap)
    (body : List UInt8) : Prop where
  dispatched : ∀ fresh cfg msg, Dispatches serde fresh configs headers body cfg msg →
    cfg.enabled ∧
    (trim cfg.verificationToken ≠ "" → HasToken serde body (trim cfg.verificationToken)) ∧
    (trim cfg.signingSecret ≠ "" → Signed headers body (trim cfg.signingSecret))
  refused : (∀ cfg ∈ configs, cfg.enabled → trim cfg.verificationToken ≠ "") →
    (∀ cfg ∈ configs, cfg.enabled → ¬ HasToken serde body (trim cfg.verificationToken)) →
    ∀ fresh cfg msg, ¬ Dispatches serde fresh configs headers body cfg msg

/-- The first account of the list with the property. -/
def IsFirst (p : FeishuConfig → Prop) (configs : List FeishuConfig) (cfg : FeishuConfig) : Prop :=
  p cfg ∧ ∃ before after, configs = before ++ cfg :: after ∧ ∀ other ∈ before, ¬ p other

/-- The account has a verification token, and it is this one. -/
def Shares (token : Option String) (cfg : FeishuConfig) : Prop :=
  trim cfg.verificationToken ≠ "" ∧ token = some (trim cfg.verificationToken)

/-- Whose a payload with this token is: that of the first account that has the
token, or, where no account has it, of the only account, or of the first of
several that has no token at all.  Whether the account is enabled does not
matter. -/
inductive Responsible (configs : List FeishuConfig) (token : Option String)
    (cfg : FeishuConfig) : Prop where
  | shares (h : IsFirst (Shares token) configs cfg)
  | only (hnone : ∀ other ∈ configs, ¬ Shares token other) (h : configs = [cfg])
  | tokenless (hnone : ∀ other ∈ configs, ¬ Shares token other) (hseveral : configs.length ≠ 1)
      (h : IsFirst (fun other => trim other.verificationToken = "") configs cfg)

/-- The request falls to a disabled account, and has its signature and its
token, as far as these are set. -/
def DisabledAccepts (serde : SerdeJson) (configs : List FeishuConfig) (headers : HeaderMap)
    (body : List UInt8) : Prop :=
  ∃ payload envelope cfg, Reads serde body payload envelope ∧
    Responsible configs (extractFeishuVerificationToken payload) cfg ∧ cfg.enabled = false ∧
    Accepts cfg headers body envelope

section Authentic

variable {serde : SerdeJson} {configs : List FeishuConfig} {headers : HeaderMap}
  {body : List UInt8}

theorem find?_eq_some_iff_isFirst {p : FeishuConfig → Prop} [DecidablePred p]
    {cfg : FeishuConfig} : configs.find? (fun c => p c) = some cfg ↔ IsFirst p configs cfg := by
  unfold IsFirst
  simp only [List.find?_eq_some_iff_append, Bool.not_eq_true', decide_eq_true_eq,
    decide_eq_false_iff_not]

instance (token : Option String) (cfg : FeishuConfig) : Decidable (Shares token cfg) :=
  inferInstanceAs (Decidable (_ ∧ _))

theorem matchingConfig_eq_find? (payload : Json) : matchingConfig configs payload =
    configs.find? fun c => Shares (extractFeishuVerificationToken payload) c := by
  unfold matchingConfig
  cases extractFeishuVerificationToken payload with
  | none =>
    rw [Option.bind_none, eq_comm, List.find?_eq_none]
    simp [Shares]
  | some token =>
    rw [Option.bind_some]
    congr 1
    funext c
    simp [Shares, @eq_comm String token]

theorem fallbackConfig_eq_some_iff {cfg : FeishuConfig} :
    fallbackConfig configs = some cfg ↔ configs = [cfg] ∨ configs.length ≠ 1 ∧
      IsFirst (fun other => trim other.verificationToken = "") configs cfg := by
  unfold fallbackConfig
  split
  · next hone =>
    obtain ⟨only, rfl⟩ := List.length_eq_one_iff.mp hone
    simp
  · next hseveral =>
    rw [find?_eq_some_iff_isFirst]
    constructor
    · exact fun h => .inr ⟨hseveral, h⟩
    · rintro (rfl | ⟨-, h⟩)
      · exact absurd rfl hseveral
      · exact h

theorem selectFeishuConfig_eq_or (payload : Json) : selectFeishuConfig configs payload =
    (matchingConfig configs payload).or (fallbackConfig configs) := by
  unfold selectFeishuConfig
  cases configs with
  | nil =>
    rw [matchingConfig_eq_find?]
    rfl
  | cons first rest => exact if_neg Bool.false_ne_true

/-- What `select_feishu_config` selects. -/
theorem selectFeishuConfig_eq_some_iff {payload : Json} {cfg : FeishuConfig} :
    selectFeishuConfig configs payload = some cfg ↔
      Responsible configs (extractFeishuVerificationToken payload) cfg := by
  have hnone : matchingConfig configs payload = none ↔
      ∀ other ∈ configs, ¬ Shares (extractFeishuVerificationToken payload) other := by
    rw [matchingConfig_eq_find?, List.find?_eq_none]
    simp only [decide_eq_true_eq]
  have hshares : matchingConfig configs payload = some cfg ↔
      IsFirst (Shares (extractFeishuVerificationToken payload)) configs cfg := by
    rw [matchingConfig_eq_find?]
    exact find?_eq_some_iff_isFirst
  rw [selectFeishuConfig_eq_or, Option.or_eq_some_iff, hshares, hnone, fallbackConfig_eq_some_iff]
  constructor
  · rintro (h | ⟨hnone, honly | ⟨hseveral, h⟩⟩)
    · exact .shares h
    · exact .only hnone honly
    · exact .tokenless hnone hseveral h
  · intro h
    cases h with
    | shares h => exact .inl h
    | only hnone h => exact .inr ⟨hnone, .inl h⟩
    | tokenless hnone hseveral h => exact .inr ⟨hnone, .inr ⟨hseveral, h⟩⟩

/-- The webhook is as it should be for a request exactly when this does not
fall to a disabled account that accepts it. -/
theorem authentic_iff :
    Authentic serde configs headers body ↔ ¬ DisabledAccepts serde configs headers body := by
  constructor
  · intro h hexists
    obtain ⟨payload, envelope, cfg, hreads, hselected, hdisabled, haccepts⟩ := hexists
    obtain ⟨msg, hmsg⟩ :=
      (dispatches_iff ⟨"", 0⟩).mpr
        ⟨payload, envelope, hreads, selectFeishuConfig_eq_some_iff.mpr hselected, haccepts⟩
    have henabled := (h.dispatched _ cfg msg hmsg).1
    rw [hdisabled] at henabled
    cases henabled
  · intro h
    have hdispatched : ∀ fresh cfg msg, Dispatches serde fresh configs headers body cfg msg →
        cfg ∈ configs ∧ cfg.enabled ∧
        (trim cfg.verificationToken ≠ "" → HasToken serde body (trim cfg.verificationToken)) ∧
        (trim cfg.signingSecret ≠ "" → Signed headers body (trim cfg.signingSecret)) := by
      intro fresh cfg msg hmsg
      obtain ⟨payload, envelope, hreads, hselected, haccepts⟩ := (dispatches_iff fresh).mp ⟨msg, hmsg⟩
      refine ⟨mem_of_selectFeishuConfig hselected, ?_, ?_, haccepts.signed⟩
      · cases henabled : cfg.enabled with
        | true => rfl
        | false =>
          have hresponsible := selectFeishuConfig_eq_some_iff.mp hselected
          exact absurd ⟨payload, envelope, cfg, hreads, hresponsible, henabled, haccepts⟩ h
      · exact fun htoken => ⟨payload, envelope, hreads, haccepts.token htoken⟩
    constructor
    · exact fun fresh cfg msg hmsg => (hdispatched fresh cfg msg hmsg).2
    · intro hset hnone fresh cfg msg hmsg
      obtain ⟨hmem, henabled, htoken, -⟩ := hdispatched fresh cfg msg hmsg
      exact hnone cfg hmem henabled (htoken (hset cfg hmem henabled))

/-- Where every account is enabled, the webhook is as it should be. -/
theorem not_disabledAccepts (h : ∀ cfg ∈ configs, cfg.enabled) :
    ¬ DisabledAccepts serde configs headers body := by
  intro hexists
  obtain ⟨payload, envelope, cfg, -, hselected, hdisabled, -⟩ := hexists
  have henabled := h cfg (mem_of_selectFeishuConfig (selectFeishuConfig_eq_some_iff.mpr hselected))
  rw [hdisabled] at henabled
  cases henabled

end Authentic

/-! ## A request that should be refused -/

/-- The webhook is as it should be, for every list of configurations and every
request. -/
def WebhookAuthentic : Prop :=
  ∀ (serde : SerdeJson) (configs : List FeishuConfig) (headers : HeaderMap) (body : List UInt8),
    Authentic serde configs headers body

/-- The one enabled account, which has a token. -/
def team : FeishuConfig where
  enabled := true
  accountId := "team"
  verificationToken := "team-token"
  signingSecret := ""

def guessText : String :=
  "\x7b\"header\":\x7b\"event_type\":\"im.message.receive_v1\",\"token\":\"guess\"\x7d," ++
    "\"event\":\x7b\"message\":\x7b\"message_id\":\"om_1\"\x7d\x7d\x7d"

/-- An event with a token that no account has. -/
def guessPayload : Json :=
  .obj [("header", .obj [("event_type", .str "im.message.receive_v1"), ("token", .str "guess")]),
    ("event", .obj [("message", .obj [("message_id", .str "om_1")])])]

def guessEnvelope : Envelope where
  type := ""
  challenge := ""
  token := ""
  header := some ⟨"", "im.message.receive_v1", "", "guess"⟩
  event := some ⟨⟨"", "", ""⟩, ⟨"om_1", "", "", "", "", ""⟩⟩

/-- `serde_json`, for this one text. -/
def guessSerde : SerdeJson where
  fromSlice := fun bytes =>
    if bytes = Bytes.asBytes guessText then .ok guessPayload else .error "expected value"
  envelopeError := fun _ => "invalid type"

/-- The runtime has its own configuration, as it is by default, before the one
of the team.  It is disabled and has no token, and takes the request. -/
theorem guess_accepted : DisabledAccepts guessSerde (feishuConfigs .default [team]) []
    (Bytes.asBytes guessText) := by
  have hpayload : guessSerde.fromSlice (Bytes.asBytes guessText) = .ok guessPayload := by
    simp [guessSerde]
  have hselected : selectFeishuConfig (feishuConfigs .default [team]) guessPayload =
      some .default := by
    decide +kernel
  refine ⟨guessPayload, guessEnvelope, .default, ⟨hpayload, by decide +kernel⟩,
    selectFeishuConfig_eq_some_iff.mp hselected, rfl, ?_⟩
  constructor
  · exact fun hset => absurd rfl hset
  · exact fun hset => absurd rfl hset
  · exact ⟨by decide, ⟨_, rfl, rfl⟩, rfl⟩

theorem not_webhookAuthentic : ¬ WebhookAuthentic := by
  intro h
  obtain ⟨payload, envelope, cfg, hreads, hselected, hdisabled, haccepts⟩ := guess_accepted
  obtain ⟨msg, hmsg⟩ :=
    (dispatches_iff ⟨"", 0⟩).mpr
      ⟨payload, envelope, hreads, selectFeishuConfig_eq_some_iff.mpr hselected, haccepts⟩
  have henabled := ((h _ _ _ _).dispatched _ cfg msg hmsg).1
  rw [hdisabled] at henabled
  cases henabled

end MagicLaw.Feishu
