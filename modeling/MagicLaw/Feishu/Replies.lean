import MagicLaw.Feishu.Authenticity
import MagicLaw.Feishu.TokenRefresh
import MagicLaw.Lib.Maps
import MagicLaw.Pipeline.Replies

/-!
# The account that answers

The way of a message back: the pipeline writes its reply to the outbox, under
the route of the message, and the worker sends it by the channel that
`AppRuntime::new` of `infrastructure/runtime.rs` has registered for this route.

* `run_onlyReplies`: a run of the pipeline adds no row but the reply of its
  message.
* `answering_self_iff`: each account answers for itself exactly if no two
  accounts have the same channel id; of those that have, the last one answers.
* `reply_returns`: the reply to a message of the webhook is sent to the peer of
  the message, by the account that answers for the one that has accepted it.

What `send_message` of a channel does is a parameter here.
-/

namespace MagicLaw.Feishu

open Lib Lib.Machine Lib.Program Lib.Stages Lib.Text
open MagicLaw.Outbox (ChannelError ChannelRegistry OutboxEntry RowCodec SendReceipt registrySend)
open MagicLaw.Pipeline
open MagicLaw.Routing (ChannelId Message MessageContent RouteKey)

/-! ## What a run of the pipeline adds to the outbox -/

/-- The row has the id and the route of the message, and a text. -/
def IsReply (serde : SerdeText) (msg : Message) (row : OutboxEntry) : Prop :=
  row.id = msg.id ∧ serde.routeKey msg.routeKey = .ok row.routeKey ∧
    ∃ reply, serde.content (.text reply) = .ok row.payload

/-- The rows that were there are there, and any other one is a reply. -/
def OnlyReplies (serde : SerdeText) (msg : Message) (s t : PipelineState) : Prop :=
  ∀ id row, t.database.outbox.find? id = some row →
    s.database.outbox.find? id = some row ∨ IsReply serde msg row

/-- The context is still of the message, whatever its text has become. -/
structure Carries (msg : Message) (ctx : PipelineContext) : Prop where
  id : ctx.message.id = msg.id
  routeKey : ctx.message.routeKey = msg.routeKey
  text : ctx.message.direction = .outbound → ∃ text, ctx.message.content = .text text

section Pipeline

variable {serde : SerdeText} {env : Surroundings} {msg : Message} {ctx ctx' : PipelineContext}
  {s t t' : PipelineState}

theorem Carries.of_message (h : Carries msg ctx) (hmessage : ctx'.message = ctx.message) :
    Carries msg ctx' :=
  ⟨hmessage ▸ h.id, hmessage ▸ h.routeKey, hmessage ▸ h.text⟩

/-- A command may change the text.  The database it leaves alone. -/
theorem handleCommand_carries (config : AgentConfig) (command : AgentCommand)
    (h : Carries msg ctx) :
    (handleCommand config env ctx s command).2.database = s.database ∧
      ∀ ctx', (handleCommand config env ctx s command).1 = .ok ctx' → Carries msg ctx' := by
  obtain ⟨preferences, hkeeps⟩ := handleCommand_keeps config env ctx s command
  refine ⟨by rw [hkeeps], fun ctx' hctx' => ?_⟩
  unfold handleCommand at hctx'
  cases command with
  | switch agent =>
    dsimp only at hctx'
    split at hctx'
    · cases hctx'
    · exact Except.ok.inj hctx' ▸ h.of_message rfl
  | query =>
    dsimp only at hctx'
    split at hctx'
    · cases hctx'
    · exact Except.ok.inj hctx' ▸ h.of_message rfl
    · exact Except.ok.inj hctx' ▸ h.of_message rfl
  | switchAndProcess agent newText =>
    dsimp only at hctx'
    split at hctx'
    · cases hctx'
    · exact Except.ok.inj hctx' ▸ ⟨h.id, h.routeKey, fun _ => ⟨newText, rfl⟩⟩
  | notCommand =>
    dsimp only at hctx'
    split at hctx'
    · exact Except.ok.inj hctx' ▸ h
    · split at hctx'
      · cases hctx'
      · exact Except.ok.inj hctx' ▸ h.of_message rfl
      · exact Except.ok.inj hctx' ▸ h.of_message rfl

theorem agentCommand_carries (config : AgentConfig) (h : Carries msg ctx) :
    ((agentCommand config env).process ctx s).2.database = s.database ∧
      ∀ ctx', ((agentCommand config env).process ctx s).1 = .ok ctx' → Carries msg ctx' := by
  show (agentCommandProcess config env ctx s).2.database = s.database ∧
    ∀ ctx', (agentCommandProcess config env ctx s).1 = .ok ctx' → Carries msg ctx'
  by_cases htext : ∃ text, ctx.message.content = .text text
  · obtain ⟨text, htext⟩ := htext
    rw [agentCommandProcess_of_text htext]
    exact handleCommand_carries config _ h
  · rw [agentCommandProcess_of_not_text fun text htext' => htext ⟨text, htext'⟩]
    exact ⟨rfl, fun _ hctx' => Except.ok.inj hctx' ▸ h⟩

theorem ai_carries (config : AiConfig) (h : Carries msg ctx) :
    ((ai config serde env).process ctx s).2.database.outbox = s.database.outbox ∧
      ∀ ctx', ((ai config serde env).process ctx s).1 = .ok ctx' → Carries msg ctx' := by
  show (aiProcess config serde env ctx s).2.database.outbox = s.database.outbox ∧
    ∀ ctx', (aiProcess config serde env ctx s).1 = .ok ctx' → Carries msg ctx'
  by_cases htext : ∃ text, ctx.message.content = .text text
  · obtain ⟨text, htext⟩ := htext
    obtain ⟨c, s', response, hai, hmessage, -, -, -, -, hs', -⟩ :=
      aiProcess_of_text serde env s config htext
    rw [hai]
    exact ⟨hs', fun _ hctx' => Except.ok.inj hctx' ▸ h.of_message hmessage⟩
  · rw [aiProcess_of_not_text serde env s config fun text htext' => htext ⟨text, htext'⟩]
    exact ⟨rfl, fun _ hctx' => Except.ok.inj hctx' ▸ h⟩

theorem formatter_carries (h : Carries msg ctx) :
    (formatter.process ctx s).2 = s ∧
      ∀ ctx', (formatter.process ctx s).1 = .ok ctx' → Carries msg ctx' := by
  unfold formatter
  dsimp only
  cases ctx.aiResponse with
  | none => exact ⟨rfl, fun _ hctx' => Except.ok.inj hctx' ▸ h⟩
  | some response =>
    exact ⟨rfl, fun _ hctx' => Except.ok.inj hctx' ▸ ⟨h.id, h.routeKey, fun _ => ⟨_, rfl⟩⟩⟩

theorem OnlyReplies.of_outbox (h : OnlyReplies serde msg s t)
    (houtbox : t'.database.outbox = t.database.outbox) : OnlyReplies serde msg s t' := by
  intro id row hrow
  rw [houtbox] at hrow
  exact h id row hrow

theorem OnlyReplies.enqueue (h : OnlyReplies serde msg s t) {entry : OutboxEntry}
    (hentry : IsReply serde msg entry) :
    OnlyReplies serde msg s { t with database := t.database.enqueue entry } := by
  intro id row hrow
  have hfind : (t.database.outbox.insertOrIgnore entry).find? id = some row := hrow
  rw [KeyedTable.find?_insertOrIgnore] at hfind
  by_cases hid : id = entry.id
  · rw [if_pos hid] at hfind
    cases hold : t.database.outbox.find? id with
    | some old =>
      rw [hold] at hfind
      exact h id row (hold.trans hfind)
    | none =>
      rw [hold] at hfind
      obtain rfl : entry = row := Option.some.inj hfind
      exact .inr hentry
  · rw [if_neg hid] at hfind
    exact h id row hfind

theorem outboxStage_onlyReplies (h : Carries msg ctx) (honly : OnlyReplies serde msg s t) :
    OnlyReplies serde msg s ((outboxStage serde env).process ctx t).2 ∧
      ∀ ctx', ((outboxStage serde env).process ctx t).1 = .ok ctx' → Carries msg ctx' := by
  show OnlyReplies serde msg s (outboxProcess serde env ctx t).2 ∧
    ∀ ctx', (outboxProcess serde env ctx t).1 = .ok ctx' → Carries msg ctx'
  unfold outboxProcess
  cases hdirection : ctx.message.direction with
  | inbound => exact ⟨honly, fun _ hctx' => Except.ok.inj hctx' ▸ h⟩
  | outbound =>
    dsimp only
    cases hroute : serde.routeKey ctx.message.routeKey with
    | error e => exact ⟨honly, fun _ hctx' => Except.ok.inj hctx' ▸ h⟩
    | ok routeKeyJson =>
      dsimp only
      cases hcontent : serde.content ctx.message.content with
      | error e => exact ⟨honly, fun _ hctx' => Except.ok.inj hctx' ▸ h⟩
      | ok payloadJson =>
        cases env.outboxFault with
        | some e => exact ⟨honly, fun _ hctx' => Except.ok.inj hctx' ▸ h⟩
        | none =>
          obtain ⟨reply, hreply⟩ := h.text hdirection
          exact ⟨honly.enqueue ⟨h.id, h.routeKey ▸ hroute, reply, hreply ▸ hcontent⟩,
            fun _ hctx' => Except.ok.inj hctx' ▸ h⟩

/-- The guards look at the message only. -/
theorem guards_carries {config : AppConfig} {stage : Middleware}
    (hstage : stage ∈ guards config env) (h : Carries msg ctx) :
    (stage.process ctx t).2.database = t.database ∧
      ∀ ctx', (stage.process ctx t).1 = .ok ctx' → Carries msg ctx' := by
  unfold guards at hstage
  rcases List.mem_append.mp hstage with hfirst | hlimit
  · simp only [List.mem_cons, List.not_mem_nil, or_false] at hfirst
    rcases hfirst with rfl | rfl
    · exact ⟨rfl, fun _ hctx' => Except.ok.inj hctx' ▸ h⟩
    · exact ⟨rfl, fun _ hctx' => Except.ok.inj hctx' ▸ h⟩
  · split at hlimit
    · rw [List.mem_singleton.mp hlimit]
      exact ⟨rfl, fun _ hctx' => Except.ok.inj hctx' ▸ h.of_message rfl⟩
    · exact absurd hlimit List.not_mem_nil

/-- A stage of the chain goes on with the message, and adds no row but its
reply. -/
theorem stage_onlyReplies {config : AppConfig} {stage : Middleware}
    (hstage : stage ∈ assemble config serde env) (h : Carries msg ctx)
    (honly : OnlyReplies serde msg s t) :
    OnlyReplies serde msg s (stage.process ctx t).2 ∧
      ∀ ctx', (stage.process ctx t).1 = .ok ctx' → Carries msg ctx' := by
  rcases List.mem_append.mp hstage with hfirst | hlast
  · rcases List.mem_cons.mp hfirst with rfl | hguard
    · obtain ⟨hdatabase, hcarries⟩ := agentCommand_carries (s := t) config.agent h
      exact ⟨honly.of_outbox (congrArg _ hdatabase), hcarries⟩
    · obtain ⟨hdatabase, hcarries⟩ := guards_carries (t := t) hguard h
      exact ⟨honly.of_outbox (congrArg _ hdatabase), hcarries⟩
  · simp only [List.mem_cons, List.not_mem_nil, or_false] at hlast
    rcases hlast with rfl | rfl | rfl
    · obtain ⟨houtbox, hcarries⟩ := ai_carries (s := t) config.ai h
      exact ⟨honly.of_outbox houtbox, hcarries⟩
    · obtain ⟨hsame, hcarries⟩ := formatter_carries (s := t) h
      exact ⟨honly.of_outbox (by rw [hsame]), hcarries⟩
    · exact outboxStage_onlyReplies h honly

/-- The rows that a run adds are replies. -/
theorem run_onlyReplies (config : AppConfig) (snapshot : ConversationSnapshot)
    (hinbound : msg.direction = .inbound) (s : PipelineState) :
    OnlyReplies serde msg s
      (runPipeline (assemble config serde env) (.new config snapshot msg) s).2 := by
  have hcarries : Carries msg (.new config snapshot msg) :=
    ⟨rfl, rfl, fun houtbound => nomatch hinbound.symm.trans houtbound⟩
  refine run_holds (P := fun ctx t => Carries msg ctx ∧ OnlyReplies serde msg s t)
    (fun _ _ h => h.2) ?_ ?_ ⟨hcarries, fun _ _ hrow => .inl hrow⟩
  · rintro stage hstage ctx t ctx' t' ⟨h, honly⟩ hprocess
    obtain ⟨hreplies, hcarries⟩ := stage_onlyReplies hstage h honly
    rw [hprocess] at hreplies hcarries
    exact ⟨hcarries ctx' rfl, hreplies⟩
  · rintro stage hstage ctx t e t' ⟨h, honly⟩ hprocess
    obtain ⟨hreplies, -⟩ := stage_onlyReplies hstage h honly
    rw [hprocess] at hreplies
    exact hreplies

end Pipeline

/-! ## The channels of the runtime -/

/-- What `AppRuntime::new` registers. -/
inductive RuntimeChannel where
  | wechat
  | dingtalk
  | feishu (cfg : OpenApiConfig)

/-- `Channel::id` -/
def RuntimeChannel.id : RuntimeChannel → ChannelId
  | .wechat => ⟨"wechat"⟩
  | .dingtalk => ⟨"dingtalk"⟩
  | .feishu cfg => feishuChannelId cfg.accountId

/-- The channels in the order in which they are registered. -/
def runtimeChannels (feishu : OpenApiConfig) (feishuAccounts : List OpenApiConfig) :
    List RuntimeChannel :=
  .wechat :: .dingtalk :: .feishu feishu :: feishuAccounts.map .feishu

/-- `ChannelRegistry::register` for each of them: one with the id of an earlier
one takes its place. -/
def registered (feishu : OpenApiConfig) (feishuAccounts : List OpenApiConfig) :
    Map ChannelId RuntimeChannel :=
  Map.insertAll RuntimeChannel.id ∅ (runtimeChannels feishu feishuAccounts)

/-- The registry, for channels that send as `sendMessage` says. -/
def runtimeRegistry (feishu : OpenApiConfig) (feishuAccounts : List OpenApiConfig)
    (sendMessage : RuntimeChannel → String → MessageContent → Except ChannelError SendReceipt) :
    ChannelRegistry :=
  ⟨fun id => ((registered feishu feishuAccounts).lookup id).map sendMessage⟩

/-- The account that answers for a channel: the last one that has its id. -/
def answering (accounts : List OpenApiConfig) (id : ChannelId) : Option OpenApiConfig :=
  accounts.reverse.find? fun account => feishuChannelId account.accountId = id

section Registry

variable {feishu : OpenApiConfig} {feishuAccounts accounts : List OpenApiConfig}

theorem head?_feishuChannelId (accountId : String) :
    (feishuChannelId accountId).name.toList.head? = some 'f' := by
  unfold feishuChannelId
  dsimp only
  split
  · rfl
  · rw [String.toList_append]
    rfl

theorem find?_map_feishu (id : ChannelId) :
    ((accounts.map RuntimeChannel.feishu).find? fun channel => channel.id = id) =
      (accounts.find? fun account => feishuChannelId account.accountId = id).map .feishu := by
  have hid : ∀ account, (RuntimeChannel.feishu account).id = feishuChannelId account.accountId :=
    fun _ => rfl
  rw [List.find?_map]
  simp only [Function.comp_def, hid]

/-- No other channel has the id of an account. -/
theorem lookup_registered (accountId : String) :
    (registered feishu feishuAccounts).lookup (feishuChannelId accountId) =
      (answering (feishu :: feishuAccounts) (feishuChannelId accountId)).map .feishu := by
  have hchannels : runtimeChannels feishu feishuAccounts =
      .wechat :: .dingtalk :: (feishu :: feishuAccounts).map .feishu := rfl
  have hother : ∀ channel ∈ [RuntimeChannel.dingtalk, .wechat],
      channel.id ≠ feishuChannelId accountId := by
    intro channel hchannel hid
    have hhead := head?_feishuChannelId accountId
    rw [← hid] at hhead
    simp only [List.mem_cons, List.not_mem_nil, or_false] at hchannel
    rcases hchannel with rfl | rfl
    · exact absurd hhead (by decide)
    · exact absurd hhead (by decide)
  have hnone : [RuntimeChannel.dingtalk, .wechat].find?
      (fun channel => channel.id = feishuChannelId accountId) = none := by
    simpa using hother
  unfold registered answering
  rw [Map.lookup_insertAll, hchannels, List.reverse_cons, List.reverse_cons, List.append_assoc,
    ← List.map_reverse, List.find?_append, find?_map_feishu, List.singleton_append, hnone,
    Option.or_none, AList.lookup_empty, Option.or_none]

theorem answering_eq_some {id : ChannelId} {owner : OpenApiConfig}
    (h : answering accounts id = some owner) :
    owner ∈ accounts ∧ feishuChannelId owner.accountId = id := by
  have hid := List.find?_some h
  exact ⟨List.mem_reverse.mp (List.mem_of_find?_eq_some h), of_decide_eq_true hid⟩

theorem exists_answering {account : OpenApiConfig} (h : account ∈ accounts) :
    ∃ owner, answering accounts (feishuChannelId account.accountId) = some owner := by
  refine Option.isSome_iff_exists.mp (List.find?_isSome.mpr ⟨account, ?_, ?_⟩)
  · exact List.mem_reverse.mpr h
  · exact decide_eq_true rfl

/-- Each account answers for itself exactly if no two of them have one channel
id. -/
theorem answering_self_iff :
    (∀ account ∈ accounts, answering accounts (feishuChannelId account.accountId) = some account) ↔
      ∀ account ∈ accounts, ∀ other ∈ accounts,
        feishuChannelId account.accountId = feishuChannelId other.accountId → account = other := by
  constructor
  · intro h account haccount other hother hid
    have hself := h account haccount
    rw [hid, h other hother] at hself
    exact (Option.some.inj hself).symm
  · intro h account haccount
    obtain ⟨owner, howner⟩ := exists_answering haccount
    obtain ⟨hmem, hid⟩ := answering_eq_some howner
    rw [howner, h owner hmem account haccount hid]

end Registry

/-! ## The way of a reply -/

theorem message_of_dispatches {json : SerdeJson} {fresh : Fresh} {configs : List FeishuConfig}
    {headers : HeaderMap} {body : List UInt8} {cfg : FeishuConfig} {msg : Message}
    (h : Dispatches json fresh configs headers body cfg msg) :
    cfg ∈ configs ∧ ∃ header event, msg = eventMessage json fresh cfg header event := by
  obtain ⟨payload, envelope, -, hselected, -⟩ := (dispatches_iff fresh).mp ⟨msg, h⟩
  refine ⟨mem_of_selectFeishuConfig hselected, ?_⟩
  obtain ⟨payload, hdispatch⟩ :
      ∃ payload, parseWebhookEvent json fresh payload cfg = .ok (.message msg) := by
    unfold Dispatches webhookDispatch at h
    split at h
    · cases h
    · split at h
      · cases h
      · split at h
        · cases h
        · split at h
          · cases h
          · cases h
            exact ⟨_, ‹_›⟩
  obtain ⟨envelope, -, -, hmessage⟩ := parseWebhookEvent_eq_message_iff.mp hdispatch
  unfold dispatchOf at hmessage
  split at hmessage
  · cases hmessage
  · split at hmessage
    · cases hmessage
    · split at hmessage
      · cases hmessage
      · split at hmessage
        · cases hmessage
        · cases hmessage
          exact ⟨_, _, rfl⟩

/-- The row of a reply is sent by the channel that its route names, if the
columns are read back. -/
theorem registrySend_of_lookup {codec : RowCodec} {registry : ChannelRegistry}
    {row : OutboxEntry} {routeKey : RouteKey} {content : MessageContent}
    (hroute : codec.routeKey row.routeKey = .ok routeKey)
    (hcontent : codec.payload row.payload = .ok content)
    {sendMessage : String → MessageContent → Except ChannelError SendReceipt}
    (hchannel : registry.channels routeKey.channel = some sendMessage) :
    registrySend codec registry row =
      ((sendMessage routeKey.peerId content).mapError ChannelError.toString).map fun _ => () := by
  simp only [registrySend, hroute, hcontent, Except.mapError, bind, Except.bind,
    ChannelRegistry.sendVia, hchannel]
  cases sendMessage routeKey.peerId content <;> rfl

/-! ## The requests of a send -/

/-- A token of the account: the one of its configuration, or one that a request
for a token was answered with. -/
def Granted (cfg : OpenApiConfig) (w : Exchange) (token : String) : Prop :=
  token = cfg.tenantAccessToken ∨ ∃ status parsed,
    .response status (.ok parsed) ∈ w.auths ∧ token = parsed.tenantAccessToken

/-- The calls for a token: it is asked for at the account's own server, with its
own credentials, and none but the account's own is stored. -/
def TokenCall (cfg : OpenApiConfig) (own : String → Prop) : SendCall → Prop
  | .lockToken => True
  | .postAuth _ endpoint appId appSecret =>
    endpoint = s!"{trimEndSlashes cfg.baseUrl}/open-apis/auth/v3/tenant_access_token/internal" ∧
      appId = cfg.appId ∧ appSecret = cfg.appSecret
  | .storeToken token => own token
  | _ => False

/-- The calls of a send of any content. -/
def SendsAs (cfg : OpenApiConfig) (own : String → Prop) (c : SendCall) : Prop :=
  c.IsPlain ∨ TokenCall cfg own c

/-- The calls of a send of the text to the peer: the message goes to the account's
own server, with a token of its own. -/
def CallOf (toText : JsonText) (peer reply : String) (cfg : OpenApiConfig) (own : String → Prop) :
    SendCall → Prop
  | .postMessages _ endpoint receiveIdType token request =>
    endpoint = s!"{trimEndSlashes cfg.baseUrl}/open-apis/im/v1/messages" ∧ own token ∧
      receiveIdType = cfg.receiveIdType ∧
      request = ⟨peer, "text", toText (.obj [("text", .str reply)])⟩
  | .newUuid | .timestampMillis => True
  | c => TokenCall cfg own c

/-- The tokens that a send is told are the account's own. -/
def Gives (own : String → Prop) : (c : SendCall) → c.Reply → Prop
  | .lockToken, token => own token
  | .postAuth _ _ _ _, .response _ (.ok parsed) => own parsed.tenantAccessToken
  | _, _ => True

section Send

variable {toText : JsonText} {cfg : OpenApiConfig} {own : String → Prop} {peer reply : String}

theorem callOf_of_tokenCall {c : SendCall} (h : TokenCall cfg own c) :
    CallOf toText peer reply cfg own c := by
  cases c <;> first | exact h | exact h.elim

theorem careful_ensureTenantToken (client : Client) :
    Careful (TokenCall cfg own) (Gives own) (ensureTenantToken client cfg) := by
  unfold ensureTenantToken
  refine careful_perform_bind trivial fun cached _ => ?_
  refine careful_ite (careful_pure _) (careful_ite (careful_pure _) ?_)
  refine careful_perform_bind ⟨rfl, rfl, rfl⟩ fun answer hanswer => ?_
  split
  · exact careful_pure _
  · exact careful_pure _
  · exact careful_ite (careful_pure _)
      (careful_perform_bind hanswer fun _ _ => careful_pure _)

/-- The token that a send goes on with is the account's own. -/
theorem yields_ensureTenantToken (client : Client) :
    Yields (Gives own) (fun result => ∀ token, result = .ok token → own token)
      (ensureTenantToken client cfg) := by
  unfold ensureTenantToken
  refine yields_perform_bind fun cached hcached => ?_
  split
  · exact yields_pure fun token htoken => Except.ok.inj htoken ▸ hcached
  · split
    · exact yields_pure nofun
    · refine yields_perform_bind fun answer hanswer => ?_
      split
      · exact yields_pure nofun
      · exact yields_pure nofun
      · split
        · exact yields_pure nofun
        · refine yields_perform_bind fun _ _ => yields_pure fun token htoken => ?_
          exact Except.ok.inj htoken ▸ hanswer

theorem careful_requestText {token : String} (htoken : own token) :
    Careful (CallOf toText peer reply cfg own) (Gives own)
      (requestMessage cfg token ⟨peer, "text", toText (.obj [("text", .str reply)])⟩) := by
  unfold requestMessage
  refine careful_perform_bind ⟨rfl, htoken, rfl, rfl⟩ fun answer _ => ?_
  split
  · exact careful_pure _
  · exact careful_pure _
  · refine careful_ite (careful_pure _) (careful_perform_bind trivial fun _ _ => ?_)
    exact careful_perform_bind trivial fun _ _ => careful_pure _

/-- A text is sent with the calls of its account. -/
theorem careful_sendText :
    Careful (CallOf toText peer reply cfg own) (Gives own)
      (Sending.program toText cfg (.message peer (.text reply))) := by
  refine careful_bind ?_ fun _ => careful_pure _
  refine careful_bind_of_yields (careful_mono (fun _ => callOf_of_tokenCall)
    (careful_ensureTenantToken .channel)) (yields_ensureTenantToken .channel) fun result htoken => ?_
  cases result with
  | error e => exact careful_pure _
  | ok token =>
    show Careful _ _ (requestMessage cfg token
      ⟨peer, "text", toText (.obj [("text", .str reply)])⟩ >>= fun result => pure (result, true))
    exact careful_bind (careful_requestText (htoken token rfl)) fun _ => careful_pure _

theorem careful_sending (sending : Sending) :
    Careful (SendsAs cfg own) (Gives own) (sending.program toText cfg) :=
  careful_program (fun _ => .inl)
    (fun client => careful_mono (fun _ => .inr) (careful_ensureTenantToken client)) sending

end Send

section Runs

variable {toText : JsonText} {cfg : OpenApiConfig} {peer reply : String} {s s' : Sends} {n : Nat}
  {m : SendMove}

theorem Granted.exchange {w : Exchange} {token : String} (h : Granted cfg w token)
    (o : Behaviour) (c : SendCall) : Granted cfg (exchange w o c).2 token := by
  refine h.imp_right ?_
  rintro ⟨status, parsed, hmem, htoken⟩
  refine ⟨status, parsed, ?_, htoken⟩
  cases c with
  | postAuth => exact List.mem_cons_of_mem _ hmem
  | _ => exact hmem

/-- The session and the server give tokens of the account only. -/
theorem gives_exchange {own : String → Prop} {w : Exchange} {o : Behaviour} {c : SendCall}
    (hsession : Granted cfg w w.token)
    (hown : ∀ token, Granted cfg (exchange w o c).2 token → own token) :
    Gives own c (exchange w o c).1 := by
  cases c with
  | lockToken => exact hown _ hsession
  | postAuth client endpoint appId appSecret =>
    show Gives own (.postAuth client endpoint appId appSecret)
      (o (.postAuth client endpoint appId appSecret))
    cases hanswer : o (.postAuth client endpoint appId appSecret) with
    | failed e => trivial
    | response status body =>
      cases body with
      | error e => trivial
      | ok parsed => exact hown _ (.inr ⟨status, parsed, hanswer ▸ List.mem_cons_self, rfl⟩)
  | _ => trivial

/-- The send with the number `n`, if there is one, makes only such calls, whose
tokens are those of the account. -/
def KeepsTo (fits : (String → Prop) → SendCall → Prop) (cfg : OpenApiConfig) (n : Nat) (s : Sends) :
    Prop :=
  ∀ own, (∀ token, Granted cfg s.shared token → own token) →
    ∀ task, s.tasks[n]? = some task → Careful (fits own) (Gives own) task.rest

theorem keepsTo_step {fits : (String → Prop) → SendCall → Prop}
    (hsession : Granted cfg s.shared s.shared.token) (hn : n < s.tasks.length)
    (h : KeepsTo fits cfg n s) (hstep : s.step toText cfg m = some s') : KeepsTo fits cfg n s' := by
  intro own hown task htask
  cases m with
  | start sending =>
    cases hstep
    exact h own hown task ((List.getElem?_append_left hn).symm.trans htask)
  | call k o =>
    obtain ⟨marks, c, next, hmoves, rfl⟩ := step_call_cases hstep
    have hbefore : ∀ token, Granted cfg s.shared token → own token :=
      fun token htoken => hown token (htoken.exchange o c)
    by_cases hkn : k = n
    · subst hkn
      rw [List.getElem?_set_self hn] at htask
      cases htask
      exact (careful_call_iff.mp (h own hbefore _ hmoves)).2 _ (gives_exchange hsession hown)
    · exact h own hbefore task ((List.getElem?_set_ne hkn).symm.trans htask)

/-- The session has a token of the account, and every send keeps to the account. -/
structure Owned (cfg : OpenApiConfig) (s : Sends) : Prop where
  token : Granted cfg s.shared s.shared.token
  sends : ∀ n, KeepsTo (SendsAs cfg) cfg n s

theorem owned_init (cfg : OpenApiConfig) : Owned cfg (.init cfg) :=
  ⟨.inl rfl, fun _ _ _ _ htask => nomatch htask⟩

theorem owned_step (s : Sends) (m : SendMove) (s' : Sends) (h : Owned cfg s)
    (hstep : s.step toText cfg m = some s') : Owned cfg s' := by
  constructor
  · cases m with
    | start sending =>
      cases hstep
      exact h.token
    | call k o =>
      obtain ⟨marks, c, next, hmoves, rfl⟩ := step_call_cases hstep
      have hcall : SendsAs cfg (Granted cfg (exchange s.shared o c).2) c :=
        (careful_call_iff.mp (h.sends k _ (fun _ htoken => htoken.exchange o c) _ hmoves)).1
      cases c with
      | storeToken token => exact hcall.resolve_left id
      | _ => exact h.token.exchange o _
  · intro n
    by_cases hn : n < s.tasks.length
    · exact keepsTo_step h.token hn (h.sends n) hstep
    · intro own hown task htask
      cases m with
      | start sending =>
        cases hstep
        rw [List.getElem?_append_right (Nat.not_lt.mp hn)] at htask
        rw [List.mem_singleton.mp (List.mem_of_getElem? htask)]
        exact careful_sending sending
      | call k o =>
        obtain ⟨marks, c, next, hmoves, rfl⟩ := step_call_cases hstep
        rw [List.getElem?_eq_none (by simpa using hn)] at htask
        cases htask

/-- A call that a send makes, in a run of the sends of the account, and what the
account has exchanged before it. -/
def Makes (toText : JsonText) (cfg : OpenApiConfig) (sending : Sending) (w : Exchange)
    (c : SendCall) : Prop :=
  ∃ moves before later after marks next,
    run (Sends.step toText cfg) (.init cfg) moves = some before ∧
    run (Sends.step toText cfg) before (.start sending :: later) = some after ∧
    after.tasks[before.tasks.length]? = some ⟨.call c next, marks⟩ ∧ after.shared = w

/-- What a program keeps to, a send of it does in every run. -/
theorem fits_of_makes {fits : (String → Prop) → SendCall → Prop} {sending : Sending}
    (hsending : ∀ own, Careful (fits own) (Gives own) (sending.program toText cfg))
    {w : Exchange} {c : SendCall} (h : Makes toText cfg sending w c) :
    fits (Granted cfg w) c := by
  obtain ⟨moves, before, later, after, marks, next, hbefore, hafter, htask, rfl⟩ := h
  have howned : Owned cfg before := run_invariant owned_step (owned_init cfg) hbefore
  obtain ⟨started, hstart, hlater⟩ := run_cons_eq_some.mp hafter
  have hstep : ∀ s m s', Owned cfg s ∧ before.tasks.length < s.tasks.length ∧
      KeepsTo fits cfg before.tasks.length s → s.step toText cfg m = some s' →
      Owned cfg s' ∧ before.tasks.length < s'.tasks.length ∧
        KeepsTo fits cfg before.tasks.length s' := by
    rintro s m s' ⟨howned, hlt, hkeeps⟩ hstep
    refine ⟨owned_step s m s' howned hstep, ?_, keepsTo_step howned.token hlt hkeeps hstep⟩
    cases m with
    | start sending =>
      cases hstep
      simp only [List.length_append]
      omega
    | call k o =>
      obtain ⟨marks, c, next, hmoves, rfl⟩ := step_call_cases hstep
      rwa [List.length_set]
  have hstarted : Owned cfg started ∧ before.tasks.length < started.tasks.length ∧
      KeepsTo fits cfg before.tasks.length started := by
    refine ⟨owned_step _ _ _ howned hstart, ?_⟩
    cases hstart
    refine ⟨by simp, fun own hown task htask => ?_⟩
    rw [List.getElem?_concat_length] at htask
    cases htask
    exact hsending own
  obtain ⟨-, -, hkeeps⟩ := run_invariant hstep hstarted hlater
  exact (careful_call_iff.mp (hkeeps _ (fun _ htoken => htoken) _ htask)).1

end Runs

/-- The calls that send nothing. -/
def SendCall.IsLocal : SendCall → Prop
  | .newUuid | .timestampMillis => True
  | _ => False

/-- The account sends by its own requests: a disabled one by none; in every run of
the sends of an enabled one, and whatever the server replies, each request for a
token is of the account, and the requests for this text are too. -/
structure OwnRequests (toText : JsonText) (owner : OpenApiConfig) (peer reply : String) : Prop where
  stub : owner.enabled = false → Careful SendCall.IsLocal (fun _ _ => True)
    (sendMessageInner toText (.fromConfig owner) peer (.text reply))
  asks : ∀ sending w c, Makes toText owner sending w c → SendsAs owner (Granted owner w) c
  sends : ∀ w c, Makes toText owner (.message peer (.text reply)) w c →
    CallOf toText peer reply owner (Granted owner w) c

theorem ownRequests (toText : JsonText) (owner : OpenApiConfig) (peer reply : String) :
    OwnRequests toText owner peer reply where
  stub := by
    intro hdisabled
    unfold FeishuMode.fromConfig
    rw [if_neg (by simp [hdisabled])]
    exact careful_perform_bind trivial fun _ _ => careful_perform_bind trivial fun _ _ =>
      careful_perform_bind trivial fun _ _ => careful_pure _
  asks sending _ _ := fits_of_makes fun _ => careful_sending sending
  sends _ _ := fits_of_makes fun _ => careful_sendText

/-- The row is a reply to the message with the given text: if its columns are
read back, an attempt for it is a send of the text to the message's peer by the
account, with the account's own requests. -/
structure SentBy (feishu : OpenApiConfig) (feishuAccounts : List OpenApiConfig) (serde : SerdeText)
    (msg : Message) (owner : OpenApiConfig) (reply : String) (row : OutboxEntry) : Prop where
  id : row.id = msg.id
  routeKey : serde.routeKey msg.routeKey = .ok row.routeKey
  payload : serde.content (.text reply) = .ok row.payload
  attempt : ∀ codec sendMessage, codec.routeKey row.routeKey = .ok msg.routeKey →
    codec.payload row.payload = .ok (.text reply) →
    registrySend codec (runtimeRegistry feishu feishuAccounts sendMessage) row =
      ((sendMessage (.feishu owner) msg.routeKey.peerId (.text reply)).mapError
        ChannelError.toString).map fun _ => ()
  requests : ∀ toText, OwnRequests toText owner msg.routeKey.peerId reply

/-- Every row that a message of the webhook leaves in the outbox is its reply, and
is sent by the account that answers for the one that has accepted the message:
this one itself, unless another account has the same channel id. -/
theorem reply_returns {json : SerdeJson} {fresh : Fresh} {feishu : OpenApiConfig}
    {feishuAccounts : List OpenApiConfig} {headers : HeaderMap} {body : List UInt8}
    {cfg : FeishuConfig} {msg : Message}
    (hdispatch : Dispatches json fresh
      (feishuConfigs feishu.toFeishuConfig (feishuAccounts.map OpenApiConfig.toFeishuConfig))
      headers body cfg msg)
    (config : AppConfig) (serde : SerdeText) (env : Surroundings) (snapshot : ConversationSnapshot)
    {s t : PipelineState}
    (hrun : (runPipeline (assemble config serde env) (.new config snapshot msg) s).2 = t)
    {id : String} {row : OutboxEntry} (hfree : s.database.outbox.find? id = none)
    (hrow : t.database.outbox.find? id = some row) :
    ∃ owner reply, answering (feishu :: feishuAccounts) msg.routeKey.channel = some owner ∧
      SentBy feishu feishuAccounts serde msg owner reply row ∧
      (owner.toFeishuConfig = cfg ∨ ∃ account ∈ feishu :: feishuAccounts,
        account.toFeishuConfig = cfg ∧ account ≠ owner ∧
          feishuChannelId account.accountId = feishuChannelId owner.accountId) := by
  obtain ⟨hmem, header, event, hmessage⟩ := message_of_dispatches hdispatch
  obtain ⟨account, haccount, hcfg⟩ : ∃ account ∈ feishu :: feishuAccounts,
      account.toFeishuConfig = cfg := List.mem_map.mp hmem
  have hchannel : msg.routeKey.channel = feishuChannelId account.accountId := by
    rw [hmessage, ← hcfg]
    simp only [eventMessage, Message.newInbound]
  obtain ⟨owner, howner⟩ := exists_answering haccount
  have hinbound : msg.direction = .inbound := by
    rw [hmessage]
    simp only [eventMessage, Message.newInbound]
  have hreply : IsReply serde msg row := by
    have honly : OnlyReplies serde msg s (runPipeline (assemble config serde env)
        (.new config snapshot msg) s).2 := run_onlyReplies config snapshot hinbound s
    rw [hrun] at honly
    exact (honly id row hrow).resolve_left fun hold => by rw [hfree] at hold; cases hold
  obtain ⟨hid, hroute, reply, hcontent⟩ := hreply
  refine ⟨owner, reply, hchannel ▸ howner, ⟨hid, hroute, hcontent, ?_, fun _ => ownRequests _ _ _ _⟩,
    ?_⟩
  · intro codec sendMessage hroute' hcontent'
    refine registrySend_of_lookup hroute' hcontent' ?_
    show ((registered feishu feishuAccounts).lookup msg.routeKey.channel).map sendMessage = _
    rw [hchannel, lookup_registered, howner]
    rfl
  · by_cases hself : account = owner
    · exact .inl (hself ▸ hcfg)
    · exact .inr ⟨account, haccount, hcfg, hself, (answering_eq_some howner).2.symm⟩

/-! ## A question to the team -/

/-- An event with the token of the team. -/
def askedText : String :=
  "\x7b\"header\":\x7b\"event_type\":\"im.message.receive_v1\",\"token\":\"team-token\"\x7d," ++
    "\"event\":\x7b\"message\":\x7b\"message_id\":\"om_1\",\"message_type\":\"text\"," ++
    "\"content\":\"\x7b\\\"text\\\":\\\"hello\\\"\x7d\"\x7d\x7d\x7d"

def askedContent : String := "\x7b\"text\":\"hello\"\x7d"

def askedPayload : Json :=
  .obj [("header",
      .obj [("event_type", .str "im.message.receive_v1"), ("token", .str "team-token")]),
    ("event", .obj [("message", .obj [("message_id", .str "om_1"), ("message_type", .str "text"),
      ("content", .str askedContent)])])]

def askedHeader : EventHeader := ⟨"", "im.message.receive_v1", "", "team-token"⟩

def askedEvent : EventBody := ⟨⟨"", "", ""⟩, ⟨"om_1", "", "", "text", askedContent, ""⟩⟩

/-- `serde_json`, for these two texts. -/
def askedSerde : SerdeJson where
  fromSlice := fun bytes =>
    if bytes = Bytes.asBytes askedText then .ok askedPayload
    else if bytes = Bytes.asBytes askedContent then .ok (.obj [("text", .str "hello")])
    else .error "expected value"
  envelopeError := fun _ => "invalid type"

def teamApi : OpenApiConfig where
  toFeishuConfig := team
  baseUrl := "https://open.feishu.cn/"
  appId := "cli_1"
  appSecret := "secret"
  tenantAccessToken := ""
  receiveIdType := "open_id"
  timeoutMs := 10000

/-- The runtime's own account, as it is by default. -/
def defaultApi : OpenApiConfig where
  toFeishuConfig := .default
  baseUrl := "https://open.feishu.cn"
  appId := ""
  appSecret := ""
  tenantAccessToken := ""
  receiveIdType := "open_id"
  timeoutMs := 10000

def askedMessage : Message := eventMessage askedSerde ⟨"", 0⟩ team askedHeader askedEvent

theorem asked_dispatches :
    Dispatches askedSerde ⟨"", 0⟩ (feishuConfigs .default [team]) [] (Bytes.asBytes askedText) team
      askedMessage := by
  have hpayload : askedSerde.fromSlice (Bytes.asBytes askedText) = .ok askedPayload := by
    simp only [askedSerde, if_true]
  have hselected : selectFeishuConfig (feishuConfigs .default [team]) askedPayload = some team := by
    decide +kernel
  have hdispatch : parseWebhookEvent askedSerde ⟨"", 0⟩ askedPayload team =
      .ok (.message askedMessage) :=
    parseWebhookEvent_eq_message_iff.mpr
      ⟨⟨"", "", "", some askedHeader, some askedEvent⟩, by decide +kernel, by decide +kernel, rfl⟩
  unfold Dispatches webhookDispatch
  simp only [hpayload, hselected, hdispatch]
  rfl

theorem askedMessage_content : askedMessage.content = .text "hello" := by
  have hne : Bytes.asBytes askedContent ≠ Bytes.asBytes askedText := by decide +kernel
  have hparsed : askedSerde.fromSlice (Bytes.asBytes askedEvent.message.content) =
      .ok (.obj [("text", .str "hello")]) := by
    simp only [askedSerde, askedEvent, if_neg hne, if_true]
  unfold askedMessage eventMessage Message.newInbound
  rw [hparsed]
  rfl

/-- The question to the team is answered by the team. -/
theorem asked_returned :
    ∃ row owner reply,
      (runPipeline (assemble limitedConfig derivedText failingBackend)
        (.new limitedConfig ⟨[]⟩ askedMessage) idleState).2.database.outbox.find? "om_1" =
          some row ∧
      answering [defaultApi, teamApi] askedMessage.routeKey.channel = some owner ∧
      SentBy defaultApi [teamApi] derivedText askedMessage owner reply row ∧
      (owner.toFeishuConfig = team ∨ ∃ account ∈ [defaultApi, teamApi],
        account.toFeishuConfig = team ∧ account ≠ owner ∧
          feishuChannelId account.accountId = feishuChannelId owner.accountId) := by
  have hdispatch : Dispatches askedSerde ⟨"", 0⟩ (feishuConfigs defaultApi.toFeishuConfig
      ([teamApi].map OpenApiConfig.toFeishuConfig)) [] (Bytes.asBytes askedText) team
        askedMessage :=
    asked_dispatches
  have hid : askedMessage.id = "om_1" := by decide +kernel
  have hcontent := askedMessage_content
  have hpasses : ¬ RateLimited limitedConfig derivedText failingBackend
      (.new limitedConfig ⟨[]⟩ askedMessage) idleState := by
    unfold RateLimited
    decide +kernel
  -- what matters of the message is known, so that it is not computed again
  generalize askedMessage = msg at *
  obtain ⟨routeKeyJson, reply, payloadJson, -, -, hrows⟩ :=
    run_assemble_of_text derivedText_total ⟨rfl, rfl⟩ rfl ⟨rfl, rfl⟩ hcontent hpasses
  have hrow : (runPipeline (assemble limitedConfig derivedText failingBackend)
      (.new limitedConfig ⟨[]⟩ msg) idleState).2.database.outbox.find? "om_1" =
        some (.new msg.id routeKeyJson payloadJson failingBackend.timestamp) := by
    rw [KeyedTable.find?_eq_some_iff, hrows]
    exact ⟨List.mem_append_right _ (List.mem_singleton.mpr rfl), hid⟩
  obtain ⟨owner, reply, h⟩ :=
    reply_returns hdispatch limitedConfig derivedText failingBackend ⟨[]⟩ rfl rfl hrow
  exact ⟨_, owner, reply, hrow, h⟩

end MagicLaw.Feishu
