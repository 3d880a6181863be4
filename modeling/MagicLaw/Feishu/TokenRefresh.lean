import MagicLaw.Feishu.Delivery
import MagicLaw.Lib.Machine

/-!
# A cached tenant token is never refreshed

The sends of one `FeishuChannel` share a session.  `ensure_tenant_token`
returns the token of the session if it is not blank, and stores one that it has
asked for; nothing else touches it.

The machine has the sends of a channel in any number, each at one of its
calls, and any server.  A send is marked when it takes a token from the session
and when it asks for one.

* `fresh_send_quiet`: with a token in the session a send neither asks for one
  nor stores one, whatever the server replies.
* `never_refreshes`: after a send that took a token from the session and
  failed, no send that starts later asks for a token.
-/

namespace MagicLaw.Feishu

open Lib Lib.Program Lib.Machine Lib.Text
open MagicLaw.Outbox (ChannelError SendReceipt)
open MagicLaw.Routing (MessageContent)

/-! ## The sends of a channel -/

inductive Sending where
  /-- `send_message` -/
  | message (recipient : String) (content : MessageContent)
  /-- `send_text_with_delivery_evidence` -/
  | text (recipient body : String)

def FeishuTextDeliveryEvidence.result? : FeishuTextDeliveryEvidence →
    Option (Except ChannelError SendReceipt)
  | .messageResult result _ => some result
  | .authBeforeMessage | .unavailable => none

def Sending.program (toText : JsonText) (cfg : OpenApiConfig) :
    Sending → Send (Option (Except ChannelError SendReceipt))
  | .message recipient content => do
    let (result, _) ← sendMessageInner toText (.openApi cfg) recipient content
    pure (some result)
  | .text recipient body => do
    let evidence ← sendTextWithDeliveryEvidence toText (.openApi cfg) recipient body
    pure evidence.result?

/-- What a send has done with tokens: taken one that was in the session, and
asked for one. -/
structure Marks where
  usedCached : Bool
  requested : Bool
  deriving DecidableEq

def Marks.note (marks : Marks) (_ : Exchange) (_ : Behaviour) : (c : SendCall) → c.Reply → Marks
  | .lockToken, token => { marks with usedCached := marks.usedCached || trim token ≠ "" }
  | .postAuth _ _ _ _, _ => { marks with requested := true }
  | _, _ => marks

structure SendTask where
  rest : Send (Option (Except ChannelError SendReceipt))
  marks : Marks

structure Sends where
  shared : Exchange
  tasks : List SendTask

/-- The token of the configuration is in the session from the start. -/
def Sends.init (cfg : OpenApiConfig) : Sends where
  shared := ⟨cfg.tenantAccessToken, [], []⟩
  tasks := []

inductive SendMove where
  | start (sending : Sending)
  /-- the next call of the send with this number -/
  | call (n : Nat) (o : Behaviour)

def Sends.step (toText : JsonText) (cfg : OpenApiConfig) (s : Sends) : SendMove → Option Sends
  | .start sending =>
    some { s with tasks := s.tasks ++ [⟨sending.program toText cfg, ⟨false, false⟩⟩] }
  | .call n o =>
    s.tasks[n]?.bind fun task =>
      (task.rest.step (Handler.watched exchange Marks.note) o (s.shared, task.marks)).map
        fun (rest, shared, marks) => ⟨shared, s.tasks.set n ⟨rest, marks⟩⟩

/-- What a call does to a send and to the session. -/
theorem step_call_cases {toText : JsonText} {cfg : OpenApiConfig} {s s' : Sends} {n : Nat}
    {o : Behaviour} (hstep : s.step toText cfg (.call n o) = some s') :
    ∃ marks i next, s.tasks[n]? = some ⟨.call i next, marks⟩ ∧
      s' = ⟨(exchange s.shared o i).2, s.tasks.set n
        ⟨next (exchange s.shared o i).1, marks.note s.shared o i (exchange s.shared o i).1⟩⟩ := by
  obtain ⟨task, htask, hmade⟩ := Option.bind_eq_some_iff.mp hstep
  obtain ⟨rest, marks⟩ := task
  cases rest with
  | ret r => cases hmade
  | call i next =>
    cases hmade
    exact ⟨marks, i, next, htask, rfl⟩

/-! ## What a send may do to the session -/

/-- The calls that do not touch tokens. -/
def SendCall.IsPlain : SendCall → Prop
  | .lockToken | .storeToken _ | .postAuth _ _ _ _ => False
  | .buildAuthClient _ | .postMessages _ _ _ _ _ | .uploadMedia _ | .pathExists _ | .newUuid
  | .timestampMillis => True

/-- Only a token that is not blank is stored. -/
def SendCall.StoresToken : SendCall → Prop
  | .storeToken token => trim token ≠ ""
  | _ => True

/-- No token is asked for, and none is stored. -/
def SendCall.IsQuiet : SendCall → Prop
  | .storeToken _ | .postAuth _ _ _ _ => False
  | _ => True

/-- The session has a token. -/
def Cached : (c : SendCall) → c.Reply → Prop
  | .lockToken, token => trim token ≠ ""
  | _, _ => True

section Careful

variable {fits : SendCall → Prop} {told : (c : SendCall) → c.Reply → Prop} {toText : JsonText}
  {cfg : OpenApiConfig}

theorem careful_ask (hplain : ∀ c : SendCall, c.IsPlain → fits c) {c : SendCall}
    (hc : c.IsPlain) : Careful fits told (ask c) := careful_perform (hplain c hc)

theorem careful_looksLikeUploadSource (hplain : ∀ c : SendCall, c.IsPlain → fits c)
    (value : String) : Careful fits told (looksLikeUploadSource value) := by
  unfold looksLikeUploadSource
  exact careful_ite (careful_pure _) (careful_ask (c := .pathExists _) hplain trivial)

theorem careful_imageBody (hplain : ∀ c : SendCall, c.IsPlain → fits c) (token url : String) :
    Careful fits told (imageBody toText token url) := by
  unfold imageBody
  refine careful_ite (careful_pure _) ?_
  refine careful_bind (careful_looksLikeUploadSource hplain url) fun isSource => ?_
  refine careful_ite (careful_pure _) ?_
  refine careful_bind (careful_ask (c := .uploadMedia _) hplain trivial) fun uploaded => ?_
  split
  · exact careful_pure _
  · exact careful_ite (careful_pure _) (careful_pure _)

theorem careful_fileBody (hplain : ∀ c : SendCall, c.IsPlain → fits c)
    (token url name : String) : Careful fits told (fileBody toText token url name) := by
  unfold fileBody
  refine careful_ite (careful_pure _) ?_
  refine careful_bind (careful_looksLikeUploadSource hplain url) fun isSource => ?_
  refine careful_ite (careful_pure _) ?_
  refine careful_bind (careful_ask (c := .uploadMedia _) hplain trivial) fun uploaded => ?_
  split
  · exact careful_pure _
  · exact careful_pure _

/-- After the token a send makes plain calls only. -/
theorem careful_messageBody (hplain : ∀ c : SendCall, c.IsPlain → fits c) (token : String)
    (content : MessageContent) : Careful fits told (messageBody toText token content) := by
  unfold messageBody
  split
  · exact careful_ite (careful_imageBody hplain token _) (careful_pure _)
  · exact careful_fileBody hplain token _ _
  · exact careful_pure _

theorem careful_requestMessage (hplain : ∀ c : SendCall, c.IsPlain → fits c) (token : String)
    (request : FeishuSendRequest) : Careful fits told (requestMessage cfg token request) := by
  unfold requestMessage
  refine careful_bind (careful_ask (c := .postMessages _ _ _ _ _) hplain trivial) fun response => ?_
  split
  · exact careful_pure _
  · exact careful_pure _
  · refine careful_ite (careful_pure _) ?_
    refine careful_bind (careful_ask (c := .newUuid) hplain trivial) fun _ => ?_
    exact careful_bind (careful_ask (c := .timestampMillis) hplain trivial) fun _ => careful_pure _

theorem careful_sendMessageInner (hplain : ∀ c : SendCall, c.IsPlain → fits c)
    (htoken : ∀ client, Careful fits told (ensureTenantToken client cfg)) (recipient : String)
    (content : MessageContent) :
    Careful fits told (sendMessageInner toText (.openApi cfg) recipient content) := by
  unfold sendMessageInner
  refine careful_bind (htoken .channel) fun result => ?_
  split
  · exact careful_pure _
  · refine careful_bind (careful_messageBody hplain _ content) fun body => ?_
    split
    · exact careful_pure _
    · exact careful_bind (careful_requestMessage hplain _ _) fun _ => careful_pure _

/-- What the calls for the token keep, a whole send keeps. -/
theorem careful_program (hplain : ∀ c : SendCall, c.IsPlain → fits c)
    (htoken : ∀ client, Careful fits told (ensureTenantToken client cfg)) (sending : Sending) :
    Careful fits told (sending.program toText cfg) := by
  cases sending with
  | message recipient content =>
    exact careful_bind (careful_sendMessageInner hplain htoken recipient content)
      fun _ => careful_pure _
  | text recipient body =>
    refine careful_bind ?_ fun _ => careful_pure _
    unfold sendTextWithDeliveryEvidence
    refine careful_bind (careful_ask (c := .buildAuthClient _) hplain trivial) fun built => ?_
    refine careful_ite (careful_pure _) ?_
    refine careful_bind (htoken .auth) fun result => ?_
    split
    · exact careful_pure _
    · exact careful_bind (careful_sendMessageInner hplain htoken recipient _)
        fun _ => careful_pure _

end Careful

theorem careful_ensureTenantToken_storesToken (client : Client) (cfg : OpenApiConfig) :
    Careful SendCall.StoresToken (fun _ _ => True) (ensureTenantToken client cfg) := by
  unfold ensureTenantToken
  refine careful_perform_bind trivial fun cached _ => ?_
  refine careful_ite (careful_pure _) ?_
  refine careful_ite (careful_pure _) ?_
  refine careful_perform_bind trivial fun response _ => ?_
  split
  · exact careful_pure _
  · exact careful_pure _
  · split
    case isTrue => exact careful_pure _
    case isFalse h =>
      simp only [Bool.or_eq_true, decide_eq_true_eq, not_or] at h
      exact careful_perform_bind h.2 fun _ _ => careful_pure _

/-- A send that is told a token goes on without asking for one. -/
theorem careful_ensureTenantToken_quiet (client : Client) (cfg : OpenApiConfig) :
    Careful SendCall.IsQuiet Cached (ensureTenantToken client cfg) := by
  unfold ensureTenantToken
  refine careful_perform_bind trivial fun cached hcached => ?_
  split
  · exact careful_pure _
  · exact absurd hcached ‹_›

theorem send_storesToken (toText : JsonText) (cfg : OpenApiConfig) (sending : Sending) :
    Careful SendCall.StoresToken (fun _ _ => True) (sending.program toText cfg) := by
  refine careful_program (fun c hc => ?_) (careful_ensureTenantToken_storesToken · cfg) sending
  cases c <;> trivial

/-- With a token in the session a send neither asks for one nor stores one. -/
theorem fresh_send_quiet (toText : JsonText) (cfg : OpenApiConfig) (sending : Sending) :
    Careful SendCall.IsQuiet Cached (sending.program toText cfg) := by
  refine careful_program (fun c hc => ?_) (careful_ensureTenantToken_quiet · cfg) sending
  cases c <;> trivial

/-! ## What a call does to the session -/

section Calls

variable {w : Exchange} {o : Behaviour} {c : SendCall}

theorem token_of_isQuiet (h : c.IsQuiet) : (exchange w o c).2.token = w.token := by
  cases c <;> first | rfl | exact h.elim

theorem token_of_storesToken (h : c.StoresToken) (hw : trim w.token ≠ "") :
    trim (exchange w o c).2.token ≠ "" := by
  cases c <;> first | exact h | exact hw

theorem cached_reply (hw : trim w.token ≠ "") : Cached c (exchange w o c).1 := by
  cases c <;> first | exact hw | trivial

theorem requested_note {marks : Marks} (h : c.IsQuiet) (r : c.Reply) :
    (marks.note w o c r).requested = marks.requested := by
  cases c <;> first | rfl | exact h.elim

/-- Who takes a token from the session leaves it there. -/
theorem usedCached_note {marks : Marks}
    (h : (marks.note w o c (exchange w o c).1).usedCached = true) :
    marks.usedCached = true ∨ trim (exchange w o c).2.token ≠ "" := by
  cases c with
  | lockToken =>
    have h : (marks.usedCached || decide (trim w.token ≠ "")) = true := h
    rw [Bool.or_eq_true, decide_eq_true_eq] at h
    exact h
  | _ => exact .inl h

end Calls

/-! ## Runs -/

section Runs

variable {toText : JsonText} {cfg : OpenApiConfig}

/-- What each send keeps to, where what it is told is so, all keep to after a
step. -/
theorem careful_step {fits : SendCall → Prop} {told : (c : SendCall) → c.Reply → Prop}
    {s s' : Sends} {m : SendMove}
    (hsend : ∀ sending : Sending, Careful fits told (sending.program toText cfg))
    (htold : ∀ o c, told c (exchange s.shared o c).1)
    (h : ∀ task ∈ s.tasks, Careful fits told task.rest)
    (hstep : s.step toText cfg m = some s') : ∀ task ∈ s'.tasks, Careful fits told task.rest := by
  cases m with
  | start sending =>
    cases hstep
    exact forall_mem_concat h (hsend sending)
  | call n o =>
    obtain ⟨marks, c, next, htask, rfl⟩ := step_call_cases hstep
    have hnext := (careful_call_iff.mp (h _ (List.mem_of_getElem? htask))).2
    exact forall_mem_set h (hnext _ (htold o c))

/-- No send stores a blank token, and where one has taken a token from the
session there still is one. -/
structure Storing (s : Sends) : Prop where
  careful : ∀ task ∈ s.tasks, Careful SendCall.StoresToken (fun _ _ => True) task.rest
  cached : ∀ task ∈ s.tasks, task.marks.usedCached = true → trim s.shared.token ≠ ""

theorem storing_init (cfg : OpenApiConfig) : Storing (.init cfg) := ⟨nofun, nofun⟩

theorem storing_step (s : Sends) (m : SendMove) (s' : Sends) (h : Storing s)
    (hstep : s.step toText cfg m = some s') : Storing s' := by
  refine ⟨careful_step (send_storesToken toText cfg) (fun _ _ => trivial) h.careful hstep, ?_⟩
  cases m with
  | start sending =>
    cases hstep
    exact forall_mem_concat h.cached nofun
  | call n o =>
    obtain ⟨marks, c, next, htask, rfl⟩ := step_call_cases hstep
    have hmem := List.mem_of_getElem? htask
    have hstores := (careful_call_iff.mp (h.careful _ hmem)).1
    refine forall_mem_set (fun task htask hused => ?_) fun hused => ?_
    · exact token_of_storesToken hstores (h.cached task htask hused)
    · rcases usedCached_note hused with hused | htoken
      · exact token_of_storesToken hstores (h.cached _ hmem hused)
      · exact htoken

/-- There is a token in the session, and the sends from the `k`-th on neither
ask for one nor have done so. -/
structure Settled (k : Nat) (s : Sends) : Prop where
  token : trim s.shared.token ≠ ""
  careful : ∀ task ∈ s.tasks, Careful SendCall.StoresToken (fun _ _ => True) task.rest
  quiet : ∀ n task, k ≤ n → s.tasks[n]? = some task →
    Careful SendCall.IsQuiet Cached task.rest ∧ task.marks.requested = false

theorem settled_step {k : Nat} (s : Sends) (m : SendMove) (s' : Sends) (h : Settled k s)
    (hstep : s.step toText cfg m = some s') : Settled k s' := by
  have hcareful := careful_step (send_storesToken toText cfg) (fun _ _ => trivial) h.careful hstep
  cases m with
  | start sending =>
    cases hstep
    refine ⟨h.token, hcareful, fun n task hn htask => ?_⟩
    by_cases hold : n < s.tasks.length
    · exact h.quiet n task hn ((List.getElem?_append_left hold).symm.trans htask)
    · have hnew := (List.getElem?_append_right (Nat.not_lt.mp hold)).symm.trans htask
      rw [List.mem_singleton.mp (List.mem_of_getElem? hnew)]
      exact ⟨fresh_send_quiet toText cfg sending, rfl⟩
  | call m o =>
    obtain ⟨marks, c, next, hmoves, rfl⟩ := step_call_cases hstep
    have hstores := (careful_call_iff.mp (h.careful _ (List.mem_of_getElem? hmoves))).1
    refine ⟨token_of_storesToken hstores h.token, hcareful, fun n task hn htask => ?_⟩
    by_cases hmn : m = n
    · subst hmn
      obtain ⟨hquiet, hrequested⟩ := h.quiet m _ hn hmoves
      obtain ⟨hc, hrest⟩ := careful_call_iff.mp hquiet
      rw [List.getElem?_set_self (List.getElem?_eq_some_iff.mp hmoves).1] at htask
      cases htask
      refine ⟨hrest _ (cached_reply h.token), ?_⟩
      exact (requested_note (w := s.shared) (o := o) hc _).trans hrequested
    · exact h.quiet n task hn ((List.getElem?_set_ne hmn).symm.trans htask)

/-- The token of the session is this one, and no send that goes on stores
another. -/
structure Still (token : String) (s : Sends) : Prop where
  token : s.shared.token = token
  quiet : ∀ task ∈ s.tasks, Careful SendCall.IsQuiet Cached task.rest

theorem still_step {token : String} (htoken : trim token ≠ "") (s : Sends) (m : SendMove)
    (s' : Sends) (h : Still token s) (hstep : s.step toText cfg m = some s') :
    Still token s' := by
  have hcached : ∀ o c, Cached c (exchange s.shared o c).1 := fun o c =>
    cached_reply (h.token ▸ htoken)
  refine ⟨?_, careful_step (fresh_send_quiet toText cfg) hcached h.quiet hstep⟩
  cases m with
  | start sending =>
    cases hstep
    exact h.token
  | call n o =>
    obtain ⟨marks, c, next, hmoves, rfl⟩ := step_call_cases hstep
    have hc := (careful_call_iff.mp (h.quiet _ (List.mem_of_getElem? hmoves))).1
    exact (token_of_isQuiet hc).trans h.token

/-- A send that took a token from the session and failed. -/
def SendTask.Rejected (task : SendTask) : Prop :=
  task.marks.usedCached = true ∧ ∃ e, task.rest = .ret (some (.error e))

/-- A send that started later asks for a token. -/
def Refreshed (before after : Sends) : Prop :=
  ∃ n task, before.tasks.length ≤ n ∧ after.tasks[n]? = some task ∧ task.marks.requested = true

end Runs

/-- In no run of sends, however they interleave and whatever the server
replies, does a send that starts after a rejected one ask for a token.  Where
all sends before it are over, also the token of the session stays. -/
theorem never_refreshes {toText : JsonText} {cfg : OpenApiConfig} {moves later : List SendMove}
    {before after : Sends} (hrun : run (Sends.step toText cfg) (.init cfg) moves = some before)
    (hrejected : ∃ task ∈ before.tasks, task.Rejected)
    (hlater : run (Sends.step toText cfg) before later = some after) :
    ¬ Refreshed before after ∧
      ((∀ task ∈ before.tasks, ∃ r, task.rest = .ret r) →
        after.shared.token = before.shared.token) := by
  have hstoring : Storing before := run_invariant storing_step (storing_init cfg) hrun
  obtain ⟨task, htask, hused, -⟩ := hrejected
  have htoken := hstoring.cached task htask hused
  constructor
  · intro ⟨n, late, hn, hlate, hrequested⟩
    have hstart : Settled before.tasks.length before := by
      refine ⟨htoken, hstoring.careful, fun n task hn htask => ?_⟩
      rw [List.getElem?_eq_none hn] at htask
      cases htask
    have hsettled : Settled before.tasks.length after := run_invariant settled_step hstart hlater
    rw [(hsettled.quiet n late hn hlate).2] at hrequested
    cases hrequested
  · intro hover
    have hstill : Still before.shared.token before := by
      refine ⟨rfl, fun task htask => ?_⟩
      obtain ⟨r, hr⟩ := hover task htask
      rw [hr]
      exact careful_ret r
    exact (run_invariant (still_step htoken) hstill hlater).token

/-! ## A token that expires -/

def appConfig : OpenApiConfig :=
  ⟨⟨true, "default", "", ""⟩, "https://open.feishu.cn", "cli_a1", "secret", "", "open_id", 10000⟩

/-- `serde_json` on the content of a text without special letters. -/
def plainJson : JsonText
  | .obj [("text", .str text)] => "\x7b\"text\":\"" ++ text ++ "\"\x7d"
  | _ => "null"

/-- A server that gives out a token, and what it says to messages. -/
def serving (message : Http FeishuSendEnvelope) : Behaviour
  | .lockToken => ""
  | .storeToken _ => ()
  | .buildAuthClient _ => true
  | .postAuth _ _ _ _ => .response ⟨200, "200 OK"⟩ (.ok ⟨0, "ok", "t-1"⟩)
  | .postMessages _ _ _ _ _ => message
  | .uploadMedia _ => .error "feishu upload failed"
  | .pathExists _ => false
  | .newUuid => "7f1d6a0e-93a4-4d5e-8c0b-2f6f0d1c9a11"
  | .timestampMillis => (1700000000000 : Int64)

def accepting : Behaviour := serving (.response ⟨200, "200 OK"⟩ (.ok ⟨0, "ok", some ⟨"om_1"⟩⟩))

def expired : Behaviour :=
  serving (.response ⟨400, "400 Bad Request"⟩ (.ok ⟨99991663, "Invalid access token", none⟩))

def hello : SendMove := .start (.message "ou_1" (.text "hello"))

/-- The first send gets a token and is accepted.  The token expires, and the
second send is rejected. -/
def expiring : List SendMove :=
  [hello, .call 0 accepting, .call 0 accepting, .call 0 accepting, .call 0 accepting,
    .call 0 accepting, .call 0 accepting, hello, .call 1 expired, .call 1 expired]

def again : List SendMove := [hello, .call 2 expired, .call 2 expired]

/-- The third send is rejected with the same token, and asks for no other. -/
theorem expired_token_kept :
    ∃ before after, run (Sends.step plainJson appConfig) (.init appConfig) expiring = some before ∧
      (∃ task ∈ before.tasks, task.Rejected) ∧
      run (Sends.step plainJson appConfig) before again = some after ∧
      after.shared.token = "t-1" ∧ after.shared.auths.length = 1 ∧
      after.tasks.map SendTask.marks = [⟨false, true⟩, ⟨true, false⟩, ⟨true, false⟩] ∧
      ∃ task, after.tasks[2]? = some task ∧ task.Rejected :=
  ⟨_, _, rfl, ⟨_, .tail _ (.head _), rfl, _, rfl⟩, rfl, rfl, rfl, rfl, _, rfl, rfl, _, rfl⟩

theorem never_refreshes_expired :
    ∃ before after, run (Sends.step plainJson appConfig) (.init appConfig) expiring = some before ∧
      run (Sends.step plainJson appConfig) before again = some after ∧
      ¬ Refreshed before after ∧ after.shared.token = before.shared.token :=
  have h := @never_refreshes plainJson appConfig expiring again _ _ rfl
    ⟨_, .tail _ (.head _), rfl, _, rfl⟩ rfl
  ⟨_, _, rfl, rfl, h.1, rfl⟩

end MagicLaw.Feishu
