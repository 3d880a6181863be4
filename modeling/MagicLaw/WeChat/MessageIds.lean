import MagicLaw.Inbound.Redelivery
import MagicLaw.WeChat.Cursor

/-!
# The ids of inbound messages

The poll loop makes a `Message` of each message of a user.  Its id is the
`context_token` of that message, and a new uuid where there is none.  The
token stands for a conversation, so the ids of different messages differ
exactly when the server does not repeat a token (`idsApart_iff`).

`Named` is how the messages that were handed over come by their ids; it is a
trace of the loop.
-/

namespace MagicLaw.WeChat.MessageIds

open Lib Lib.Program MagicLaw.Routing
open MagicLaw.WeChat.Cursor (isUser)

/-! ## What the loop got and drew -/

structure Sight where
  /-- the messages of users in the answers of the server -/
  delivered : List ILinkMessage
  /-- the ids that were drawn, the last one first -/
  uuids : List String
  /-- nobody receives from the inbound channel any more -/
  closed : Bool

def Sight.init : Sight := ⟨[], [], false⟩

abbrev State := World × Sight

def watch (g : Sight) (_ : World) (_ : Outcome) : (call : Call) → call.Reply → Sight
  | .getUpdates syncBuf, (http : Http ILinkGetUpdatesResponse) =>
    match getUpdatesResult syncBuf http with
    | .ok updates => { g with delivered := g.delivered ++ updates.msgs.filter isUser }
    | .error _ => g
  | .uuid, (id : String) => { g with uuids := id :: g.uuids }
  | .inboundSend _ _, (sent : Bool) => { g with closed := g.closed || !sent }
  | _, _ => g

def watched : Handler Call.Reply State Outcome := Handler.watched handle watch

/-- The state after the poll loop, for any answers of the server. -/
def polled (account : String) (channelId : ChannelId) (rounds : Nat) (syncBuf : String)
    (outcomes : Nat → Outcome) (w : World) : State :=
  ((channelLoop account channelId rounds syncBuf).play watched outcomes (w, .init)).2

/-! ## The claim and the condition -/

/-- Messages from different places have different ids, and `process_inbound`
takes none of them for a duplicate after others of them. -/
structure IdsApart (w : World) : Prop where
  ids : ∀ a ∈ w.inbound, ∀ b ∈ w.inbound, a.1 ≠ b.1 → a.2.id ≠ b.2.id
  kept : ∀ b ∈ w.inbound, ∀ (v : Inbound.World) (events : List Inbound.Event)
    (env : Inbound.Call → Option Inbound.Outcome), v.recorded b.2.id = none →
    (∀ d, .deliver d ∈ events → ∃ a ∈ w.inbound, a.1 ≠ b.1 ∧ d.msg = a.2) →
    ((Inbound.processInbound b.2).exec Inbound.handle env (v.afterAll events)).1 ≠
      some (.ok .duplicate)

/-- No two different messages have the same token. -/
def TokensApart (msgs : List ILinkMessage) : Prop :=
  ∀ m ∈ msgs, ∀ n ∈ msgs, m.place ≠ n.place → ∀ token ∈ m.contextToken,
    n.contextToken ≠ some token

/-- The uuids are drawn once each, and none of them is a token. -/
structure FreshUuids (g : Sight) : Prop where
  nodup : g.uuids.Nodup
  notToken : ∀ msg ∈ g.delivered, ∀ token ∈ msg.contextToken, token ∉ g.uuids

/-! ## The messages and their ids -/

/-- How what was handed over came by its ids: from the tokens of the messages,
or from the uuids, of which some may be left over. -/
inductive Named : List (Nat × Message) → List ILinkMessage → List String → Prop where
  | nil : Named [] [] []
  | token {e es msg msgs us} (hplace : e.1 = msg.place) (hid : msg.contextToken = some e.2.id)
      (tail : Named es msgs us) : Named (e :: es) (msg :: msgs) us
  | uuid {e es msg msgs us} (hplace : e.1 = msg.place) (hid : msg.contextToken = none)
      (tail : Named es msgs us) : Named (e :: es) (msg :: msgs) (e.2.id :: us)
  | unused {es msgs us} (u : String) (tail : Named es msgs us) : Named es msgs (u :: us)

section Named

variable {es : List (Nat × Message)} {msgs : List ILinkMessage} {us : List String}

/-- Everything that was handed over is a message with its token or a uuid. -/
theorem exists_msg_of_named (h : Named es msgs us) : ∀ e ∈ es, ∃ msg ∈ msgs, e.1 = msg.place ∧
    (msg.contextToken = some e.2.id ∨ msg.contextToken = none ∧ e.2.id ∈ us) := by
  induction h with
  | nil => exact fun e he => absurd he List.not_mem_nil
  | token hplace hid tail ih =>
    intro e he
    rcases List.mem_cons.mp he with rfl | he
    · exact ⟨_, List.mem_cons_self, hplace, Or.inl hid⟩
    · obtain ⟨msg, hmsg, hrest⟩ := ih e he
      exact ⟨msg, List.mem_cons_of_mem _ hmsg, hrest⟩
  | uuid hplace hid tail ih =>
    intro e he
    rcases List.mem_cons.mp he with rfl | he
    · exact ⟨_, List.mem_cons_self, hplace, Or.inr ⟨hid, List.mem_cons_self⟩⟩
    · obtain ⟨msg, hmsg, heq, hrest⟩ := ih e he
      exact ⟨msg, List.mem_cons_of_mem _ hmsg, heq,
        hrest.imp_right fun hu => ⟨hu.1, List.mem_cons_of_mem _ hu.2⟩⟩
  | unused u tail ih =>
    intro e he
    obtain ⟨msg, hmsg, heq, hrest⟩ := ih e he
    exact ⟨msg, hmsg, heq, hrest.imp_right fun hu => ⟨hu.1, List.mem_cons_of_mem _ hu.2⟩⟩

/-- Every message with a token was handed over under it. -/
theorem exists_entry_of_named (h : Named es msgs us) : ∀ msg ∈ msgs, ∀ token ∈ msg.contextToken,
    ∃ e ∈ es, e.1 = msg.place ∧ e.2.id = token := by
  induction h with
  | nil => exact fun msg hmsg => absurd hmsg List.not_mem_nil
  | token hplace hid tail ih =>
    intro msg hmsg token htoken
    rcases List.mem_cons.mp hmsg with rfl | hmsg
    · refine ⟨_, List.mem_cons_self, hplace, ?_⟩
      exact Option.some_inj.mp (hid.symm.trans htoken)
    · obtain ⟨e, he, hrest⟩ := ih msg hmsg token htoken
      exact ⟨e, List.mem_cons_of_mem _ he, hrest⟩
  | uuid hplace hid tail ih =>
    intro msg hmsg token htoken
    rcases List.mem_cons.mp hmsg with rfl | hmsg
    · rw [hid] at htoken
      cases htoken
    · obtain ⟨e, he, hrest⟩ := ih msg hmsg token htoken
      exact ⟨e, List.mem_cons_of_mem _ he, hrest⟩
  | unused u tail ih => exact ih

/-- Two of what was handed over, from different places, have different ids. -/
def Apart (a b : Nat × Message) : Prop := a.1 ≠ b.1 → a.2.id ≠ b.2.id

/-- A new uuid is not the id of anything that was handed over before. -/
theorem apart_of_new_uuid {u : String} (h : Named es msgs us) (hus : u ∉ us)
    (htokens : ∀ msg ∈ msgs, ∀ token ∈ msg.contextToken, token ≠ u) : ∀ e ∈ es, e.2.id ≠ u := by
  intro e he heq
  obtain ⟨msg, hmsg, _, htoken | ⟨_, hid⟩⟩ := exists_msg_of_named h e he
  · exact htokens msg hmsg _ htoken heq
  · exact hus (heq ▸ hid)

theorem pairwise_apart (h : Named es msgs us) (hus : us.Nodup)
    (hfresh : ∀ msg ∈ msgs, ∀ token ∈ msg.contextToken, token ∉ us) (htokens : TokensApart msgs) :
    es.Pairwise Apart := by
  induction h with
  | nil => exact .nil
  | @token e es msg msgs us hplace hid tail ih =>
    refine List.pairwise_cons.mpr ⟨?_, ih hus (fun m hm => hfresh m (List.mem_cons_of_mem _ hm))
      fun m hm n hn => htokens m (List.mem_cons_of_mem _ hm) n (List.mem_cons_of_mem _ hn)⟩
    intro b hb hne heq
    obtain ⟨n, hn, hplace', htoken | ⟨_, hu⟩⟩ := exists_msg_of_named tail b hb
    · refine htokens msg List.mem_cons_self n (List.mem_cons_of_mem _ hn) ?_ _ hid ?_
      · rwa [← hplace, ← hplace']
      · rw [htoken, heq]
    · exact hfresh msg List.mem_cons_self _ hid (heq ▸ hu)
  | @uuid e es msg msgs us hplace hid tail ih =>
    obtain ⟨hnew, hus⟩ := List.nodup_cons.mp hus
    have htail : ∀ m ∈ msgs, ∀ token ∈ m.contextToken, token ≠ e.2.id ∧ token ∉ us := by
      intro m hm token htoken
      have hnot := hfresh m (List.mem_cons_of_mem _ hm) token htoken
      rwa [List.mem_cons, not_or] at hnot
    refine List.pairwise_cons.mpr ⟨?_, ih hus (fun m hm token ht => (htail m hm token ht).2)
      fun m hm n hn => htokens m (List.mem_cons_of_mem _ hm) n (List.mem_cons_of_mem _ hn)⟩
    intro b hb _
    exact (apart_of_new_uuid tail hnew (fun m hm token ht => (htail m hm token ht).1) b hb).symm
  | unused u tail ih =>
    refine ih (List.nodup_cons.mp hus).2 (fun m hm token ht hu => ?_) htokens
    exact hfresh m hm token ht (List.mem_cons_of_mem _ hu)

end Named

/-! ## The loop -/

/-- What the loop changes of the surroundings that matters for the ids. -/
abbrev View := List (Nat × Message) × Sight

def view (s : State) : View := (s.1.inbound, s.2)

/-- What was handed over has its ids, and these messages are still to come. -/
def Reading (v : View) (pending : List ILinkMessage) : Prop :=
  ∃ done, v.2.delivered = done.reverse ++ pending ∧ Named v.1 done v.2.uuids

def Open (v : View) (pending : List ILinkMessage) : Prop :=
  Reading v pending ∧ v.2.closed = false

def Closed (v : View) : Prop := (∃ pending, Reading v pending) ∧ v.2.closed = true

/-- The next message has this id. -/
structure Holding (v : View) (msg : ILinkMessage) (id : String) (pending : List ILinkMessage) :
    Prop where
  reading : Reading v (msg :: pending)
  next : ∀ e : Nat × Message, e.1 = msg.place → e.2.id = id →
    Reading (e :: v.1, v.2) pending
  closed : v.2.closed = false

/-- The call has nothing to do with the ids. -/
def isQuiet : Call → Bool
  | .getUpdates _ | .uuid | .inboundSend _ _ => false
  | _ => true

theorem view_quiet {c : Call} (hc : isQuiet c = true) (s : State) (o : Outcome) :
    view (watched s o c).2 = view s := by
  cases c with
  | getUpdates _ | uuid | inboundSend _ _ => cases hc
  | loadSyncBuf _ | saveSyncBuf _ _ | storeGetAll _ | storeSet _ _ _ | storeDelete _ _
  | storeDeleteAll _ =>
    simp only [view, watched, Handler.watched, handle, statement]
    split <;> rfl
  | _ => rfl

section Loop

variable {account : String} {channelId : ChannelId} {s : State}

theorem wp_quiet {α : Type} {Q : α → State → Prop} {c : Call} {k : c.Reply → Work α}
    (hc : isQuiet c = true)
    (h : ∀ r s', view s' = view s → wp watched anyOutcome Q (k r) s') :
    wp watched anyOutcome Q (call c >>= k) s := by
  rw [wp_bind]
  exact wp_anyOutcome_perform.mpr fun o => h _ _ (view_quiet hc s o)

theorem wp_messageId {msg : ILinkMessage} {pending : List ILinkMessage}
    (h : Open (view s) (msg :: pending)) :
    wp watched anyOutcome (fun id s' => Holding (view s') msg id pending) (messageId msg) s := by
  obtain ⟨⟨done, hdelivered, hnamed⟩, hopen⟩ := h
  have hnext : (view s).2.delivered = (msg :: done).reverse ++ pending := by
    rw [hdelivered, List.reverse_cons, List.append_assoc]
    rfl
  unfold messageId
  cases htoken : msg.contextToken with
  | some token =>
    refine ⟨⟨done, hdelivered, hnamed⟩, fun e hplace hid => ?_, hopen⟩
    exact ⟨msg :: done, hnext, .token hplace (by rw [htoken, hid]) hnamed⟩
  | none =>
    refine wp_anyOutcome_perform.mpr fun o => ?_
    refine ⟨⟨done, hdelivered, hnamed.unused o.uuid⟩, fun e hplace hid => ?_, hopen⟩
    refine ⟨msg :: done, hnext, ?_⟩
    show Named (e :: s.1.inbound) (msg :: done) (o.uuid :: s.2.uuids)
    have hid : e.2.id = o.uuid := hid
    rw [← hid]
    exact .uuid hplace htoken hnamed

theorem wp_channelToken {msg : ILinkMessage} {fromUserId : String} :
    wp watched anyOutcome (fun _ s' => view s' = view s)
      (channelToken account msg fromUserId) s := by
  unfold channelToken
  split
  · rfl
  · refine wp_quiet rfl fun _ s' hs' => wp_quiet rfl fun _ s'' hs'' => ?_
    exact hs''.trans hs'

/-- What is true after a round: the loop goes on with what is left, or nobody
receives any more. -/
def Handed (goOn : Bool) (v : View) (pending : List ILinkMessage) : Prop :=
  if goOn then Open v pending else Closed v

theorem wp_inboundSend {msg : ILinkMessage} {message : Message} {pending : List ILinkMessage}
    (h : Holding (view s) msg message.id pending) :
    wp watched anyOutcome (fun goOn s' => Handed goOn (view s') pending)
      (call (.inboundSend msg.place message)) s := by
  refine wp_anyOutcome_perform.mpr fun o => ?_
  have hopen : s.2.closed = false := h.closed
  show Handed (handle s.1 o (.inboundSend msg.place message)).1
    ((handle s.1 o (.inboundSend msg.place message)).2.inbound,
      watch s.2 s.1 o (.inboundSend msg.place message) _) pending
  simp only [handle, watch]
  cases o.closed with
  | true => exact ⟨⟨msg :: pending, h.reading⟩, by simp⟩
  | false => exact ⟨h.next (msg.place, message) rfl rfl, by simp [hopen]⟩

theorem wp_channelMessage {msg : ILinkMessage} {msgs : List ILinkMessage}
    (h : Open (view s) ((msg :: msgs).filter isUser)) :
    wp watched anyOutcome (fun goOn s' => Handed goOn (view s') (msgs.filter isUser))
      (channelMessage account channelId msg) s := by
  unfold channelMessage
  split
  · rename_i htype
    have hnot : isUser msg = false := by simp [isUser, htype]
    rw [List.filter_cons_of_neg (by simp [hnot])] at h
    exact h
  · rename_i htype
    split
    · rename_i hfrom
      have hnot : isUser msg = false := by simp [isUser, hfrom]
      rw [List.filter_cons_of_neg (by simp [hnot])] at h
      exact h
    · rename_i fromUserId hfrom
      have huser : isUser msg = true := by simp [isUser, not_not.mp htype, hfrom]
      rw [List.filter_cons_of_pos huser] at h
      rw [wp_bind]
      refine wp_mono (fun id s₁ hid => ?_) (wp_messageId h)
      refine wp_quiet rfl fun nowMs s₂ hs₂ => wp_bind.mpr ?_
      refine wp_mono (fun _ s₃ hs₃ => ?_) wp_channelToken
      refine wp_inboundSend ?_
      show Holding (view s₃) msg id _
      rw [hs₃, hs₂]
      exact hid

theorem wp_channelMessages {msgs : List ILinkMessage} (h : Open (view s) (msgs.filter isUser)) :
    wp watched anyOutcome (fun goOn s' => Handed goOn (view s') [])
      (channelMessages account channelId msgs) s := by
  induction msgs generalizing s with
  | nil => exact h
  | cons msg msgs ih =>
    unfold channelMessages
    rw [wp_bind]
    refine wp_mono (fun goOn s' hs' => ?_) (wp_channelMessage h)
    cases goOn with
    | true => exact ih hs'
    | false => exact hs'

theorem wp_channelCursor (syncBuf : String) (next : Option String) :
    wp watched anyOutcome (fun _ s' => view s' = view s) (channelCursor syncBuf next) s := by
  cases next with
  | none => rfl
  | some buf =>
    refine wp_quiet rfl fun _ s' hs' => wp_quiet rfl fun _ s'' hs'' => ?_
    exact hs''.trans hs'

theorem wp_getUpdates (syncBuf : String) (h : Open (view s) []) :
    wp watched anyOutcome
      (fun r s' => match r with
        | .ok updates => Open (view s') (updates.msgs.filter isUser)
        | .error _ => Open (view s') [])
      (getUpdatesViaIlink syncBuf) s := by
  obtain ⟨⟨done, hdelivered, hnamed⟩, hopen⟩ := h
  unfold getUpdatesViaIlink
  rw [wp_bind]
  refine wp_anyOutcome_perform.mpr fun o => ?_
  have hsight : watched s o (.getUpdates syncBuf) =
      (o.updates, s.1, match getUpdatesResult syncBuf o.updates with
        | .ok updates => { s.2 with delivered := s.2.delivered ++ updates.msgs.filter isUser }
        | .error _ => s.2) := rfl
  rw [hsight]
  show match getUpdatesResult syncBuf o.updates with
    | .ok _ => _
    | .error _ => _
  cases getUpdatesResult syncBuf o.updates with
  | error e => exact ⟨⟨done, hdelivered, hnamed⟩, hopen⟩
  | ok updates =>
    refine ⟨⟨done, ?_, hnamed⟩, hopen⟩
    show s.2.delivered ++ _ = _
    rw [show s.2.delivered = _ from hdelivered, List.append_nil]

theorem wp_channelLoop (rounds : Nat) (syncBuf : String) (h : Open (view s) []) :
    wp watched anyOutcome (fun _ s' => Open (view s') [] ∨ Closed (view s'))
      (channelLoop account channelId rounds syncBuf) s := by
  induction rounds generalizing s syncBuf with
  | zero => exact Or.inl h
  | succ rounds ih =>
    unfold channelLoop
    rw [wp_bind]
    refine wp_mono (fun r s₁ hs₁ => ?_) (wp_getUpdates syncBuf h)
    match r with
    | .error (.sessionExpired _ _) =>
      refine wp_quiet rfl fun _ s₂ hs₂ => wp_quiet rfl fun _ s₃ hs₃ => ih syncBuf ?_
      rw [hs₃, hs₂]
      exact hs₁
    | .error (.business _ _ _) => exact ih syncBuf hs₁
    | .error (.transport _) => exact ih syncBuf hs₁
    | .ok updates =>
      rw [wp_bind]
      refine wp_mono (fun next s₂ hs₂ => ?_) (wp_channelCursor syncBuf updates.getUpdatesBuf)
      rw [wp_bind]
      refine wp_mono (fun goOn s₃ hs₃ => ?_) (wp_channelMessages (hs₂ ▸ hs₁))
      cases goOn with
      | true => exact ih next hs₃
      | false => exact Or.inr hs₃

end Loop

/-! ## The ids -/

section Ids

variable {w : World}

/-- Where the ids differ, the table has none of them from another message. -/
theorem idsApart_of_pairwise (h : w.inbound.Pairwise Apart) : IdsApart w := by
  have hids : ∀ a ∈ w.inbound, ∀ b ∈ w.inbound, a.1 ≠ b.1 → a.2.id ≠ b.2.id := by
    intro a ha b hb
    have : Std.Symm Apart := ⟨fun a b hab hne heq => hab hne.symm heq.symm⟩
    exact h.forall_of_forall (fun x _ hne => absurd rfl hne) ha hb
  refine ⟨hids, fun b hb v events env hfree hothers => ?_⟩
  refine Inbound.ne_duplicate_of_not_recorded (d := ⟨b.2, env⟩) ?_
  refine (Inbound.recorded_afterAll_eq_none_iff v events b.2.id).mpr ⟨hfree, fun d hd heq _ => ?_⟩
  obtain ⟨a, ha, hne, hmsg⟩ := hothers d hd
  exact hids a ha b hb hne (hmsg ▸ heq)

theorem tokensApart_of_idsApart {msgs : List ILinkMessage} {us : List String}
    (h : Named w.inbound msgs us) (hids : IdsApart w) : TokensApart msgs := by
  intro m hm n hn hne token htoken hsame
  obtain ⟨a, ha, haplace, haid⟩ := exists_entry_of_named h m hm token htoken
  obtain ⟨b, hb, hbplace, hbid⟩ := exists_entry_of_named h n hn token hsame
  refine hids.ids a ha b hb ?_ (haid.trans hbid.symm)
  rwa [haplace, hbplace]

/-- The poll loop hands over the messages of the answers in their order, up to
the point where nobody receives any more. -/
theorem named_polled (account : String) (channelId : ChannelId) (rounds : Nat) (syncBuf : String)
    (outcomes : Nat → Outcome) (hstart : w.inbound = []) :
    Open (view (polled account channelId rounds syncBuf outcomes w)) [] ∨
      Closed (view (polled account channelId rounds syncBuf outcomes w)) := by
  have hopen : Open (view (w, .init)) [] := by
    refine ⟨⟨[], rfl, ?_⟩, rfl⟩
    show Named w.inbound [] []
    rw [hstart]
    exact .nil
  exact play_of_wp (wp_channelLoop rounds syncBuf hopen) outcomes

end Ids

/-- Whatever the server answers, the messages that the poll loop makes of
different messages of users have different ids if no two of those have the
same token; and as long as somebody receives, only then. -/
theorem idsApart_iff (account : String) (channelId : ChannelId) (rounds : Nat) (syncBuf : String)
    (outcomes : Nat → Outcome) {w : World} (hstart : w.inbound = [])
    (hfresh : FreshUuids (polled account channelId rounds syncBuf outcomes w).2) :
    (TokensApart (polled account channelId rounds syncBuf outcomes w).2.delivered →
      IdsApart (polled account channelId rounds syncBuf outcomes w).1) ∧
    ((polled account channelId rounds syncBuf outcomes w).2.closed = false →
      (IdsApart (polled account channelId rounds syncBuf outcomes w).1 ↔
        TokensApart (polled account channelId rounds syncBuf outcomes w).2.delivered)) := by
  have hnamed := named_polled account channelId rounds syncBuf outcomes hstart
  generalize polled account channelId rounds syncBuf outcomes w = s at hfresh hnamed ⊢
  have hapart : ∀ pending, Reading (view s) pending → TokensApart s.2.delivered →
      IdsApart s.1 := by
    intro pending ⟨done, hdelivered, h⟩ htokens
    have hmem : ∀ m ∈ done, m ∈ s.2.delivered := by
      intro m hm
      rw [show s.2.delivered = _ from hdelivered]
      exact List.mem_append_left _ (List.mem_reverse.mpr hm)
    exact idsApart_of_pairwise <| pairwise_apart h hfresh.nodup
      (fun m hm => hfresh.notToken m (hmem m hm))
      fun m hm n hn => htokens m (hmem m hm) n (hmem n hn)
  rcases hnamed with ⟨hreading, _⟩ | ⟨⟨pending, hreading⟩, hclosed⟩
  · refine ⟨hapart [] hreading, fun _ => ⟨fun hids => ?_, hapart [] hreading⟩⟩
    obtain ⟨done, hdelivered, h⟩ := hreading
    have hdone : s.2.delivered = done.reverse := hdelivered.trans (List.append_nil _)
    have htokens := tokensApart_of_idsApart h hids
    intro m hm n hn
    rw [hdone, List.mem_reverse] at hm hn
    exact htokens m hm n hn
  · refine ⟨hapart pending hreading, fun hopen => ?_⟩
    exact Bool.noConfusion (hclosed.symm.trans hopen)

/-- A message of alice. -/
def fromAlice (place : Nat) (token : Option String) : ILinkMessage :=
  ⟨place, some 1, some "alice", none, none, token, [⟨some 1, some ⟨some "hi"⟩⟩]⟩

/-- The server has two messages of alice. -/
def twoMessages (token token' : Option String) (_ : Nat) : Outcome :=
  { fine with
    uuid := "6f1c2a9e-0d47-4b35-9c1e-2f8a7b3d5e60"
    updates := .body ⟨0, none, none, [fromAlice 0 token, fromAlice 1 token'], none⟩ }

/-- One has a token, the other gets a uuid. -/
theorem tokenAndUuid_idsApart :
    IdsApart (polled "bot" ⟨"wechat"⟩ 1 "" (twoMessages "ctx-1" none) .init).1 :=
  (idsApart_iff "bot" ⟨"wechat"⟩ 1 "" (twoMessages "ctx-1" none) rfl
    ⟨by decide +kernel, by decide +kernel⟩).1 (by unfold TokensApart; decide +kernel)

def IdsStayApart : Prop :=
  ∀ (account : String) (channelId : ChannelId) (rounds : Nat) (syncBuf : String)
    (outcomes : Nat → Outcome) (w : World), w.inbound = [] →
    FreshUuids (polled account channelId rounds syncBuf outcomes w).2 →
    IdsApart (polled account channelId rounds syncBuf outcomes w).1

/-- Two messages of one conversation have one token, and one id. -/
theorem not_idsStayApart : ¬ IdsStayApart := by
  intro h
  have hapart := h "bot" ⟨"wechat"⟩ 1 "" (twoMessages "ctx-1" "ctx-1") .init rfl
    ⟨by decide +kernel, by decide +kernel⟩
  have hfirst := List.getElem_mem (show 0 < (polled "bot" ⟨"wechat"⟩ 1 ""
    (twoMessages "ctx-1" "ctx-1") .init).1.inbound.length by decide +kernel)
  have hsecond := List.getElem_mem (show 1 < (polled "bot" ⟨"wechat"⟩ 1 ""
    (twoMessages "ctx-1" "ctx-1") .init).1.inbound.length by decide +kernel)
  exact hapart.ids _ hfirst _ hsecond (by decide +kernel) (by decide +kernel)

end MagicLaw.WeChat.MessageIds
