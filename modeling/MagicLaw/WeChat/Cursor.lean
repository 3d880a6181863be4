import MagicLaw.WeChat.Pollers

/-!
# The persisted cursor and the messages that were handed over

The poll loop of the channel and the long poll of the runtime share one row
of `sync_buf`.  The server keeps a log of messages, and a cursor stands for a
position in it: for a cursor it returns the messages after its position.  So
the messages before the position of the persisted cursor are not returned
again after a restart.

* `NotAhead`: each message of a user before the persisted cursor was handed to
  the inbound channel.
* `answersTo`: the answers by which a poller has come to a cursor, which are the
  one that had the cursor and those that had the cursors it was asked with.
* `SavesHanded`: whenever a save works, what the answers had of users, up to the
  cursor that is saved, has been handed over.
* `never_ahead_iff`: in every interleaving of pollers, with any crashes, the
  persisted cursor is never ahead exactly when every save is such a one.
-/

namespace MagicLaw.WeChat.Cursor

open Lib.Program Lib.Machine Lib.Interference Lib.Processes MagicLaw.Routing

/-! ## The server, and what the pollers had -/

/-- An answer of the server, and the cursor that it was asked with. -/
structure Answer where
  syncBuf : String
  next : Option String
  msgs : List ILinkMessage

/-- The log of the server, and the answers that the pollers had, the newest
first. -/
structure Sight where
  log : List ILinkMessage
  answers : List Answer

abbrev State := World × Sight

def State.init : State := (.init, ⟨[], []⟩)

/-- The answer has messages and a cursor. -/
def isOk (updates : ILinkGetUpdatesResponse) : Prop :=
  updates.errcode ≠ some (-14) ∧ updates.ret = 0

instance (updates : ILinkGetUpdatesResponse) : Decidable (isOk updates) :=
  inferInstanceAs (Decidable (_ ∧ _))

def watch (g : Sight) (_ : World) (_ : Outcome) : (call : Call) → call.Reply → Sight
  | .getUpdates syncBuf, (http : Http ILinkGetUpdatesResponse) =>
    match http with
    | .body updates =>
      if isOk updates then
        { g with answers := ⟨syncBuf, updates.getUpdatesBuf, updates.msgs⟩ :: g.answers }
      else g
    | .noAnswer _ | .failed _ | .unreadable _ | .status _ _ | .empty | .invalid _ => g
  | _, _ => g

/-- A message comes to the server. -/
def arrive (msg : ILinkMessage) (s : State) : State :=
  (s.1, { s.2 with log := s.2.log ++ [{ msg with place := s.2.log.length }] })

/-- The two pollers. -/
inductive Body where
  | channel (account : String) (channelId : ChannelId) (rounds : Nat)
  | token (account : String) (rounds : Nat)

def Body.program : Body → Work Unit
  | .channel account channelId rounds => channelPoller account channelId rounds
  | .token account rounds => tokenPoller account rounds

def plan : Plan Unit Body ILinkMessage Call.Reply State Outcome where
  handle := Handler.watched handle watch
  body := Body.program
  home := fun _ => ()
  other := arrive
  reset := fun _ s => (s.1.crashed, s.2)

/-! ## The claim and the condition -/

/-- A message of a user, which says who that is. -/
def isUser (msg : ILinkMessage) : Bool :=
  msg.messageType = some 1 && msg.fromUserId.isSome

def Handed (w : World) (place : Nat) : Prop := place ∈ w.inbound.map Prod.fst

/-- Each message of a user before the cursor was handed to the inbound
channel, where `position` is how the server reads a cursor. -/
def HandedBefore (position : String → Nat) (buf : String) (s : State) : Prop :=
  ∀ msg ∈ s.2.log, isUser msg → msg.place < position buf → Handed s.1 msg.place

def NotAhead (position : String → Nat) (s : State) : Prop :=
  HandedBefore position (s.1.syncBuf.getD "") s

/-- The answers by which a poller may have come to the cursor. -/
def answersTo : List Answer → String → List Answer
  | [], _ => []
  | answer :: earlier, buf =>
    if answer.next = some buf then
      answer :: (answersTo earlier answer.syncBuf ++ answersTo earlier buf)
    else answersTo earlier buf

/-- The cursor that the call polls with. -/
def polled? : Call → Option String
  | .getUpdates syncBuf => some syncBuf
  | _ => none

/-- The cursor that the call saves. -/
def saved? : Call → Option String
  | .saveSyncBuf _ buf => some buf
  | _ => none

/-- An answer without an error has all messages from the cursor on, and its
own cursor stands for no later ones. -/
def AnswersAll (position : String → Nat) (s : State) (c : Call) (o : Outcome) : Prop :=
  ∀ syncBuf ∈ polled? c, ∀ value ∈ o.updates.body?, isOk value →
    value.msgs = s.2.log.drop (position syncBuf) ∧
      ∀ buf ∈ value.getUpdatesBuf, position buf ≤ s.2.log.length

/-- If the save works, no answer on the way to its cursor has a message of a
user, from before the cursor, that is still to be handed over. -/
def SavesHanded (position : String → Nat) (s : State) (c : Call) (o : Outcome) : Prop :=
  ∀ buf ∈ saved? c, o.fault = none → ∀ answer ∈ answersTo s.2.answers buf, ∀ msg ∈ answer.msgs,
    isUser msg → msg.place < position buf → Handed s.1 msg.place

instance (w : World) (place : Nat) : Decidable (Handed w place) :=
  inferInstanceAs (Decidable (place ∈ w.inbound.map Prod.fst))

instance (position : String → Nat) (s : State) : Decidable (NotAhead position s) :=
  inferInstanceAs (Decidable (∀ msg ∈ s.2.log, isUser msg →
    msg.place < position (s.1.syncBuf.getD "") → Handed s.1 msg.place))

instance (position : String → Nat) (s : State) (c : Call) (o : Outcome) :
    Decidable (AnswersAll position s c o) :=
  inferInstanceAs (Decidable (∀ syncBuf ∈ polled? c, ∀ value ∈ o.updates.body?, isOk value →
    value.msgs = s.2.log.drop (position syncBuf) ∧
      ∀ buf ∈ value.getUpdatesBuf, position buf ≤ s.2.log.length))

instance (position : String → Nat) (s : State) (c : Call) (o : Outcome) :
    Decidable (SavesHanded position s c o) :=
  inferInstanceAs (Decidable (∀ buf ∈ saved? c, o.fault = none →
    ∀ answer ∈ answersTo s.2.answers buf, ∀ msg ∈ answer.msgs,
      isUser msg → msg.place < position buf → Handed s.1 msg.place))

/-- Messages may come at any time. -/
def anyArrival (_ : State) (_ : ILinkMessage) : Prop := True

instance (s : State) (msg : ILinkMessage) : Decidable (anyArrival s msg) := isTrue trivial

/-! ## What every state has -/

/-- The cursor stands within the log, and everything of users before it was
handed over. -/
structure Covered (position : String → Nat) (buf : String) (s : State) : Prop where
  within : position buf ≤ s.2.log.length
  handed : HandedBefore position buf s

/-- The cursor stands within the log, and everything of users before it was
handed over or is in the answers on the way to it. -/
structure Reached (position : String → Nat) (buf : String) (s : State) : Prop where
  within : position buf ≤ s.2.log.length
  answered : ∀ msg ∈ s.2.log, isUser msg → msg.place < position buf →
    Handed s.1 msg.place ∨ ∃ answer ∈ answersTo s.2.answers buf, msg ∈ answer.msgs

structure Always (position : String → Nat) (s : State) : Prop where
  place : ∀ (n : Nat) (msg : ILinkMessage), s.2.log[n]? = some msg → msg.place = n
  answers : ∀ answer ∈ s.2.answers, ∀ msg ∈ answer.msgs, msg ∈ s.2.log
  persisted : Covered position (s.1.syncBuf.getD "") s

/-- New messages come after the old ones, the answers have become more, and
nothing that was handed over is taken back. -/
structure Goes (s t : State) : Prop where
  grows : s.2.log.length ≤ t.2.log.length
  log : ∀ msg ∈ t.2.log, msg ∈ s.2.log ∨ s.2.log.length ≤ msg.place
  answers : s.2.answers <:+ t.2.answers
  handed : ∀ place, Handed s.1 place → Handed t.1 place

/-- The server returns everything, and what is saved was handed over. -/
def surroundings (position : String → Nat) : Surroundings Call State Outcome where
  allowed := fun s c o => AnswersAll position s c o ∧ SavesHanded position s c o
  between := fun s t => Goes s t ∧ (Always position s → Always position t)
  always := Always position

/-- Later answers do not lead away from a cursor. -/
theorem answersTo_subset {earlier answers : List Answer} (h : earlier <:+ answers) (buf : String) :
    answersTo earlier buf ⊆ answersTo answers buf := by
  obtain ⟨newer, rfl⟩ := h
  induction newer with
  | nil => exact fun _ hanswer => hanswer
  | cons answer newer ih =>
    intro other hother
    show other ∈ answersTo (answer :: (newer ++ earlier)) buf
    unfold answersTo
    split
    · exact List.mem_cons_of_mem _ (List.mem_append_right _ (ih hother))
    · exact ih hother

theorem answersTo_subset_answers (answers : List Answer) (buf : String) :
    answersTo answers buf ⊆ answers := by
  induction answers generalizing buf with
  | nil => exact fun _ hanswer => hanswer
  | cons answer earlier ih =>
    intro other hother
    unfold answersTo at hother
    split at hother
    · rcases List.mem_cons.mp hother with rfl | hother
      · exact List.mem_cons_self
      · rcases List.mem_append.mp hother with hother | hother
        · exact List.mem_cons_of_mem _ (ih _ hother)
        · exact List.mem_cons_of_mem _ (ih _ hother)
    · exact List.mem_cons_of_mem _ (ih _ hother)

section Server

variable {position : String → Nat}

theorem Goes.refl (s : State) : Goes s s :=
  ⟨Nat.le_refl _, fun _ h => .inl h, List.suffix_rfl, fun _ h => h⟩

theorem Goes.trans {s t u : State} (hst : Goes s t) (htu : Goes t u) : Goes s u := by
  constructor
  · exact Nat.le_trans hst.grows htu.grows
  · intro msg hmsg
    rcases htu.log msg hmsg with hmsg | hplace
    · exact hst.log msg hmsg
    · exact .inr (Nat.le_trans hst.grows hplace)
  · exact hst.answers.trans htu.answers
  · exact fun place h => htu.handed place (hst.handed place h)

theorem surroundings_lawful (position : String → Nat) : (surroundings position).Lawful where
  refl := fun s => ⟨Goes.refl s, id⟩
  trans := fun _ _ _ hst htu => ⟨hst.1.trans htu.1, htu.2 ∘ hst.2⟩
  always := fun _ _ hs hst => hst.2 hs

theorem Goes.covered {buf : String} {s t : State} (hgoes : Goes s t)
    (h : Covered position buf s) : Covered position buf t := by
  constructor
  · exact Nat.le_trans h.within hgoes.grows
  · intro msg hmsg huser hplace
    rcases hgoes.log msg hmsg with hmsg | hnew
    · exact hgoes.handed _ (h.handed msg hmsg huser hplace)
    · have := h.within
      omega

theorem Goes.reached {buf : String} {s t : State} (hgoes : Goes s t)
    (h : Reached position buf s) : Reached position buf t := by
  constructor
  · exact Nat.le_trans h.within hgoes.grows
  · intro msg hmsg huser hplace
    rcases hgoes.log msg hmsg with hmsg | hnew
    · rcases h.answered msg hmsg huser hplace with hhanded | ⟨answer, hanswer, hin⟩
      · exact .inl (hgoes.handed _ hhanded)
      · exact .inr ⟨answer, answersTo_subset hgoes.answers buf hanswer, hin⟩
    · have := h.within
      omega

theorem Covered.reached {buf : String} {s : State} (h : Covered position buf s) :
    Reached position buf s :=
  ⟨h.within, fun msg hmsg huser hplace => .inl (h.handed msg hmsg huser hplace)⟩

/-- The empty cursor stands before every message. -/
theorem covered_empty (hstart : position "" = 0) (s : State) : Covered position "" s := by
  constructor
  · omega
  · intro msg _ _ hplace
    omega

/-! ## One call -/

theorem Handed.call {w : World} {place : Nat} (h : Handed w place) (o : Outcome) (c : Call) :
    Handed (handle w o c).2 place :=
  List.map_subset _ (inbound_subset_handle w o c) h

theorem log_handle (s : State) (o : Outcome) (c : Call) :
    (plan.handle s o c).2.2.log = s.2.log := by
  cases c with
  | getUpdates syncBuf =>
    simp only [plan, Handler.watched, handle, watch]
    split
    · split <;> rfl
    all_goals rfl
  | _ => rfl

/-- What a poll leaves: its answer, if it has one without an error. -/
theorem answers_getUpdates (s : State) (o : Outcome) (syncBuf : String) :
    (plan.handle s o (.getUpdates syncBuf)).2.2.answers = s.2.answers ∨
      ∃ value ∈ o.updates.body?, isOk value ∧
        (plan.handle s o (.getUpdates syncBuf)).2.2.answers =
          ⟨syncBuf, value.getUpdatesBuf, value.msgs⟩ :: s.2.answers := by
  simp only [plan, Handler.watched, handle, watch]
  cases o.updates with
  | body value =>
    by_cases hok : isOk value
    · exact .inr ⟨value, rfl, hok, by simp [hok]⟩
    · exact .inl (by simp [hok])
  | _ => exact .inl rfl

theorem goes_call (s : State) (o : Outcome) (c : Call) : Goes s (plan.handle s o c).2 := by
  constructor
  · rw [log_handle]
  · intro msg hmsg
    rw [log_handle] at hmsg
    exact .inl hmsg
  · cases c with
    | getUpdates syncBuf =>
      rcases answers_getUpdates s o syncBuf with h | ⟨value, -, -, h⟩
      · rw [h]
      · rw [h]
        exact List.suffix_cons _ _
    | _ => exact List.suffix_rfl
  · exact fun place hplace => hplace.call o c

/-- Every message of an answer is one of the log. -/
theorem Always.answers_call {s : State} {o : Outcome} {c : Call} (h : Always position s)
    (hanswers : AnswersAll position s c o) :
    ∀ answer ∈ (plan.handle s o c).2.2.answers, ∀ msg ∈ answer.msgs, msg ∈ s.2.log := by
  cases c with
  | getUpdates syncBuf =>
    rcases answers_getUpdates s o syncBuf with hsame | ⟨value, hvalue, hok, hnew⟩
    · rw [hsame]
      exact h.answers
    · rw [hnew]
      intro answer hanswer
      rcases List.mem_cons.mp hanswer with rfl | hanswer
      · intro msg hmsg
        have hmsgs : value.msgs = s.2.log.drop (position syncBuf) :=
          (hanswers syncBuf rfl value hvalue hok).1
        rw [hmsgs] at hmsg
        exact List.mem_of_mem_drop hmsg
      · exact h.answers answer hanswer
  | _ => exact h.answers

/-- What the answers on the way to a cursor have is handed over when the cursor
is saved, so the cursor is one up to which everything was handed over. -/
theorem Reached.covered {s : State} {o : Outcome} {poller : Poller} {buf : String}
    (h : Reached position buf s) (hsaves : SavesHanded position s (.saveSyncBuf poller buf) o)
    (hfault : o.fault = none) : Covered position buf s := by
  constructor
  · exact h.within
  · intro msg hmsg huser hplace
    rcases h.answered msg hmsg huser hplace with hhanded | ⟨answer, hanswer, hin⟩
    · exact hhanded
    · exact hsaves buf rfl hfault answer hanswer msg hin huser hplace

/-- What the calls of the pollers need of a cursor. -/
def Known (position : String → Nat) (s : State) : Call → Prop
  | .getUpdates syncBuf => Reached position syncBuf s
  | .saveSyncBuf _ buf => Reached position buf s
  | _ => True

theorem persisted_call {s : State} {o : Outcome} {c : Call} (h : Always position s)
    (hknown : Known position s c) (hsaves : SavesHanded position s c o) :
    Covered position ((plan.handle s o c).2.1.syncBuf.getD "") s := by
  show Covered position ((handle s.1 o c).2.syncBuf.getD "") s
  cases c with
  | saveSyncBuf poller buf =>
    cases hfault : o.fault with
    | some e =>
      simp only [handle, statement, hfault]
      exact h.persisted
    | none =>
      simp only [handle, statement, hfault]
      exact Reached.covered hknown hsaves hfault
  | _ =>
    rw [handle_syncBuf s.1 o _ (by simp)]
    exact h.persisted

/-- Every call is a step that the others count on, as long as its cursor is one
that a poller has come to. -/
theorem between_call {s : State} {o : Outcome} {c : Call} (hknown : Known position s c)
    (hanswers : AnswersAll position s c o) (hsaves : SavesHanded position s c o) :
    (surroundings position).between s (plan.handle s o c).2 := by
  have hgoes := goes_call s o c
  refine ⟨hgoes, fun h => ?_⟩
  constructor
  · rw [log_handle]
    exact h.place
  · rw [log_handle]
    exact h.answers_call hanswers
  · exact hgoes.covered (persisted_call h hknown hsaves)

/-! ## The pollers -/

/-- A poller has come to the cursor. -/
def reached (position : String → Nat) (buf : String) : Assert (surroundings position) where
  holds := Reached position buf
  stable := fun _ _ hst h => hst.1.reached h

def fits (position : String → Nat) (c : Call) : Assert (surroundings position) where
  holds := fun s => Known position s c
  stable := by
    intro s t hst h
    cases c with
    | getUpdates syncBuf => exact hst.1.reached h
    | saveSyncBuf poller buf => exact hst.1.reached h
    | _ => trivial

/-- The cursors that a load and a poll yield. -/
def Told (position : String → Nat) (s : State) : (c : Call) → c.Reply → Prop
  | .loadSyncBuf _, (loaded : Except String String) =>
    Reached position (loaded.toOption.getD "") s
  | .getUpdates _, (http : Http ILinkGetUpdatesResponse) =>
    ∀ updates, http = .body updates → isOk updates →
      ∀ buf ∈ updates.getUpdatesBuf, Reached position buf s
  | _, _ => True

def told (position : String → Nat) (c : Call) (r : c.Reply) : Assert (surroundings position) where
  holds := fun s => Told position s c r
  stable := by
    intro s t hst h
    cases c with
    | loadSyncBuf poller => exact hst.1.reached h
    | getUpdates syncBuf =>
      intro updates hupdates hok buf hbuf
      exact hst.1.reached (h updates hupdates hok buf hbuf)
    | _ => trivial

/-- A message of the log that is not before the cursor is in the answer, and an
earlier one was handed over or is in the answers on the way to the cursor. -/
theorem reached_getUpdates {s : State} {o : Outcome} {syncBuf : String}
    (h : Always position s) (hsyncBuf : Reached position syncBuf s)
    (hanswers : AnswersAll position s (.getUpdates syncBuf) o) {updates : ILinkGetUpdatesResponse}
    (hupdates : o.updates = .body updates) (hok : isOk updates) {buf : String}
    (hbuf : updates.getUpdatesBuf = some buf) :
    Reached position buf (plan.handle s o (.getUpdates syncBuf)).2 := by
  have hbody : updates ∈ o.updates.body? := by
    rw [hupdates]
    rfl
  obtain ⟨hmsgs, hwithin⟩ := hanswers syncBuf rfl updates hbody hok
  have hnext : (plan.handle s o (.getUpdates syncBuf)).2 =
      (s.1, ⟨s.2.log, ⟨syncBuf, updates.getUpdatesBuf, updates.msgs⟩ :: s.2.answers⟩) := by
    simp [plan, Handler.watched, handle, watch, hupdates, hok]
  rw [hnext]
  have hway : answersTo (⟨syncBuf, updates.getUpdatesBuf, updates.msgs⟩ :: s.2.answers) buf =
      ⟨syncBuf, updates.getUpdatesBuf, updates.msgs⟩ ::
        (answersTo s.2.answers syncBuf ++ answersTo s.2.answers buf) :=
    if_pos hbuf
  constructor
  · exact hwithin buf hbuf
  · intro msg hmsg huser hplace
    rw [hway]
    by_cases hold : msg.place < position syncBuf
    · rcases hsyncBuf.answered msg hmsg huser hold with hhanded | ⟨answer, hanswer, hin⟩
      · exact .inl hhanded
      · exact .inr ⟨answer, List.mem_cons_of_mem _ (List.mem_append_left _ hanswer), hin⟩
    · refine .inr ⟨_, List.mem_cons_self, ?_⟩
      show msg ∈ updates.msgs
      rw [hmsgs]
      obtain ⟨n, hn⟩ := List.mem_iff_getElem?.mp hmsg
      have hn' : msg.place = n := h.place n msg hn
      apply List.mem_iff_getElem?.mpr
      refine ⟨n - position syncBuf, ?_⟩
      rw [List.getElem?_drop, Nat.add_sub_cancel' (by omega)]
      exact hn

theorem told_call (hstart : position "" = 0) {s : State} {o : Outcome} {c : Call}
    (h : Always position s) (hknown : Known position s c) (hanswers : AnswersAll position s c o) :
    Told position (plan.handle s o c).2 c (plan.handle s o c).1 := by
  cases c with
  | loadSyncBuf poller =>
    have hloaded : Covered position
        ((handle s.1 o (.loadSyncBuf poller)).1.toOption.getD "") s := by
      simp only [handle, statement]
      cases o.fault with
      | some e => exact covered_empty hstart s
      | none => exact h.persisted
    exact (goes_call s o _).reached hloaded.reached
  | getUpdates syncBuf =>
    intro updates hupdates hok buf hbuf
    exact reached_getUpdates h hknown hanswers hupdates hok hbuf
  | _ => trivial

def contract (hstart : position "" = 0) : Contract plan.handle (surroundings position) where
  fits := fits position
  told := told position
  keep := fun _ _ _ halways hknown hallowed =>
    ⟨between_call hknown hallowed.1 hallowed.2, told_call hstart halways hknown hallowed.1⟩

/-- The pollers poll with and save only cursors that they have come to. -/
theorem pollerContract (hstart : position "" = 0) :
    PollerContract (contract hstart) (reached position) where
  plain := by
    intro s c hc
    cases c with
    | saveSyncBuf poller buf => cases hc
    | getUpdates syncBuf => cases hc
    | _ => trivial
  load := fun _ _ _ htold => htold
  poll := fun _ _ hsyncBuf => hsyncBuf
  next := by
    intro s syncBuf http updates hsyncBuf htold hresult buf hbuf
    rcases getUpdatesResult_eq_ok hresult with rfl | ⟨hbody, hok⟩
    · -- nothing came, and the cursor is the old one
      cases hbuf
      exact hsyncBuf
    · exact htold updates hbody hok buf hbuf
  save := fun _ _ _ hbuf => hbuf
  write := by
    intro s _ _ _ _ _ _ _ e _ c hc
    cases c with
    | saveSyncBuf poller buf => cases hc
    | getUpdates syncBuf => cases hc
    | _ => trivial
  session := fun _ _ _ _ => trivial

end Server

/-! ## Every run -/

section Runs

variable {position : String → Nat}

theorem goes_arrive (msg : ILinkMessage) (s : State) : Goes s (arrive msg s) := by
  constructor
  · show s.2.log.length ≤ (s.2.log ++ _).length
    rw [List.length_append]
    omega
  · intro m hm
    rcases List.mem_append.mp hm with hm | hm
    · exact .inl hm
    · rw [List.mem_singleton] at hm
      subst hm
      exact .inr (Nat.le_refl _)
  · exact List.suffix_rfl
  · exact fun _ h => h

theorem Always.arrived {s : State} (h : Always position s) (msg : ILinkMessage) :
    Always position (arrive msg s) := by
  constructor
  · intro n m hm
    have hlog : (arrive msg s).2.log = s.2.log ++ [{ msg with place := s.2.log.length }] := rfl
    rw [hlog] at hm
    by_cases hn : n < s.2.log.length
    · rw [List.getElem?_append_left hn] at hm
      exact h.place n m hm
    · rw [List.getElem?_append_right (Nat.le_of_not_lt hn)] at hm
      obtain ⟨hsub, hmsg⟩ := List.getElem?_eq_some_iff.mp hm
      rw [List.length_singleton] at hsub
      rw [List.getElem_singleton] at hmsg
      subst hmsg
      show s.2.log.length = n
      omega
  · exact fun answer hanswer m hm => List.mem_append_left _ (h.answers answer hanswer m hm)
  · exact (goes_arrive msg s).covered h.persisted

theorem goes_crashed (s : State) : Goes s (s.1.crashed, s.2) :=
  ⟨Nat.le_refl _, fun _ h => .inl h, List.suffix_rfl, fun _ h => h⟩

theorem plan_respectful (hstart : position "" = 0) :
    plan.Respectful (surroundings position) anyArrival where
  lawful := surroundings_lawful position
  body := by
    intro b s _
    have hE := surroundings_lawful position
    have hbody : Triple plan.handle (Assert.pure (surroundings position) True) b.program
        fun _ => Assert.pure (surroundings position) True := by
      cases b with
      | channel account channelId rounds =>
        exact triple_channelPoller hE (pollerContract hstart) channelId rounds
      | token account rounds => exact triple_tokenPoller hE (pollerContract hstart) rounds
    exact hbody s trivial
  other := fun s msg _ _ => ⟨goes_arrive msg s, fun h => h.arrived msg⟩
  reset := by
    intro s _ _
    refine ⟨goes_crashed s, fun h => ?_⟩
    exact ⟨h.place, h.answers, (goes_crashed s).covered h.persisted⟩

theorem always_init (hstart : position "" = 0) : Always position State.init := by
  constructor
  · intro n msg hmsg
    cases hmsg
  · intro answer hanswer
    exact absurd hanswer List.not_mem_nil
  · exact covered_empty hstart _

/-- Every message of an answer is one of the log, so a save that leaves the
cursor not ahead saved what had been handed over. -/
theorem savesHanded_of_notAhead {s : State} {o : Outcome} {c : Call} (halways : Always position s)
    (h : NotAhead position (plan.handle s o c).2) : SavesHanded position s c o := by
  intro buf hbuf hfault answer hanswer msg hmsg huser hplace
  have hlog : msg ∈ s.2.log := halways.answers answer (answersTo_subset_answers _ _ hanswer) msg hmsg
  cases c with
  | saveSyncBuf poller saved =>
    cases hbuf
    simp only [plan, Handler.watched, handle, statement, hfault] at h
    exact h msg hlog huser hplace
  | _ => cases hbuf

end Runs

/-- In every run of the pollers, the persisted cursor is never ahead of what
was handed to the inbound channel exactly when every save that works is one
after everything was handed over that the answers on the way to the cursor have
of users from before it. -/
theorem never_ahead_iff {position : String → Nat} (hstart : position "" = 0)
    {events : List (Event Unit Body ILinkMessage Outcome)} {s : System Unit Call.Reply State}
    (hrun : run (System.step plan) (System.init State.init) events = some s)
    (hserver : EveryStep (System.step plan) (System.Meets (AnswersAll position) anyArrival)
      (System.init State.init) events) :
    EveryState (System.step plan) (fun s => NotAhead position s.shared)
      (System.init State.init) events ↔
    EveryStep (System.step plan) (System.Meets (SavesHanded position) anyArrival)
      (System.init State.init) events := by
  apply everyState_iff (plan_respectful hstart) (fun _ _ _ hanswers hsaves => ⟨hanswers, hsaves⟩) _ _
    (always_init hstart) hrun hserver
  · exact fun s h => h.persisted.handed
  · exact fun s c o halways h => savesHanded_of_notAhead halways h

/-! ## A run that goes wrong, and one that does not -/

/-- The persisted cursor is never ahead of what was handed over, whatever the
interleaving and whenever the daemon crashes. -/
def CursorNeverAhead : Prop :=
  ∀ (position : String → Nat), position "" = 0 →
    ∀ (events : List (Event Unit Body ILinkMessage Outcome)) (s : System Unit Call.Reply State),
      run (System.step plan) (System.init State.init) events = some s →
      EveryStep (System.step plan) (System.Meets (AnswersAll position) anyArrival)
        (System.init State.init) events → NotAhead position s.shared

def hello : ILinkMessage where
  place := 0
  messageType := some 1
  fromUserId := some "alice"
  toUserId := none
  groupId := none
  contextToken := some "ctx-1"
  itemList := [⟨some 1, some ⟨some "hello"⟩⟩]

/-- The server answers with its one message, and with this cursor. -/
def oneMessage (buf : Option String) : Outcome :=
  { fine with updates := .body ⟨0, none, none, [hello], buf⟩ }

/-- The cursor `buf-1` stands after the first message. -/
def firstPosition (buf : String) : Nat := if buf = "buf-1" then 1 else 0

/-- The channel polls, saves the cursor, and the daemon crashes before the
message is handed over. -/
def crashAfterSave : List (Event Unit Body ILinkMessage Outcome) :=
  [.other hello, .start (.channel "bot" ⟨"wechat"⟩ 1), .call 0 fine, .call 0 fine, .call 0 fine,
    .call 0 fine, .call 0 (oneMessage (some "buf-1")), .call 0 fine, .call 0 fine, .crash ()]

theorem not_cursorNeverAhead : ¬ CursorNeverAhead := by
  intro h
  have hahead := h firstPosition rfl crashAfterSave
    (Option.get (run (System.step plan) (System.init State.init) crashAfterSave)
      (by decide +kernel)) (Option.some_get _).symm (by decide +kernel)
  exact absurd hahead (by decide +kernel)

/-- A first answer has no cursor, so its message is handed over before the
cursor of the second answer is saved. -/
def handedThenSaved : List (Event Unit Body ILinkMessage Outcome) :=
  [.other hello, .start (.channel "bot" ⟨"wechat"⟩ 2), .call 0 fine, .call 0 fine, .call 0 fine,
    .call 0 fine, .call 0 (oneMessage none), .call 0 fine, .call 0 fine, .call 0 fine,
    .call 0 fine, .call 0 (oneMessage (some "buf-1")), .call 0 fine, .call 0 fine]

theorem handedThenSaved_never_ahead :
    EveryState (System.step plan) (fun s => NotAhead firstPosition s.shared)
      (System.init State.init) handedThenSaved := by
  have henabled : (run (System.step plan) (System.init State.init) handedThenSaved).isSome := by
    decide +kernel
  exact (never_ahead_iff rfl (Option.some_get henabled).symm (by decide +kernel)).mpr
    (by decide +kernel)

end MagicLaw.WeChat.Cursor
