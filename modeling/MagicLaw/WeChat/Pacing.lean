import MagicLaw.Lib.Owners
import MagicLaw.WeChat.Sends

/-!
# The distance of sends to one peer

`apiSend` leaves the sleep of the handler out.  `pacedApiSend` is the handler
with it: a request that reads the time of the last success from the cache waits
until the minimum interval since then is over.  Without the clock it is
`apiSend` (`erases_pacedApiSend`).

Any number of requests and long polls run over the cache, and a request may be
dropped anywhere, which releases the lock of its peer.  A request that holds the
lock relies on the others to leave the last success to the peer as it is
(`relies`), and so the time that it has read stays the right one.

`sends_keepInterval` is the result about whole runs.
-/

namespace MagicLaw.WeChat.Pacing

open Lib Lib.Program Lib.Machine Lib.Owners

/-! ## The handler with its clock -/

inductive PacedCall where
  /-- a call of the task with this number -/
  | of (task : Nat) (c : Call)
  /-- `Instant::elapsed` -/
  | elapsed (since : Nat)
  /-- `tokio::time::sleep` begins: the instant at which it may end -/
  | sleep (duration : Nat)
  /-- the sleep ends -/
  | wake (deadline : Nat)

def PacedCall.Reply : PacedCall → Type
  | .of _ c => c.Reply
  | .elapsed _ | .sleep _ => Nat
  | .wake _ => Unit

abbrev PacedWork := Prog PacedCall.Reply

def paced (c : PacedCall) : PacedWork c.Reply := .perform c

/-- A program that does not look at the clock, as one of the tasks. -/
def onTask {α : Type} (task : Nat) : Work α → PacedWork α
  | .ret a => .ret a
  | .call c next => .call (.of task c) fun r => onTask task (next r)

/-- Pace same-peer sends. -/
def pace (sendMinIntervalMs : Nat) (entry : Option PeerTokenState) : PacedWork Unit :=
  match entry.bind PeerTokenState.lastSuccessAt with
  | none => pure ()
  | some lastSuccessAt => do
    let elapsed : Nat ← paced (.elapsed lastSuccessAt)
    if elapsed < sendMinIntervalMs then
      let deadline : Nat ← paced (.sleep (sendMinIntervalMs - elapsed))
      paced (.wake deadline)
    else
      pure ()

/-- The handler of `/api/send`. -/
def pacedApiSend (task : Nat) (account : String) (sendMinIntervalMs : Nat) (req : SendRequest) :
    PacedWork (Nat × SendResponse) := do
  paced (.of task (.lockPeer req.toPeer))
  let entry : Option PeerTokenState ← paced (.of task (.cacheGet req.toPeer))
  pace sendMinIntervalMs entry
  let answer ← onTask task (apiSendWith account req (selectToken entry req))
  paced (.of task (.unlockPeer req.toPeer))
  pure answer

def pacedTask (account : String) (sendMinIntervalMs task : Nat) : TokenTask → PacedWork Unit
  | .poller rounds => onTask task (tokenPoller account rounds)
  | .send req => do
    let _ ← pacedApiSend task account sendMinIntervalMs req
    pure ()

/-! ### Without the clock -/

/-- Whatever the clock shows, the first program makes the calls of the second
one. -/
def Erases {α : Type} : PacedWork α → Work α → Prop
  | .ret a, q => q = .ret a
  | .call (.of _ c) next, q => ∃ next', q = .call c next' ∧ ∀ r, Erases (next r) (next' r)
  | .call (.elapsed _) next, q => ∀ r, Erases (next r) q
  | .call (.sleep _) next, q => ∀ r, Erases (next r) q
  | .call (.wake _) next, q => ∀ r, Erases (next r) q

section Erases

variable {α β : Type} {p : PacedWork α} {q : Work α}

theorem erases_bind {k : α → PacedWork β} {j : α → Work β} (hp : Erases p q)
    (hk : ∀ a, Erases (k a) (j a)) : Erases (p >>= k) (q >>= j) := by
  show Erases (p.bind k) (q.bind j)
  induction p generalizing q with
  | ret a =>
    have hq : q = .ret a := hp
    subst hq
    exact hk a
  | call c next ih =>
    cases c with
    | of task c =>
      obtain ⟨next', hq, hnext⟩ := hp
      subst hq
      exact ⟨_, rfl, fun r => ih r (hnext r)⟩
    | elapsed since => exact fun r => ih r (hp r)
    | sleep duration => exact fun r => ih r (hp r)
    | wake deadline => exact fun r => ih r (hp r)

theorem erases_onTask (task : Nat) (q : Work α) : Erases (onTask task q) q := by
  induction q with
  | ret a => rfl
  | call c next ih => exact ⟨next, rfl, ih⟩

/-- The wait makes no call but those to the clock. -/
theorem erases_pace (sendMinIntervalMs : Nat) (entry : Option PeerTokenState) :
    Erases (pace sendMinIntervalMs entry) (pure ()) := by
  unfold pace
  cases entry.bind PeerTokenState.lastSuccessAt with
  | none => rfl
  | some lastSuccessAt =>
    intro (elapsed : Nat)
    show Erases (if elapsed < sendMinIntervalMs then _ else _) _
    split
    · exact fun _ _ => rfl
    · rfl

/-- Without the clock the handler is `apiSend`. -/
theorem erases_pacedApiSend (task : Nat) (account : String) (sendMinIntervalMs : Nat)
    (req : SendRequest) :
    Erases (pacedApiSend task account sendMinIntervalMs req) (apiSend account req) := by
  refine ⟨_, rfl, fun _ => ⟨_, rfl, fun entry => ?_⟩⟩
  refine erases_bind (q := pure ()) (j := fun _ => _) (erases_pace sendMinIntervalMs entry)
    fun _ => ?_
  refine erases_bind (erases_onTask task _) fun answer => ?_
  exact ⟨_, rfl, fun _ => rfl⟩

end Erases

/-! ## The state, with what happened so far -/

/-- A send: when it started, and the last success to the peer before it. -/
structure Send where
  peer : String
  start : Nat
  previous : Option Nat
  deriving DecidableEq

/-- The send starts the minimum interval after the last success. -/
def Send.KeepsInterval (sendMinIntervalMs : Nat) (send : Send) : Prop :=
  ∀ t ∈ send.previous, t + sendMinIntervalMs ≤ send.start

instance (sendMinIntervalMs : Nat) (send : Send) : Decidable (send.KeepsInterval sendMinIntervalMs) :=
  inferInstanceAs (Decidable (∀ t ∈ send.previous, t + sendMinIntervalMs ≤ send.start))

structure PacedState where
  world : World
  clock : Nat
  /-- the task that has the lock of a peer -/
  holder : String → Option Nat
  /-- the instant of the last success to a peer: that of a send that was
  accepted, and then the one that is marked -/
  lastSuccess : String → Option Nat
  sends : List Send

def PacedState.start (w : World) (clock : Nat) : PacedState :=
  ⟨w, clock, fun _ => none, fun _ => none, []⟩

/-- What a call of a task adds to what happened. -/
def PacedState.noted (s : PacedState) (task now : Nat) : (c : Call) → c.Reply → PacedState
  | .lockPeer peer, _ => { s with holder := Function.update s.holder peer (some task) }
  | .unlockPeer peer, _ => { s with holder := Function.update s.holder peer none }
  | .sendMessage _ peer _, (http : Http Json) =>
    { s with
      sends := ⟨peer, now, s.lastSuccess peer⟩ :: s.sends
      lastSuccess :=
        if (sendTextResult http).isOk then Function.update s.lastSuccess peer (some now)
        else s.lastSuccess }
  | .cacheSuccess peer _ _, _ =>
    { s with lastSuccess := Function.update s.lastSuccess peer (some now) }
  | _, _ => s

def pacedHandle (s : PacedState) (o : Outcome) : (c : PacedCall) → c.Reply × PacedState
  | .of task c => ((handle s.world o c).1,
    { s.noted task o.now c (handle s.world o c).1 with
      world := (handle s.world o c).2
      clock := o.now })
  | .elapsed since => (o.now - since, { s with clock := o.now })
  | .sleep duration => (o.now + duration, { s with clock := o.now })
  | .wake _ => ((), { s with clock := o.now })

/-- A task that is dropped gives its locks back. -/
def dropTask (task : Nat) (s : PacedState) : PacedState :=
  { s with
    world := { s.world with
      sendPeerLocks := s.world.sendPeerLocks.filter fun peer => s.holder peer ≠ some task }
    holder := fun peer => if s.holder peer = some task then none else s.holder peer }

def plan (account : String) (sendMinIntervalMs : Nat) :
    Plan Nat TokenTask Empty PacedCall.Reply PacedState Outcome where
  handle := pacedHandle
  body := pacedTask account sendMinIntervalMs
  other := fun e _ => e.elim
  reset := dropTask

/-! ## What a call may do -/

def PacedCall.base? : PacedCall → Option Call
  | .of _ c => some c
  | _ => none

def PacedCall.deadline? : PacedCall → Option Nat
  | .wake deadline => some deadline
  | _ => none

/-- The peer whose entry the call reads. -/
def PacedCall.reads? : PacedCall → Option String
  | .of _ (.cacheGet peer) => some peer
  | _ => none

/-- The clock does not go back, a lock is taken when nobody holds it, and a
sleep does not end too early. -/
structure Possible (s : PacedState) (c : PacedCall) (o : Outcome) : Prop where
  clock : s.clock ≤ o.now
  lock : ∀ c' ∈ c.base?, LockFree s.world c' o
  deadline : ∀ d ∈ c.deadline?, d ≤ o.now

instance (s : PacedState) (c : PacedCall) (o : Outcome) : Decidable (Possible s c o) :=
  decidable_of_iff
    (s.clock ≤ o.now ∧ (∀ c' ∈ c.base?, LockFree s.world c' o) ∧ ∀ d ∈ c.deadline?, d ≤ o.now)
    ⟨fun h => ⟨h.1, h.2.1, h.2.2⟩, fun h => ⟨h.clock, h.lock, h.deadline⟩⟩

/-- The entry has the time of a success that is not older. -/
def HasSuccess (entry : Option PeerTokenState) (t : Nat) : Prop :=
  ∃ t' ∈ entry.bind PeerTokenState.lastSuccessAt, t ≤ t'

instance (entry : Option PeerTokenState) (t : Nat) : Decidable (HasSuccess entry t) :=
  inferInstanceAs (Decidable (∃ t' ∈ entry.bind PeerTokenState.lastSuccessAt, t ≤ t'))

/-- A request that reads the entry of its peer less than the minimum interval
after the last success finds the time of it. -/
def FindsSuccess (sendMinIntervalMs : Nat) (s : PacedState) (c : PacedCall) (o : Outcome) : Prop :=
  ∀ peer ∈ c.reads?, ∀ t ∈ s.lastSuccess peer,
    t + sendMinIntervalMs ≤ o.now ∨ HasSuccess (s.world.tokenCache.lookup peer) t

instance (sendMinIntervalMs : Nat) (s : PacedState) (c : PacedCall) (o : Outcome) :
    Decidable (FindsSuccess sendMinIntervalMs s c o) :=
  inferInstanceAs (Decidable (∀ peer ∈ c.reads?, ∀ t ∈ s.lastSuccess peer,
    t + sendMinIntervalMs ≤ o.now ∨ HasSuccess (s.world.tokenCache.lookup peer) t))

/-! ## What tasks count on -/

/-- Every send keeps the interval so far.  What is held is locked, and a success
is in the past. -/
structure Spaced (sendMinIntervalMs : Nat) (s : PacedState) : Prop where
  sends : ∀ send ∈ s.sends, send.KeepsInterval sendMinIntervalMs
  locked : ∀ peer task, s.holder peer = some task → peer ∈ s.world.sendPeerLocks
  past : ∀ peer, ∀ t ∈ s.lastSuccess peer, t ≤ s.clock

/-- The clock does not go back, and the last success to a peer whose lock the
task has stays the last one. -/
structure Relies (task : Nat) (s t : PacedState) : Prop where
  clock : s.clock ≤ t.clock
  held : ∀ peer, s.holder peer = some task →
    t.holder peer = some task ∧ t.lastSuccess peer = s.lastSuccess peer

def regime (sendMinIntervalMs : Nat) : Regime Nat PacedCall PacedState Outcome where
  allowed := fun s c o => Possible s c o ∧ FindsSuccess sendMinIntervalMs s c o
  rely := Relies
  always := Spaced sendMinIntervalMs

theorem relies_refl (task : Nat) (s : PacedState) : Relies task s s :=
  ⟨Nat.le_refl _, fun _ h => ⟨h, rfl⟩⟩

theorem regime_lawful (sendMinIntervalMs : Nat) : (regime sendMinIntervalMs).Lawful where
  refl := relies_refl
  trans task s t u hst htu := by
    refine ⟨Nat.le_trans hst.clock htu.clock, fun peer hs => ?_⟩
    have ht := hst.held peer hs
    have hu := htu.held peer ht.1
    exact ⟨hu.1, hu.2.trans ht.2⟩

section Calls

variable {sendMinIntervalMs task now : Nat} {s t : PacedState} {o : Outcome} {c : Call}
  {α : Type} {A : Assert (regime sendMinIntervalMs) task}

/-- Only the clock goes on. -/
structure Still (s t : PacedState) : Prop where
  clock : s.clock ≤ t.clock
  locks : t.world.sendPeerLocks = s.world.sendPeerLocks
  holder : t.holder = s.holder
  lastSuccess : t.lastSuccess = s.lastSuccess
  sends : t.sends = s.sends

theorem Still.relies (h : Still s t) (task : Nat) : Relies task s t := by
  refine ⟨h.clock, fun peer hs => ?_⟩
  rw [h.holder, h.lastSuccess]
  exact ⟨hs, rfl⟩

theorem Still.spaced (h : Still s t) (hs : Spaced sendMinIntervalMs s) :
    Spaced sendMinIntervalMs t := by
  constructor
  · rw [h.sends]
    exact hs.sends
  · rw [h.holder, h.locks]
    exact hs.locked
  · intro peer t' ht'
    rw [h.lastSuccess] at ht'
    exact Nat.le_trans (hs.past peer t' ht') h.clock

theorem Still.keeps (h : Still s t) (hs : Spaced sendMinIntervalMs s) :
    (regime sendMinIntervalMs).Keeps task s t :=
  ⟨h.spaced hs, fun task' _ => h.relies task'⟩

/-- A call after which only the clock has gone on. -/
theorem triple_still {i : PacedCall} {next : i.Reply → PacedWork α}
    {Q : α → Assert (regime sendMinIntervalMs) task}
    (hstill : ∀ s o, Possible s i o → Still s (pacedHandle s o i).2)
    (hnext : ∀ r, Triple pacedHandle A (next r) Q) :
    Triple pacedHandle A (Prog.perform i >>= next) Q := by
  refine triple_call (B := fun _ => A) (fun s hA hspaced o hallowed => ?_) hnext
  have hstill := hstill s o hallowed.1
  exact ⟨hstill.keeps hspaced, A.stable _ _ (hstill.relies task) hA⟩

/-- The peer whose lock or last success a call is about. -/
def concerns? : Call → Option String
  | .lockPeer peer | .unlockPeer peer | .sendMessage _ peer _ | .cacheSuccess peer _ _ => some peer
  | _ => none

/-- The other calls only let the clock go on. -/
theorem still_of_concerns (h : concerns? c = none) (hclock : s.clock ≤ o.now) :
    Still s (pacedHandle s o (.of task c)).2 := by
  have hnoted : ∀ r, s.noted task o.now c r = s := by
    intro r
    cases c with
    | lockPeer _ | unlockPeer _ | sendMessage _ _ _ | cacheSuccess _ _ _ => cases h
    | _ => rfl
  have hlocks : (handle s.world o c).2.sendPeerLocks = s.world.sendPeerLocks := by
    cases c with
    | lockPeer _ | unlockPeer _ => cases h
    | loadSyncBuf _ | saveSyncBuf _ _ | storeGetAll _ | storeSet _ _ _ | storeDelete _ _
    | storeDeleteAll _ =>
      simp only [handle, statement]
      split <;> rfl
    | inboundSend _ _ =>
      simp only [handle]
      split <;> rfl
    | _ => rfl
  refine ⟨hclock, hlocks, ?_, ?_, ?_⟩
  · show (s.noted task o.now c _).holder = s.holder
    rw [hnoted]
  · show (s.noted task o.now c _).lastSuccess = s.lastSuccess
    rw [hnoted]
  · show (s.noted task o.now c _).sends = s.sends
    rw [hnoted]

/-- A program of such calls keeps every assertion. -/
theorem triple_onTask {p : Work α} (h : Careful (fun c => concerns? c = none) (fun _ _ => True) p) :
    Triple pacedHandle A (onTask task p) fun _ => A := by
  induction p with
  | ret a => exact triple_pure fun _ hA => hA
  | call c next ih =>
    have h := careful_call_iff.mp h
    refine triple_still (fun s o hpossible => ?_) fun r => ih r (h.2 r trivial)
    exact still_of_concerns h.1 hpossible.clock

end Calls

/-! ## The long poll -/

section Poller

variable {account : String}

/-- The calls of the long poll concern no lock and no success. -/
theorem careful_call {c : Call} {α : Type} {next : c.Reply → Work α} (h : concerns? c = none)
    (hnext : ∀ r, Careful (fun c => concerns? c = none) (fun _ _ => True) (next r)) :
    Careful (fun c => concerns? c = none) (fun _ _ => True) (Prog.perform c >>= next) :=
  careful_perform_bind h fun r _ => hnext r

theorem careful_tokenMessage (msg : ILinkMessage) :
    Careful (fun c => concerns? c = none) (fun _ _ => True) (tokenMessage account msg) := by
  unfold tokenMessage
  split
  · exact careful_pure _
  · split
    · split
      · exact careful_pure _
      · refine careful_call rfl fun _ => careful_call rfl fun _ => ?_
        exact careful_pure _
    · exact careful_pure _

theorem careful_tokenCursor (syncBuf : String) (buf : Option String) :
    Careful (fun c => concerns? c = none) (fun _ _ => True) (tokenCursor syncBuf buf) := by
  cases buf with
  | none => exact careful_pure _
  | some buf =>
    refine careful_call rfl fun _ => ?_
    exact careful_pure _

theorem careful_tokenLoop (rounds sessionRetries : Nat) (syncBuf : String) :
    Careful (fun c => concerns? c = none) (fun _ _ => True)
      (tokenLoop account rounds sessionRetries syncBuf) := by
  induction rounds generalizing sessionRetries syncBuf with
  | zero => exact careful_pure _
  | succ rounds ih =>
    refine careful_call rfl fun http => ?_
    dsimp only
    split
    · refine careful_bind (careful_tokenCursor syncBuf _) fun next => ?_
      refine careful_bind (careful_forEach fun msg _ => careful_tokenMessage msg) fun _ => ?_
      exact ih 0 next
    · split
      · split
        · exact careful_pure _
        · refine careful_call rfl fun _ => careful_call rfl fun _ => ?_
          exact ih (sessionRetries + 1) syncBuf
      · exact ih sessionRetries syncBuf
    · exact ih sessionRetries syncBuf

theorem careful_tokenPoller (rounds : Nat) :
    Careful (fun c => concerns? c = none) (fun _ _ => True) (tokenPoller account rounds) :=
  careful_call rfl fun _ => careful_tokenLoop rounds 0 _

end Poller

/-! ## The request -/

section Request

variable {sendMinIntervalMs task : Nat} {account : String} {req : SendRequest}

/-- The task has the lock of the peer. -/
def holding (sendMinIntervalMs task : Nat) (peer : String) : Assert (regime sendMinIntervalMs) task where
  holds s := s.holder peer = some task
  stable _ _ hst h := (hst.held peer h).1

/-- Besides, the interval since the last success is over, or `since` says how
much of it is left: it depends on the last success and on the clock. -/
def waiting (sendMinIntervalMs task : Nat) (peer : String) (since : Nat → Nat → Prop)
    (hlater : ∀ t now now', now ≤ now' → since t now → since t now') :
    Assert (regime sendMinIntervalMs) task where
  holds s := s.holder peer = some task ∧
    ∀ t ∈ s.lastSuccess peer, t + sendMinIntervalMs ≤ s.clock ∨ since t s.clock
  stable s s' hst h := by
    have hheld := hst.held peer h.1
    refine ⟨hheld.1, fun t ht => ?_⟩
    rw [hheld.2] at ht
    rcases h.2 t ht with hover | hsince
    · left
      exact Nat.le_trans hover hst.clock
    · right
      exact hlater t _ _ hst.clock hsince

/-- The entry that was read has the last success. -/
def afterRead (sendMinIntervalMs task : Nat) (peer : String) (entry : Option PeerTokenState) :
    Assert (regime sendMinIntervalMs) task :=
  waiting sendMinIntervalMs task peer (fun t _ => HasSuccess entry t) fun _ _ _ _ h => h

/-- So much time has gone by. -/
def afterElapsed (sendMinIntervalMs task : Nat) (peer : String) (elapsed : Nat) :
    Assert (regime sendMinIntervalMs) task :=
  waiting sendMinIntervalMs task peer (fun t now => t + elapsed ≤ now)
    fun _ _ _ hnow h => Nat.le_trans h hnow

/-- The sleep ends late enough. -/
def asleep (sendMinIntervalMs task : Nat) (peer : String) (deadline : Nat) :
    Assert (regime sendMinIntervalMs) task :=
  waiting sendMinIntervalMs task peer (fun t _ => t + sendMinIntervalMs ≤ deadline)
    fun _ _ _ _ h => h

def ready (sendMinIntervalMs task : Nat) (peer : String) : Assert (regime sendMinIntervalMs) task :=
  waiting sendMinIntervalMs task peer (fun _ _ => False) fun _ _ _ _ h => h

theorem still_elapsed {s : PacedState} {o : Outcome} {since : Nat} (h : s.clock ≤ o.now) :
    Still s (pacedHandle s o (.elapsed since)).2 := ⟨h, rfl, rfl, rfl, rfl⟩

theorem still_sleep {s : PacedState} {o : Outcome} {duration : Nat} (h : s.clock ≤ o.now) :
    Still s (pacedHandle s o (.sleep duration)).2 := ⟨h, rfl, rfl, rfl, rfl⟩

theorem still_wake {s : PacedState} {o : Outcome} {deadline : Nat} (h : s.clock ≤ o.now) :
    Still s (pacedHandle s o (.wake deadline)).2 := ⟨h, rfl, rfl, rfl, rfl⟩

/-- What a step shows of the wait when only the clock goes on: successes are in
the past. -/
theorem waiting_step {s t : PacedState} {peer : String} {since since' : Nat → Nat → Prop}
    {hlater : ∀ t now now', now ≤ now' → since t now → since t now'}
    {hlater' : ∀ t now now', now ≤ now' → since' t now → since' t now'}
    (hs : (waiting sendMinIntervalMs task peer since hlater).holds s)
    (hspaced : Spaced sendMinIntervalMs s) (hstill : Still s t)
    (hsince : ∀ success ≤ s.clock, since success s.clock →
      success + sendMinIntervalMs ≤ t.clock ∨ since' success t.clock) :
    (regime sendMinIntervalMs).Keeps task s t ∧
      (waiting sendMinIntervalMs task peer since' hlater').holds t := by
  refine ⟨hstill.keeps hspaced, ?_, fun success hsuccess => ?_⟩
  · rw [hstill.holder]
    exact hs.1
  · rw [hstill.lastSuccess] at hsuccess
    rcases hs.2 success hsuccess with hover | h
    · left
      exact Nat.le_trans hover hstill.clock
    · exact hsince success (hspaced.past peer success hsuccess) h

/-- After the sleep the interval is over. -/
theorem triple_sleep (peer : String) {elapsed : Nat} (hless : elapsed < sendMinIntervalMs) :
    Triple pacedHandle (afterElapsed sendMinIntervalMs task peer elapsed)
      (do
        let deadline : Nat ← paced (.sleep (sendMinIntervalMs - elapsed))
        paced (.wake deadline))
      fun _ => ready sendMinIntervalMs task peer := by
  refine triple_call (B := asleep sendMinIntervalMs task peer) ?_ fun (deadline : Nat) => ?_
  · intro s hs hspaced o hallowed
    have hclock := hallowed.1.clock
    refine waiting_step hs hspaced (still_sleep hclock) fun success _ hsince => .inr ?_
    show success + sendMinIntervalMs ≤ o.now + (sendMinIntervalMs - elapsed)
    omega
  · refine triple_call (B := fun _ => ready sendMinIntervalMs task peer) ?_
      fun _ => triple_pure fun _ h => h
    intro s hs hspaced o hallowed
    have hdeadline : deadline ≤ o.now := hallowed.1.deadline deadline rfl
    refine waiting_step hs hspaced (still_wake hallowed.1.clock) fun success _ hsince => .inl ?_
    exact Nat.le_trans hsince hdeadline

/-- After the wait the interval is over. -/
theorem triple_pace (peer : String) (entry : Option PeerTokenState) :
    Triple pacedHandle (afterRead sendMinIntervalMs task peer entry) (pace sendMinIntervalMs entry)
      fun _ => ready sendMinIntervalMs task peer := by
  unfold pace
  cases hentry : entry.bind PeerTokenState.lastSuccessAt with
  | none =>
    refine triple_pure fun s hs => ⟨hs.1, fun t ht => ?_⟩
    refine (hs.2 t ht).imp_right fun hhas => ?_
    obtain ⟨t', ht', -⟩ := hhas
    rw [hentry] at ht'
    cases ht'
  | some lastSuccessAt =>
    refine triple_call (B := afterElapsed sendMinIntervalMs task peer) ?_
      fun (elapsed : Nat) => ?_
    · intro s hs hspaced o hallowed
      have hclock := hallowed.1.clock
      refine waiting_step hs hspaced (still_elapsed hclock) fun success hpast hhas => .inr ?_
      obtain ⟨t', ht', hle⟩ := hhas
      have hsame : lastSuccessAt = t' := by
        rw [hentry] at ht'
        exact Option.some.inj ht'
      show success + (o.now - lastSuccessAt) ≤ o.now
      omega
    · show Triple pacedHandle _ (if elapsed < sendMinIntervalMs then _ else _) _
      split
      · next hless => exact triple_sleep peer hless
      · next hover =>
        refine triple_pure fun s hs => ⟨hs.1, fun t ht => .inl ?_⟩
        have hpassed := hs.2 t ht
        show t + sendMinIntervalMs ≤ s.clock
        rcases hpassed with hpassed | hsince
        · exact hpassed
        · have hsince : t + elapsed ≤ s.clock := hsince
          omega

/-- A success to a peer whose lock the task has is one that the others do not
count on. -/
theorem keeps_of_success {s t : PacedState} {peer : String} (hs : Spaced sendMinIntervalMs s)
    (hheld : s.holder peer = some task) (hclock : s.clock ≤ t.clock)
    (hlocks : t.world.sendPeerLocks = s.world.sendPeerLocks) (hholder : t.holder = s.holder)
    (hsuccess : t.lastSuccess = s.lastSuccess ∨
      t.lastSuccess = Function.update s.lastSuccess peer (some t.clock))
    (hsends : ∀ send ∈ t.sends, send.KeepsInterval sendMinIntervalMs) :
    (regime sendMinIntervalMs).Keeps task s t := by
  have hother : ∀ peer', peer' ≠ peer → t.lastSuccess peer' = s.lastSuccess peer' := by
    intro peer' hne
    rcases hsuccess with h | h
    · rw [h]
    · rw [h, Function.update_of_ne hne]
  constructor
  · constructor
    · exact hsends
    · rw [hholder, hlocks]
      exact hs.locked
    · intro peer' t' ht'
      rcases hsuccess with h | h
      · rw [h] at ht'
        exact Nat.le_trans (hs.past peer' t' ht') hclock
      · by_cases hpeer : peer' = peer
        · rw [h, hpeer, Function.update_self] at ht'
          exact Nat.le_of_eq (Option.some.inj ht').symm
        · rw [hother peer' hpeer] at ht'
          exact Nat.le_trans (hs.past peer' t' ht') hclock
  · intro task' htask
    refine ⟨hclock, fun peer' hs' => ?_⟩
    rw [hholder]
    refine ⟨hs', hother peer' fun hpeer => ?_⟩
    -- the lock would be held by two tasks
    rw [hpeer, hheld] at hs'
    exact htask (Option.some.inj hs').symm

theorem triple_apiSent (ctx : String) (sent : Except String Json) :
    Triple pacedHandle (holding sendMinIntervalMs task req.toPeer)
      (onTask task (apiSent account req ctx sent)) fun _ => holding sendMinIntervalMs task req.toPeer := by
  cases sent with
  | ok resp =>
    refine triple_call (B := fun _ => holding sendMinIntervalMs task req.toPeer) ?_ fun entry => ?_
    · intro s hheld hspaced o hallowed
      refine ⟨keeps_of_success hspaced hheld hallowed.1.clock rfl rfl (.inr rfl) hspaced.sends, ?_⟩
      exact hheld
    · refine triple_onTask (careful_call rfl fun _ => ?_)
      exact careful_pure _
  | error e =>
    refine triple_onTask ?_
    unfold apiSent
    dsimp only
    split
    · refine careful_call rfl fun _ => careful_call rfl fun _ => ?_
      exact careful_pure _
    · exact careful_pure _

/-- A request that is ready sends in time. -/
theorem triple_apiSendWith (token : Option String) :
    Triple pacedHandle (ready sendMinIntervalMs task req.toPeer)
      (onTask task (apiSendWith account req token))
      fun _ => holding sendMinIntervalMs task req.toPeer := by
  cases token with
  | none => exact triple_pure fun _ h => h.1
  | some ctx =>
    refine triple_call (B := fun _ => holding sendMinIntervalMs task req.toPeer) ?_
      fun http => triple_apiSent ctx _
    intro s hs hspaced o hallowed
    have hclock := hallowed.1.clock
    have hsend : Send.KeepsInterval sendMinIntervalMs
        ⟨req.toPeer, o.now, s.lastSuccess req.toPeer⟩ := by
      intro t ht
      have hover := (hs.2 t ht).resolve_right id
      show t + sendMinIntervalMs ≤ o.now
      omega
    refine ⟨keeps_of_success hspaced hs.1 hclock rfl rfl ?_ ?_, hs.1⟩
    · by_cases hok : (sendTextResult o.reply).isOk = true
      · right
        exact if_pos hok
      · left
        exact if_neg hok
    · intro send hmem
      rcases List.mem_cons.mp hmem with rfl | hmem
      · exact hsend
      · exact hspaced.sends send hmem

/-- Taking the lock of a peer that is free: no other task counts on it. -/
theorem keeps_lockPeer {s : PacedState} {o : Outcome} {peer : String}
    (hspaced : Spaced sendMinIntervalMs s) (hclock : s.clock ≤ o.now)
    (hfree : peer ∉ s.world.sendPeerLocks) :
    (regime sendMinIntervalMs).Keeps task s (pacedHandle s o (.of task (.lockPeer peer))).2 := by
  refine ⟨⟨hspaced.sends, fun other task' hheld => ?_, fun other t ht => ?_⟩, fun task' _ => ?_⟩
  · have hheld : Function.update s.holder peer (some task) other = some task' := hheld
    show other ∈ peer :: s.world.sendPeerLocks
    by_cases hother : other = peer
    · exact hother ▸ List.mem_cons_self
    · rw [Function.update_of_ne hother] at hheld
      exact List.mem_cons_of_mem _ (hspaced.locked other task' hheld)
  · exact Nat.le_trans (hspaced.past other t ht) hclock
  · refine ⟨hclock, fun other hheld => ⟨?_, rfl⟩⟩
    have hother : other ≠ peer := fun h => hfree (h ▸ hspaced.locked other task' hheld)
    exact (Function.update_of_ne hother _ _).trans hheld

/-- Giving back a lock that the task has. -/
theorem keeps_unlockPeer {s : PacedState} {o : Outcome} {peer : String}
    (hspaced : Spaced sendMinIntervalMs s) (hclock : s.clock ≤ o.now)
    (hholder : s.holder peer = some task) :
    (regime sendMinIntervalMs).Keeps task s (pacedHandle s o (.of task (.unlockPeer peer))).2 := by
  refine ⟨⟨hspaced.sends, fun other task' hheld => ?_, fun other t ht => ?_⟩, fun task' htask => ?_⟩
  · have hheld : Function.update s.holder peer none other = some task' := hheld
    show other ∈ s.world.sendPeerLocks.erase peer
    by_cases hother : other = peer
    · rw [hother, Function.update_self] at hheld
      cases hheld
    · rw [Function.update_of_ne hother] at hheld
      exact (List.mem_erase_of_ne hother).mpr (hspaced.locked other task' hheld)
  · exact Nat.le_trans (hspaced.past other t ht) hclock
  · refine ⟨hclock, fun other hheld => ⟨?_, rfl⟩⟩
    have hother : other ≠ peer := by
      intro h
      rw [h, hholder] at hheld
      exact htask (Option.some.inj hheld).symm
    exact (Function.update_of_ne hother _ _).trans hheld

/-- The lock is taken, and the entry is read under it. -/
theorem triple_pacedApiSend :
    Triple pacedHandle (.pure (regime sendMinIntervalMs) task True)
      (pacedApiSend task account sendMinIntervalMs req) fun _ => .pure _ _ True := by
  refine triple_call (B := fun _ => holding sendMinIntervalMs task req.toPeer) ?_ fun _ => ?_
  · intro s _ hspaced o hallowed
    have hfree : req.toPeer ∉ s.world.sendPeerLocks := hallowed.1.lock _ rfl req.toPeer rfl
    refine ⟨keeps_lockPeer hspaced hallowed.1.clock hfree, ?_⟩
    exact Function.update_self ..
  refine triple_call (B := afterRead sendMinIntervalMs task req.toPeer) ?_ fun entry => ?_
  · intro s hheld hspaced o hallowed
    have hstill : Still s (pacedHandle s o (.of task (.cacheGet req.toPeer))).2 :=
      still_of_concerns rfl hallowed.1.clock
    exact ⟨hstill.keeps hspaced, hheld, hallowed.2 req.toPeer rfl⟩
  refine triple_bind (regime_lawful _) (triple_pace req.toPeer entry) fun _ => ?_
  refine triple_bind (regime_lawful _) (triple_apiSendWith _) fun answer => ?_
  refine triple_call (B := fun _ => .pure _ _ True) ?_ fun _ => triple_pure fun _ h => h
  intro s hheld hspaced o hallowed
  exact ⟨keeps_unlockPeer hspaced hallowed.1.clock hheld, trivial⟩

end Request

/-! ## Runs -/

section Runs

variable {account : String} {sendMinIntervalMs : Nat}

/-- What a task that is dropped leaves. -/
theorem keeps_dropTask {s : PacedState} (task : Nat) (hs : Spaced sendMinIntervalMs s) :
    (regime sendMinIntervalMs).Keeps task s (dropTask task s) := by
  have hkept : ∀ peer task', (dropTask task s).holder peer = some task' ↔
      s.holder peer = some task' ∧ task' ≠ task := by
    intro peer task'
    show (if s.holder peer = some task then none else s.holder peer) = some task' ↔ _
    split
    · next hheld => simp [hheld, eq_comm]
    · next hheld =>
      refine (and_iff_left_of_imp fun h => ?_).symm
      rintro rfl
      exact hheld h
  refine ⟨⟨hs.sends, fun peer task' hheld => ?_, hs.past⟩, fun task' htask => ?_⟩
  · obtain ⟨hheld, htask⟩ := (hkept peer task').mp hheld
    refine List.mem_filter.mpr ⟨hs.locked peer task' hheld, ?_⟩
    simp [hheld, htask]
  · exact ⟨Nat.le_refl _, fun peer hheld => ⟨(hkept peer task').mpr ⟨hheld, htask⟩, rfl⟩⟩

theorem plan_respectful : (plan account sendMinIntervalMs).Respectful (regime sendMinIntervalMs) where
  lawful := regime_lawful sendMinIntervalMs
  body task job s := by
    have htriple : Triple pacedHandle (.pure (regime sendMinIntervalMs) task True)
        (pacedTask account sendMinIntervalMs task job) fun _ => .pure _ _ True := by
      cases job with
      | poller rounds => exact triple_onTask (careful_tokenPoller rounds)
      | send req =>
        exact triple_bind (regime_lawful _) triple_pacedApiSend fun _ => triple_pure fun _ h => h
    exact htriple s trivial
  other _ e := e.elim
  reset _ task hs := keeps_dropTask task hs

/-- In every run of requests and long polls in which each request that reads
the entry of its peer less than the minimum interval after the last success
finds the time of it, every send keeps the interval. -/
theorem sends_keepInterval {w : World} {clock : Nat}
    {events : List (Event Nat TokenTask Empty Outcome)} {s : System Nat PacedCall.Reply PacedState}
    (hrun : run (System.step (plan account sendMinIntervalMs))
      (System.init (PacedState.start w clock)) events = some s)
    (hpossible : EveryStep (System.step (plan account sendMinIntervalMs)) (System.Meets Possible)
      (System.init (PacedState.start w clock)) events)
    (hfinds : EveryStep (System.step (plan account sendMinIntervalMs))
      (System.Meets (FindsSuccess sendMinIntervalMs)) (System.init (PacedState.start w clock))
      events) :
    ∀ send ∈ s.shared.sends, send.KeepsInterval sendMinIntervalMs := by
  have hstart : Spaced sendMinIntervalMs (PacedState.start w clock) := by
    constructor
    · intro send hsend
      exact absurd hsend List.not_mem_nil
    · intro peer task hheld
      cases hheld
    · intro peer t ht
      cases ht
  have hallowed := hpossible.and (fun _ _ => meets_and) hfinds
  exact (run_always plan_respectful hstart hrun hallowed).sends

end Runs

/-! ## Two sends, with a new token between them and without -/

/-- In every run the sends keep the interval. -/
def EverySendKeepsInterval : Prop :=
  ∀ (account : String) (sendMinIntervalMs : Nat) (w : World) (clock : Nat)
    (events : List (Event Nat TokenTask Empty Outcome)) (s : System Nat PacedCall.Reply PacedState),
    run (System.step (plan account sendMinIntervalMs)) (System.init (PacedState.start w clock))
        events = some s →
      EveryStep (System.step (plan account sendMinIntervalMs)) (System.Meets Possible)
          (System.init (PacedState.start w clock)) events →
        ∀ send ∈ s.shared.sends, send.KeepsInterval sendMinIntervalMs

/-- A request that is accepted at once, at time 0. -/
def oneSend : List (Event Nat TokenTask Empty Outcome) :=
  [.start 0 (.send toAlice), .call 0 fine, .call 0 fine,
    .call 0 { fine with reply := .body (.obj [("ret", .int 0)]) }, .call 0 fine, .call 0 fine,
    .call 0 fine]

/-- The next request waits. -/
def waitingSend : List (Event Nat TokenTask Empty Outcome) :=
  oneSend ++ [.start 1 (.send toAlice), .call 1 fine, .call 1 fine, .call 1 fine, .call 1 fine,
    .call 1 { fine with now := 1000 }, .call 1 { fine with now := 1000 }]

/-- A message of alice comes in, and the next request does not wait. -/
def hastySend : List (Event Nat TokenTask Empty Outcome) :=
  oneSend ++ [.start 2 (.poller 1), .call 2 fine, .call 2 fromAlice, .call 2 fine, .call 2 fine,
    .start 1 (.send toAlice), .call 1 fine, .call 1 fine, .call 1 fine]

/-- The entry that the long poll puts into the cache has no success. -/
theorem not_everySendKeepsInterval : ¬ EverySendKeepsInterval := by
  intro h
  have hsends : (run (System.step (plan "bot" 1000)) (System.init (PacedState.start aliceKnown 0))
      hastySend).map (fun s => s.shared.sends) =
        some [⟨"alice", 0, some 0⟩, ⟨"alice", 0, none⟩] := by
    decide +kernel
  obtain ⟨s, hrun, hsends⟩ := Option.map_eq_some_iff.mp hsends
  have hkeeps := h "bot" 1000 aliceKnown 0 hastySend s hrun (by decide +kernel)
    ⟨"alice", 0, some 0⟩ (by simp [hsends])
  exact absurd hkeeps (by decide)

theorem waitingSend_keepsInterval :
    ∃ s, run (System.step (plan "bot" 1000)) (System.init (PacedState.start aliceKnown 0))
      waitingSend = some s ∧ ∀ send ∈ s.shared.sends, send.KeepsInterval 1000 := by
  have hsome : (run (System.step (plan "bot" 1000)) (System.init (PacedState.start aliceKnown 0))
      waitingSend).isSome = true := by
    decide +kernel
  obtain ⟨s, hrun⟩ := Option.isSome_iff_exists.mp hsome
  exact ⟨s, hrun, sends_keepInterval hrun (by decide +kernel) (by decide +kernel)⟩

end MagicLaw.WeChat.Pacing
