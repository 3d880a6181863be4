import MagicLaw.WeChat.Sends

/-!
# The cache and the table of the tokens

Each update of a token writes the cache and then the table, and other tasks
may run between the two writes.

* `Agree`: the cache and the table have the same token of a peer.
* `QuietFor`: no task is between the two writes of an update of the peer.
* `Traced` is a run together with its writes of the cache, in their order.
* `InOrder`: a task that writes the table, and leaves the peer quiet, is the
  one that wrote the cache for this peer last, or the last one wrote the same
  token.
* `agree_iff`: in every interleaving of long polls and requests in which no
  statement fails, cache and table agree on every peer that is quiet exactly
  when every write to the table is such a one.
-/

namespace MagicLaw.WeChat.Agreement

open Lib Lib.Program Lib.Machine Lib.Tasks Lib.Text

def step (account : String) :
    Pool Call.Reply Unit World → Move TokenTask Empty Outcome → Option (Pool Call.Reply Unit World) :=
  Pool.step handle (TokenTask.program account) Empty.elim

/-! ## The claim and the condition -/

def Agree (account : String) (w : World) (peer : String) : Prop :=
  w.cachedToken peer = w.storedToken account peer

/-- No task is about to write the table after it has written the cache. -/
def QuietFor (peer : String) (tasks : List (Work Unit)) : Prop :=
  ∀ task ∈ tasks, ∀ write ∈ task.next?.bind storeWrite?, write.1 ≠ peer

/-- The statements that write the tokens work. -/
def Works (_ : World) (c : Call) (o : Outcome) : Prop :=
  (storeWrite? c).isSome → o.fault = none

/-- A write of the cache, and the number of the task that made it. -/
structure CacheWrite where
  task : Nat
  peer : String
  token : Option String

/-- The write of the cache that a move makes. -/
def cacheWritten? (s : Pool Call.Reply Unit World) : Move TokenTask Empty Outcome → Option CacheWrite
  | .call n o =>
    (s.tasks[n]?.bind Prog.next?).bind fun c =>
      (cacheWrite? c (handle s.shared o c).1).map fun write => ⟨n, write.1, write.2⟩
  | _ => none

/-- The tasks, and the writes of the cache that they have made, the newest
first. -/
structure Traced where
  pool : Pool Call.Reply Unit World
  writes : List CacheWrite

def Traced.init (w : World) : Traced := ⟨Pool.init w, []⟩

def Traced.step (account : String) (t : Traced) (m : Move TokenTask Empty Outcome) :
    Option Traced :=
  (Agreement.step account t.pool m).map fun pool =>
    ⟨pool, (cacheWritten? t.pool m).toList ++ t.writes⟩

/-- The last write of the cache for the peer. -/
def Traced.last? (t : Traced) (peer : String) : Option CacheWrite :=
  t.writes.find? fun write => write.peer = peer

/-- A task writes the table for a peer, while no other one is between its two
writes for the same peer.  Then no other task has written the cache for the
peer after this one did, or the last one that did wrote the same token. -/
def InOrder (t : Traced) : Move TokenTask Empty Outcome → Prop
  | .call n _ => ∀ task ∈ t.pool.tasks[n]?, ∀ write ∈ task.next?.bind storeWrite?,
      QuietFor write.1 (t.pool.tasks.eraseIdx n) →
        ∀ last ∈ t.last? write.1, last.task = n ∨ last.token = write.2
  | _ => True

instance (account : String) (w : World) (peer : String) : Decidable (Agree account w peer) :=
  inferInstanceAs (Decidable (_ = _))

instance (peer : String) (tasks : List (Work Unit)) : Decidable (QuietFor peer tasks) :=
  inferInstanceAs (Decidable (∀ task ∈ tasks, ∀ write ∈ task.next?.bind storeWrite?,
    write.1 ≠ peer))

instance (w : World) (c : Call) (o : Outcome) : Decidable (Works w c o) :=
  inferInstanceAs (Decidable ((storeWrite? c).isSome → o.fault = none))

instance (t : Traced) : (m : Move TokenTask Empty Outcome) → Decidable (InOrder t m)
  | .call n _ => inferInstanceAs (Decidable (∀ task ∈ t.pool.tasks[n]?,
      ∀ write ∈ task.next?.bind storeWrite?, QuietFor write.1 (t.pool.tasks.eraseIdx n) →
        ∀ last ∈ t.last? write.1, last.task = n ∨ last.token = write.2))
  | .start _ => isTrue trivial
  | .other e => e.elim

/-- Cache and table agree on every peer that is quiet. -/
def AgreeWhenQuiet (account : String) (s : Pool Call.Reply Unit World) : Prop :=
  ∀ peer, QuietFor peer s.tasks → Agree account s.shared peer

/-! ## Tasks that are quiet -/

theorem QuietFor.of_append {peer : String} {tasks more : List (Work Unit)}
    (h : QuietFor peer (tasks ++ more)) : QuietFor peer tasks :=
  fun task htask => h task (List.mem_append_left more htask)

/-- With one task exchanged, the peer is quiet when the other tasks let it be
and the new one has nothing due for it. -/
theorem quietFor_set_iff {peer : String} {tasks : List (Work Unit)} {n : Nat} {task : Work Unit}
    (hn : n < tasks.length) : QuietFor peer (tasks.set n task) ↔
      QuietFor peer (tasks.eraseIdx n) ∧ ∀ write ∈ task.next?.bind storeWrite?, write.1 ≠ peer := by
  unfold QuietFor
  rw [List.set_eq_take_append_cons_drop, if_pos hn, List.eraseIdx_eq_take_drop_succ]
  simp only [List.mem_append, List.mem_cons]
  constructor
  · intro h
    constructor
    · intro t ht
      apply h t
      rcases ht with ht | ht
      · exact .inl ht
      · exact .inr (.inr ht)
    · exact h task (.inr (.inl rfl))
  · intro h t ht
    rcases ht with ht | rfl | ht
    · exact h.1 t (.inl ht)
    · exact h.2
    · exact h.1 t (.inr ht)

/-- The same for the tasks as they are. -/
theorem quietFor_iff {peer : String} {tasks : List (Work Unit)} {n : Nat} (hn : n < tasks.length) :
    QuietFor peer tasks ↔ QuietFor peer (tasks.eraseIdx n) ∧
      ∀ write ∈ tasks[n].next?.bind storeWrite?, write.1 ≠ peer := by
  have hset : tasks.set n tasks[n] = tasks := List.set_getElem_self hn
  conv => lhs; rw [← hset]
  exact quietFor_set_iff hn

/-! ## The trace -/

/-- The first element with each of two properties is one element, when each
has the other property too. -/
theorem find?_eq_of_find? {α : Type} {p q : α → Bool} {l : List α} {a b : α}
    (ha : l.find? p = some a) (hq : q a) (hb : l.find? q = some b) (hp : p b) : a = b := by
  induction l with
  | nil => cases ha
  | cons c l ih =>
    rw [List.find?_cons] at ha hb
    by_cases hpc : p c
    · by_cases hqc : q c
      · rw [hpc] at ha
        rw [hqc] at hb
        exact (Option.some.inj ha).symm.trans (Option.some.inj hb)
      · -- `a` is `c`, which has not the second property
        rw [hpc] at ha
        cases ha
        exact absurd hq hqc
    · by_cases hqc : q c
      · rw [hqc] at hb
        cases hb
        exact absurd hp hpc
      · simp only [hpc, hqc] at ha hb
        exact ih ha hb

/-- The last write of the cache of the task with this number. -/
def Traced.own? (t : Traced) (n : Nat) : Option CacheWrite :=
  t.writes.find? fun write => write.task = n

theorem last?_cons (s : Pool Call.Reply Unit World) (write : CacheWrite)
    (writes : List CacheWrite) (peer : String) : Traced.last? ⟨s, write :: writes⟩ peer =
      if write.peer = peer then some write else writes.find? fun write => write.peer = peer := by
  unfold Traced.last?
  rw [List.find?_cons]
  split <;> simp_all

theorem own?_cons (s : Pool Call.Reply Unit World) (write : CacheWrite)
    (writes : List CacheWrite) (n : Nat) : Traced.own? ⟨s, write :: writes⟩ n =
      if write.task = n then some write else writes.find? fun write => write.task = n := by
  unfold Traced.own?
  rw [List.find?_cons]
  split <;> simp_all

/-- The programs write in pairs, and cache and table agree where they should.
The cache has of a peer what was written last, and a task is about to write to
the table what it wrote to the cache. -/
structure Sound (account : String) (t : Traced) : Prop where
  paired : AllPaired (tokenPairing account) t.pool
  agree : AgreeWhenQuiet account t.pool
  cached : ∀ peer, ∀ last ∈ t.last? peer, t.pool.shared.cachedToken peer = last.token
  own : ∀ n task, t.pool.tasks[n]? = some task → ∀ write ∈ task.next?.bind storeWrite?,
    t.own? n = some ⟨n, write.1, write.2⟩

/-- The last write of the peer is one of the task that is about to write the
table, so the cache has what this task writes. -/
theorem Sound.cachedToken_eq {account : String} {t : Traced} (h : Sound account t) {n : Nat}
    {task : Work Unit} (htask : t.pool.tasks[n]? = some task) {write : String × Option String}
    (hwrite : write ∈ task.next?.bind storeWrite?)
    (horder : ∀ last ∈ t.last? write.1, last.task = n ∨ last.token = write.2) :
    t.pool.shared.cachedToken write.1 = write.2 := by
  have hown := h.own n task htask write hwrite
  have hmem := List.mem_of_find?_eq_some hown
  cases hlast : t.last? write.1 with
  | none =>
    have hnone := List.find?_eq_none.mp hlast _ hmem
    simp at hnone
  | some last =>
    rw [h.cached write.1 last hlast]
    rcases horder last hlast with htask | htoken
    · have hsame := find?_eq_of_find? hlast (decide_eq_true htask) hown (decide_eq_true rfl)
      rw [hsame]
    · exact htoken

/-! ## One step -/

section Steps

variable {account : String}

/-- Where a call writes neither the cache nor the table, they agree as before. -/
theorem agree_handle {w : World} {o : Outcome} {c : Call} {peer : String}
    (hlegal : isTokenCall account c) (hworks : Works w c o)
    (hcache : ∀ write ∈ cacheWrite? c (handle w o c).1, write.1 ≠ peer)
    (hstore : ∀ write ∈ storeWrite? c, write.1 ≠ peer) (h : Agree account w peer) :
    Agree account (handle w o c).2 peer := by
  unfold Agree
  rw [cachedToken_handle hlegal, storedToken_handle hlegal hworks, written_of_ne hcache,
    written_of_ne hstore]
  exact h

/-- After a write to the table, they agree on the peer exactly when what was
written is what the cache has. -/
theorem agree_of_storeWrite_iff {w : World} {o : Outcome} {c : Call} {peer : String}
    {token : Option String} (hlegal : isTokenCall account c) (hworks : Works w c o)
    (hwrite : storeWrite? c = some (peer, token)) :
    Agree account (handle w o c).2 peer ↔ w.cachedToken peer = token := by
  unfold Agree
  rw [cachedToken_handle hlegal, storedToken_handle hlegal hworks, hwrite,
    cacheWrite?_of_storeWrite? hwrite]
  show w.cachedToken peer = Function.update (w.storedToken account) peer token peer ↔ _
  rw [Function.update_self]

theorem agree_step {t : Traced} {s : Pool Call.Reply Unit World} {m : Move TokenTask Empty Outcome}
    (ht : Sound account t) (hworks : Tasks.Meets Works t.pool m) (horder : InOrder t m)
    (hstep : step account t.pool m = some s) : AgreeWhenQuiet account s := by
  intro peer hquiet
  cases m with
  | start task =>
    cases hstep
    exact ht.agree peer hquiet.of_append
  | call n o =>
    obtain ⟨c, next, hn, hget, hlegal, hnext, rfl⟩ := paired_call ht.paired hstep
    have hworks := meets_call hworks hn hget
    obtain ⟨hothers, hown⟩ := (quietFor_set_iff hn).mp hquiet
    have hcache : ∀ write ∈ cacheWrite? c (handle t.pool.shared o c).1, write.1 ≠ peer := by
      intro write hwrite
      exact hown write (hnext.due?_eq.trans hwrite)
    have hbefore : t.pool.tasks[n].next?.bind storeWrite? = storeWrite? c := by
      rw [hget]
      rfl
    by_cases hstore : ∀ write ∈ storeWrite? c, write.1 ≠ peer
    · -- the peer was quiet before the call
      apply agree_handle hlegal hworks hcache hstore
      apply ht.agree peer
      rw [quietFor_iff hn, hbefore]
      exact ⟨hothers, hstore⟩
    · -- the call ends the last update of the peer
      push Not at hstore
      obtain ⟨⟨p, token⟩, hwrite, rfl⟩ := hstore
      rw [agree_of_storeWrite_iff hlegal hworks hwrite]
      have htask : t.pool.tasks[n]? = some t.pool.tasks[n] := List.getElem?_eq_getElem hn
      have hwrite := hbefore.trans hwrite
      exact ht.cachedToken_eq htask hwrite (horder _ htask (p, token) hwrite hothers)
  | other e => exact e.elim

/-- A call of a task adds the write of the cache that it makes. -/
theorem cacheWritten?_call {s : Pool Call.Reply Unit World} {n : Nat} {o : Outcome} {c : Call}
    {next : c.Reply → Work Unit} (hn : n < s.tasks.length) (hget : s.tasks[n] = .call c next) :
    cacheWritten? s (.call n o) =
      (cacheWrite? c (handle s.shared o c).1).map fun write => ⟨n, write.1, write.2⟩ := by
  show ((s.tasks[n]?.bind Prog.next?).bind _) = _
  rw [List.getElem?_eq_getElem hn, hget]
  rfl

theorem cached_step {t : Traced} {s : Pool Call.Reply Unit World} {m : Move TokenTask Empty Outcome}
    (ht : Sound account t) (hstep : step account t.pool m = some s) (peer : String) :
    ∀ last ∈ Traced.last? ⟨s, (cacheWritten? t.pool m).toList ++ t.writes⟩ peer,
      s.shared.cachedToken peer = last.token := by
  cases m with
  | start task =>
    cases hstep
    exact ht.cached peer
  | call n o =>
    obtain ⟨c, next, hn, hget, hlegal, hnext, rfl⟩ := paired_call ht.paired hstep
    rw [cacheWritten?_call hn hget]
    dsimp only
    rw [cachedToken_handle hlegal]
    cases hwrite : cacheWrite? c (handle t.pool.shared o c).1 with
    | none => exact ht.cached peer
    | some write =>
      obtain ⟨p, token⟩ := write
      intro last hlast
      have hlast := (last?_cons _ _ t.writes peer).symm.trans hlast
      show Function.update t.pool.shared.cachedToken p token peer = last.token
      by_cases hp : p = peer
      · rw [if_pos hp] at hlast
        cases hlast
        subst hp
        exact Function.update_self _ _ _
      · rw [if_neg hp] at hlast
        rw [Function.update_of_ne (Ne.symm hp)]
        exact ht.cached peer last hlast
  | other e => exact e.elim

theorem own_step {t : Traced} {s : Pool Call.Reply Unit World} {m : Move TokenTask Empty Outcome}
    (ht : Sound account t) (hstep : step account t.pool m = some s) (k : Nat) (task : Work Unit)
    (htask : s.tasks[k]? = some task) : ∀ write ∈ task.next?.bind storeWrite?,
      Traced.own? ⟨s, (cacheWritten? t.pool m).toList ++ t.writes⟩ k =
        some ⟨k, write.1, write.2⟩ := by
  cases m with
  | start b =>
    cases hstep
    intro write hwrite
    by_cases hk : k < t.pool.tasks.length
    · rw [List.getElem?_append_left hk] at htask
      exact ht.own k task htask write hwrite
    · -- a program that starts is not between two writes
      rw [List.getElem?_append_right (Nat.le_of_not_lt hk)] at htask
      have hb : task = b.program account := List.mem_singleton.mp (List.mem_of_getElem? htask)
      subst hb
      cases (paired_program b).due?_eq.symm.trans hwrite
  | call n o =>
    obtain ⟨c, next, hn, hget, hlegal, hnext, rfl⟩ := paired_call ht.paired hstep
    rw [cacheWritten?_call hn hget]
    intro write hwrite
    by_cases hk : n = k
    · -- what is due is what the call has written
      subst hk
      rw [List.getElem?_set_self hn] at htask
      cases htask
      have hopened : cacheWrite? c (handle t.pool.shared o c).1 = some write :=
        hnext.due?_eq.symm.trans hwrite
      rw [hopened]
      exact (own?_cons _ _ t.writes n).trans (if_pos rfl)
    · rw [List.getElem?_set_ne hk] at htask
      have hown := ht.own k task htask write hwrite
      cases cacheWrite? c (handle t.pool.shared o c).1 with
      | none => exact hown
      | some write => exact ((own?_cons _ _ t.writes k).trans (if_neg hk)).trans hown
  | other e => exact e.elim

theorem sound_step {t u : Traced} {m : Move TokenTask Empty Outcome} (ht : Sound account t)
    (hworks : Tasks.Meets Works t.pool m) (horder : InOrder t m)
    (hstep : t.step account m = some u) : Sound account u := by
  obtain ⟨s, hpool, rfl⟩ := Option.map_eq_some_iff.mp hstep
  constructor
  · exact allPaired_step paired_program ht.paired hpool
  · exact agree_step ht hworks horder hpool
  · exact cached_step ht hpool
  · exact own_step ht hpool

/-- A write to the table that leaves cache and table in agreement wrote what
was written to the cache last. -/
theorem inOrder_of_agree {t u : Traced} {m : Move TokenTask Empty Outcome} (ht : Sound account t)
    (hworks : Tasks.Meets Works t.pool m) (hstep : t.step account m = some u)
    (hagree : AgreeWhenQuiet account u.pool) : InOrder t m := by
  obtain ⟨s, hpool, rfl⟩ := Option.map_eq_some_iff.mp hstep
  cases m with
  | start task => trivial
  | call n o =>
    obtain ⟨c, next, hn, hget, hlegal, hnext, rfl⟩ := paired_call ht.paired hpool
    have hworks := meets_call hworks hn hget
    intro task htask write hwrite hothers last hlast
    have hcall : task = .call c next := by
      rw [List.getElem?_eq_getElem hn, hget] at htask
      exact (Option.some.inj htask).symm
    subst hcall
    obtain ⟨peer, token⟩ := write
    have hwrite : storeWrite? c = some (peer, token) := hwrite
    refine .inr ((ht.cached peer last hlast).symm.trans ?_)
    apply (agree_of_storeWrite_iff hlegal hworks hwrite).mp
    apply hagree peer
    show QuietFor peer (t.pool.tasks.set n _)
    rw [quietFor_set_iff hn]
    constructor
    · exact hothers
    · intro write hnew
      have hdue := hnext.due?_eq.symm.trans hnew
      have hnone := cacheWrite?_of_storeWrite? hwrite (handle t.pool.shared o c).1
      cases hnone.symm.trans hdue
  | other e => exact e.elim

/-- In every interleaving of long polls and requests in which the writes to the
table work, cache and table agree on every peer that is quiet, in every state,
exactly when each write to the table that leaves a peer quiet is made by the
task that wrote the cache last, or of the token that was written last. -/
theorem agree_iff {w : World} {moves : List (Move TokenTask Empty Outcome)} {t : Traced}
    (hstart : ∀ peer, Agree account w peer)
    (hrun : run (Traced.step account) (Traced.init w) moves = some t)
    (hworks : EveryStep (Traced.step account)
      (fun t => Tasks.Meets (fun s c o => LockFree s c o ∧ Works s c o) t.pool)
      (Traced.init w) moves) :
    EveryState (Traced.step account) (fun t => AgreeWhenQuiet account t.pool) (Traced.init w)
        moves ↔
      EveryStep (Traced.step account) InOrder (Traced.init w) moves := by
  have hinit : Sound account (Traced.init w) := by
    constructor
    · exact allPaired_init w
    · exact fun peer _ => hstart peer
    · intro peer last hlast
      cases hlast
    · intro n task htask
      cases htask
  apply everyState_iff_everyStep (fun t (h : Sound account t) => h.agree) _ _ hinit hworks hrun
  · intro t m u ht hworks horder hstep
    exact sound_step ht (meets_weaken (fun _ _ _ h => h.2) hworks) horder hstep
  · intro t m u ht hworks hstep hagree
    exact inOrder_of_agree ht (meets_weaken (fun _ _ _ h => h.2) hworks) hstep hagree

end Steps

/-- The daemon starts in agreement with its table, which has no blank tokens. -/
theorem agree_startHttpApi {account : String} {w : World} (o : Outcome)
    (hblank : ∀ peer token, w.storedToken account peer = some token → isBlank token = false)
    (peer : String) : Agree account (handle w o (.cacheLoad (w.getAll account))).2 peer := by
  show ((loadedCache (w.getAll account) o.now).lookup peer).map PeerTokenState.token =
    w.storedToken account peer
  unfold loadedCache World.getAll
  rw [Map.lookup_filterMap, Map.lookup_row]
  show ((w.storedToken account peer).bind _).map _ = _
  cases htoken : w.storedToken account peer with
  | none => rfl
  | some token =>
    rw [Option.bind_some, hblank peer token htoken]
    rfl

/-! ## Two updates that end in another order, and two that do not -/

/-- No task is between the two writes of an update. -/
def NoUpdate (tasks : List (Work Unit)) : Prop :=
  ∀ task ∈ tasks, task.next?.bind storeWrite? = none

instance (tasks : List (Work Unit)) : Decidable (NoUpdate tasks) :=
  inferInstanceAs (Decidable (∀ task ∈ tasks, task.next?.bind storeWrite? = none))

/-- No statement fails. -/
def NoneFails (_ : World) (_ : Call) (o : Outcome) : Prop := o.fault = none

instance (w : World) (c : Call) (o : Outcome) : Decidable (NoneFails w c o) :=
  inferInstanceAs (Decidable (o.fault = none))

/-- In every interleaving of long polls and requests in which no statement
fails, cache and table agree whenever no update is in progress. -/
def CacheAndStoreAgree : Prop :=
  ∀ (account : String) (w : World) (moves : List (Move TokenTask Empty Outcome))
    (s : Pool Call.Reply Unit World), (∀ peer, Agree account w peer) →
    run (step account) (Pool.init w) moves = some s →
    EveryStep (step account) (Tasks.Meets fun s c o => LockFree s c o ∧ NoneFails s c o)
      (Pool.init w) moves →
    NoUpdate s.tasks → ∀ peer, Agree account s.shared peer

/-- An answer with a token. -/
def acceptedWith (token : String) : Outcome :=
  { fine with reply := .body (.obj [("ret", .int 0), ("context_token", .str token)]) }

/-- A send to alice and a message of alice, up to the two writes of the cache. -/
def twoCacheWrites : List (Move TokenTask Empty Outcome) :=
  [.start (.send toAlice), .start (.poller 1), .call 0 fine, .call 0 fine,
    .call 0 (acceptedWith "ctx-3"), .call 1 fine, .call 1 fromAlice, .call 1 fine, .call 0 fine]

/-- The table is written in the order of the cache. -/
def inOrder : List (Move TokenTask Empty Outcome) :=
  twoCacheWrites ++ [.call 1 fine, .call 0 fine, .call 0 fine]

/-- The table is written in the other order. -/
def crossed : List (Move TokenTask Empty Outcome) :=
  twoCacheWrites ++ [.call 0 fine, .call 1 fine, .call 0 fine]

theorem agree_aliceKnown (peer : String) : Agree "bot" aliceKnown peer := by
  unfold Agree World.cachedToken World.storedToken aliceKnown
  by_cases h : peer = "alice"
  · subst h
    rw [AList.lookup_insert, AList.lookup_insert]
    rfl
  · rw [AList.lookup_insert_ne h, AList.lookup_insert_ne (by simp [h])]
    rfl

theorem not_cacheAndStoreAgree : ¬ CacheAndStoreAgree := by
  intro h
  have hagree := h "bot" aliceKnown crossed
    (Option.get (run (step "bot") (Pool.init aliceKnown) crossed) (by decide +kernel))
    agree_aliceKnown (Option.some_get _).symm (by decide +kernel) (by decide +kernel) "alice"
  exact absurd hagree (by decide +kernel)

theorem inOrder_agree :
    EveryState (Traced.step "bot") (fun t => AgreeWhenQuiet "bot" t.pool) (Traced.init aliceKnown)
      inOrder := by
  have henabled : (run (Traced.step "bot") (Traced.init aliceKnown) inOrder).isSome := by
    decide +kernel
  exact (agree_iff agree_aliceKnown (Option.some_get henabled).symm (by decide +kernel)).mpr
    (by decide +kernel)

end MagicLaw.WeChat.Agreement
