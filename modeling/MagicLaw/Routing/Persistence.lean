import MagicLaw.Routing.Store

/-!
# The persisted state of a route

A route is put into the map and taken out of it under the lock, and what
becomes of it is persisted after the lock is released.  In between the writes
of a collection and of an `enqueue` may change places.

* `persisted_agrees`: where every persist writes what the map then says, or
  comes before an outstanding one that does, a store that is at rest has
  persisted Active for the routes of the map, and Closed for the other ones
  that were used.
* `not_persisted_agrees`: the Closed of a collection can come after the Active
  of the `enqueue` that put the route back.
-/

namespace MagicLaw.Routing

open Lib Lib.Machine

/-! ## What is persisted, and what is about to be -/

/-- The state that the map gives to a route. -/
def Store.mapState (s : Store) (key : RouteKey) : ConversationState :=
  if (s.routes.find? key).isSome then .active else .closed

/-- The next step of the call is a persist. -/
def EnqueuePc.persists : EnqueuePc → Bool
  | .persistActive _ | .persistRespawned _ => true
  | .start | .slowPath | .trySend _ | .respawn | .insertRespawned _ | .sendRespawned _
  | .returned _ => false

def EnqueuePc.over : EnqueuePc → Bool
  | .returned _ => true
  | .start | .slowPath | .persistActive _ | .trySend _ | .respawn | .insertRespawned _
  | .persistRespawned _ | .sendRespawned _ => false

/-- A call or a collection in progress is yet to persist the state. -/
def Store.Outstanding (s : Store) (key : RouteKey) : ConversationState → Prop
  | .active => ∃ call ∈ s.calls, call.key = key ∧ call.pc.persists = true
  | .closed => ∃ collection ∈ s.collections, key ∈ collection.toPersist
  | .idle => False

instance (s : Store) (key : RouteKey) : (state : ConversationState) →
    Decidable (s.Outstanding key state)
  | .active =>
    inferInstanceAs (Decidable (∃ call ∈ s.calls, call.key = key ∧ call.pc.persists = true))
  | .closed =>
    inferInstanceAs (Decidable (∃ collection ∈ s.collections, key ∈ collection.toPersist))
  | .idle => isFalse id

/-- What the action persists, if it does. -/
def Store.persists? (s : Store) : StoreAction → Option (RouteKey × ConversationState)
  | .call i _ =>
    (s.calls[i]?).bind fun call => if call.pc.persists then some (call.key, .active) else none
  | .collection j _ =>
    (s.collections[j]?).bind fun collection => collection.toPersist.head?.map (·, .closed)
  | .advance _ | .enqueue _ _ | .collectIdle _ | .worker _ _ => none

/-- The action persists what the map says, or what the map says is still to be
persisted. -/
def Current (s : Store) (action : StoreAction) : Prop :=
  ∀ write ∈ s.persists? action,
    write.2 = s.mapState write.1 ∨ s.Outstanding write.1 (s.mapState write.1)

instance (s : Store) (action : StoreAction) : Decidable (Current s action) :=
  inferInstanceAs (Decidable (∀ write ∈ s.persists? action,
    write.2 = s.mapState write.1 ∨ s.Outstanding write.1 (s.mapState write.1)))

/-- Storage works. -/
def StorageWorks : StoreAction → Prop
  | .call _ stored | .collection _ stored => stored = true
  | .advance _ | .enqueue _ _ | .collectIdle _ | .worker _ _ => True

instance : (action : StoreAction) → Decidable (StorageWorks action)
  | .call _ stored | .collection _ stored => inferInstanceAs (Decidable (stored = true))
  | .advance _ | .enqueue _ _ | .collectIdle _ | .worker _ _ => isTrue trivial

/-- No call and no collection is in progress. -/
def Store.AtRest (s : Store) : Prop :=
  (∀ call ∈ s.calls, call.pc.over = true) ∧
    ∀ collection ∈ s.collections, collection.toPersist = []

instance (s : Store) : Decidable s.AtRest := inferInstanceAs (Decidable (_ ∧ _))

def Store.Used (s : Store) (key : RouteKey) : Prop := ∃ call ∈ s.calls, call.key = key

instance (s : Store) (key : RouteKey) : Decidable (s.Used key) :=
  inferInstanceAs (Decidable (∃ call ∈ s.calls, call.key = key))

/-! ## The invariant -/

/-- The route is not in the map, and none of its calls has come that far. -/
def Store.Fresh (s : Store) (key : RouteKey) : Prop :=
  s.routes.find? key = none ∧ ∀ call ∈ s.calls, call.key = key →
    call.pc = .start ∨ call.pc = .slowPath

/-- What the map says of the route is persisted or is yet to be persisted, or
there is nothing to say. -/
def Store.Covered (s : Store) (key : RouteKey) : Prop :=
  s.persisted key = some (s.mapState key) ∨ s.Outstanding key (s.mapState key) ∨ s.Fresh key

theorem covered_init (key : RouteKey) : Store.init.Covered key :=
  .inr (.inr ⟨rfl, fun _ hcall => nomatch hcall⟩)

/-- The route is covered after a step that leaves it where it is. -/
theorem Store.Covered.frame {s s' : Store} {key : RouteKey} (h : s.Covered key)
    (hmap : s'.mapState key = s.mapState key) (hpersisted : s'.persisted key = s.persisted key)
    (hcalls : ∀ state, s.Outstanding key state → s'.Outstanding key state)
    (hfresh : s.Fresh key → s'.Fresh key) : s'.Covered key := by
  unfold Store.Covered
  rw [hmap, hpersisted]
  exact h.imp_right (Or.imp (hcalls _) hfresh)

theorem outstanding_of_eq {s s' : Store} {key : RouteKey} {state : ConversationState}
    (hcalls : s'.calls = s.calls) (hcollections : s'.collections = s.collections)
    (h : s.Outstanding key state) : s'.Outstanding key state := by
  cases state with
  | active =>
    obtain ⟨call, hcall, hrest⟩ := h
    exact ⟨call, hcalls ▸ hcall, hrest⟩
  | closed =>
    obtain ⟨collection, hcollection, hkey⟩ := h
    exact ⟨collection, hcollections ▸ hcollection, hkey⟩
  | idle => exact h

theorem mapState_eq_closed {s : Store} {key : RouteKey} (h : s.mapState key ≠ .active) :
    s.mapState key = .closed := by
  unfold Store.mapState at h ⊢
  split at h
  · exact absurd rfl h
  · rw [if_neg ‹_›]

theorem not_outstanding_of_atRest {s : Store} (h : s.AtRest) (key : RouteKey)
    (state : ConversationState) : ¬s.Outstanding key state := by
  cases state with
  | active =>
    rintro ⟨call, hcall, -, hpersists⟩
    have hover := h.1 call hcall
    cases hpc : call.pc <;> simp_all [EnqueuePc.persists, EnqueuePc.over]
  | closed =>
    rintro ⟨collection, hcollection, hkey⟩
    rw [h.2 collection hcollection] at hkey
    exact nomatch hkey
  | idle => exact id

theorem Store.Covered.persisted_of_atRest {s : Store} {key : RouteKey} (h : s.Covered key)
    (hrest : s.AtRest) (hused : s.Used key) : s.persisted key = some (s.mapState key) := by
  rcases h with hpersisted | houtstanding | hfresh
  · exact hpersisted
  · exact absurd houtstanding (not_outstanding_of_atRest hrest key _)
  · obtain ⟨call, hcall, hkey⟩ := hused
    have hover := hrest.1 call hcall
    rcases hfresh.2 call hcall hkey with hstart | hslow
    · rw [hstart] at hover
      exact nomatch hover
    · rw [hslow] at hover
      exact nomatch hover

/-! ## Steps of a call -/

section Call

variable {s : Store} {i : Nat} {call : EnqueueCall} {key : RouteKey}

/-- The call at its new place, and the other calls. -/
theorem calls_setPc (hcall : s.calls[i]? = some call) (pc : EnqueuePc) :
    (s.setPc i pc).calls = s.calls.set i { call with pc := pc } := by
  unfold Store.setPc
  dsimp only
  rw [List.modify_eq_set_getElem?, hcall]
  rfl

theorem mem_setPc (hcall : s.calls[i]? = some call) (pc : EnqueuePc) :
    { call with pc := pc } ∈ (s.setPc i pc).calls := by
  rw [calls_setPc hcall]
  exact List.mem_set (List.getElem?_eq_some_iff.mp hcall).1 _

theorem mem_setPc_of_ne (hcall : s.calls[i]? = some call) (pc : EnqueuePc) {c : EnqueueCall}
    (hc : c ∈ s.calls) (hne : c ≠ call) : c ∈ (s.setPc i pc).calls := by
  obtain ⟨j, hj⟩ := List.getElem?_of_mem hc
  have hij : i ≠ j := by
    rintro rfl
    exact hne (Option.some.inj (hj.symm.trans hcall))
  rw [calls_setPc hcall]
  exact List.mem_of_getElem? ((List.getElem?_set_ne hij).trans hj)

/-- A call that does not persist in this step leaves every outstanding persist. -/
theorem outstanding_setPc (hcall : s.calls[i]? = some call) {pc : EnqueuePc}
    (hpc : call.key = key → call.pc.persists = false) {state : ConversationState}
    (h : s.Outstanding key state) : (s.setPc i pc).Outstanding key state := by
  cases state with
  | active =>
    obtain ⟨c, hc, hkey, hpersists⟩ := h
    have hne : c ≠ call := by
      rintro rfl
      exact nomatch (hpc hkey).symm.trans hpersists
    exact ⟨c, mem_setPc_of_ne hcall pc hc hne, hkey, hpersists⟩
  | closed => exact h
  | idle => exact h

/-- A call that has not come to the map yet leaves the route fresh, and the
other calls say nothing of it. -/
theorem fresh_setPc (hcall : s.calls[i]? = some call) {pc : EnqueuePc}
    (hpc : call.key = key → pc = .start ∨ pc = .slowPath) (h : s.Fresh key) :
    (s.setPc i pc).Fresh key := by
  refine ⟨h.1, ?_⟩
  rw [calls_setPc hcall]
  exact forall_mem_set h.2 hpc

/-- A call that has come to the map says that its route is not fresh. -/
theorem not_fresh (hcall : s.calls[i]? = some call) (hpc : call.pc ≠ .start ∧ call.pc ≠ .slowPath)
    {P : Prop} (hfresh : s.Fresh key) (hkey : call.key = key) : P := by
  rcases hfresh.2 call (List.mem_of_getElem? hcall) hkey with hstart | hslow
  · exact absurd hstart hpc.1
  · exact absurd hslow hpc.2

/-- A call moves on to a place where it does not persist. -/
theorem Store.Covered.setPc (h : s.Covered key) (hcall : s.calls[i]? = some call) {pc : EnqueuePc}
    (hpersists : call.pc.persists = false)
    (hfresh : s.Fresh key → call.key = key → pc = .start ∨ pc = .slowPath) :
    (s.setPc i pc).Covered key :=
  h.frame rfl rfl (fun _ => outstanding_setPc hcall fun _ => hpersists)
    fun hf => fresh_setPc hcall (hfresh hf) hf

/-- The call puts its route into the map, and is about to persist. -/
theorem covered_insertHandle (h : s.Covered key) (hcall : s.calls[i]? = some call)
    (hpersists : call.pc.persists = false) {pc : EnqueuePc} (hpc : pc.persists = true) (tx : Nat) :
    ((s.insertHandle call.key tx).setPc i pc).Covered key := by
  have hcall' : (s.insertHandle call.key tx).calls[i]? = some call := hcall
  have hfind := find?_insertHandle s call.key tx key
  by_cases hkey : call.key = key
  · have hmap : ((s.insertHandle call.key tx).setPc i pc).mapState key = .active := by
      show (if ((s.insertHandle call.key tx).routes.find? key).isSome then _ else _) = _
      rw [hfind, if_pos hkey.symm]
      rfl
    right; left
    rw [hmap]
    exact ⟨_, mem_setPc hcall' pc, hkey, hpc⟩
  · rw [if_neg (Ne.symm hkey)] at hfind
    apply h.frame
    · show (if ((s.insertHandle call.key tx).routes.find? key).isSome then _ else _) = _
      rw [hfind]
      rfl
    · rfl
    · exact fun state hs => outstanding_setPc hcall' (fun _ => hpersists) (outstanding_of_eq rfl rfl hs)
    · intro hfresh
      refine fresh_setPc hcall' (fun hk => absurd hk hkey) ⟨hfind.trans hfresh.1, hfresh.2⟩

/-- The call persists Active, which the map says, or something is about to
persist what it says. -/
theorem covered_persistActive (h : s.Covered key) (hcall : s.calls[i]? = some call)
    (hcurrent : s.mapState call.key = .active ∨ s.Outstanding call.key (s.mapState call.key))
    (pc : EnqueuePc) :
    ((s.persistState call.key .active true).setPc i pc).Covered key := by
  by_cases hkey : call.key = key
  · subst hkey
    by_cases hmap : s.mapState call.key = .active
    · left
      show (if call.key = call.key then some .active else _) = some (s.mapState call.key)
      rw [if_pos rfl, hmap]
    · -- The map says Closed, and a collection is yet to persist it.
      have hclosed : s.mapState call.key = .closed := mapState_eq_closed hmap
      have hcollection := hcurrent.resolve_left hmap
      rw [hclosed] at hcollection
      right; left
      show Store.Outstanding _ call.key (s.mapState call.key)
      rw [hclosed]
      exact hcollection
  · apply h.frame
    · rfl
    · show (if key = call.key then some .active else s.persisted key) = _
      rw [if_neg (Ne.symm hkey)]
    · intro state hs
      exact outstanding_setPc hcall (fun hk => absurd hk hkey) (outstanding_of_eq rfl rfl hs)
    · intro hfresh
      exact fresh_setPc hcall (fun hk => absurd hk hkey) hfresh

theorem covered_call {config : Config} {s' : Store} (h : s.Covered key)
    (hcall : s.calls[i]? = some call)
    (hcurrent : call.pc.persists = true →
      s.mapState call.key = .active ∨ s.Outstanding call.key (s.mapState call.key))
    (hstep : s.stepCall config i call true = some s') : s'.Covered key := by
  by_cases hpersists : call.pc.persists = true
  · have hcurrent := hcurrent hpersists
    cases hpc : call.pc with
    | persistActive tx =>
      simp only [Store.stepCall, hpc, Option.some.injEq] at hstep
      exact hstep ▸ covered_persistActive h hcall hcurrent _
    | persistRespawned tx =>
      simp only [Store.stepCall, hpc, Option.some.injEq] at hstep
      exact hstep ▸ covered_persistActive h hcall hcurrent _
    | start | slowPath | trySend | respawn | insertRespawned | sendRespawned | returned =>
      rw [hpc] at hpersists
      exact nomatch hpersists
  · have hsilent : call.pc.persists = false := Bool.not_eq_true _ ▸ hpersists
    cases callMove_of_stepCall hstep with
    | found handle hpc hfind =>
      refine h.setPc hcall hsilent fun hfresh hkey => ?_
      rw [hkey, hfresh.1] at hfind
      exact nomatch hfind
    | missed hpc => exact h.setPc hcall hsilent fun _ _ => .inr rfl
    | spawned hpc hfind =>
      have hspawned : (s.spawnWorker config call.key).Covered key := h
      exact covered_insertHandle hspawned hcall hsilent rfl s.workers.length
    | persisted tx stored hpc => exact absurd (by rw [hpc]; rfl) hpersists
    | sent tx hpc hsend =>
      have hpushed : (s.push tx call.msg).Covered key := h
      rcases hpc with hpc | hpc
      · exact hpushed.setPc hcall hsilent (not_fresh hcall (by simp [hpc]))
      · exact hpushed.setPc hcall hsilent (not_fresh hcall (by simp [hpc]))
    | full tx hpc => exact h.setPc hcall hsilent (not_fresh hcall (by simp [hpc]))
    | closed tx hpc hsend => exact h.setPc hcall hsilent (not_fresh hcall (by simp [hpc]))
    | respawned hpc =>
      have hspawned : (s.spawnWorker config call.key).Covered key := h
      exact hspawned.setPc hcall hsilent (not_fresh hcall (by simp [hpc]))
    | inserted tx hpc => exact covered_insertHandle h hcall hsilent rfl tx
    | persistedAgain tx stored hpc => exact absurd (by rw [hpc]; rfl) hpersists
    | dropped tx hpc hsend => exact h.setPc hcall hsilent (not_fresh hcall (by simp [hpc]))

end Call

/-! ## Steps of a collection -/

section Collection

variable {s : Store} {key : RouteKey}

/-- The routes that are taken out are about to be persisted as Closed. -/
theorem covered_collectIdle (h : s.Covered key) (idleTimeoutSecs : Nat) :
    (s.collectIdle idleTimeoutSecs).Covered key := by
  have hmore : ∀ state, s.Outstanding key state →
      (s.collectIdle idleTimeoutSecs).Outstanding key state := by
    intro state hs
    cases state with
    | active | idle => exact hs
    | closed =>
      obtain ⟨collection, hcollection, hkey⟩ := hs
      exact ⟨collection, List.mem_append_left _ hcollection, hkey⟩
  have hfind : (s.collectIdle idleTimeoutSecs).routes.find? key = (s.routes.find? key).filter
      fun handle => !decide (idleTimeoutSecs * 1000 < s.clock - handle.lastActive) :=
    KeyedTable.find?_retain ..
  cases hhandle : s.routes.find? key with
  | none =>
    rw [hhandle, Option.filter_none] at hfind
    refine h.frame ?_ rfl hmore fun hfresh => ⟨hfind, hfresh.2⟩
    unfold Store.mapState
    rw [hfind, hhandle]
  | some handle =>
    have hnew : ¬s.Fresh key := fun hfresh => nomatch hhandle.symm.trans hfresh.1
    rw [hhandle, Option.filter_some] at hfind
    split at hfind
    · refine h.frame ?_ rfl hmore fun hfresh => absurd hfresh hnew
      unfold Store.mapState
      rw [hfind, hhandle]
    · rename_i hidle
      rw [Bool.not_eq_true, Bool.not_eq_false'] at hidle
      have hkey := KeyedTable.key_of_find? hhandle
      have hmap : (s.collectIdle idleTimeoutSecs).mapState key = .closed := by
        unfold Store.mapState
        rw [hfind]
        rfl
      right; left
      rw [hmap]
      refine ⟨_, List.mem_append_right _ (List.mem_singleton_self _), ?_⟩
      have hselected : handle ∈ s.routes.select fun handle =>
          decide (idleTimeoutSecs * 1000 < s.clock - handle.lastActive) :=
        KeyedTable.mem_select.mpr ⟨by rw [hkey, hhandle], hidle⟩
      exact hkey ▸ List.mem_map_of_mem hselected

/-- A collection that has persisted `k` is yet to persist its other routes. -/
theorem outstanding_collection {s' : Store} {j : Nat} {collection : Collection} {k : RouteKey}
    {keys : List RouteKey} (hcollection : s.collections[j]? = some collection)
    (hkeys : collection.toPersist = k :: keys) (hk : key ≠ k) (hcalls : s'.calls = s.calls)
    (hcollections : s'.collections = s.collections.set j { collection with toPersist := keys })
    {state : ConversationState} (h : s.Outstanding key state) : s'.Outstanding key state := by
  cases state with
  | active =>
    obtain ⟨call, hcall, hrest⟩ := h
    exact ⟨call, hcalls ▸ hcall, hrest⟩
  | idle => exact h
  | closed =>
    obtain ⟨c, hc, hmem⟩ := h
    obtain ⟨j', hj'⟩ := List.getElem?_of_mem hc
    have hj := (List.getElem?_eq_some_iff.mp hcollection).1
    by_cases hjj : j = j'
    · subst hjj
      cases hj'.symm.trans hcollection
      rw [hkeys] at hmem
      have hrest : key ∈ keys := (List.mem_cons.mp hmem).resolve_left hk
      exact ⟨_, hcollections ▸ List.mem_set hj _, hrest⟩
    · have hother : s'.collections[j']? = some c := by
        rw [hcollections, List.getElem?_set_ne hjj, hj']
      exact ⟨c, List.mem_of_getElem? hother, hmem⟩

theorem covered_collection {s' : Store} {j : Nat} {collection : Collection} (h : s.Covered key)
    (hcollection : s.collections[j]? = some collection)
    (hcurrent : ∀ k ∈ collection.toPersist.head?,
      s.mapState k = .closed ∨ s.Outstanding k (s.mapState k))
    (hstep : s.stepCollection j collection true = some s') : s'.Covered key := by
  unfold Store.stepCollection at hstep
  cases hkeys : collection.toPersist with
  | nil => simp [hkeys] at hstep
  | cons k keys =>
    simp only [hkeys, Option.some.injEq] at hstep
    subst hstep
    by_cases hk : key = k
    · subst hk
      by_cases hmap : s.mapState key = .active
      · -- The map has the route again, and a call is yet to persist it.
        have hcall := (hcurrent key (by rw [hkeys]; rfl)).resolve_left (by simp [hmap])
        rw [hmap] at hcall
        right; left
        show Store.Outstanding _ key (s.mapState key)
        rw [hmap]
        exact hcall
      · left
        show (if key = key then some .closed else _) = some (s.mapState key)
        rw [if_pos rfl, mapState_eq_closed hmap]
    · refine h.frame rfl (if_neg hk) ?_ id
      intro state hs
      apply outstanding_collection hcollection hkeys hk _ _ hs
      · rfl
      · rfl

end Collection

/-! ## Runs -/

/-- A new call has not come to the map yet. -/
theorem covered_enqueue {s : Store} {key : RouteKey} (h : s.Covered key) (key' : RouteKey)
    (msg : Message) :
    Store.Covered { s with calls := s.calls ++ [⟨key', msg, .start⟩] } key := by
  refine h.frame rfl rfl ?_ ?_
  · intro state hs
    cases state with
    | active =>
      obtain ⟨call, hcall, hrest⟩ := hs
      exact ⟨call, List.mem_append_left _ hcall, hrest⟩
    | closed | idle => exact hs
  · intro hfresh
    exact ⟨hfresh.1, forall_mem_concat hfresh.2 fun _ => .inl rfl⟩

/-- A worker leaves the map as it is, or touches a handle in it. -/
theorem covered_worker {s s' : Store} {key : RouteKey} {w : Nat} {worker : Worker}
    {step : WorkerStep} (h : s.Covered key) (hmove : WorkerMove s w worker step s') :
    s'.Covered key := by
  cases hmove with
  | receivedDone =>
    have hfind := find?_touchHandle (s.setWorker w { worker with task := .waiting s.clock })
      worker.routeKey key
    refine h.frame ?_ rfl (fun _ => outstanding_of_eq rfl rfl) fun hfresh => ⟨?_, hfresh.2⟩
    · unfold Store.mapState
      rw [hfind]
      split
      case isTrue hkey => rw [hkey, Option.isSome_map]; rfl
      case isFalse => rfl
    · rw [hfind]
      split
      case isTrue hkey => rw [← hkey]; exact congrArg _ hfresh.1
      case isFalse => exact hfresh.1
  | recv | close | flush | runPipeline | pipelineReturns | panic | batchDone => exact h

theorem covered_step {config : Config} {key : RouteKey} (s : Store) (action : StoreAction)
    (s' : Store) (h : s.Covered key) (hworks : StorageWorks action ∧ Current s action)
    (hstep : s.step config action = some s') : s'.Covered key := by
  obtain ⟨hworks, hcurrent⟩ := hworks
  cases action with
  | advance ms =>
    cases hstep
    exact h
  | enqueue key' msg =>
    cases hstep
    exact covered_enqueue h key' msg
  | call i stored =>
    obtain rfl : stored = true := hworks
    simp only [Store.step] at hstep
    split at hstep
    case h_1 => exact nomatch hstep
    case h_2 call hcall =>
      refine covered_call h hcall (fun hpersists => ?_) hstep
      have := hcurrent (call.key, .active) (by simp [Store.persists?, hcall, hpersists])
      exact this.imp_left Eq.symm
  | collectIdle idleTimeoutSecs =>
    cases hstep
    exact covered_collectIdle h idleTimeoutSecs
  | collection j stored =>
    obtain rfl : stored = true := hworks
    simp only [Store.step] at hstep
    split at hstep
    case h_1 => exact nomatch hstep
    case h_2 collection hcollection =>
      refine covered_collection h hcollection (fun k hk => ?_) hstep
      have := hcurrent (k, .closed) (by simp [Store.persists?, hcollection]; exact hk)
      exact this.imp_left Eq.symm
  | worker w step =>
    simp only [Store.step] at hstep
    split at hstep
    case h_1 => exact nomatch hstep
    case h_2 worker hworker =>
      exact covered_worker h (workerMove_of_stepWorker hstep)

theorem persisted_agrees {config : Config} {as : List StoreAction} {s : Store}
    (hrun : run (Store.step config) .init as = some s)
    (hworks : ∀ action ∈ as, StorageWorks action)
    (hcurrent : EveryStep (Store.step config) Current .init as)
    (hrest : s.AtRest) {key : RouteKey} (hused : s.Used key) :
    s.persisted key = some (if (s.routes.find? key).isSome then .active else .closed) := by
  have hboth := ((everyStep_iff_forall_mem hrun).mpr hworks).and
    (R := fun s action => StorageWorks action ∧ Current s action) (fun _ _ hw hc => ⟨hw, hc⟩) hcurrent
  have hcovered : s.Covered key :=
    run_invariant_of_everyStep (fun s a s' => covered_step s a s') (covered_init key) hboth hrun
  exact hcovered.persisted_of_atRest hrest hused

/-- `enqueue` on a new route, up to its return. -/
def enqueueFirst : List StoreAction :=
  [.enqueue wechatRoute (wechatText "m1" 1700000000000), .call 0 true, .call 0 true, .call 0 true,
    .call 0 true]

/-- The route is collected, and an `enqueue` puts it back.  The collection
persists Closed before the `enqueue` goes on to persist Active. -/
def collectedAndAgain : List StoreAction :=
  enqueueFirst ++
    [.advance 1, .collectIdle 0, .enqueue wechatRoute (wechatText "m2" 1700000000001),
      .call 1 true, .call 1 true, .collection 0 true, .call 1 true, .call 1 true]

theorem persisted_agrees_again :
    ∃ s, run (Store.step defaultConfig) .init collectedAndAgain = some s ∧
      s.persisted wechatRoute =
        some (if (s.routes.find? wechatRoute).isSome then .active else .closed) := by
  refine ⟨_, rfl, @persisted_agrees defaultConfig collectedAndAgain _ rfl ?_ ?_ ?_ _ ?_⟩
  · decide
  · decide +kernel
  · decide +kernel
  · decide +kernel

/-- The route is collected, and put back by an `enqueue` that returns before
the collection goes on to persist. -/
def collectedAndBack : List StoreAction :=
  enqueueFirst ++
    [.advance 1, .collectIdle 0, .enqueue wechatRoute (wechatText "m2" 1700000000001),
      .call 1 true, .call 1 true, .call 1 true, .call 1 true, .collection 0 true]

theorem not_persisted_agrees :
    ¬∀ (config : Config) (as : List StoreAction) (s : Store),
      run (Store.step config) .init as = some s → (∀ action ∈ as, StorageWorks action) →
      s.AtRest → ∀ key, s.Used key →
        s.persisted key = some (if (s.routes.find? key).isSome then .active else .closed) := by
  intro h
  exact absurd (h defaultConfig collectedAndBack _ rfl (by decide) (by decide +kernel) wechatRoute
    (by decide +kernel)) (by decide +kernel)

end MagicLaw.Routing
