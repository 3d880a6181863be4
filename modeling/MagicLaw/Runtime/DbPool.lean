import Mathlib.Data.List.Nodup
import Mathlib.Data.List.Perm.Basic
import MagicLaw.Lib.Machine

/-!
# The pool of database connections

`DbPool` of `infrastructure/db.rs`: `execute` and `query` check a connection
out, run a closure on it, and check it in again.  A move of the machine is one
step of one call: to take the lock, to test whether there is a connection, to
take one, to end the closure, to put the connection back, and to leave.

The comments of the code say that the connection is returned regardless of the
result.  A closure that panics has no result: it unwinds `with_conn`, which
drops the connection.

* `conserved_iff`: the connections that are idle or checked out are always as
  many as the capacity, with no call in progress they are all idle, and none
  is held twice, exactly when no closure panics.
* `pool_accounts`: after any run those that are idle or checked out and the
  panics together are the capacity.
* `exhausted`: after as many panics no call has a connection, or gets one.
* `held_once` and `expect_never_fails`: also with panics no connection is held
  by two calls, and there is a connection where `pop_front` expects one.

The lock is that of `std`: one call at a time has it, and it is taken although
it is poisoned.  A wait may end without a notification, so `notify_one`
changes nothing of what can happen.  `rusqlite` is a parameter.  The
connections of a pool are distinct, since a `Connection` cannot be copied.
-/

namespace MagicLaw.Runtime

open Lib.Machine

/-! ## The pool -/

/-- `rusqlite::Error`, of which the text is read. -/
structure SqlError where
  text : String
  deriving DecidableEq

structure DbPool (Connection : Type) where
  connections : List Connection
  capacity : Nat
  deriving DecidableEq

section Build

variable {Connection : Type} {initDb : Nat → Except SqlError Connection}

def DbPool.new (conn : Connection) : DbPool Connection := ⟨[conn], 1⟩

def DbPool.withCapacity (conns : List Connection) (capacity : Nat) : DbPool Connection :=
  ⟨conns, capacity⟩

/-- `initDb n` is what `init_db` returns when it is called for the `n`th
time. -/
def initDbPool (initDb : Nat → Except SqlError Connection) (size : Nat) :
    Except SqlError (DbPool Connection) := do
  let size := max size 1
  let conns ← (List.range size).mapM initDb
  return .withCapacity conns size

theorem length_of_mapM {α β ε : Type} {f : α → Except ε β} {xs : List α} {ys : List β}
    (h : xs.mapM f = .ok ys) : ys.length = xs.length := by
  induction xs generalizing ys with
  | nil =>
    rw [List.mapM_nil] at h
    cases h
    rfl
  | cons x xs ih =>
    rw [List.mapM_cons] at h
    cases hx : f x with
    | error e =>
      rw [hx] at h
      cases h
    | ok y =>
      cases hxs : xs.mapM f with
      | error e =>
        rw [hx, hxs] at h
        cases h
      | ok rest =>
        rw [hx, hxs] at h
        cases h
        rw [List.length_cons, List.length_cons, ih hxs]

/-- The pools that are built have as many connections as their capacity. -/
theorem initDbPool_eq_ok {size : Nat} {pool : DbPool Connection}
    (h : initDbPool initDb size = .ok pool) :
    ∃ conns : List Connection, conns.length = max size 1 ∧
      pool = .withCapacity conns conns.length := by
  unfold initDbPool at h
  dsimp only at h
  cases hconns : (List.range (max size 1)).mapM initDb with
  | error e =>
    rw [hconns] at h
    cases h
  | ok conns =>
    rw [hconns] at h
    have hlength := length_of_mapM hconns
    rw [List.length_range] at hlength
    cases h
    exact ⟨conns, hlength, by rw [hlength]⟩

theorem DbPool.new_eq (conn : Connection) :
    DbPool.new conn = .withCapacity [conn] [conn].length := rfl

end Build

/-! ## The calls -/

/-- Where a call of `with_conn` is. -/
inductive Stage (Connection τ : Type) where
  /-- waits for the lock, to check a connection out -/
  | entering
  /-- has the lock, at the test of the loop -/
  | testing
  /-- in `cvar.wait`, without the lock -/
  | waiting
  /-- has the lock, and the test has found a connection -/
  | checkingOut
  /-- the closure runs -/
  | running (conn : Connection)
  /-- waits for the lock, to check the connection in -/
  | returning (conn : Connection) (result : Except SqlError τ)
  | checkingIn (conn : Connection) (result : Except SqlError τ)
  /-- the connection is back, and the lock is still held -/
  | leaving (result : Except SqlError τ)
  | ended (result : Except String τ)
  /-- unwound, and the connection was dropped -/
  | panicked (conn : Option Connection)
  deriving DecidableEq

/-- How a closure ends. -/
inductive Ending (τ : Type) where
  | returned (result : Except SqlError τ)
  | panicked
  deriving DecidableEq

namespace Stage

variable {Connection τ : Type}

def hasLock : Stage Connection τ → Bool
  | .testing | .checkingOut | .checkingIn _ _ | .leaving _ => true
  | .entering | .waiting | .running _ | .returning _ _ | .ended _ | .panicked _ => false

/-- The connection that is checked out. -/
def conn? : Stage Connection τ → Option Connection
  | .running conn | .returning conn _ | .checkingIn conn _ => some conn
  | .entering | .testing | .waiting | .checkingOut | .leaving _ | .ended _ | .panicked _ => none

/-- The connection that was dropped. -/
def lost? : Stage Connection τ → Option Connection
  | .panicked conn => conn
  | .entering | .testing | .waiting | .checkingOut | .running _ | .returning _ _
  | .checkingIn _ _ | .leaving _ | .ended _ => none

def isOver : Stage Connection τ → Bool
  | .ended _ | .panicked _ => true
  | .entering | .testing | .waiting | .checkingOut | .running _ | .returning _ _
  | .checkingIn _ _ | .leaving _ => false

/-- The next step of `with_conn`, except for the closure, and the connections
after it. -/
def next (unlocked : Bool) (connections : List Connection) :
    Stage Connection τ → Option (Stage Connection τ × List Connection)
  | .entering | .waiting => if unlocked then some (.testing, connections) else none
  -- `wait` gives the lock back
  | .testing => some (if connections.isEmpty then .waiting else .checkingOut, connections)
  | .checkingOut =>
    match connections with
    | conn :: rest => some (.running conn, rest)
    -- `expect` panics
    | [] => some (.panicked none, [])
  | .returning conn result =>
    if unlocked then some (.checkingIn conn result, connections) else none
  | .checkingIn conn result => some (.leaving result, connections ++ [conn])
  | .leaving result => some (.ended (result.mapError SqlError.text), connections)
  | .running _ | .ended _ | .panicked _ => none

/-- The closure ends. -/
def finish (ending : Ending τ) : Stage Connection τ → Option (Stage Connection τ)
  | .running conn =>
    match ending with
    | .returned result => some (.returning conn result)
    -- nothing after the closure is run, and the connection is dropped
    | .panicked => some (.panicked (some conn))
  | .entering | .testing | .waiting | .checkingOut | .returning _ _ | .checkingIn _ _
  | .leaving _ | .ended _ | .panicked _ => none

end Stage

/-- The pool, and all the calls that were made. -/
structure PoolUse (Connection τ : Type) where
  pool : DbPool Connection
  calls : List (Stage Connection τ)
  deriving DecidableEq

inductive PoolMove (τ : Type) where
  /-- `execute` or `query` is called -/
  | call
  | next (n : Nat)
  | finish (n : Nat) (ending : Ending τ)
  deriving DecidableEq

def PoolMove.isPanic {τ : Type} : PoolMove τ → Bool
  | .finish _ .panicked => true
  | .finish _ (.returned _) | .call | .next _ => false

namespace PoolUse

variable {Connection τ : Type}

def start (pool : DbPool Connection) : PoolUse Connection τ := ⟨pool, []⟩

def unlocked (u : PoolUse Connection τ) : Bool := !u.calls.any Stage.hasLock

/-- The call moves, and leaves these connections. -/
def moved (u : PoolUse Connection τ) (n : Nat) (stage : Stage Connection τ)
    (connections : List Connection) : PoolUse Connection τ where
  pool := { u.pool with connections := connections }
  calls := u.calls.set n stage

def step (u : PoolUse Connection τ) : PoolMove τ → Option (PoolUse Connection τ)
  | .call => some { u with calls := u.calls ++ [.entering] }
  | .next n => do
    let stage ← u.calls[n]?
    let (stage, connections) ← stage.next u.unlocked u.pool.connections
    return u.moved n stage connections
  | .finish n ending => do
    let stage ← u.calls[n]?
    let stage ← stage.finish ending
    return u.moved n stage u.pool.connections

/-- The connections that are checked out. -/
def held (u : PoolUse Connection τ) : List Connection := u.calls.filterMap Stage.conn?

/-- The connections that were dropped. -/
def lost (u : PoolUse Connection τ) : List Connection := u.calls.filterMap Stage.lost?

/-- The pool has its connections, `conns`, in full. -/
structure Conserved (conns : List Connection) (u : PoolUse Connection τ) : Prop where
  accounted : u.pool.connections.length + u.held.length = u.pool.capacity
  exclusive : (u.pool.connections ++ u.held).Nodup
  idle : (∀ stage ∈ u.calls, stage.isOver = true) → u.pool.connections.Perm conns

/-! ## One step -/

variable {u v : PoolUse Connection τ} {move : PoolMove τ} {conns : List Connection}

/-- What a move of a call keeps: connections are handed over, or lost with a
panic, and a connection is taken under the lock, after it was found. -/
structure Orderly (u : PoolUse Connection τ) (move : PoolMove τ) (stage target : Stage Connection τ)
    (connections : List Connection) : Prop where
  places : (connections ++ (target.conn?.toList ++ target.lost?.toList)).Perm
    (u.pool.connections ++ (stage.conn?.toList ++ stage.lost?.toList))
  lost : target.lost?.toList.length = stage.lost?.toList.length + if move.isPanic then 1 else 0
  locks : target.hasLock = true → stage.hasLock = true ∨ u.unlocked = true
  found : target = .checkingOut → connections ≠ []
  takes : u.pool.connections ≠ [] → connections ≠ [] ∨ stage.hasLock = true ∧ target.hasLock = false
  expected : target = .panicked none → stage = .checkingOut ∧ u.pool.connections = []

theorem orderly_next {n : Nat} {stage target : Stage Connection τ} {connections : List Connection}
    (h : stage.next u.unlocked u.pool.connections = some (target, connections)) :
    u.Orderly (.next n) stage target connections := by
  cases stage with
  | entering | waiting =>
    obtain ⟨hunlocked, ⟨⟩⟩ := Option.ite_none_right_eq_some.mp h
    exact ⟨.refl _, rfl, fun _ => .inr hunlocked, nofun, .inl, nofun⟩
  | testing =>
    obtain ⟨htarget, rfl⟩ := Prod.mk.inj (Option.some.inj h)
    by_cases hempty : u.pool.connections.isEmpty = true
    · obtain rfl : .waiting = target := by rw [← htarget, if_pos hempty]
      exact ⟨.refl _, rfl, nofun, nofun, .inl, nofun⟩
    · obtain rfl : .checkingOut = target := by rw [← htarget, if_neg hempty]
      exact ⟨.refl _, rfl, fun _ => .inl rfl, fun _ => by simpa using hempty, .inl, nofun⟩
  | checkingOut =>
    unfold Stage.next at h
    cases hconns : u.pool.connections with
    | nil =>
      rw [hconns] at h
      cases h
      exact ⟨by rw [hconns]; exact .refl _, rfl, nofun, nofun, fun h => absurd hconns h,
        fun _ => ⟨rfl, hconns⟩⟩
    | cons conn rest =>
      rw [hconns] at h
      cases h
      refine ⟨?_, rfl, nofun, nofun, fun _ => .inr ⟨rfl, rfl⟩, nofun⟩
      rw [hconns]
      show (connections ++ [conn]).Perm ((conn :: connections) ++ [])
      rw [List.append_nil]
      exact List.perm_append_singleton conn connections
  | returning conn result =>
    obtain ⟨hunlocked, ⟨⟩⟩ := Option.ite_none_right_eq_some.mp h
    exact ⟨.refl _, rfl, fun _ => .inr hunlocked, nofun, .inl, nofun⟩
  | checkingIn conn result =>
    cases h
    refine ⟨?_, rfl, fun _ => .inl rfl, nofun, fun _ => .inl (by simp), nofun⟩
    show ((u.pool.connections ++ [conn]) ++ []).Perm (u.pool.connections ++ [conn])
    rw [List.append_nil]
  | leaving result =>
    cases h
    exact ⟨.refl _, rfl, nofun, nofun, .inl, nofun⟩
  | running _ | ended _ | panicked _ => cases h

theorem orderly_finish {n : Nat} {stage target : Stage Connection τ} {ending : Ending τ}
    (h : stage.finish ending = some target) :
    u.Orderly (.finish n ending) stage target u.pool.connections := by
  cases stage with
  | running conn =>
    cases ending with
    | returned result =>
      cases h
      exact ⟨.refl _, rfl, nofun, nofun, .inl, nofun⟩
    | panicked =>
      cases h
      exact ⟨.refl _, rfl, nofun, nofun, .inl, nofun⟩
  | entering | testing | waiting | checkingOut | returning _ _ | checkingIn _ _ | leaving _
  | ended _ | panicked _ => cases h

/-- A step is a new call, or one call moves. -/
theorem step_cases (h : u.step move = some v) :
    (move = .call ∧ v = { u with calls := u.calls ++ [.entering] }) ∨
      ∃ n stage target connections, u.calls[n]? = some stage ∧
        v = u.moved n target connections ∧ u.Orderly move stage target connections := by
  cases move with
  | call => exact .inl ⟨rfl, (Option.some.inj h).symm⟩
  | next n =>
    obtain ⟨stage, hn, h⟩ := Option.bind_eq_some_iff.mp h
    obtain ⟨⟨target, connections⟩, hnext, h⟩ := Option.bind_eq_some_iff.mp h
    exact .inr ⟨n, stage, target, _, hn, (Option.some.inj h).symm, orderly_next hnext⟩
  | finish n ending =>
    obtain ⟨stage, hn, h⟩ := Option.bind_eq_some_iff.mp h
    obtain ⟨target, hfinish, h⟩ := Option.bind_eq_some_iff.mp h
    exact .inr ⟨n, stage, target, _, hn, (Option.some.inj h).symm, orderly_finish hfinish⟩

/-! ## All steps -/

theorem unlocked_iff : u.unlocked = true ↔ u.calls.countP Stage.hasLock = 0 := by
  simp [unlocked, List.countP_eq_zero]

/-- Each connection is in one place, and at most one call has the lock. -/
structure Sound (conns : List Connection) (u : PoolUse Connection τ) : Prop where
  capacity : u.pool.capacity = conns.length
  places : conns.Perm (u.pool.connections ++ (u.held ++ u.lost))
  oneLock : u.calls.countP Stage.hasLock ≤ 1
  found : .checkingOut ∈ u.calls → u.pool.connections ≠ []
  expected : .panicked none ∉ u.calls

theorem sound_start (conns : List Connection) :
    Sound conns (start (.withCapacity conns conns.length) : PoolUse Connection τ) where
  capacity := rfl
  places := by
    show conns.Perm (conns ++ [])
    rw [List.append_nil]
  oneLock := Nat.zero_le 1
  found := nofun
  expected := nofun

/-- A new call is where calls begin, and nowhere else. -/
theorem mem_of_call {stage : Stage Connection τ} (h : stage ∈ u.calls ++ [.entering])
    (hne : stage ≠ .entering) : stage ∈ u.calls :=
  (List.mem_append.mp h).resolve_right fun hnew => hne (List.mem_singleton.mp hnew)

theorem Sound.call (h : u.Sound conns) :
    Sound conns { u with calls := u.calls ++ [.entering] } where
  capacity := h.capacity
  places := by
    have hnew (f : Stage Connection τ → Option Connection) (hf : f .entering = none) :
        (u.calls ++ [Stage.entering]).filterMap f = u.calls.filterMap f := by
      simp [hf]
    show conns.Perm (_ ++ (List.filterMap Stage.conn? _ ++ List.filterMap Stage.lost? _))
    rw [hnew _ rfl, hnew _ rfl]
    exact h.places
  oneLock := by
    rw [List.countP_append]
    exact h.oneLock
  found hmem := h.found (mem_of_call hmem nofun)
  expected hmem := h.expected (mem_of_call hmem nofun)

section Moved

variable {n : Nat} {stage target : Stage Connection τ} {connections : List Connection}

/-- What the calls have is what the others have, and what the one that moves
has. -/
theorem filterMap_moved (f : Stage Connection τ → Option Connection)
    (hn : u.calls[n]? = some stage) (target : Stage Connection τ) :
    ((f stage).toList ++ (u.calls.set n target).filterMap f).Perm
      ((f target).toList ++ u.calls.filterMap f) := by
  have hcons (a : Stage Connection τ) (l : List (Stage Connection τ)) :
      (f a).toList ++ l.filterMap f = (a :: l).filterMap f := by
    cases h : f a <;> simp [h]
  have hset := List.getD_set_perm_cons u.calls n target
  rw [hn] at hset
  rw [hcons, hcons]
  exact hset.filterMap f

theorem places_moved (hn : u.calls[n]? = some stage) (h : u.Orderly move stage target connections) :
    (connections ++ ((u.moved n target connections).held ++ (u.moved n target connections).lost)).Perm
      (u.pool.connections ++ (u.held ++ u.lost)) := by
  classical
  rw [List.perm_iff_count]
  intro conn
  have hplaces := h.places.count_eq conn
  have hheld := (filterMap_moved Stage.conn? hn target).count_eq conn
  have hlost := (filterMap_moved Stage.lost? hn target).count_eq conn
  simp only [List.count_append] at hplaces hheld hlost ⊢
  show _ + (List.count conn ((u.calls.set n target).filterMap Stage.conn?) +
    List.count conn ((u.calls.set n target).filterMap Stage.lost?)) =
      _ + (List.count conn (u.calls.filterMap Stage.conn?) +
        List.count conn (u.calls.filterMap Stage.lost?))
  omega

theorem oneLock_moved (hn : u.calls[n]? = some stage) (h : u.Orderly move stage target connections)
    (hlock : u.calls.countP Stage.hasLock ≤ 1) :
    (u.calls.set n target).countP Stage.hasLock ≤ 1 := by
  have hcount := countP_set_add Stage.hasLock hn target
  by_cases htarget : target.hasLock = true
  · rw [if_pos htarget] at hcount
    rcases h.locks htarget with hstage | hunlocked
    · rw [if_pos hstage] at hcount
      omega
    · -- The lock is taken, and nobody has it.
      have hnone := unlocked_iff.mp hunlocked
      omega
  · rw [if_neg htarget] at hcount
    omega

theorem found_moved (hn : u.calls[n]? = some stage) (h : u.Orderly move stage target connections)
    (hs : u.Sound conns) (hmem : .checkingOut ∈ u.calls.set n target) : connections ≠ [] := by
  rcases List.mem_or_eq_of_mem_set hmem with hother | htarget
  · rcases h.takes (hs.found hother) with hne | ⟨hstage, htarget⟩
    · exact hne
    · -- The call that moves gives up the lock, so no other call has it.
      have hcount := countP_set_add Stage.hasLock hn target
      rw [if_pos hstage, if_neg (by simp [htarget])] at hcount
      have hpos : 0 < (u.calls.set n target).countP Stage.hasLock :=
        List.countP_pos_iff.mpr ⟨_, hmem, rfl⟩
      have hlock := hs.oneLock
      omega
  · exact h.found htarget.symm

theorem Sound.moved (hs : u.Sound conns) (hn : u.calls[n]? = some stage)
    (h : u.Orderly move stage target connections) : (u.moved n target connections).Sound conns where
  capacity := hs.capacity
  places := hs.places.trans (places_moved hn h).symm
  oneLock := oneLock_moved hn h hs.oneLock
  found := found_moved hn h hs
  expected := by
    intro hmem
    rcases List.mem_or_eq_of_mem_set hmem with hother | htarget
    · exact hs.expected hother
    · obtain ⟨hstage, hempty⟩ := h.expected htarget.symm
      exact hs.found (hstage ▸ List.mem_of_getElem? hn) hempty

end Moved

theorem sound_step (hs : u.Sound conns) (h : u.step move = some v) : v.Sound conns := by
  rcases step_cases h with ⟨-, rfl⟩ | ⟨n, stage, target, connections, hn, rfl, hmove⟩
  · exact hs.call
  · exact hs.moved hn hmove

/-- A connection is lost with each panic of a closure, and with nothing else. -/
theorem lost_step (h : u.step move = some v) :
    v.lost.length = u.lost.length + if move.isPanic then 1 else 0 := by
  rcases step_cases h with ⟨rfl, rfl⟩ | ⟨n, stage, target, connections, hn, rfl, hmove⟩
  · show ((u.calls ++ [Stage.entering]).filterMap Stage.lost?).length = _
    simp [lost, Stage.lost?, PoolMove.isPanic]
  · have hlength := (filterMap_moved Stage.lost? hn target).length_eq
    have hlost := hmove.lost
    rw [List.length_append, List.length_append] at hlength
    show ((u.calls.set n target).filterMap Stage.lost?).length = (u.calls.filterMap _).length + _
    omega

/-! ## All runs -/

variable {moves : List (PoolMove τ)}

theorem sound_run (hrun : run step u moves = some v) (hs : u.Sound conns) : v.Sound conns :=
  run_invariant (fun _ _ _ => sound_step) hs hrun

theorem lost_run (hrun : run step u moves = some v) :
    v.lost.length = u.lost.length + moves.countP PoolMove.isPanic := by
  induction moves generalizing u with
  | nil =>
    cases hrun
    rfl
  | cons move moves ih =>
    obtain ⟨w, hw, hrun⟩ := run_cons_eq_some.mp hrun
    rw [ih hrun, lost_step hw, List.countP_cons]
    omega

/-- What is idle, what is checked out, and what was lost, is the capacity. -/
theorem Sound.accounts (h : u.Sound conns) :
    u.pool.connections.length + u.held.length + u.lost.length = u.pool.capacity := by
  have hlength := h.places.length_eq
  rw [List.length_append, List.length_append] at hlength
  rw [h.capacity, hlength]
  omega

theorem Sound.nodup (h : u.Sound conns) (hconns : conns.Nodup) :
    (u.pool.connections ++ u.held).Nodup := by
  have hall := h.places.nodup_iff.mp hconns
  rw [← List.append_assoc] at hall
  exact (List.nodup_append.mp hall).1

/-- No connection was lost. -/
structure Complete (conns : List Connection) (u : PoolUse Connection τ) : Prop where
  sound : u.Sound conns
  lost : u.lost = []

theorem Complete.conserved (h : u.Complete conns) (hconns : conns.Nodup) : u.Conserved conns where
  accounted := by
    have haccounts := h.sound.accounts
    rw [h.lost] at haccounts
    exact haccounts
  exclusive := h.sound.nodup hconns
  idle := by
    intro hover
    have hheld : u.held = [] := by
      rw [held, List.filterMap_eq_nil_iff]
      intro stage hmem
      have hstage := hover stage hmem
      cases stage with
      | ended | panicked => rfl
      | entering | testing | waiting | checkingOut | running _ | returning _ _ | checkingIn _ _
      | leaving _ => cases hstage
    have hplaces := h.sound.places
    rw [hheld, h.lost] at hplaces
    simpa using hplaces.symm

theorem Complete.step (h : u.Complete conns) (hmove : move.isPanic = false)
    (hstep : u.step move = some v) : v.Complete conns where
  sound := sound_step h.sound hstep
  lost := by
    apply List.eq_nil_of_length_eq_zero
    rw [lost_step hstep, h.lost, hmove]
    rfl

theorem not_conserved (h : u.Sound conns) (hlost : u.lost ≠ []) : ¬ u.Conserved conns := by
  intro hconserved
  have haccounts := h.accounts
  have haccounted := hconserved.accounted
  have hpos := List.length_pos_of_ne_nil hlost
  omega

/-! ## The results -/

/-- The idle connections, those that are checked out, and the panics are the
capacity. -/
theorem pool_accounts (hrun : run step (start (.withCapacity conns conns.length)) moves = some u) :
    u.pool.connections.length + u.held.length + moves.countP PoolMove.isPanic = conns.length := by
  have hs := sound_run hrun (sound_start conns)
  have hlost := lost_run hrun
  rw [show (start _).lost.length = 0 from rfl, Nat.zero_add] at hlost
  rw [← hlost, hs.accounts, hs.capacity]

/-- When as many closures have panicked as there were connections, no call has
a connection or can take one. -/
theorem exhausted (hrun : run step (start (.withCapacity conns conns.length)) moves = some u)
    (hpanics : conns.length ≤ moves.countP PoolMove.isPanic) :
    u.pool.connections = [] ∧ u.held = [] := by
  have haccounts := pool_accounts hrun
  constructor
  · exact List.eq_nil_of_length_eq_zero (by omega)
  · exact List.eq_nil_of_length_eq_zero (by omega)

/-- No connection is with two calls, or with a call and in the pool. -/
theorem held_once (hconns : conns.Nodup)
    (hrun : run step (start (.withCapacity conns conns.length)) moves = some u) :
    (u.pool.connections ++ u.held).Nodup :=
  (sound_run hrun (sound_start conns)).nodup hconns

/-- `pop_front` has a connection for the call that the loop lets through. -/
theorem expect_never_fails
    (hrun : run step (start (.withCapacity conns conns.length)) moves = some u) :
    .panicked none ∉ u.calls :=
  (sound_run hrun (sound_start conns)).expected

/-- The connections are conserved in every state of a run exactly when no
closure panics in it. -/
theorem conserved_iff (hconns : conns.Nodup)
    (hrun : run step (start (.withCapacity conns conns.length)) moves = some u) :
    EveryState step (Conserved conns) (start (.withCapacity conns conns.length)) moves ↔
      ∀ move ∈ moves, move.isPanic = false := by
  rw [← everyStep_iff_forall_mem hrun]
  have hgood : ∀ u : PoolUse Connection τ, u.Complete conns → u.Conserved conns :=
    fun u hu => hu.conserved hconns
  refine everyState_iff_everyStep (Q := fun _ _ => True) hgood
    (fun u move v hu _ hmove hstep => hu.step hmove hstep) ?_ ⟨sound_start conns, rfl⟩
    (everyStep_of_forall (fun _ _ => trivial) _ _) hrun
  intro u move v hu _ hstep hconserved
  by_contra hpanic
  have hlost := lost_step hstep
  rw [if_pos (by simpa using hpanic)] at hlost
  exact not_conserved (sound_step hu.sound hstep) (List.ne_nil_of_length_eq_add_one hlost)
    hconserved

/-- Two calls on one connection: the second one waits until the first one is
over, and both end. -/
def twoCalls : List (PoolMove Nat) :=
  [.call, .call, .next 0, .next 0, .next 0, .next 1, .next 1] ++
    [.finish 0 (.returned (.error ⟨"locked"⟩)), .next 0, .next 0, .next 0] ++
    [.next 1, .next 1, .next 1, .finish 1 (.returned (.ok 7)), .next 1, .next 1, .next 1]

/-- A pool with one connection. -/
def onePool : PoolUse Nat Nat := start (.withCapacity [0] [0].length)

theorem conserved_two_calls :
    ∃ u, run step onePool twoCalls = some u ∧ u.pool.connections = [0] ∧
      u.calls = [.ended (.error "locked"), .ended (.ok 7)] ∧
      EveryState step (Conserved [0]) onePool twoCalls := by
  obtain ⟨u, hrun, hidle, hcalls⟩ : ∃ u, run step onePool twoCalls = some u ∧
      u.pool.connections = [0] ∧ u.calls = [.ended (.error "locked"), .ended (.ok 7)] :=
    ⟨_, rfl, rfl, rfl⟩
  exact ⟨u, hrun, hidle, hcalls, (conserved_iff (by decide) hrun).mpr (by decide)⟩

/-- A closure on the only connection panics. -/
def onePanic : List (PoolMove Nat) :=
  [.call, .next 0, .next 0, .next 0, .finish 0 .panicked]

/-- No call is in progress then, and no connection is left. -/
theorem not_conserved_one_panic :
    ¬ ∀ (conns : List Nat) (moves : List (PoolMove Nat)) (u : PoolUse Nat Nat), conns.Nodup →
        run step (start (.withCapacity conns conns.length)) moves = some u →
        EveryState step (Conserved conns) (start (.withCapacity conns conns.length)) moves := by
  intro h
  have hstates : EveryState step (Conserved [0]) onePool onePanic := h [0] onePanic _ (by decide) rfl
  have hlast : Conserved [0] ⟨⟨[], 1⟩, [.panicked (some 0)]⟩ :=
    hstates.2 _ rfl |>.2 _ rfl |>.2 _ rfl |>.2 _ rfl |>.2 _ rfl
  exact absurd hlast.accounted (by decide)

end PoolUse

end MagicLaw.Runtime
