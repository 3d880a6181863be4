import MagicLaw.Lib.Machine

/-!
# The accounts of the bulkhead

`Bulkhead` of `core/resilience/bulkhead.rs`, in steps that are as small as
those of the code: the semaphore gives a permit, `fetch_add` counts it, the
drop of the guard takes it off again, and last the permit is given back.

A move of the machine is one of these steps of one of the uses.  The guard of
an operation that is cancelled or panics is dropped like any other.

* `bulkhead_accounts`: whatever the order of the moves is, there are never
  more guards than `max_concurrent`, `active_count` is the number of the
  guards that are counted, and no addition or subtraction wraps.

The semaphore of `tokio` counts its permits.  `SemaphorePermit` is released
when the guard's own `drop` is done, as Rust drops the fields after it.  A use
can be dropped in `acquire` only, since there is no other `await`.  A permit
that the semaphore has given to it by then goes back.
-/

namespace MagicLaw.Resilience

open Lib.Machine

/-! ## The bulkhead -/

/-- Where a use of the bulkhead is. -/
inductive Use where
  /-- in `acquire`, without a permit -/
  | waiting
  /-- has a permit, and is not counted yet -/
  | permitted
  /-- has its guard -/
  | guarded
  /-- the guard is no longer counted, and still has the permit -/
  | dropping
  /-- returned `Full`, was dropped in `acquire`, or is over -/
  | ended
  deriving DecidableEq

def Use.isGuarded : Use → Bool
  | .guarded => true
  | .waiting | .permitted | .dropping | .ended => false

/-- There is a guard, which may be in its `drop`. -/
def Use.hasGuard : Use → Bool
  | .guarded | .dropping => true
  | .waiting | .permitted | .ended => false

def Use.hasPermit : Use → Bool
  | .permitted | .guarded | .dropping => true
  | .waiting | .ended => false

/-- `available` is what the semaphore has left. -/
structure Bulkhead where
  maxConcurrent : UInt64
  available : Nat
  activeCount : UInt64
  uses : List Use
  deriving DecidableEq

def Bulkhead.new (maxConcurrent : UInt64) : Bulkhead where
  maxConcurrent := maxConcurrent
  available := maxConcurrent.toNat
  activeCount := 0
  uses := []

inductive BulkheadMove where
  /-- `acquire` is called -/
  | acquire
  | tryAcquire
  /-- the semaphore gives a permit to a use that waits -/
  | permit (n : Nat)
  /-- `acquire` is dropped -/
  | cancel (n : Nat)
  /-- `acquire` is dropped with its permit -/
  | revoke (n : Nat)
  /-- `fetch_add`, and the guard is returned -/
  | count (n : Nat)
  /-- the guard's `drop` -/
  | drop (n : Nat)
  /-- the guard's permit is dropped -/
  | release (n : Nat)

/-- The use moves on, if it is where the move starts. -/
def Bulkhead.moved (b : Bulkhead) (n : Nat) (source target : Use) : Option Bulkhead :=
  if b.uses[n]? = some source then some { b with uses := b.uses.set n target } else none

def Bulkhead.step (b : Bulkhead) : BulkheadMove → Option Bulkhead
  | .acquire => some { b with uses := b.uses ++ [.waiting] }
  | .tryAcquire =>
    if 0 < b.available then
      some { b with available := b.available - 1, uses := b.uses ++ [.permitted] }
    else some { b with uses := b.uses ++ [.ended] }
  | .permit n =>
    if 0 < b.available then
      { b with available := b.available - 1 }.moved n .waiting .permitted
    else none
  | .cancel n => b.moved n .waiting .ended
  | .revoke n => { b with available := b.available + 1 }.moved n .permitted .ended
  | .count n => { b with activeCount := b.activeCount + 1 }.moved n .permitted .guarded
  | .drop n => { b with activeCount := b.activeCount - 1 }.moved n .guarded .dropping
  | .release n => { b with available := b.available + 1 }.moved n .dropping .ended

theorem moved_eq_some {b b' : Bulkhead} {n : Nat} {source target : Use} :
    b.moved n source target = some b' ↔
      b.uses[n]? = some source ∧ b' = { b with uses := b.uses.set n target } := by
  unfold Bulkhead.moved
  by_cases huse : b.uses[n]? = some source
  · rw [if_pos huse, Option.some.injEq, eq_comm]
    exact (and_iff_right huse).symm
  · rw [if_neg huse]
    exact iff_of_false nofun fun h => huse h.1

/-! ## The accounts -/

/-- The guards that were returned and not dropped. -/
def Bulkhead.guards (b : Bulkhead) : Nat := b.uses.countP Use.isGuarded

def Bulkhead.permits (b : Bulkhead) : Nat := b.uses.countP Use.hasPermit

/-- Every permit is held or left, and the counter is the number of the
guards. -/
structure Bulkhead.Accounted (max : UInt64) (b : Bulkhead) : Prop where
  configured : b.maxConcurrent = max
  permits : b.permits + b.available = max.toNat
  counted : b.activeCount.toNat = b.guards

theorem accounted_new (max : UInt64) : (Bulkhead.new max).Accounted max where
  configured := rfl
  permits := Nat.zero_add _
  counted := rfl

/-- Whoever is counted has a permit. -/
theorem guards_le_permits (b : Bulkhead) : b.guards ≤ b.permits :=
  List.countP_mono_left fun use _ h => by cases use <;> first | rfl | cases h

/-- One use moves, and the counter and what is left move with it. -/
theorem Bulkhead.Accounted.moved {max : UInt64} {b b' : Bulkhead} {n : Nat} {source target : Use}
    {activeCount : UInt64} {available : Nat} (h : b.Accounted max)
    (hmoved : Bulkhead.moved { b with activeCount := activeCount, available := available } n
      source target = some b')
    (hpermits : b.permits + available + (if target.hasPermit then 1 else 0) =
      max.toNat + if source.hasPermit then 1 else 0)
    (hcounted : activeCount.toNat + (if source.isGuarded then 1 else 0) =
      b.guards + if target.isGuarded then 1 else 0) : b'.Accounted max := by
  obtain ⟨huse, rfl⟩ := moved_eq_some.mp hmoved
  have hpermit := countP_set_add Use.hasPermit huse target
  have hguard := countP_set_add Use.isGuarded huse target
  constructor
  · exact h.configured
  · show (b.uses.set n target).countP Use.hasPermit + available = max.toNat
    unfold Bulkhead.permits at hpermits
    dsimp only at hpermit
    omega
  · show activeCount.toNat = (b.uses.set n target).countP Use.isGuarded
    unfold Bulkhead.guards at hcounted
    dsimp only at hguard
    omega

/-- A new use without a guard. -/
theorem Bulkhead.Accounted.append {max : UInt64} {b : Bulkhead} {use : Use} {available : Nat}
    (h : b.Accounted max) (huse : use.isGuarded = false)
    (hpermits : b.permits + available + (if use.hasPermit then 1 else 0) = max.toNat) :
    Bulkhead.Accounted max { b with available := available, uses := b.uses ++ [use] } where
  configured := h.configured
  permits := by
    show (b.uses ++ [use]).countP Use.hasPermit + available = max.toNat
    unfold Bulkhead.permits at hpermits
    rw [List.countP_append, List.countP_singleton]
    omega
  counted := by
    show b.activeCount.toNat = (b.uses ++ [use]).countP Use.isGuarded
    rw [List.countP_append, List.countP_singleton, huse]
    exact h.counted

/-- A use that has a permit and is not counted leaves room for one more. -/
theorem guards_lt_permits {b : Bulkhead} (huse : Use.permitted ∈ b.uses) :
    b.guards < b.permits := by
  have hperm := List.perm_cons_erase huse
  have hguards : b.guards = (Use.permitted :: b.uses.erase .permitted).countP Use.isGuarded :=
    hperm.countP_eq _
  have hpermits : b.permits = (Use.permitted :: b.uses.erase .permitted).countP Use.hasPermit :=
    hperm.countP_eq _
  have hle := guards_le_permits { b with uses := b.uses.erase .permitted }
  rw [hguards, hpermits, List.countP_cons_of_neg Bool.false_ne_true, List.countP_cons_of_pos rfl]
  exact Nat.lt_succ_of_le hle

theorem Bulkhead.Accounted.toNat_succ {max : UInt64} {b : Bulkhead} (h : b.Accounted max)
    (huse : Use.permitted ∈ b.uses) : (b.activeCount + 1).toNat = b.activeCount.toNat + 1 := by
  have hlt := guards_lt_permits huse
  have hpermits := h.permits
  have hcounted := h.counted
  have hmax := max.toNat_lt
  rw [UInt64.toNat_add]
  show (b.activeCount.toNat + 1) % _ = _
  exact Nat.mod_eq_of_lt (by omega)

/-- A guard that is dropped is counted. -/
theorem Bulkhead.Accounted.activeCount_pos {max : UInt64} {b : Bulkhead} (h : b.Accounted max)
    (huse : Use.guarded ∈ b.uses) : 0 < b.activeCount.toNat := by
  rw [h.counted]
  exact List.countP_pos_iff.mpr ⟨.guarded, huse, rfl⟩

theorem Bulkhead.Accounted.toNat_pred {max : UInt64} {b : Bulkhead} (h : b.Accounted max)
    (huse : Use.guarded ∈ b.uses) : (b.activeCount - 1).toNat + 1 = b.activeCount.toNat := by
  have hpos : 0 < b.activeCount.toNat := h.activeCount_pos huse
  have hone : (1 : UInt64) ≤ b.activeCount := UInt64.le_iff_toNat_le.mpr hpos
  rw [UInt64.toNat_sub_of_le _ _ hone]
  exact Nat.sub_add_cancel hpos

theorem accounted_step {max : UInt64} (b : Bulkhead) (a : BulkheadMove) (b' : Bulkhead)
    (h : b.Accounted max) (hstep : b.step a = some b') : b'.Accounted max := by
  have hpermits := h.permits
  have hcounted := h.counted
  cases a with
  | acquire =>
    cases hstep
    exact h.append rfl hpermits
  | tryAcquire =>
    simp only [Bulkhead.step] at hstep
    split at hstep
    case isTrue hleft =>
      cases hstep
      refine h.append rfl ?_
      show b.permits + (b.available - 1) + 1 = max.toNat
      omega
    case isFalse =>
      cases hstep
      exact h.append rfl hpermits
  | permit n =>
    simp only [Bulkhead.step] at hstep
    split at hstep
    case isTrue hleft =>
      refine h.moved hstep ?_ hcounted
      show b.permits + (b.available - 1) + 1 = max.toNat
      omega
    case isFalse => cases hstep
  | cancel n => exact h.moved hstep hpermits hcounted
  | revoke n =>
    refine h.moved hstep ?_ hcounted
    show b.permits + (b.available + 1) = max.toNat + 1
    omega
  | count n =>
    have huse := List.mem_of_getElem? (moved_eq_some.mp hstep).1
    refine h.moved hstep (congrArg (· + 1) hpermits) ?_
    show (b.activeCount + 1).toNat = b.guards + 1
    rw [h.toNat_succ huse, hcounted]
  | drop n =>
    have huse := List.mem_of_getElem? (moved_eq_some.mp hstep).1
    refine h.moved hstep (congrArg (· + 1) hpermits) ?_
    show (b.activeCount - 1).toNat + 1 = b.guards
    rw [h.toNat_pred huse, hcounted]
  | release n =>
    refine h.moved hstep ?_ hcounted
    show b.permits + (b.available + 1) = max.toNat + 1
    omega

theorem accounted_run {max : UInt64} {moves : List BulkheadMove} {b : Bulkhead}
    (hrun : run Bulkhead.step (.new max) moves = some b) : b.Accounted max :=
  run_invariant accounted_step (accounted_new max) hrun

/-- The guards that are still there, in their `drop` or before it. -/
def Bulkhead.liveGuards (b : Bulkhead) : Nat := b.uses.countP Use.hasGuard

theorem liveGuards_le_permits (b : Bulkhead) : b.liveGuards ≤ b.permits :=
  List.countP_mono_left fun use _ h => by cases use <;> first | rfl | cases h

/-- In every state that an interleaving reaches, the guards keep to the limit,
the counter keeps to the permits that are held, the addition and the
subtraction that can come next do not wrap, and the counter is back at zero
once there is no guard. -/
theorem bulkhead_accounts {maxConcurrent : UInt64} {moves : List BulkheadMove} {b : Bulkhead}
    (hrun : run Bulkhead.step (.new maxConcurrent) moves = some b) :
    b.liveGuards ≤ maxConcurrent.toNat ∧
      b.activeCount.toNat ≤ b.permits ∧
      b.permits ≤ maxConcurrent.toNat ∧
      (Use.permitted ∈ b.uses → (b.activeCount + 1).toNat = b.activeCount.toNat + 1) ∧
      (Use.guarded ∈ b.uses → (b.activeCount - 1).toNat + 1 = b.activeCount.toNat) ∧
      (Use.guarded ∉ b.uses → b.activeCount = 0) := by
  have h := accounted_run hrun
  have hpermits := h.permits
  have hlive := liveGuards_le_permits b
  refine ⟨by omega, ?_, by omega, h.toNat_succ, h.toNat_pred, ?_⟩
  · rw [h.counted]
    exact guards_le_permits b
  · intro hnone
    have hzero : b.guards = 0 := List.countP_eq_zero.mpr fun use huse hguarded => by
      cases use with
      | guarded => exact hnone huse
      | waiting | permitted | dropping | ended => cases hguarded
    exact UInt64.toNat_inj.mp (h.counted.trans hzero)

/-- Two uses with one permit: the second waits, the first is cancelled with
its guard, and its permit goes to the second. -/
def handover : List BulkheadMove :=
  [.tryAcquire, .acquire, .count 0, .tryAcquire, .drop 0, .release 0, .permit 1, .count 1]

theorem bulkhead_accounts_handover :
    ∃ b, run Bulkhead.step (.new 1) handover = some b ∧
      b.uses = [.ended, .guarded, .ended] ∧ b.liveGuards ≤ 1 ∧ b.activeCount.toNat ≤ b.permits :=
  have hrun : run Bulkhead.step (.new 1) handover =
    some ⟨1, 0, 1, [.ended, .guarded, .ended]⟩ := by decide
  have h := bulkhead_accounts hrun
  ⟨_, hrun, rfl, h.1, h.2.1⟩

end MagicLaw.Resilience
