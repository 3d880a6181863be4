import MagicLaw.Runtime.DbPool

/-!
# Waiting for a connection

The condition variable of `DbPool`, of `infrastructure/db.rs`.  The machine of
`MagicLaw.Runtime.DbPool` lets a call that waits go on at any time.  Here it
goes on when `notify_one` has chosen it, or in a spurious wakeup, which `std`
allows but does not promise.

* `run_use`: this machine refines the other one, so what holds in every run of
  that one holds here.
* `notified_run`: where a call waits that was not notified, there are at least as
  many calls on their way to a connection as there are idle ones.
* `calls_end`: without any spurious wakeup, the calls in progress can come to
  their ends, as long as fewer closures have panicked than there are
  connections; and once as many have, a call that has no connection never ends.
-/

namespace MagicLaw.Runtime

open Lib.Machine

/-! ## The condition variable -/

namespace Stage

variable {Connection τ : Type}

def isWaiting : Stage Connection τ → Bool
  | .waiting => true
  | .entering | .testing | .checkingOut | .running _ | .returning _ _ | .checkingIn _ _
  | .leaving _ | .ended _ | .panicked _ => false

def isCheckingIn : Stage Connection τ → Bool
  | .checkingIn _ _ => true
  | .entering | .testing | .waiting | .checkingOut | .running _ | .returning _ _
  | .leaving _ | .ended _ | .panicked _ => false

/-- On its way to take a connection, with the lock. -/
def isTaking : Stage Connection τ → Bool
  | .testing | .checkingOut => true
  | .entering | .waiting | .running _ | .returning _ _ | .checkingIn _ _ | .leaving _ | .ended _
  | .panicked _ => false

/-- Without a connection so far. -/
def awaits : Stage Connection τ → Bool
  | .entering | .testing | .waiting | .checkingOut => true
  | .running _ | .returning _ _ | .checkingIn _ _ | .leaving _ | .ended _ | .panicked _ => false

/-- How far the call is from its end. -/
def rank : Stage Connection τ → Nat
  | .testing => 7
  | .entering | .waiting => 6
  | .checkingOut => 5
  | .running _ => 4
  | .returning _ _ => 3
  | .checkingIn _ _ => 2
  | .leaving _ => 1
  | .ended _ | .panicked _ => 0

end Stage

/-- The pool in use, and the calls that were notified and are still in
`cvar.wait`. -/
structure CondvarUse (Connection τ : Type) where
  use : PoolUse Connection τ
  notified : List Nat
  deriving DecidableEq

inductive CondvarMove (τ : Type) where
  /-- a move that does not concern the condition variable -/
  | plain (move : PoolMove τ)
  /-- `cvar.wait` returns, after a notification -/
  | wake (n : Nat)
  | spurious (n : Nat)
  /-- the connection is put back, and `notify_one` chooses one of those that
  wait, if there are any -/
  | checkIn (n : Nat) (chosen : Option Nat)
  deriving DecidableEq

namespace CondvarMove

variable {τ : Type}

/-- The move of the pool. -/
def toMove : CondvarMove τ → PoolMove τ
  | .plain move => move
  | .wake n | .spurious n | .checkIn n _ => .next n

/-- A call that was made goes on, and neither wakes up for no reason nor has a
closure that panics. -/
def isOrderly : CondvarMove τ → Bool
  | .plain .call | .plain (.finish _ .panicked) | .spurious _ => false
  | .plain (.next _) | .plain (.finish _ (.returned _)) | .wake _ | .checkIn _ _ => true

def isPanic (move : CondvarMove τ) : Bool := move.toMove.isPanic

end CondvarMove

namespace CondvarUse

variable {Connection τ : Type}

def start (pool : DbPool Connection) : CondvarUse Connection τ := ⟨.start pool, []⟩

def atStage (w : CondvarUse Connection τ) (p : Stage Connection τ → Bool) (n : Nat) : Bool :=
  w.use.calls[n]?.any p

/-- The calls that wait and were not notified. -/
def unnotified (w : CondvarUse Connection τ) : List Nat :=
  (List.range w.use.calls.length).filter fun n => w.atStage Stage.isWaiting n && n ∉ w.notified

def allows (w : CondvarUse Connection τ) : CondvarMove τ → Bool
  | .plain (.next n) => !w.atStage Stage.isWaiting n && !w.atStage Stage.isCheckingIn n
  | .plain .call | .plain (.finish _ _) => true
  | .wake n => w.atStage Stage.isWaiting n && n ∈ w.notified
  | .spurious n => w.atStage Stage.isWaiting n
  | .checkIn n (some m) => w.atStage Stage.isCheckingIn n && m ∈ w.unnotified
  | .checkIn n none => w.atStage Stage.isCheckingIn n && w.unnotified.isEmpty

def notifiedAfter (w : CondvarUse Connection τ) : CondvarMove τ → List Nat
  | .plain _ => w.notified
  | .wake n | .spurious n => w.notified.erase n
  | .checkIn _ chosen => chosen.toList ++ w.notified

def step (w : CondvarUse Connection τ) (move : CondvarMove τ) :
    Option (CondvarUse Connection τ) := do
  guard (w.allows move)
  let use ← w.use.step move.toMove
  return ⟨use, w.notifiedAfter move⟩

section Steps

variable {w v : CondvarUse Connection τ} {move : CondvarMove τ} {conns : List Connection}

theorem step_eq_some_iff :
    w.step move = some v ↔ w.allows move = true ∧
      ∃ use, w.use.step move.toMove = some use ∧ v = ⟨use, w.notifiedAfter move⟩ := by
  have hstep : w.step move = if w.allows move then
      (w.use.step move.toMove).map fun use => ⟨use, w.notifiedAfter move⟩ else none := by
    unfold step
    cases w.allows move with
    | true => exact (Option.map_eq_bind ..).symm
    | false => rfl
  rw [hstep, Option.ite_none_right_eq_some, Option.map_eq_some_iff]
  exact and_congr_right fun _ => exists_congr fun use => and_congr_right fun _ => eq_comm

theorem step_use (h : w.step move = some v) : w.use.step move.toMove = some v.use := by
  obtain ⟨-, use, huse, rfl⟩ := step_eq_some_iff.mp h
  exact huse

/-- The pool takes the same moves. -/
theorem run_use {moves : List (CondvarMove τ)} (hrun : run step w moves = some v) :
    run PoolUse.step w.use (moves.map CondvarMove.toMove) = some v.use := by
  induction moves generalizing w with
  | nil =>
    cases hrun
    rfl
  | cons move moves ih =>
    obtain ⟨t, ht, hrun⟩ := run_cons_eq_some.mp hrun
    exact run_cons_eq_some.mpr ⟨t.use, step_use ht, ih hrun⟩

theorem atStage_eq_true_iff {p : Stage Connection τ → Bool} {n : Nat} :
    w.atStage p n = true ↔ ∃ stage, w.use.calls[n]? = some stage ∧ p stage = true := by
  unfold atStage
  cases w.use.calls[n]? with
  | none => simp
  | some stage => simp

theorem isWaiting_iff {stage : Stage Connection τ} : stage.isWaiting = true ↔ stage = .waiting := by
  cases stage <;> simp [Stage.isWaiting]

theorem atStage_isWaiting {n : Nat} :
    w.atStage Stage.isWaiting n = true ↔ w.use.calls[n]? = some .waiting := by
  simp [atStage_eq_true_iff, isWaiting_iff]

theorem mem_unnotified {n : Nat} :
    n ∈ w.unnotified ↔ w.use.calls[n]? = some .waiting ∧ n ∉ w.notified := by
  unfold unnotified
  rw [List.mem_filter, List.mem_range, Bool.and_eq_true, atStage_isWaiting, decide_eq_true_iff]
  constructor
  · exact fun h => h.2
  · exact fun h => ⟨(List.getElem?_eq_some_iff.mp h.1).1, h⟩

/-! ## No notification is lost -/

/-- Where a call waits that was not notified, others are on their way to the idle
connections. -/
structure Notified (w : CondvarUse Connection τ) : Prop where
  nodup : w.notified.Nodup
  waiting : ∀ n ∈ w.notified, w.use.calls[n]? = some .waiting
  enough : ∀ n ∈ w.unnotified,
    w.use.pool.connections.length ≤ w.notified.length + w.use.calls.countP Stage.isTaking

/-- The move neither leaves a call waiting nor adds an idle connection, or it
leaves none. -/
def Keeps (stage target : Stage Connection τ) (before after : List Connection) : Prop :=
  after = [] ∨ target ≠ .waiting ∧ after.length + (if stage.isTaking then 1 else 0) ≤
    before.length + (if target.isTaking then 1 else 0)

section Moved

variable {n : Nat} {stage target : Stage Connection τ} {connections : List Connection}

theorem keeps_next {unlocked : Bool} {before after : List Connection}
    (hwaiting : stage.isWaiting = false) (hcheckingIn : stage.isCheckingIn = false)
    (h : stage.next unlocked before = some (target, after)) : Keeps stage target before after := by
  cases stage with
  | entering =>
    obtain ⟨-, ⟨⟩⟩ := Option.ite_none_right_eq_some.mp h
    exact .inr ⟨nofun, Nat.le_succ _⟩
  | testing =>
    obtain ⟨htarget, rfl⟩ := Prod.mk.inj (Option.some.inj h)
    by_cases hempty : before.isEmpty = true
    · exact .inl (List.isEmpty_iff.mp hempty)
    · obtain rfl : .checkingOut = target := by rw [← htarget, if_neg hempty]
      exact .inr ⟨nofun, Nat.le_refl _⟩
  | checkingOut =>
    cases before with
    | nil =>
      cases h
      exact .inl rfl
    | cons conn rest =>
      cases h
      exact .inr ⟨nofun, Nat.le_refl _⟩
  | returning conn result =>
    obtain ⟨-, ⟨⟩⟩ := Option.ite_none_right_eq_some.mp h
    exact .inr ⟨nofun, Nat.le_refl _⟩
  | leaving result =>
    cases h
    exact .inr ⟨nofun, Nat.le_refl _⟩
  | waiting => cases hwaiting
  | checkingIn _ _ => cases hcheckingIn
  | running _ | ended _ | panicked _ => cases h

theorem keeps_finish {conn : Connection} (htarget : target.awaits = false) :
    Keeps (.running conn) target connections connections := by
  refine .inr ⟨?_, Nat.add_le_add_left (Nat.zero_le _) _⟩
  rintro rfl
  cases htarget

theorem calls_moved_ne {m : Nat} (hne : n ≠ m) :
    (w.use.moved n target connections).calls[m]? = w.use.calls[m]? :=
  List.getElem?_set_ne hne

/-- Where the call that moves does not wait, those that wait have waited. -/
theorem waiting_of_moved {m : Nat} (hn : w.use.calls[n]? = some stage) (htarget : target ≠ .waiting)
    (hm : (w.use.moved n target connections).calls[m]? = some .waiting) :
    n ≠ m ∧ w.use.calls[m]? = some .waiting := by
  have hne : n ≠ m := by
    rintro rfl
    have hset : (w.use.moved n target connections).calls[n]? = some target :=
      List.getElem?_set_self (List.getElem?_eq_some_iff.mp hn).1
    exact htarget (Option.some.inj (hset.symm.trans hm))
  exact ⟨hne, (calls_moved_ne hne).symm.trans hm⟩

theorem Notified.moved (h : w.Notified) (hn : w.use.calls[n]? = some stage)
    (hstage : stage.isWaiting = false)
    (hkeeps : Keeps stage target w.use.pool.connections connections) :
    Notified ⟨w.use.moved n target connections, w.notified⟩ where
  nodup := h.nodup
  waiting := by
    intro m hm
    have hwaiting := h.waiting m hm
    have hne : n ≠ m := by
      rintro rfl
      rw [hn] at hwaiting
      rw [Option.some.inj hwaiting] at hstage
      cases hstage
    exact (calls_moved_ne hne).trans hwaiting
  enough := by
    intro m hm
    obtain ⟨hwaiting, hm⟩ := mem_unnotified.mp hm
    rcases hkeeps with rfl | ⟨htarget, htaking⟩
    · exact Nat.zero_le _
    · have henough := h.enough m (mem_unnotified.mpr ⟨(waiting_of_moved hn htarget hwaiting).2, hm⟩)
      have hcount := countP_set_add Stage.isTaking hn target
      show connections.length ≤ w.notified.length + (w.use.calls.set n target).countP Stage.isTaking
      omega

end Moved

theorem Notified.call (h : w.Notified) :
    Notified ⟨{ w.use with calls := w.use.calls ++ [.entering] }, w.notified⟩ where
  nodup := h.nodup
  waiting m hm := by
    have hwaiting := h.waiting m hm
    rw [List.getElem?_append_left (List.getElem?_eq_some_iff.mp hwaiting).1]
    exact hwaiting
  enough := by
    intro m hm
    obtain ⟨hwaiting, hm⟩ := mem_unnotified.mp hm
    have hold : w.use.calls[m]? = some .waiting := by
      rcases Nat.lt_or_ge m w.use.calls.length with hlt | hge
      · exact (List.getElem?_append_left hlt).symm.trans hwaiting
      · have hnew := (List.getElem?_append_right hge).symm.trans hwaiting
        cases List.mem_singleton.mp (List.mem_of_getElem? hnew)
    have henough := h.enough m (mem_unnotified.mpr ⟨hold, hm⟩)
    show w.use.pool.connections.length ≤
      w.notified.length + (w.use.calls ++ [Stage.entering]).countP Stage.isTaking
    rw [List.countP_append]
    omega

/-- A call that wakes up is on its way to a connection. -/
theorem Notified.wake {n : Nat} (h : w.Notified) (hn : w.use.calls[n]? = some .waiting) :
    Notified ⟨w.use.moved n .testing w.use.pool.connections, w.notified.erase n⟩ where
  nodup := h.nodup.erase n
  waiting := by
    intro m hm
    obtain ⟨hne, hm⟩ := h.nodup.mem_erase_iff.mp hm
    exact (calls_moved_ne hne.symm).trans (h.waiting m hm)
  enough := by
    intro m hm
    obtain ⟨hwaiting, hm⟩ := mem_unnotified.mp hm
    obtain ⟨hne, hwaiting⟩ := waiting_of_moved hn (by simp) hwaiting
    have hm' : m ∉ w.notified := fun hmem => hm (h.nodup.mem_erase_iff.mpr ⟨hne.symm, hmem⟩)
    have henough := h.enough m (mem_unnotified.mpr ⟨hwaiting, hm'⟩)
    have hcount : (w.use.calls.set n .testing).countP Stage.isTaking + 0 =
        w.use.calls.countP Stage.isTaking + 1 := countP_set_add Stage.isTaking hn .testing
    have hlength : w.notified.length ≤ (w.notified.erase n).length + 1 := by
      rw [List.length_erase]
      split <;> omega
    show w.use.pool.connections.length ≤
      (w.notified.erase n).length + (w.use.calls.set n .testing).countP Stage.isTaking
    omega

/-- A connection is put back, and a call that waits is notified, if there is
one. -/
theorem Notified.checkIn {n : Nat} {conn : Connection} {result : Except SqlError τ}
    {chosen : Option Nat} (h : w.Notified) (hn : w.use.calls[n]? = some (.checkingIn conn result))
    (hchosen : ∀ m, chosen = some m → m ∈ w.unnotified)
    (hnone : chosen = none → w.unnotified = []) :
    Notified ⟨w.use.moved n (.leaving result) (w.use.pool.connections ++ [conn]),
      chosen.toList ++ w.notified⟩ := by
  have hkept : ∀ m : Nat, w.use.calls[m]? = some Stage.waiting →
      (w.use.moved n (.leaving result) (w.use.pool.connections ++ [conn])).calls[m]? =
        some Stage.waiting := by
    intro m hm
    have hne : n ≠ m := by
      rintro rfl
      cases hn.symm.trans hm
    exact (calls_moved_ne hne).trans hm
  have hcount : (w.use.calls.set n (.leaving result)).countP Stage.isTaking + 0 =
      w.use.calls.countP Stage.isTaking + 0 := countP_set_add Stage.isTaking hn (.leaving result)
  cases chosen with
  | none =>
    refine ⟨h.nodup, fun m hm => hkept m (h.waiting m hm), fun m hm => ?_⟩
    obtain ⟨hwaiting, hm⟩ := mem_unnotified.mp hm
    have hold := mem_unnotified.mpr ⟨(waiting_of_moved hn (by simp) hwaiting).2, hm⟩
    rw [hnone rfl] at hold
    cases hold
  | some next =>
    have hnext := hchosen next rfl
    obtain ⟨hwaits, hfresh⟩ := mem_unnotified.mp hnext
    refine ⟨List.nodup_cons.mpr ⟨hfresh, h.nodup⟩, fun m hm => ?_, fun m _ => ?_⟩
    · rcases List.mem_cons.mp hm with rfl | hm
      · exact hkept m hwaits
      · exact hkept m (h.waiting m hm)
    · have henough := h.enough next hnext
      show (w.use.pool.connections ++ [conn]).length ≤
        (next :: w.notified).length + (w.use.calls.set n (.leaving result)).countP Stage.isTaking
      rw [List.length_append, List.length_singleton, List.length_cons]
      omega

theorem next_cases {u use : PoolUse Connection τ} {n : Nat} (h : u.step (.next n) = some use) :
    ∃ stage target connections, u.calls[n]? = some stage ∧
      stage.next u.unlocked u.pool.connections = some (target, connections) ∧
      use = u.moved n target connections := by
  obtain ⟨stage, hn, h⟩ := Option.bind_eq_some_iff.mp h
  obtain ⟨⟨target, connections⟩, hnext, h⟩ := Option.bind_eq_some_iff.mp h
  exact ⟨stage, target, connections, hn, hnext, (Option.some.inj h).symm⟩

theorem finish_cases {u use : PoolUse Connection τ} {n : Nat} {ending : Ending τ}
    (h : u.step (.finish n ending) = some use) :
    ∃ conn target, u.calls[n]? = some (.running conn) ∧ target.awaits = false ∧
      use = u.moved n target u.pool.connections := by
  obtain ⟨stage, hn, hstage⟩ := Option.bind_eq_some_iff.mp h
  obtain ⟨target, hfinish, huse⟩ := Option.bind_eq_some_iff.mp hstage
  cases stage with
  | running conn =>
    refine ⟨conn, target, hn, ?_, (Option.some.inj huse).symm⟩
    cases ending with
    | returned result =>
      cases hfinish
      rfl
    | panicked =>
      cases hfinish
      rfl
  | entering | testing | waiting | checkingOut | returning _ _ | checkingIn _ _ | leaving _
  | ended _ | panicked _ => cases hfinish

theorem next_of_waiting {u use : PoolUse Connection τ} {n : Nat}
    (h : u.step (.next n) = some use) (hn : u.calls[n]? = some .waiting) :
    use = u.moved n .testing u.pool.connections := by
  obtain ⟨stage, target, connections, hstage, hnext, rfl⟩ := next_cases h
  cases hn.symm.trans hstage
  obtain ⟨-, ⟨⟩⟩ := Option.ite_none_right_eq_some.mp hnext
  rfl

theorem notified_step (h : w.Notified) (hstep : w.step move = some v) : v.Notified := by
  obtain ⟨hallows, use, huse, rfl⟩ := step_eq_some_iff.mp hstep
  cases move with
  | plain move =>
    cases move with
    | call =>
      cases huse
      exact h.call
    | next n =>
      obtain ⟨stage, target, connections, hn, hnext, rfl⟩ := next_cases huse
      obtain ⟨hwaiting, hcheckingIn⟩ : stage.isWaiting = false ∧ stage.isCheckingIn = false := by
        simpa [allows, atStage, hn] using hallows
      exact h.moved hn hwaiting (keeps_next hwaiting hcheckingIn hnext)
    | finish n ending =>
      obtain ⟨conn, target, hn, htarget, rfl⟩ := finish_cases huse
      exact h.moved hn rfl (keeps_finish htarget)
  | wake n =>
    have hn := atStage_isWaiting.mp (Bool.and_eq_true_iff.mp hallows).1
    obtain rfl := next_of_waiting huse hn
    exact h.wake hn
  | spurious n =>
    have hn := atStage_isWaiting.mp hallows
    obtain rfl := next_of_waiting huse hn
    exact h.wake hn
  | checkIn n chosen =>
    obtain ⟨stage, target, connections, hn, hnext, rfl⟩ := next_cases huse
    obtain ⟨hstage, hchosen, hnone⟩ : stage.isCheckingIn = true ∧
        (∀ m, chosen = some m → m ∈ w.unnotified) ∧ (chosen = none → w.unnotified = []) := by
      cases chosen with
      | none => simpa [allows, atStage, hn] using hallows
      | some m => simpa [allows, atStage, hn] using hallows
    cases stage with
    | checkingIn conn result =>
      cases hnext
      exact h.checkIn hn hchosen hnone
    | entering | testing | waiting | checkingOut | running _ | returning _ _ | leaving _ | ended _
    | panicked _ => cases hstage

theorem notified_start (pool : DbPool Connection) :
    (start pool : CondvarUse Connection τ).Notified where
  nodup := List.nodup_nil
  waiting _ hn := absurd hn List.not_mem_nil
  enough _ hn := absurd hn List.not_mem_nil

theorem notified_run {pool : DbPool Connection} {moves : List (CondvarMove τ)}
    (hrun : run step (start pool) moves = some w) : w.Notified :=
  run_invariant (fun _ _ _ => notified_step) (notified_start pool) hrun

/-! ## The calls come to their ends -/

/-- Some connection is left, or no call needs one. -/
structure Serving (conns : List Connection) (w : CondvarUse Connection τ) : Prop where
  sound : w.use.Sound conns
  notified : w.Notified
  spare : w.use.lost.length < conns.length ∨ ∀ stage ∈ w.use.calls, stage.awaits = false

theorem awaits_next {stage target : Stage Connection τ} {unlocked : Bool}
    {before after : List Connection} (h : stage.next unlocked before = some (target, after))
    (hstage : stage.awaits = false) : target.awaits = false := by
  cases stage with
  | returning conn result =>
    obtain ⟨-, ⟨⟩⟩ := Option.ite_none_right_eq_some.mp h
    rfl
  | checkingIn conn result =>
    cases h
    rfl
  | leaving result =>
    cases h
    rfl
  | entering | testing | waiting | checkingOut => cases hstage
  | running _ | ended _ | panicked _ => cases h

theorem awaits_step {u use : PoolUse Connection τ} {move : PoolMove τ} (hmove : move ≠ .call)
    (h : u.step move = some use) (hcalls : ∀ stage ∈ u.calls, stage.awaits = false) :
    ∀ stage ∈ use.calls, stage.awaits = false := by
  cases move with
  | call => exact absurd rfl hmove
  | next n =>
    obtain ⟨stage, target, connections, hn, hnext, rfl⟩ := next_cases h
    exact forall_mem_set hcalls (awaits_next hnext (hcalls stage (List.mem_of_getElem? hn)))
  | finish n ending =>
    obtain ⟨conn, target, hn, htarget, rfl⟩ := finish_cases h
    exact forall_mem_set hcalls htarget

theorem serving_step (h : w.Serving conns) (hmove : move.isOrderly = true)
    (hstep : w.step move = some v) : v.Serving conns where
  sound := PoolUse.sound_step h.sound (step_use hstep)
  notified := notified_step h.notified hstep
  spare := by
    obtain ⟨hcall, hpanic⟩ : move.toMove ≠ .call ∧ move.toMove.isPanic = false := by
      cases move with
      | plain move =>
        cases move with
        | call => cases hmove
        | next n => exact ⟨by simp [CondvarMove.toMove], rfl⟩
        | finish n ending =>
          cases ending with
          | returned result => exact ⟨by simp [CondvarMove.toMove], rfl⟩
          | panicked => cases hmove
      | wake n | spurious n | checkIn n chosen => exact ⟨by simp [CondvarMove.toMove], rfl⟩
    rcases h.spare with hless | hcalls
    · left
      rw [PoolUse.lost_step (step_use hstep), hpanic]
      exact hless
    · exact .inr (awaits_step hcall (step_use hstep) hcalls)

/-- What is left to do. -/
def work (w : CondvarUse Connection τ) : Nat := (w.use.calls.map Stage.rank).sum

/-- Some orderly moves leave less to do. -/
def GoesOn (w : CondvarUse Connection τ) : Prop :=
  ∃ moves v, (∀ move ∈ moves, CondvarMove.isOrderly move = true) ∧ run step w moves = some v ∧
    v.work < w.work

theorem goesOn_of_step (hmove : move.isOrderly = true) (hstep : w.step move = some v)
    (hless : v.work < w.work) : w.GoesOn :=
  ⟨[move], v, by simpa using hmove, run_cons_eq_some.mpr ⟨v, hstep, rfl⟩, hless⟩

section Descent

variable {n : Nat} {stage target : Stage Connection τ} {connections : List Connection}
  {notified : List Nat}

theorem work_moved (hn : w.use.calls[n]? = some stage) :
    work ⟨w.use.moved n target connections, notified⟩ + stage.rank = w.work + target.rank :=
  sum_map_set_add Stage.rank hn target

theorem work_lt_of_rank_lt (hn : w.use.calls[n]? = some stage) (hrank : target.rank < stage.rank) :
    work ⟨w.use.moved n target connections, notified⟩ < w.work := by
  have hwork : work ⟨w.use.moved n target connections, notified⟩ + stage.rank =
      w.work + target.rank := work_moved hn
  omega

theorem step_next (hn : w.use.calls[n]? = some stage) (hwaiting : stage.isWaiting = false)
    (hcheckingIn : stage.isCheckingIn = false)
    (hnext : stage.next w.use.unlocked w.use.pool.connections = some (target, connections)) :
    w.step (.plain (.next n)) = some ⟨w.use.moved n target connections, w.notified⟩ := by
  refine step_eq_some_iff.mpr ⟨?_, w.use.moved n target connections, ?_, rfl⟩
  · simp [allows, atStage, hn, hwaiting, hcheckingIn]
  · simp [CondvarMove.toMove, PoolUse.step, hn, hnext]

theorem step_wake (hn : w.use.calls[n]? = some .waiting) (hnotified : n ∈ w.notified)
    (hunlocked : w.use.unlocked = true) :
    w.step (.wake n) =
      some ⟨w.use.moved n .testing w.use.pool.connections, w.notified.erase n⟩ := by
  refine step_eq_some_iff.mpr ⟨?_, w.use.moved n .testing w.use.pool.connections, ?_, rfl⟩
  · simp [allows, atStage, hn, hnotified, Stage.isWaiting]
  · simp [CondvarMove.toMove, PoolUse.step, hn, Stage.next, hunlocked]

theorem step_checkIn {conn : Connection} {result : Except SqlError τ}
    (hn : w.use.calls[n]? = some (.checkingIn conn result)) :
    w.step (.checkIn n w.unnotified.head?) =
      some ⟨w.use.moved n (.leaving result) (w.use.pool.connections ++ [conn]),
        w.unnotified.head?.toList ++ w.notified⟩ := by
  refine step_eq_some_iff.mpr
    ⟨?_, w.use.moved n (.leaving result) (w.use.pool.connections ++ [conn]), ?_, rfl⟩
  · cases hhead : w.unnotified with
    | nil => simp [allows, atStage, hn, Stage.isCheckingIn, hhead]
    | cons m rest => simp [allows, atStage, hn, Stage.isCheckingIn, hhead]
  · simp [CondvarMove.toMove, PoolUse.step, hn, Stage.next]

/-- A call that has the lock goes on. -/
theorem locked_goes_on (h : w.Serving conns) (hn : w.use.calls[n]? = some stage)
    (hlock : stage.hasLock = true) : w.GoesOn := by
  cases stage with
  | testing =>
    refine goesOn_of_step rfl (step_next hn rfl rfl rfl) (work_lt_of_rank_lt hn ?_)
    split
    · exact Nat.lt_add_one 6
    · show 5 < 7
      decide
  | checkingOut =>
    obtain ⟨conn, rest, hidle⟩ :=
      List.exists_cons_of_ne_nil (h.sound.found (List.mem_of_getElem? hn))
    have hnext : (Stage.checkingOut : Stage Connection τ).next w.use.unlocked
        w.use.pool.connections = some (.running conn, rest) := by
      rw [hidle]
      rfl
    exact goesOn_of_step rfl (step_next hn rfl rfl hnext)
      (work_lt_of_rank_lt hn (Nat.lt_add_one _))
  | checkingIn conn result =>
    exact goesOn_of_step rfl (step_checkIn hn) (work_lt_of_rank_lt hn (Nat.lt_add_one _))
  | leaving result =>
    exact goesOn_of_step rfl (step_next hn rfl rfl rfl) (work_lt_of_rank_lt hn (Nat.lt_add_one _))
  | entering | waiting | running _ | returning _ _ | ended _ | panicked _ => cases hlock

/-- While nobody has the lock, a call that has a connection goes on. -/
theorem holding_goes_on {conn : Connection} (hunlocked : w.use.unlocked = true)
    (hn : w.use.calls[n]? = some stage) (hconn : stage.conn? = some conn)
    (hlock : stage.hasLock = false) : w.GoesOn := by
  cases stage with
  | running conn =>
    have hstep : w.step (.plain (.finish n (.returned (.error ⟨""⟩)))) =
        some ⟨w.use.moved n (.returning conn (.error ⟨""⟩)) w.use.pool.connections,
          w.notified⟩ := by
      refine step_eq_some_iff.mpr ⟨rfl, _, ?_, rfl⟩
      simp [CondvarMove.toMove, PoolUse.step, hn, Stage.finish]
    exact goesOn_of_step rfl hstep (work_lt_of_rank_lt hn (Nat.lt_add_one _))
  | returning conn result =>
    exact goesOn_of_step rfl (step_next hn rfl rfl (if_pos hunlocked))
      (work_lt_of_rank_lt hn (Nat.lt_add_one _))
  | checkingIn _ _ => cases hlock
  | entering | testing | waiting | checkingOut | leaving _ | ended _ | panicked _ => cases hconn

/-- Where a connection is idle, a call that comes to the test takes it next. -/
theorem testing_goes_on {move : CondvarMove τ} (hn : w.use.calls[n]? = some stage)
    (hrank : stage.rank = 6) (hidle : w.use.pool.connections ≠ []) (hmove : move.isOrderly = true)
    (hfirst : w.step move = some ⟨w.use.moved n .testing w.use.pool.connections, notified⟩) :
    w.GoesOn := by
  have htesting : (w.use.moved n .testing w.use.pool.connections).calls[n]? = some .testing :=
    List.getElem?_set_self (List.getElem?_eq_some_iff.mp hn).1
  have hempty : ¬ w.use.pool.connections.isEmpty = true := by simpa using hidle
  have hsecond : step ⟨w.use.moved n .testing w.use.pool.connections, notified⟩ (.plain (.next n)) =
      some ⟨(w.use.moved n .testing w.use.pool.connections).moved n .checkingOut
        w.use.pool.connections, notified⟩ :=
    step_next htesting rfl rfl (congrArg (fun target => some (target, _)) (if_neg hempty))
  refine ⟨[move, .plain (.next n)], _,
    List.forall_mem_cons.mpr ⟨hmove, List.forall_mem_singleton.mpr rfl⟩,
    run_cons_eq_some.mpr ⟨_, hfirst, run_cons_eq_some.mpr ⟨_, hsecond, rfl⟩⟩, ?_⟩
  -- one move up, and two down
  have hup : work ⟨w.use.moved n .testing w.use.pool.connections, notified⟩ + stage.rank =
      w.work + 7 := work_moved hn
  have hdown : work ⟨(w.use.moved n .testing w.use.pool.connections).moved n .checkingOut
      w.use.pool.connections, notified⟩ + 7 =
        work ⟨w.use.moved n .testing w.use.pool.connections, notified⟩ + 5 :=
    work_moved (w := ⟨w.use.moved n .testing w.use.pool.connections, notified⟩) htesting
  omega

end Descent

/-- While nobody has the lock or a connection, one of those that wait goes on. -/
theorem waiting_goes_on (h : w.Serving conns) (hunlocked : w.use.unlocked = true)
    (hheld : w.use.held = []) (hover : ¬ ∀ stage ∈ w.use.calls, stage.isOver = true) :
    w.GoesOn := by
  have hlocks : ∀ stage ∈ w.use.calls, ¬ stage.hasLock = true :=
    List.countP_eq_zero.mp (PoolUse.unlocked_iff.mp hunlocked)
  obtain ⟨stage, hmem, hstage⟩ : ∃ stage ∈ w.use.calls, stage.isOver = false := by
    simpa using hover
  obtain ⟨n, hn⟩ := List.getElem?_of_mem hmem
  have hconn : stage.conn? = none := List.filterMap_eq_nil_iff.mp hheld stage hmem
  have hentry : stage = .entering ∨ stage = .waiting := by
    have hlock := hlocks stage hmem
    cases stage with
    | entering => exact .inl rfl
    | waiting => exact .inr rfl
    | testing | checkingOut | leaving _ => exact absurd rfl hlock
    | running _ | returning _ _ | checkingIn _ _ => cases hconn
    | ended _ | panicked _ => cases hstage
  have hidle : w.use.pool.connections ≠ [] := by
    rcases h.spare with hless | hcalls
    · have haccounts := h.sound.accounts
      rw [hheld, h.sound.capacity, List.length_nil] at haccounts
      exact List.ne_nil_of_length_pos (by omega)
    · have hawaits := hcalls stage hmem
      rcases hentry with rfl | rfl
      · cases hawaits
      · cases hawaits
  have hgoes : ∀ m, w.use.calls[m]? = some .waiting → m ∈ w.notified → w.GoesOn :=
    fun m hm hnotified => testing_goes_on hm rfl hidle rfl (step_wake hm hnotified hunlocked)
  rcases hentry with rfl | rfl
  · exact testing_goes_on hn rfl hidle rfl (step_next hn rfl rfl (if_pos hunlocked))
  · by_cases hnotified : n ∈ w.notified
    · exact hgoes n hn hnotified
    · -- The idle connection is for one that was notified.
      have henough := h.notified.enough n (mem_unnotified.mpr ⟨hn, hnotified⟩)
      have htaking : w.use.calls.countP Stage.isTaking = 0 := by
        refine List.countP_eq_zero.mpr fun stage hmem htaking => hlocks stage hmem ?_
        cases stage with
        | testing | checkingOut => rfl
        | entering | waiting | running _ | returning _ _ | checkingIn _ _ | leaving _ | ended _
        | panicked _ => cases htaking
      have hpos := List.length_pos_of_ne_nil hidle
      obtain ⟨m, hm⟩ := List.exists_mem_of_length_pos (l := w.notified) (by omega)
      exact hgoes m (h.notified.waiting m hm) hm

theorem goes_on (h : w.Serving conns) (hover : ¬ ∀ stage ∈ w.use.calls, stage.isOver = true) :
    w.GoesOn := by
  by_cases hlock : ∃ stage ∈ w.use.calls, stage.hasLock = true
  · obtain ⟨stage, hmem, hlock⟩ := hlock
    obtain ⟨n, hn⟩ := List.getElem?_of_mem hmem
    exact locked_goes_on h hn hlock
  have hunlocked : w.use.unlocked = true := by
    simpa [PoolUse.unlocked] using hlock
  cases hheld : w.use.held with
  | nil => exact waiting_goes_on h hunlocked hheld hover
  | cons conn rest =>
    have hconn : conn ∈ w.use.held := hheld ▸ List.mem_cons_self
    obtain ⟨stage, hmem, hstage⟩ := List.mem_filterMap.mp hconn
    obtain ⟨n, hn⟩ := List.getElem?_of_mem hmem
    have hfree : stage.hasLock = false :=
      Bool.eq_false_iff.mpr fun hstage' => hlock ⟨stage, hmem, hstage'⟩
    exact holding_goes_on hunlocked hn hstage hfree

theorem serving_run {moves : List (CondvarMove τ)} (h : w.Serving conns)
    (horderly : ∀ move ∈ moves, CondvarMove.isOrderly move = true)
    (hrun : run step w moves = some v) : v.Serving conns :=
  run_invariant_of_everyStep (fun _ _ _ h hmove hstep => serving_step h hmove hstep) h
    ((everyStep_iff_forall_mem hrun).mpr horderly) hrun

/-! ## A call without a connection -/

theorem awaits_next_of_empty {stage target : Stage Connection τ} {unlocked : Bool}
    {after : List Connection} (h : stage.next unlocked [] = some (target, after))
    (hstage : stage.awaits = true) (hout : stage ≠ .checkingOut) : target.awaits = true := by
  cases stage with
  | entering | waiting =>
    obtain ⟨-, ⟨⟩⟩ := Option.ite_none_right_eq_some.mp h
    rfl
  | testing =>
    cases h
    rfl
  | checkingOut => exact absurd rfl hout
  | running _ | returning _ _ | checkingIn _ _ | leaving _ | ended _ | panicked _ => cases hstage

/-- Every connection is lost, and the call has none. -/
structure Stuck (conns : List Connection) (n : Nat) (u : PoolUse Connection τ) : Prop where
  sound : u.Sound conns
  lost : conns.length ≤ u.lost.length
  awaits : ∃ stage, u.calls[n]? = some stage ∧ stage.awaits = true

/-- The call gets no connection. -/
theorem Stuck.awaits_step {u use : PoolUse Connection τ} {move : PoolMove τ} {n : Nat}
    (hstuck : Stuck conns n u) (h : u.step move = some use) :
    ∃ stage, use.calls[n]? = some stage ∧ stage.awaits = true := by
  have hempty : u.pool.connections = [] := by
    have haccounts := hstuck.sound.accounts
    have hlost := hstuck.lost
    rw [hstuck.sound.capacity] at haccounts
    exact List.eq_nil_of_length_eq_zero (by omega)
  obtain ⟨stage, hn, hstage⟩ := hstuck.awaits
  have hlt := (List.getElem?_eq_some_iff.mp hn).1
  cases move with
  | call =>
    cases h
    exact ⟨stage, (List.getElem?_append_left hlt).trans hn, hstage⟩
  | next m =>
    obtain ⟨other, target, connections, hm, hnext, rfl⟩ := next_cases h
    by_cases hne : m = n
    · subst hne
      cases hn.symm.trans hm
      rw [hempty] at hnext
      refine ⟨target, List.getElem?_set_self hlt, awaits_next_of_empty hnext hstage ?_⟩
      rintro rfl
      exact hstuck.sound.found (List.mem_of_getElem? hn) hempty
    · exact ⟨stage, (List.getElem?_set_ne hne).trans hn, hstage⟩
  | finish m ending =>
    obtain ⟨conn, target, hm, -, rfl⟩ := finish_cases h
    have hne : m ≠ n := by
      rintro rfl
      cases hn.symm.trans hm
      cases hstage
    exact ⟨stage, (List.getElem?_set_ne hne).trans hn, hstage⟩

theorem stuck_step {u use : PoolUse Connection τ} {move : PoolMove τ} {n : Nat}
    (hstuck : Stuck conns n u) (h : u.step move = some use) : Stuck conns n use where
  sound := PoolUse.sound_step hstuck.sound h
  lost := by
    rw [PoolUse.lost_step h]
    exact Nat.le_add_right_of_le hstuck.lost
  awaits := hstuck.awaits_step h

/-! ## The result -/

/-- As long as fewer closures have panicked than there are connections, or no call
is without one, the calls in progress can all come to their ends, with no
spurious wakeup and no call after them.  Once as many have panicked, a call that
has no connection then never ends. -/
theorem calls_end {moves : List (CondvarMove τ)}
    (hrun : run step (start (.withCapacity conns conns.length)) moves = some w) :
    (moves.countP CondvarMove.isPanic < conns.length ∨
        (∀ stage ∈ w.use.calls, stage.awaits = false) →
      ∃ more v, (∀ move ∈ more, CondvarMove.isOrderly move = true) ∧ run step w more = some v ∧
        ∀ stage ∈ v.use.calls, stage.isOver = true) ∧
    (conns.length ≤ moves.countP CondvarMove.isPanic →
      ∀ (n : Nat) (stage : Stage Connection τ), w.use.calls[n]? = some stage → stage.awaits = true →
        ∀ more v, run step w more = some v →
          ∃ target : Stage Connection τ, v.use.calls[n]? = some target ∧ target.awaits = true) := by
  have huse := run_use hrun
  have hsound : w.use.Sound conns := PoolUse.sound_run huse (PoolUse.sound_start conns)
  have hlost : w.use.lost.length = moves.countP CondvarMove.isPanic := by
    rw [PoolUse.lost_run huse, List.countP_map]
    exact Nat.zero_add _
  constructor
  · intro hspare
    have hserving : w.Serving conns := ⟨hsound, notified_run hrun, by rwa [hlost]⟩
    obtain ⟨more, v, horderly, hmore, -, hover⟩ :=
      exists_run_of_descent work (fun w hw hover => by
        obtain ⟨moves, t, horderly, hmoves, hless⟩ := goes_on hw hover
        exact ⟨moves, t, horderly, hmoves, serving_run hw horderly hmoves, hless⟩) hserving
    exact ⟨more, v, horderly, hmore, hover⟩
  · intro hpanics n stage hn hstage more v hmore
    have hstuck : Stuck conns n w.use := ⟨hsound, hlost ▸ hpanics, stage, hn, hstage⟩
    exact (run_invariant (fun _ _ _ => stuck_step) hstuck (run_use hmore)).awaits

end Steps

/-- The second of two calls finds no connection, and waits. -/
def secondWaits : List (CondvarMove Nat) :=
  [.plain .call, .plain .call, .plain (.next 0), .plain (.next 0), .plain (.next 0),
    .plain (.next 1), .plain (.next 1)]

theorem calls_end_secondWaits :
    ∃ w : CondvarUse Nat Nat, run step (start (.withCapacity [0] [0].length)) secondWaits = some w ∧
      w.use.calls = [.running 0, .waiting] ∧ w.notified = [] ∧
      ∃ more v, (∀ move ∈ more, CondvarMove.isOrderly move = true) ∧ run step w more = some v ∧
        ∀ stage ∈ v.use.calls, stage.isOver = true := by
  obtain ⟨w, hrun, hcalls, hnotified⟩ : ∃ w : CondvarUse Nat Nat,
      run step (start (.withCapacity [0] [0].length)) secondWaits = some w ∧
        w.use.calls = [.running 0, .waiting] ∧ w.notified = [] := ⟨_, rfl, rfl, rfl⟩
  exact ⟨w, hrun, hcalls, hnotified, (calls_end hrun).1 (.inl (by decide))⟩

end CondvarUse

end MagicLaw.Runtime
