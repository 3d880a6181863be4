import MagicLaw.Lib.Isolation

/-!
# Slots under a joined key

Calls come for pairs, and what a call puts in its slot is read by the next
call.  The slots are kept under a key that is made of the pair, so calls for
different pairs may share one.

`out` is what a call yields after others, where the slots are as those left
them.  The calls for a pair yield what they would yield without all others,
for every pair, exactly when every call finds in its slot what the pair itself
would have left there, as far as the result goes (`unaffected_iff`).  Where
the result is only whether the slot is empty, this is so exactly when no two
pairs of the calls share a slot (`undisturbed_isNone_iff`).
-/

namespace Lib.JoinedKeys

open Lib.Machine Lib.Isolation

/-- The pair of a call, the key that is made of it, and what the call puts in
its slot and makes of what it finds there. -/
structure Slots (γ π κ β ο : Type) where
  pair : γ → π
  join : π → κ
  value : γ → β
  result : γ → Option β → ο

variable {γ π κ β ο σ : Type} [DecidableEq π] [DecidableEq κ]

namespace Slots

variable (S : Slots γ π κ β ο)

def key (c : γ) : κ := S.join (S.pair c)

def isFor (x : π) (c : γ) : Bool := S.pair c = x

/-- What the slot of a key holds after some calls, the last one first. -/
def slot (before : List γ) (k : κ) : Option β :=
  (before.find? fun d => S.key d = k).map S.value

/-- What a pair has put in its slot. -/
def own (before : List γ) (x : π) : Option β := (before.find? (S.isFor x)).map S.value

def out (before : List γ) (c : γ) : ο := S.result c (S.slot before (S.key c))

/-- One more call. -/
def after (before : List γ) (c : γ) : List γ := c :: before

/-- What is in the slot of the call gives the result that the pair's own value
would give. -/
def Undisturbed (before : List γ) (c : γ) : Prop :=
  S.out before c = S.result c (S.own before (S.pair c))

/-- The calls for a pair yield what they yield without all other calls. -/
def Unaffected (x : π) (calls : List γ) : Prop :=
  outputs after S.out (S.isFor x) [] calls =
    outputs after S.out (S.isFor x) [] (calls.filter (S.isFor x))

omit [DecidableEq π] in
theorem slot_after (before : List γ) (c : γ) (k : κ) :
    S.slot (after before c) k = if k = S.key c then some (S.value c) else S.slot before k := by
  unfold slot after
  rw [List.find?_cons]
  by_cases hk : k = S.key c
  · simp [hk]
  · simp [hk, Ne.symm hk]

/-! ## Two runs -/

omit [DecidableEq κ] in
theorem isFor_iff {x : π} {c : γ} : S.isFor x c = true ↔ S.pair c = x := by
  simp [isFor]

/-- Without the other calls, the slot of the pair has its own value. -/
theorem slot_filter (before : List γ) (x : π) :
    S.slot (before.filter (S.isFor x)) (S.join x) = S.own before x := by
  unfold slot own
  rw [List.find?_filter]
  refine congrArg (Option.map S.value) (congrArg (before.find? ·) (funext fun d => ?_))
  by_cases hd : S.pair d = x
  · simp [isFor, key, hd]
  · simp [isFor, hd]

theorem unwinding (x : π) :
    Unwinding after S.out (S.isFor x) (fun before rest => rest = before.filter (S.isFor x))
      S.Undisturbed where
  dropped := by
    intro before rest c hc hrest
    rw [hrest, after, List.filter_cons_of_neg (by simp [hc])]
  out_eq_iff := by
    intro before rest c hc hrest
    have hpair : S.pair c = x := S.isFor_iff.mp hc
    have hrest : S.out rest c = S.result c (S.own before (S.pair c)) := by
      rw [hrest, out, key, hpair, slot_filter]
    rw [hrest]
    exact Iff.rfl
  sim := by
    intro before rest c hc hrest _
    rw [hrest, after, after, List.filter_cons_of_pos hc]

omit [DecidableEq κ] in
theorem everyStep_forall_isFor {P : List γ → γ → Prop} (before calls : List γ) :
    (∀ x, EveryStep (total after) (fun b c => S.isFor x c = true → P b c) before calls) ↔
      EveryStep (total after) P before calls := by
  induction calls generalizing before with
  | nil => simp [EveryStep]
  | cons c calls ih =>
    simp only [everyStep_total_cons, forall_and, ih]
    refine and_congr_left fun _ => ⟨fun h => ?_, fun h _ _ => h⟩
    exact h (S.pair c) (S.isFor_iff.mpr rfl)

/-- No pair is affected by the calls for the others exactly when every call is
undisturbed. -/
theorem unaffected_iff (calls : List γ) :
    (∀ x, S.Unaffected x calls) ↔ EveryStep (total after) S.Undisturbed [] calls := by
  rw [← S.everyStep_forall_isFor]
  exact forall_congr' fun x => outputs_eq_iff (S.unwinding x) rfl calls

/-! ## Whether a slot is empty -/

/-- Two of the calls with one key are for one pair. -/
def KeysApart (calls : List γ) : Prop :=
  ∀ c ∈ calls, ∀ d ∈ calls, S.key c = S.key d → S.pair c = S.pair d

omit [DecidableEq π] [DecidableEq κ] in
theorem keysApart_cons {c : γ} {before : List γ} :
    S.KeysApart (c :: before) ↔
      S.KeysApart before ∧ ∀ d ∈ before, S.key d = S.key c → S.pair d = S.pair c := by
  constructor
  · intro h
    refine ⟨fun d hd e he => h d (List.mem_cons_of_mem _ hd) e (List.mem_cons_of_mem _ he), ?_⟩
    exact fun d hd => h d (List.mem_cons_of_mem _ hd) c List.mem_cons_self
  · rintro ⟨hbefore, hc⟩ d hd e he heq
    rcases List.mem_cons.mp hd with rfl | hd'
    · rcases List.mem_cons.mp he with rfl | he'
      · rfl
      · exact (hc e he' heq.symm).symm
    · rcases List.mem_cons.mp he with rfl | he'
      · exact hc d hd' heq
      · exact hbefore d hd' e he' heq

variable {S}

omit [DecidableEq π] in
theorem isNone_slot {before : List γ} {k : κ} :
    (S.slot before k).isNone = true ↔ ∀ d ∈ before, S.key d ≠ k := by
  simp [slot]

omit [DecidableEq κ] in
theorem isNone_own {before : List γ} {x : π} :
    (S.own before x).isNone = true ↔ ∀ d ∈ before, S.pair d ≠ x := by
  simp [own, isFor]

/-- A call that asks whether its slot is empty is undisturbed exactly when no
other pair has used it. -/
theorem keysApart_cons_iff_undisturbed {S : Slots γ π κ β Bool}
    (hresult : ∀ c v, S.result c v = v.isNone) {before : List γ} (h : S.KeysApart before) (c : γ) :
    S.KeysApart (c :: before) ↔ S.Undisturbed before c := by
  rw [keysApart_cons, and_iff_right h]
  unfold Undisturbed out
  rw [hresult, hresult, Bool.eq_iff_iff, isNone_slot, isNone_own]
  constructor
  · intro hpair
    refine ⟨fun hnone d hd heq => hnone d hd (congrArg S.join heq), fun hnone d hd heq => ?_⟩
    exact hnone d hd (hpair d hd heq)
  · intro hiff d hd heq
    by_contra hne
    have hnone : ¬ ∀ e ∈ before, S.key e ≠ S.key c := fun hnone => hnone d hd heq
    rw [hiff] at hnone
    push Not at hnone
    obtain ⟨e, he, hpair⟩ := hnone
    exact hne ((h d hd e he (heq.trans (congrArg S.join hpair).symm)).trans hpair)

theorem undisturbed_isNone_iff {S : Slots γ π κ β Bool} (hresult : ∀ c v, S.result c v = v.isNone)
    (calls : List γ) : EveryStep (total after) S.Undisturbed [] calls ↔ S.KeysApart calls := by
  suffices ∀ before, S.KeysApart before →
      (EveryStep (total after) S.Undisturbed before calls ↔
        S.KeysApart (calls.reverse ++ before)) by
    rw [this [] (by simp [KeysApart]), List.append_nil]
    simp [KeysApart]
  intro before hbefore
  induction calls generalizing before with
  | nil => simp [EveryStep, hbefore]
  | cons c calls ih =>
    rw [everyStep_total_cons, List.reverse_cons, List.append_assoc, List.singleton_append,
      ← keysApart_cons_iff_undisturbed hresult hbefore c]
    constructor
    · exact fun h => (ih _ h.1).mp h.2
    · intro h
      have hcons : S.KeysApart (c :: before) := fun d hd e he =>
        h d (List.mem_append_right _ hd) e (List.mem_append_right _ he)
      exact ⟨hcons, (ih _ hcons).mpr h⟩

end Slots

end Lib.JoinedKeys
