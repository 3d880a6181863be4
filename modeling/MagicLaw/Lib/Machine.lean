import Mathlib.Algebra.GroupWithZero.Nat
import Mathlib.Data.List.Basic

/-!
# Labelled machines and the induction over their runs

A machine is a function `step : σ → α → Option σ`.  `step s a` is the state
after the action `a`, and `none` when `a` is not enabled in `s`.  A run is a
list of actions, taken one after the other.

The module packages the one induction that every result about runs needs, in
four forms.

* `run_invariant`: what holds at the start and is kept by every step holds
  in the last state of a run.
* `run_invariant_of_everyStep`: the same, where a step keeps the invariant
  only when it meets a condition.  `EveryStep` says that every step of a run
  met the condition, in the state the step was taken from.
* `good_iff_everyStep`: where one step keeps a property exactly when it
  meets the condition, a run keeps it exactly when every step does.
  `good_iff_everyStep_of_invariant` lets the steps rely on an invariant.
* `everyState_iff_everyStep`: where the steps that meet the condition keep an
  invariant, and a step that leads to a good state met the condition, every
  state of a run is good exactly when every step meets the condition.

`exists_run_of_descent` is the rule for what can always be reached: from a
state without the goal some run leads to less work.

Where the state has a list of parties, and a step changes or adds one of them,
`forall_mem_set`, `forall_mem_concat`, `countP_set_add` and `sum_map_set_add`
say what becomes of a property of all of them, of how many have one, and of a
sum over them.
-/

namespace Lib.Machine

variable {σ α : Type*} {step : σ → α → Option σ}

/-- The state after a list of actions, if every one of them is enabled. -/
def run (step : σ → α → Option σ) : σ → List α → Option σ
  | s, [] => some s
  | s, a :: as => (step s a).bind fun t => run step t as

@[simp] theorem run_nil (s : σ) : run step s [] = some s := rfl

theorem run_cons_eq_some {s u : σ} {a : α} {as : List α} :
    run step s (a :: as) = some u ↔
      ∃ t, step s a = some t ∧ run step t as = some u := by
  simp [run, Option.bind_eq_some_iff]

/-- One run after another is a run. -/
theorem run_append {s t u : σ} {as bs : List α} (hfirst : run step s as = some t)
    (hsecond : run step t bs = some u) : run step s (as ++ bs) = some u := by
  induction as generalizing s with
  | nil =>
    rw [run_nil, Option.some.injEq] at hfirst
    exact hfirst ▸ hsecond
  | cons a as ih =>
    obtain ⟨v, hv, hrest⟩ := run_cons_eq_some.mp hfirst
    exact run_cons_eq_some.mpr ⟨v, hv, ih hrest⟩

/-- A machine whose actions are always enabled. -/
def total (f : σ → α → σ) (s : σ) (a : α) : Option σ := some (f s a)

/-- The runs of such a machine are the folds. -/
theorem run_total (f : σ → α → σ) (s : σ) (as : List α) :
    run (total f) s as = some (as.foldl f s) := by
  induction as generalizing s with
  | nil => rfl
  | cons a as ih => exact ih (f s a)

/-- Every step of the run met `P` in the state it was taken from. -/
def EveryStep (step : σ → α → Option σ) (P : σ → α → Prop) : σ → List α → Prop
  | _, [] => True
  | s, a :: as => P s a ∧ ∀ t, step s a = some t → EveryStep step P t as

/-- For a run that is written out, the condition can be evaluated. -/
instance EveryStep.decidable {P : σ → α → Prop} [∀ s a, Decidable (P s a)] :
    (s : σ) → (as : List α) → Decidable (EveryStep step P s as)
  | _, [] => isTrue trivial
  | s, a :: as =>
    match hs : step s a with
    | none => decidable_of_iff (P s a) (by simp [EveryStep, hs])
    | some t =>
      have := EveryStep.decidable (P := P) t as
      decidable_of_iff (P s a ∧ EveryStep step P t as) (by simp [EveryStep, hs])

/-- A condition that always holds is met by every step. -/
theorem everyStep_of_forall {P : σ → α → Prop} (h : ∀ s a, P s a) (s : σ) (as : List α) :
    EveryStep step P s as := by
  induction as generalizing s with
  | nil => trivial
  | cons a as ih => exact ⟨h s a, fun t _ => ih t⟩

theorem everyStep_congr {P Q : σ → α → Prop} (h : ∀ s a, P s a ↔ Q s a) (s : σ) (as : List α) :
    EveryStep step P s as ↔ EveryStep step Q s as := by
  induction as generalizing s with
  | nil => exact Iff.rfl
  | cons a as ih => exact and_congr (h s a) (forall_congr' fun t => imp_congr_right fun _ => ih t)

/-- Where two such machines stay related, the steps of one meet a condition when
those of the other meet the related one. -/
theorem everyStep_total_iff {τ : Type*} {f : σ → α → σ} {g : τ → α → τ} {R : σ → τ → Prop}
    {P : σ → α → Prop} {Q : τ → α → Prop} (hcondition : ∀ s t a, R s t → (P s a ↔ Q t a))
    (hstep : ∀ s t a, R s t → R (f s a) (g t a)) {s : σ} {t : τ} (h : R s t) (as : List α) :
    EveryStep (total f) P s as ↔ EveryStep (total g) Q t as := by
  induction as generalizing s t with
  | nil => exact Iff.rfl
  | cons a as ih =>
    have hrest := ih (hstep s t a h)
    simp only [EveryStep, total, Option.some.injEq, forall_eq']
    rw [hcondition s t a h, hrest]

/-- A step of a run that is written out, and the condition that it meets. -/
theorem run_and_everyStep_cons {P : σ → α → Prop} {s t u : σ} {a : α} {as : List α} (hP : P s a)
    (hstep : step s a = some t) (hrest : run step t as = some u ∧ EveryStep step P t as) :
    run step s (a :: as) = some u ∧ EveryStep step P s (a :: as) := by
  refine ⟨run_cons_eq_some.mpr ⟨t, hstep, hrest.1⟩, hP, fun v hv => ?_⟩
  obtain rfl : t = v := Option.some.inj (hstep.symm.trans hv)
  exact hrest.2

/-- The actions of a run are those that it is a run of. -/
theorem everyStep_mem (s : σ) (as : List α) : EveryStep step (fun _ a => a ∈ as) s as := by
  have hmem : ∀ (bs : List α) (s : σ), (∀ b ∈ bs, b ∈ as) →
      EveryStep step (fun _ a => a ∈ as) s bs := by
    intro bs
    induction bs with
    | nil => exact fun _ _ => trivial
    | cons b bs ih =>
      intro s hbs
      refine ⟨hbs b List.mem_cons_self, fun t _ => ih t fun b' hb' => ?_⟩
      exact hbs b' (List.mem_cons_of_mem b hb')
  exact hmem as s fun _ ha => ha

/-- What follows from two conditions that every step meets. -/
theorem EveryStep.and {P Q R : σ → α → Prop} (hR : ∀ s a, P s a → Q s a → R s a) {s : σ}
    {as : List α} (hP : EveryStep step P s as) (hQ : EveryStep step Q s as) :
    EveryStep step R s as := by
  induction as generalizing s with
  | nil => trivial
  | cons a as ih => exact ⟨hR s a hP.1 hQ.1, fun t ht => ih (hP.2 t ht) (hQ.2 t ht)⟩

/-- In a run, what follows from `P` for a step that is taken, under an
invariant. -/
theorem EveryStep.imp_of_run {P Q : σ → α → Prop} {Inv : σ → Prop}
    (hinv : ∀ s a t, Inv s → step s a = some t → Inv t)
    (himp : ∀ s a t, Inv s → step s a = some t → P s a → Q s a) {s t : σ} {as : List α}
    (hs : Inv s) (hrun : run step s as = some t) (hP : EveryStep step P s as) :
    EveryStep step Q s as := by
  induction as generalizing s with
  | nil => trivial
  | cons a as ih =>
    obtain ⟨u, hu, hrun⟩ := run_cons_eq_some.mp hrun
    refine ⟨himp s a u hs hu hP.1, fun v hv => ?_⟩
    obtain rfl : u = v := Option.some.inj (hu.symm.trans hv)
    exact ih (hinv s a u hs hu) hrun (hP.2 u hu)

/-- An invariant of the steps that meet `P` is an invariant of the runs whose
steps all meet `P`. -/
theorem run_invariant_of_everyStep {P : σ → α → Prop} {Inv : σ → Prop}
    (hstep : ∀ s a t, Inv s → P s a → step s a = some t → Inv t)
    {s t : σ} {as : List α} (hs : Inv s) (hP : EveryStep step P s as)
    (hrun : run step s as = some t) : Inv t := by
  induction as generalizing s with
  | nil =>
    rw [run_nil, Option.some.injEq] at hrun
    exact hrun ▸ hs
  | cons a as ih =>
    obtain ⟨u, hu, hrun⟩ := run_cons_eq_some.mp hrun
    exact ih (hstep s a u hs hP.1 hu) (hP.2 u hu) hrun

/-- An invariant of every step is an invariant of every run. -/
theorem run_invariant {Inv : σ → Prop}
    (hstep : ∀ s a t, Inv s → step s a = some t → Inv t)
    {s t : σ} {as : List α} (hs : Inv s) (hrun : run step s as = some t) :
    Inv t := by
  induction as generalizing s with
  | nil =>
    rw [run_nil, Option.some.injEq] at hrun
    exact hrun ▸ hs
  | cons a as ih =>
    obtain ⟨u, hu, hrun⟩ := run_cons_eq_some.mp hrun
    exact ih (hstep s a u hs hu) hrun

/-- Where some run of good actions makes less work of any state that is not yet
at the goal, a run of good actions leads there. -/
theorem exists_run_of_descent {P : α → Prop} {Inv Goal : σ → Prop} (work : σ → Nat)
    (hdescent : ∀ s, Inv s → ¬ Goal s →
      ∃ as t, (∀ a ∈ as, P a) ∧ run step s as = some t ∧ Inv t ∧ work t < work s)
    {s : σ} (hs : Inv s) :
    ∃ as t, (∀ a ∈ as, P a) ∧ run step s as = some t ∧ Inv t ∧ Goal t := by
  induction hwork : work s using Nat.strongRecOn generalizing s with
  | ind n ih =>
    by_cases hgoal : Goal s
    · exact ⟨[], s, fun a ha => absurd ha List.not_mem_nil, rfl, hs, hgoal⟩
    · obtain ⟨as, t, has, hrun, ht, hless⟩ := hdescent s hs hgoal
      obtain ⟨bs, u, hbs, hrun', hu, hgoal'⟩ := ih (work t) (hwork ▸ hless) ht rfl
      refine ⟨as ++ bs, u, ?_, run_append hrun hrun', hu, hgoal'⟩
      intro a ha
      exact (List.mem_append.mp ha).elim (has a) (hbs a)

/-- Where one step keeps `Good` exactly when it meets `P`, a run keeps `Good`
exactly when every one of its steps meets `P`.  The steps may rely on an
invariant of those that meet `Q`. -/
theorem good_iff_everyStep_of_invariant {P Q : σ → α → Prop} {Good Inv : σ → Prop}
    (hinv : ∀ s a t, Inv s → Q s a → step s a = some t → Inv t)
    (hstep : ∀ s a t, Inv s → Q s a → step s a = some t → (Good t ↔ Good s ∧ P s a))
    {s t : σ} {as : List α} (hs : Inv s) (hQ : EveryStep step Q s as)
    (hrun : run step s as = some t) : Good t ↔ Good s ∧ EveryStep step P s as := by
  induction as generalizing s with
  | nil =>
    rw [run_nil, Option.some.injEq] at hrun
    simp [EveryStep, hrun]
  | cons a as ih =>
    obtain ⟨u, hu, hrun⟩ := run_cons_eq_some.mp hrun
    have hnext : EveryStep step P s (a :: as) ↔ P s a ∧ EveryStep step P u as := by
      simp [EveryStep, hu]
    rw [ih (hinv s a u hs hQ.1 hu) (hQ.2 u hu) hrun, hstep s a u hs hQ.1 hu, hnext, and_assoc]

theorem good_iff_everyStep {P : σ → α → Prop} {Good : σ → Prop}
    (hstep : ∀ s a t, step s a = some t → (Good t ↔ Good s ∧ P s a))
    {s t : σ} {as : List α} (hrun : run step s as = some t) :
    Good t ↔ Good s ∧ EveryStep step P s as :=
  good_iff_everyStep_of_invariant (Q := fun _ _ => True)
    (fun _ _ _ _ _ _ => trivial) (fun s a t _ _ => hstep s a t) trivial
    (everyStep_of_forall (fun _ _ => trivial) s as) hrun

/-- Every state of the run has `Good`, the first and the last one included. -/
def EveryState (step : σ → α → Option σ) (Good : σ → Prop) : σ → List α → Prop
  | s, [] => Good s
  | s, a :: as => Good s ∧ ∀ t, step s a = some t → EveryState step Good t as

theorem EveryState.head {Good : σ → Prop} {s : σ} {as : List α} (h : EveryState step Good s as) :
    Good s := by
  cases as with
  | nil => exact h
  | cons a as => exact h.1

/-- Every state is good exactly when every step meets `P`, in a run whose
steps meet `Q`. -/
theorem everyState_iff_everyStep {P Q : σ → α → Prop} {Good Inv : σ → Prop}
    (hgood : ∀ s, Inv s → Good s)
    (hkeep : ∀ s a t, Inv s → Q s a → P s a → step s a = some t → Inv t)
    (hneeds : ∀ s a t, Inv s → Q s a → step s a = some t → Good t → P s a)
    {s t : σ} {as : List α} (hs : Inv s) (hQ : EveryStep step Q s as)
    (hrun : run step s as = some t) : EveryState step Good s as ↔ EveryStep step P s as := by
  induction as generalizing s with
  | nil => exact iff_of_true (hgood s hs) trivial
  | cons a as ih =>
    obtain ⟨u, hu, hrun⟩ := run_cons_eq_some.mp hrun
    have hnext : ∀ {R : σ → Prop}, (∀ v, step s a = some v → R v) ↔ R u := by
      intro R
      simp [hu]
    show Good s ∧ (∀ v, step s a = some v → EveryState step Good v as) ↔
      P s a ∧ ∀ v, step s a = some v → EveryStep step P v as
    rw [hnext, hnext]
    constructor
    · intro h
      have hP : P s a := hneeds s a u hs hQ.1 hu h.2.head
      exact ⟨hP, (ih (hkeep s a u hs hQ.1 hP hu) (hQ.2 u hu) hrun).mp h.2⟩
    · intro h
      exact ⟨hgood s hs, (ih (hkeep s a u hs hQ.1 h.1 hu) (hQ.2 u hu) hrun).mpr h.2⟩

/-- A condition on the actions alone is met by every step of a run exactly
when every action of the run meets it. -/
theorem everyStep_iff_forall_mem {Q : α → Prop} {s t : σ} {as : List α}
    (hrun : run step s as = some t) :
    EveryStep step (fun _ a => Q a) s as ↔ ∀ a ∈ as, Q a := by
  induction as generalizing s with
  | nil => simp [EveryStep]
  | cons a as ih =>
    obtain ⟨u, hu, hrun⟩ := run_cons_eq_some.mp hrun
    simp [EveryStep, hu, ih hrun]

/-! ## Parties -/

section Parties

variable {β : Type*} {P : β → Prop} {l : List β} {b : β}

/-- Of a list of parties one changes. -/
theorem forall_mem_set {n : Nat} (h : ∀ a ∈ l, P a) (hnew : P b) : ∀ a ∈ l.set n b, P a :=
  fun a ha => (List.mem_or_eq_of_mem_set ha).elim (h a) fun heq => heq ▸ hnew

/-- A party is added to them. -/
theorem forall_mem_concat (h : ∀ a ∈ l, P a) (hnew : P b) : ∀ a ∈ l ++ [b], P a :=
  List.forall_mem_append.mpr ⟨h, List.forall_mem_singleton.mpr hnew⟩

/-- How many of them are `p` changes with the one that changes. -/
theorem countP_set_add (p : β → Bool) {n : Nat} (hn : l[n]? = some b) (b' : β) :
    (l.set n b').countP p + (if p b then 1 else 0) = l.countP p + (if p b' then 1 else 0) := by
  obtain ⟨hlt, rfl⟩ := List.getElem?_eq_some_iff.mp hn
  have hpos : p l[n] = true → 0 < l.countP p := fun hp =>
    List.countP_pos_iff.mpr ⟨l[n], List.getElem_mem hlt, hp⟩
  rw [List.countP_set hlt]
  by_cases hp : p l[n] = true
  · have := hpos hp
    rw [if_pos hp]
    omega
  · rw [if_neg hp]
    omega

/-- A sum over them changes with the one that changes. -/
theorem sum_map_set_add (f : β → Nat) {n : Nat} (hn : l[n]? = some b) (b' : β) :
    ((l.set n b').map f).sum + f b = (l.map f).sum + f b' := by
  induction l generalizing n with
  | nil => cases hn
  | cons a l ih =>
    cases n with
    | zero =>
      obtain rfl : a = b := Option.some.inj hn
      simp only [List.set_cons_zero, List.map_cons, List.sum_cons]
      omega
    | succ n =>
      have hrest := ih hn
      simp only [List.set_cons_succ, List.map_cons, List.sum_cons]
      omega

end Parties

end Lib.Machine
