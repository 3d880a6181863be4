import Mathlib.Logic.Function.Basic
import MagicLaw.Lib.Machine
import MagicLaw.Lib.Program

/-!
# Programs with an owner, and what each owner relies on

Any number of programs run over one shared state, one for each owner.  An
owner may hold something that the others leave alone: `Regime.rely` says, for
each owner, what the steps of the others do not change.

`Owns` is the condition on one program: whatever the others do between its
calls, each of its own calls is one that all the others can rely on, and keeps
what every state should have.  A program that owns its calls goes on doing so
after a step of another one (`owns_stable`), so one look at each program is
enough for every run (`owned_step`, `owned_init`).

`Triple` is the same with an assertion before the program and one after it.
-/

namespace Lib.Owners

open Lib.Program Lib.Machine

variable {κ ι : Type} {ρ : ι → Type} {α β γ ε σ φ : Type}

/-! ## The machine -/

/-- The programs of a system, and what happens to its state besides. -/
structure Plan (κ β ε : Type) (ρ : ι → Type) (σ φ : Type) where
  handle : Handler ρ σ φ
  body : κ → β → Prog ρ Unit
  other : ε → σ → σ
  /-- what is left when the program of an owner is dropped -/
  reset : κ → σ → σ

/-- The shared state, and the program of each owner. -/
structure System (κ : Type) (ρ : ι → Type) (σ : Type) where
  shared : σ
  tasks : κ → Option (Prog ρ Unit)

inductive Event (κ β ε φ : Type) where
  /-- an owner that has no program starts one -/
  | start (k : κ) (b : β)
  /-- the next call of the owner's program -/
  | call (k : κ) (f : φ)
  | other (e : ε)
  /-- the owner's program is dropped where it is -/
  | stop (k : κ)

/-- Nothing runs. -/
def System.init (s : σ) : System κ ρ σ := ⟨s, fun _ => none⟩

def System.step [DecidableEq κ] (plan : Plan κ β ε ρ σ φ) (s : System κ ρ σ) :
    Event κ β ε φ → Option (System κ ρ σ)
  | .start k b =>
    match s.tasks k with
    | none => some { s with tasks := Function.update s.tasks k (some (plan.body k b)) }
    | some _ => none
  | .call k f =>
    match s.tasks k with
    | none => none
    | some task =>
      (task.step plan.handle f s.shared).map fun (task', shared) =>
        ⟨shared, Function.update s.tasks k (some task')⟩
  | .other e => some { s with shared := plan.other e s.shared }
  | .stop k => some ⟨plan.reset k s.shared, Function.update s.tasks k none⟩

/-- Calls have only outcomes that are allowed. -/
def System.Meets (allowed : σ → ι → φ → Prop) (s : System κ ρ σ) : Event κ β ε φ → Prop
  | .call k f => ∀ task ∈ s.tasks k, ∀ i ∈ task.next?, allowed s.shared i f
  | .start _ _ | .other _ | .stop _ => True

/-- For a run that is written out, the condition can be evaluated. -/
instance System.Meets.decidable {allowed : σ → ι → φ → Prop} [∀ s i f, Decidable (allowed s i f)]
    (s : System κ ρ σ) : (e : Event κ β ε φ) → Decidable (System.Meets allowed s e)
  | .call k f =>
    inferInstanceAs (Decidable (∀ task ∈ s.tasks k, ∀ i ∈ task.next?, allowed s.shared i f))
  | .start _ _ | .other _ | .stop _ => isTrue trivial

/-- What a call of an owner's program does. -/
theorem step_call_eq_some [DecidableEq κ] {plan : Plan κ β ε ρ σ φ} {s s' : System κ ρ σ} {k : κ}
    {f : φ} (hstep : s.step plan (.call k f) = some s') :
    ∃ i next, s.tasks k = some (.call i next) ∧
      s' = ⟨(plan.handle s.shared f i).2,
        Function.update s.tasks k (some (next (plan.handle s.shared f i).1))⟩ := by
  unfold System.step at hstep
  cases htask : s.tasks k with
  | none => simp [htask] at hstep
  | some task =>
    cases task with
    | ret a => simp [htask, Prog.step] at hstep
    | call i next =>
      simp only [htask, Prog.step, Option.map_some, Option.some.injEq] at hstep
      exact ⟨i, next, rfl, hstep.symm⟩

theorem meets_and {A B : σ → ι → φ → Prop} {s : System κ ρ σ} {e : Event κ β ε φ}
    (hA : System.Meets A s e) (hB : System.Meets B s e) :
    System.Meets (fun s i f => A s i f ∧ B s i f) s e := by
  cases e with
  | call k f => exact fun task htask i hi => ⟨hA task htask i hi, hB task htask i hi⟩
  | start k b => trivial
  | other e => trivial
  | stop k => trivial

/-! ## Owning the calls -/

/-- Which outcomes a call may have in a state, what each owner relies on, and
what every state should have. -/
structure Regime (κ ι σ φ : Type) where
  allowed : σ → ι → φ → Prop
  rely : κ → σ → σ → Prop
  always : σ → Prop

/-- The others may do nothing, and more than one thing. -/
structure Regime.Lawful (E : Regime κ ι σ φ) : Prop where
  refl : ∀ k s, E.rely k s s
  trans : ∀ k s t u, E.rely k s t → E.rely k t u → E.rely k s u

/-- A step of an owner that the others can rely on, and that keeps what every
state should have. -/
structure Regime.Keeps (E : Regime κ ι σ φ) (k : κ) (s t : σ) : Prop where
  always : E.always t
  rely : ∀ k', k' ≠ k → E.rely k' s t

/-- Each call of the owner's program is a step that the others can rely on. -/
def Owns (handle : Handler ρ σ φ) (E : Regime κ ι σ φ) (k : κ) (Q : α → σ → Prop) :
    Prog ρ α → σ → Prop
  | .ret a, s => ∀ t, E.rely k s t → E.always t → Q a t
  | .call i next, s => ∀ t, E.rely k s t → E.always t → ∀ f, E.allowed t i f →
      E.Keeps k t (handle t f i).2 ∧ Owns handle E k Q (next (handle t f i).1) (handle t f i).2

section Rules

variable {handle : Handler ρ σ φ} {E : Regime κ ι σ φ} {k : κ}

/-- What others do keeps it. -/
theorem owns_stable (hE : E.Lawful) {Q : α → σ → Prop} {p : Prog ρ α} {s t : σ}
    (h : Owns handle E k Q p s) (ht : E.rely k s t) : Owns handle E k Q p t := by
  cases p with
  | ret a => exact fun u hu => h u (hE.trans k s t u ht hu)
  | call i next => exact fun u hu => h u (hE.trans k s t u ht hu)

theorem owns_mono {Q Q' : α → σ → Prop} (hQ : ∀ a s, Q a s → Q' a s) {p : Prog ρ α} {s : σ}
    (h : Owns handle E k Q p s) : Owns handle E k Q' p s := by
  induction p generalizing s with
  | ret a => exact fun t ht halways => hQ a t (h t ht halways)
  | call i next ih =>
    intro t ht halways f hf
    obtain ⟨hkeeps, hnext⟩ := h t ht halways f hf
    exact ⟨hkeeps, ih _ hnext⟩

theorem owns_bind (hE : E.Lawful) {Q : γ → σ → Prop} {p : Prog ρ α} {next : α → Prog ρ γ} {s : σ}
    (h : Owns handle E k (fun a t => Owns handle E k Q (next a) t) p s) :
    Owns handle E k Q (p >>= next) s := by
  show Owns handle E k Q (p.bind next) s
  induction p generalizing s with
  | ret a =>
    have hnext : ∀ t, E.rely k s t → E.always t → Owns handle E k Q (next a) t := h
    show Owns handle E k Q (next a) s
    cases hp : next a with
    | ret b =>
      intro t ht halways
      have hret := hnext t ht halways
      rw [hp] at hret
      exact hret t (hE.refl k t) halways
    | call i rest =>
      intro t ht halways
      have hcall := hnext t ht halways
      rw [hp] at hcall
      exact hcall t (hE.refl k t) halways
  | call i rest ih =>
    intro t ht halways f hf
    obtain ⟨hkeeps, hnext⟩ := h t ht halways f hf
    exact ⟨hkeeps, ih _ hnext⟩

end Rules

/-! ## Assertions of an owner -/

/-- An assertion that no step of the others undoes. -/
structure Assert (E : Regime κ ι σ φ) (k : κ) where
  holds : σ → Prop
  stable : ∀ s t, E.rely k s t → holds s → holds t

/-- Both assertions. -/
def Assert.and {E : Regime κ ι σ φ} {k : κ} (A B : Assert E k) : Assert E k where
  holds := fun s => A.holds s ∧ B.holds s
  stable := fun s t hst h => ⟨A.stable s t hst h.1, B.stable s t hst h.2⟩

/-- What does not depend on the state. -/
def Assert.pure (E : Regime κ ι σ φ) (k : κ) (P : Prop) : Assert E k where
  holds := fun _ => P
  stable := fun _ _ _ h => h

/-- Where `A` holds, the owner owns the calls of the program, and what it
yields has `Q`. -/
def Triple (handle : Handler ρ σ φ) {E : Regime κ ι σ φ} {k : κ} (A : Assert E k) (p : Prog ρ α)
    (Q : α → Assert E k) : Prop :=
  ∀ s, A.holds s → Owns handle E k (fun a => (Q a).holds) p s

section Triples

variable {handle : Handler ρ σ φ} {E : Regime κ ι σ φ} {k : κ} {A B : Assert E k}

theorem triple_pure {a : α} {Q : α → Assert E k} (h : ∀ s, A.holds s → (Q a).holds s) :
    Triple handle A (pure a) Q :=
  fun s hs t ht _ => (Q a).stable s t ht (h s hs)

/-- One call, and the rest of the program after each of its replies. -/
theorem triple_call {i : ι} {next : ρ i → Prog ρ α} {B : ρ i → Assert E k} {Q : α → Assert E k}
    (hcall : ∀ s, A.holds s → E.always s → ∀ f, E.allowed s i f →
      E.Keeps k s (handle s f i).2 ∧ (B (handle s f i).1).holds (handle s f i).2)
    (hnext : ∀ r, Triple handle (B r) (next r) Q) :
    Triple handle A (Prog.perform i >>= next) Q := by
  intro s hs t ht halways f hf
  obtain ⟨hkeeps, hB⟩ := hcall t (A.stable s t ht hs) halways f hf
  exact ⟨hkeeps, hnext _ _ hB⟩

theorem triple_bind (hE : E.Lawful) {p : Prog ρ α} {next : α → Prog ρ γ} {Q : α → Assert E k}
    {R : γ → Assert E k} (hp : Triple handle A p Q) (hnext : ∀ a, Triple handle (Q a) (next a) R) :
    Triple handle A (p >>= next) R := by
  intro s hs
  apply owns_bind hE
  exact owns_mono (fun a t hQ => hnext a t hQ) (hp s hs)

theorem triple_weaken {p : Prog ρ α} {Q R : α → Assert E k} (hp : Triple handle A p Q)
    (hpre : ∀ s, B.holds s → A.holds s) (hpost : ∀ a s, (Q a).holds s → (R a).holds s) :
    Triple handle B p R :=
  fun s hs => owns_mono hpost (hp s (hpre s hs))

/-- What does not depend on the state may be used as a fact. -/
theorem triple_of_pure {P : Prop} {p : Prog ρ α} {Q : α → Assert E k}
    (h : P → Triple handle A p Q) : Triple handle (A.and (.pure E k P)) p Q :=
  fun s hs => h hs.2 s hs.1

end Triples

/-! ## Runs -/

section Runs

variable [DecidableEq κ] {plan : Plan κ β ε ρ σ φ} {E : Regime κ ι σ φ}

/-- What a plan has to keep. -/
structure Plan.Respectful (plan : Plan κ β ε ρ σ φ) (E : Regime κ ι σ φ) : Prop where
  lawful : E.Lawful
  body : ∀ k b s, Owns plan.handle E k (fun _ _ => True) (plan.body k b) s
  other : ∀ s e, E.always s → E.always (plan.other e s) ∧ ∀ k, E.rely k s (plan.other e s)
  reset : ∀ s k, E.always s → E.Keeps k s (plan.reset k s)

/-- The state has what every state should have, and every owner owns the calls
of its program. -/
structure Owned (plan : Plan κ β ε ρ σ φ) (E : Regime κ ι σ φ) (s : System κ ρ σ) : Prop where
  always : E.always s.shared
  owns : ∀ k p, s.tasks k = some p → Owns plan.handle E k (fun _ _ => True) p s.shared

/-- One owner gets a program, or loses it, and those of the others are still
there. -/
theorem owns_update {tasks : κ → Option (Prog ρ Unit)} {k : κ} {task : Option (Prog ρ Unit)} {s : σ}
    (htask : ∀ p, task = some p → Owns plan.handle E k (fun _ _ => True) p s)
    (hothers : ∀ k', k' ≠ k → ∀ p, tasks k' = some p →
      Owns plan.handle E k' (fun _ _ => True) p s) (k' : κ) (p : Prog ρ Unit)
    (hp : Function.update tasks k task k' = some p) :
    Owns plan.handle E k' (fun _ _ => True) p s := by
  by_cases hk : k' = k
  · subst hk
    rw [Function.update_self] at hp
    exact htask p hp
  · rw [Function.update_of_ne hk] at hp
    exact hothers k' hk p hp

theorem owned_step (hplan : plan.Respectful E) (s : System κ ρ σ) (e : Event κ β ε φ)
    (s' : System κ ρ σ) (h : Owned plan E s) (hmeets : System.Meets E.allowed s e)
    (hstep : s.step plan e = some s') : Owned plan E s' := by
  have hE := hplan.lawful
  cases e with
  | start k b =>
    simp only [System.step] at hstep
    split at hstep
    · cases hstep
      refine ⟨h.always, owns_update (fun p hp => ?_) fun k' _ => h.owns k'⟩
      rw [← Option.some.inj hp]
      exact hplan.body k b s.shared
    · cases hstep
  | call k f =>
    obtain ⟨i, next, htask, rfl⟩ := step_call_eq_some hstep
    obtain ⟨hkeeps, hnext⟩ := h.owns k _ htask s.shared (hE.refl k _) h.always f
      (hmeets _ htask i rfl)
    refine ⟨hkeeps.always, owns_update (fun p hp => ?_) fun k' hk p hp => ?_⟩
    · rw [← Option.some.inj hp]
      exact hnext
    · exact owns_stable hE (h.owns k' p hp) (hkeeps.rely k' hk)
  | other e =>
    cases hstep
    obtain ⟨halways, hrely⟩ := hplan.other s.shared e h.always
    exact ⟨halways, fun k p hp => owns_stable hE (h.owns k p hp) (hrely k)⟩
  | stop k =>
    cases hstep
    have hkeeps := hplan.reset s.shared k h.always
    refine ⟨hkeeps.always, owns_update (fun p hp => by cases hp) fun k' hk p hp => ?_⟩
    exact owns_stable hE (h.owns k' p hp) (hkeeps.rely k' hk)

/-- Every state of a run has what every state should have, if the first one
has. -/
theorem run_always (hplan : plan.Respectful E) {s : σ} (hs : E.always s)
    {events : List (Event κ β ε φ)} {s' : System κ ρ σ}
    (hrun : run (System.step plan) (System.init s) events = some s')
    (hmeets : EveryStep (System.step plan) (System.Meets E.allowed) (System.init s) events) :
    E.always s'.shared := by
  have hinit : Owned plan E (System.init s : System κ ρ σ) :=
    ⟨hs, fun k p hp => absurd hp (by simp [System.init])⟩
  exact (run_invariant_of_everyStep (owned_step hplan) hinit hmeets hrun).always

end Runs

end Lib.Owners
