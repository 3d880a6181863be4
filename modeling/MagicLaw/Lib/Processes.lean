import MagicLaw.Lib.Interference

/-!
# Processes that crash, and what every call may rely on

Any number of programs run over one shared state, and each belongs to a
process.  When a process crashes its programs are gone, and what it had in
memory is lost.

`Respects` is the condition on one program: whatever the others do between
its calls, each of its own calls is again such a step.  The rely and the
guarantee are the one relation `Surroundings.between`, and `always` may be
used at every call.  A program that respects the surroundings goes on doing so
after a step of another one (`respects_stable`), so `sound_step` needs one
look at each program: every step keeps `always`.

`Triple` is the same for an assertion before the program and one after it, and
`Contract` says of each call what it asks for and what its reply tells.
-/

namespace Lib.Processes

open Lib.Program Lib.Machine Lib.Interference

variable {ι : Type} {ρ : ι → Type} {π α β ε σ φ : Type}

/-! ## The machine -/

/-- The programs of a system, and what happens to its state besides. -/
structure Plan (π β ε : Type) (ρ : ι → Type) (σ φ : Type) where
  handle : Handler ρ σ φ
  body : β → Prog ρ Unit
  home : β → π
  other : ε → σ → σ
  /-- what a crash of the process leaves -/
  reset : π → σ → σ

/-- The shared state, and the programs that have been started. -/
structure System (π : Type) (ρ : ι → Type) (σ : Type) where
  shared : σ
  tasks : List (π × Prog ρ Unit)

inductive Event (π β ε φ : Type) where
  | start (b : β)
  /-- the next call of the task with this number -/
  | call (n : Nat) (f : φ)
  | other (e : ε)
  | crash (p : π)

/-- Nothing runs. -/
def System.init (s : σ) : System π ρ σ := ⟨s, []⟩

def System.step [DecidableEq π] (plan : Plan π β ε ρ σ φ) (s : System π ρ σ) :
    Event π β ε φ → Option (System π ρ σ)
  | .start b => some { s with tasks := s.tasks ++ [(plan.home b, plan.body b)] }
  | .call n f =>
    match s.tasks[n]? with
    | none => none
    | some (p, task) =>
      (task.step plan.handle f s.shared).map fun (task', shared) =>
        ⟨shared, s.tasks.set n (p, task')⟩
  | .other e => some { s with shared := plan.other e s.shared }
  | .crash p => some ⟨plan.reset p s.shared, s.tasks.filter fun task => task.1 ≠ p⟩

/-- Calls have only outcomes that are allowed, and only what `may` says
happens besides. -/
def System.Meets (allowed : σ → ι → φ → Prop) (may : σ → ε → Prop) (s : System π ρ σ) :
    Event π β ε φ → Prop
  | .call n f => ∀ task ∈ s.tasks[n]?, ∀ i ∈ task.2.next?, allowed s.shared i f
  | .other e => may s.shared e
  | .start _ | .crash _ => True

/-- For a run that is written out, the condition can be evaluated. -/
instance System.Meets.decidable {allowed : σ → ι → φ → Prop} [∀ s i f, Decidable (allowed s i f)]
    {may : σ → ε → Prop} [∀ s e, Decidable (may s e)] (s : System π ρ σ) :
    (e : Event π β ε φ) → Decidable (System.Meets allowed may s e)
  | .call n f =>
    inferInstanceAs (Decidable (∀ task ∈ s.tasks[n]?, ∀ i ∈ task.2.next?, allowed s.shared i f))
  | .other e => inferInstanceAs (Decidable (may s.shared e))
  | .start _ | .crash _ => isTrue trivial

section Step

variable [DecidableEq π] {plan : Plan π β ε ρ σ φ}

/-- What a call of a task does. -/
theorem step_call_eq_some {s s' : System π ρ σ} {n : Nat} {f : φ}
    (hstep : s.step plan (.call n f) = some s') :
    ∃ p i next, s.tasks[n]? = some (p, .call i next) ∧
      s' = ⟨(plan.handle s.shared f i).2,
        s.tasks.set n (p, next (plan.handle s.shared f i).1)⟩ := by
  unfold System.step at hstep
  cases hp : s.tasks[n]? with
  | none => simp [hp] at hstep
  | some ptask =>
    obtain ⟨p, task⟩ := ptask
    cases task with
    | ret a => simp [hp, Prog.step] at hstep
    | call i next =>
      simp only [hp, Prog.step, Option.map_some, Option.some.injEq] at hstep
      exact ⟨p, i, next, rfl, hstep.symm⟩

omit [DecidableEq π] in
theorem meets_of_and {A P allowed : σ → ι → φ → Prop} {may : σ → ε → Prop}
    (hallowed : ∀ s i f, A s i f → P s i f → allowed s i f) {s : System π ρ σ}
    {e : Event π β ε φ} (hA : System.Meets A may s e) (hP : System.Meets P may s e) :
    System.Meets allowed may s e := by
  cases e with
  | call n f =>
    exact fun task htask i hi => hallowed _ _ _ (hA task htask i hi) (hP task htask i hi)
  | other e => exact hA
  | start b => trivial
  | crash p => trivial

end Step

/-! ## Programs that respect their surroundings -/

/-- Each call of the program is a step that the others count on. -/
def Respects (handle : Handler ρ σ φ) (E : Surroundings ι σ φ) (Q : α → σ → Prop) :
    Prog ρ α → σ → Prop
  | .ret a, s => ∀ t, E.between s t → E.always t → Q a t
  | .call i next, s => ∀ t, E.between s t → E.always t → ∀ f, E.allowed t i f →
      E.between t (handle t f i).2 ∧ Respects handle E Q (next (handle t f i).1) (handle t f i).2

section Rules

variable {handle : Handler ρ σ φ} {E : Surroundings ι σ φ}

/-- What others do keeps it. -/
theorem respects_stable (hE : E.Lawful) {Q : α → σ → Prop} {p : Prog ρ α} {s t : σ}
    (h : Respects handle E Q p s) (ht : E.between s t) : Respects handle E Q p t := by
  cases p with
  | ret a => exact fun u hu => h u (hE.trans s t u ht hu)
  | call i next => exact fun u hu => h u (hE.trans s t u ht hu)

theorem respects_mono {Q Q' : α → σ → Prop} (hQ : ∀ a s, Q a s → Q' a s) {p : Prog ρ α} {s : σ}
    (h : Respects handle E Q p s) : Respects handle E Q' p s := by
  induction p generalizing s with
  | ret a => exact fun t ht halways => hQ a t (h t ht halways)
  | call i next ih =>
    intro t ht halways f hf
    obtain ⟨hbetween, hnext⟩ := h t ht halways f hf
    exact ⟨hbetween, ih _ hnext⟩

/-- What is to be respected may be looked at after the others have had their
turn. -/
theorem respects_of_between (hE : E.Lawful) {Q : α → σ → Prop} {p : Prog ρ α} {s : σ}
    (h : ∀ t, E.between s t → E.always t → Respects handle E Q p t) : Respects handle E Q p s := by
  cases p with
  | ret a => exact fun t ht halways => h t ht halways t (hE.refl t) halways
  | call i next => exact fun t ht halways => h t ht halways t (hE.refl t) halways

theorem respects_bind (hE : E.Lawful) {Q : β → σ → Prop} {p : Prog ρ α} {k : α → Prog ρ β} {s : σ}
    (h : Respects handle E (fun a t => E.always t → Respects handle E Q (k a) t) p s) :
    Respects handle E Q (p >>= k) s := by
  show Respects handle E Q (p.bind k) s
  induction p generalizing s with
  | ret a => exact respects_of_between hE fun t ht halways => h t ht halways halways
  | call i next ih =>
    intro t ht halways f hf
    obtain ⟨hbetween, hnext⟩ := h t ht halways f hf
    exact ⟨hbetween, ih _ hnext⟩

end Rules

/-! ## Assertions that the others keep -/

/-- An assertion that no step of the others undoes. -/
structure Assert (E : Surroundings ι σ φ) where
  holds : σ → Prop
  stable : ∀ s t, E.between s t → holds s → holds t

/-- Both assertions. -/
def Assert.and {E : Surroundings ι σ φ} (A B : Assert E) : Assert E where
  holds := fun s => A.holds s ∧ B.holds s
  stable := fun s t hst h => ⟨A.stable s t hst h.1, B.stable s t hst h.2⟩

/-- What does not depend on the state. -/
def Assert.pure (E : Surroundings ι σ φ) (P : Prop) : Assert E where
  holds := fun _ => P
  stable := fun _ _ _ h => h

/-- Where `A` holds, the program respects the others, and yields what has
`Q`. -/
def Triple (handle : Handler ρ σ φ) {E : Surroundings ι σ φ} (A : Assert E) (p : Prog ρ α)
    (Q : α → Assert E) : Prop :=
  ∀ s, A.holds s → Respects handle E (fun a => (Q a).holds) p s

section Triples

variable {handle : Handler ρ σ φ} {E : Surroundings ι σ φ} {A B : Assert E}

theorem triple_pure {a : α} {Q : α → Assert E} (h : ∀ s, A.holds s → (Q a).holds s) :
    Triple handle A (pure a) Q :=
  fun s hs t ht _ => (Q a).stable s t ht (h s hs)

theorem triple_perform {i : ι} {Q : ρ i → Assert E}
    (h : ∀ s, A.holds s → E.always s → ∀ f, E.allowed s i f → E.between s (handle s f i).2 ∧
      (Q (handle s f i).1).holds (handle s f i).2) : Triple handle A (Prog.perform i) Q := by
  intro s hs t ht halways f hf
  obtain ⟨hbetween, hQ⟩ := h t (A.stable s t ht hs) halways f hf
  exact ⟨hbetween, fun u hu _ => (Q _).stable _ u hu hQ⟩

theorem triple_bind (hE : E.Lawful) {p : Prog ρ α} {k : α → Prog ρ β} {Q : α → Assert E}
    {R : β → Assert E} (hp : Triple handle A p Q) (hk : ∀ a, Triple handle (Q a) (k a) R) :
    Triple handle A (p >>= k) R := by
  intro s hs
  apply respects_bind hE
  apply respects_mono _ (hp s hs)
  intro a t hQ _
  exact hk a t hQ

theorem triple_weaken {p : Prog ρ α} {Q R : α → Assert E} (hp : Triple handle A p Q)
    (hpre : ∀ s, B.holds s → A.holds s) (hpost : ∀ a s, (Q a).holds s → (R a).holds s) :
    Triple handle B p R :=
  fun s hs => respects_mono hpost (hp s (hpre s hs))

theorem Triple.post {p : Prog ρ α} {Q R : α → Assert E} (hp : Triple handle A p Q)
    (hpost : ∀ a s, (Q a).holds s → (R a).holds s) : Triple handle A p R :=
  triple_weaken hp (fun _ hs => hs) hpost

theorem Triple.of_and {p : Prog ρ α} {Q : α → Assert E} (hp : Triple handle A p Q) :
    Triple handle (A.and B) p Q :=
  fun s hs => hp s hs.1

theorem triple_self {a : α} : Triple handle A (pure a) fun _ => A :=
  triple_pure fun _ hs => hs

/-- A loop that each round can start. -/
theorem triple_forEach (hE : E.Lawful) {body : β → Prog ρ Unit} {bs : List β}
    (hbody : ∀ b ∈ bs, Triple handle A (body b) fun _ => A) :
    Triple handle A (Prog.forEach body bs) fun _ => A := by
  induction bs with
  | nil => exact triple_pure fun _ hs => hs
  | cons b bs ih =>
    apply triple_bind hE (hbody b List.mem_cons_self)
    exact fun _ => ih fun b hb => hbody b (List.mem_cons_of_mem _ hb)

end Triples

/-! ## Contracts -/

/-- What each call asks for, and what its reply tells. -/
structure Contract (handle : Handler ρ σ φ) (E : Surroundings ι σ φ) where
  fits : ι → Assert E
  told : (i : ι) → ρ i → Assert E
  keep : ∀ s i f, E.always s → (fits i).holds s → E.allowed s i f →
    E.between s (handle s f i).2 ∧ (told i (handle s f i).1).holds (handle s f i).2

section Contracts

variable {handle : Handler ρ σ φ} {E : Surroundings ι σ φ} {A : Assert E} {i : ι}

/-- What holds before a call holds after it, together with what the reply
tells. -/
theorem Contract.triple (C : Contract handle E) (hfits : ∀ s, A.holds s → (C.fits i).holds s) :
    Triple handle A (Prog.perform i) fun r => A.and (C.told i r) := by
  apply triple_perform
  intro s hA halways f hallowed
  obtain ⟨hbetween, htold⟩ := C.keep s i f halways (hfits s hA) hallowed
  exact ⟨hbetween, A.stable _ _ hbetween hA, htold⟩

theorem Contract.triple_keep (C : Contract handle E)
    (hfits : ∀ s, A.holds s → (C.fits i).holds s) :
    Triple handle A (Prog.perform i) fun _ => A :=
  (C.triple hfits).post fun _ _ h => h.1

theorem Contract.triple_bind (C : Contract handle E) (hE : E.Lawful) {k : ρ i → Prog ρ α}
    {R : α → Assert E} (hfits : ∀ s, A.holds s → (C.fits i).holds s)
    (hk : ∀ r, Triple handle (A.and (C.told i r)) (k r) R) :
    Triple handle A (Prog.perform i >>= k) R :=
  Processes.triple_bind hE (C.triple hfits) hk

/-- A call whose reply tells nothing that is used. -/
theorem Contract.triple_then (C : Contract handle E) (hE : E.Lawful) {k : ρ i → Prog ρ α}
    {R : α → Assert E} (hfits : ∀ s, A.holds s → (C.fits i).holds s)
    (hk : ∀ r, Triple handle A (k r) R) : Triple handle A (Prog.perform i >>= k) R :=
  C.triple_bind hE hfits fun r => (hk r).of_and

end Contracts

/-! ## Runs -/

section Runs

variable [DecidableEq π] {plan : Plan π β ε ρ σ φ} {E : Surroundings ι σ φ} {may : σ → ε → Prop}

/-- The state has what every state should have, and every program respects the
surroundings. -/
structure Sound (plan : Plan π β ε ρ σ φ) (E : Surroundings ι σ φ) (s : System π ρ σ) : Prop where
  always : E.always s.shared
  respects : ∀ task ∈ s.tasks, Respects plan.handle E (fun _ _ => True) task.2 s.shared

/-- What a plan has to keep. -/
structure Plan.Respectful (plan : Plan π β ε ρ σ φ) (E : Surroundings ι σ φ)
    (may : σ → ε → Prop) : Prop where
  lawful : E.Lawful
  body : ∀ b s, E.always s → Respects plan.handle E (fun _ _ => True) (plan.body b) s
  other : ∀ s e, E.always s → may s e → E.between s (plan.other e s)
  reset : ∀ s p, E.always s → E.between s (plan.reset p s)

theorem sound_step (hplan : plan.Respectful E may) (s : System π ρ σ) (e : Event π β ε φ)
    (s' : System π ρ σ) (h : Sound plan E s) (hmeets : System.Meets E.allowed may s e)
    (hstep : s.step plan e = some s') : Sound plan E s' := by
  have hE := hplan.lawful
  cases e with
  | start b =>
    cases hstep
    constructor
    · exact h.always
    · exact forall_mem_concat h.respects (hplan.body b s.shared h.always)
  | call n f =>
    obtain ⟨p, i, next, hn, rfl⟩ := step_call_eq_some hstep
    have hmem := List.mem_of_getElem? hn
    obtain ⟨hbetween, hnext⟩ := h.respects _ hmem s.shared (hE.refl _) h.always f
      (hmeets _ hn i rfl)
    constructor
    · exact hE.always _ _ h.always hbetween
    · have hothers := fun task htask => respects_stable hE (h.respects task htask) hbetween
      exact forall_mem_set hothers hnext
  | other e =>
    cases hstep
    have hbetween := hplan.other s.shared e h.always hmeets
    constructor
    · exact hE.always _ _ h.always hbetween
    · intro task htask
      exact respects_stable hE (h.respects task htask) hbetween
  | crash p =>
    cases hstep
    have hbetween := hplan.reset s.shared p h.always
    constructor
    · exact hE.always _ _ h.always hbetween
    · intro task htask
      exact respects_stable hE (h.respects task (List.mem_of_mem_filter htask)) hbetween

omit [DecidableEq π] in
theorem sound_init {s : σ} (h : E.always s) : Sound plan E (System.init s : System π ρ σ) := by
  constructor
  · exact h
  · intro task htask
    exact absurd htask List.not_mem_nil

/-- Where the steps that meet `P` are the ones that programs respect, and a
call that leads to a good state met `P`, every state of a run is good exactly
when every step meets `P`. -/
theorem everyState_iff {A P : σ → ι → φ → Prop} {Good : σ → Prop}
    (hplan : plan.Respectful E may) (hallowed : ∀ s i f, A s i f → P s i f → E.allowed s i f)
    (hgood : ∀ s, E.always s → Good s)
    (hneeds : ∀ s i f, E.always s → Good (plan.handle s f i).2 → P s i f) {s : σ}
    (hs : E.always s)
    {events : List (Event π β ε φ)} {s' : System π ρ σ}
    (hrun : run (System.step plan) (System.init s) events = some s')
    (hA : EveryStep (System.step plan) (System.Meets A may) (System.init s) events) :
    EveryState (System.step plan) (fun s => Good s.shared) (System.init s) events ↔
      EveryStep (System.step plan) (System.Meets P may) (System.init s) events := by
  apply everyState_iff_everyStep (fun s (h : Sound plan E s) => hgood _ h.always) _ _
    (sound_init hs) hA hrun
  · intro s e t hsound hA hP hstep
    exact sound_step hplan s e t hsound (meets_of_and hallowed hA hP) hstep
  · intro s e t hsound hA hstep hgood
    cases e with
    | call n f =>
      obtain ⟨p, i, next, hn, rfl⟩ := step_call_eq_some hstep
      intro task htask i' hi'
      cases hn.symm.trans htask
      cases hi'
      exact hneeds _ _ _ hsound.always hgood
    | start b => trivial
    | other e => exact hA
    | crash p => trivial

end Runs

end Lib.Processes
