import MagicLaw.Lib.Machine
import MagicLaw.Lib.Program

/-!
# A program among steps of others

One program runs at a time, and between any two of its calls the shared state
may be changed by others.  `Surroundings` says what they may do and which
outcomes a call may have, and `always` is a property that every state should
have, those in the middle of a program included.

`wpi` is the weakest precondition of a program in such surroundings.  It is
`Lib.Program.wp` with a change by others before each call and after the last
one, so `wpi_stable` holds: what others do keeps it.

`Leads` says where the calls of a program that is `alone` can lead it;
`always_of_leads` and `exists_leads` read it off the weakest precondition.
`Along` is the same for a stream of outcomes, which makes it a condition that
can be evaluated; `post_of_along` is its rule.

`run_always` is the result about whole runs: if an invariant of the states
between two programs is kept by every program, every state of a run has the
property.
-/

namespace Lib.Interference

open Lib.Program Lib.Machine

variable {ι : Type} {ρ : ι → Type} {α β ε σ φ : Type}

/-- Which outcomes a call may have in a state, what others may do between two
calls, and what every state should have. -/
structure Surroundings (ι σ φ : Type) where
  allowed : σ → ι → φ → Prop
  between : σ → σ → Prop
  always : σ → Prop

/-- Others may do nothing and more than one thing, and they keep what every
state should have. -/
structure Surroundings.Lawful (E : Surroundings ι σ φ) : Prop where
  refl : ∀ s, E.between s s
  trans : ∀ s t u, E.between s t → E.between t u → E.between s u
  always : ∀ s t, E.always s → E.between s t → E.always t

/-- The weakest precondition of a program among steps of others. -/
def wpi (handle : Handler ρ σ φ) (E : Surroundings ι σ φ) (Q : α → σ → Prop) :
    Prog ρ α → σ → Prop
  | .ret a, s => E.always s ∧ ∀ t, E.between s t → Q a t
  | .call i next, s => E.always s ∧ ∀ t, E.between s t → ∀ f, E.allowed t i f →
      wpi handle E Q (next (handle t f i).1) (handle t f i).2

section Rules

variable {handle : Handler ρ σ φ} {E : Surroundings ι σ φ}

theorem wpi_ret_iff {Q : α → σ → Prop} {a : α} {s : σ} :
    wpi handle E Q (.ret a) s ↔ E.always s ∧ ∀ t, E.between s t → Q a t := Iff.rfl

theorem wpi_call_iff {Q : α → σ → Prop} {i : ι} {next : ρ i → Prog ρ α} {s : σ} :
    wpi handle E Q (.call i next) s ↔ E.always s ∧ ∀ t, E.between s t → ∀ f, E.allowed t i f →
      wpi handle E Q (next (handle t f i).1) (handle t f i).2 := Iff.rfl

theorem always_of_wpi {Q : α → σ → Prop} {p : Prog ρ α} {s : σ} (h : wpi handle E Q p s) :
    E.always s := by
  cases p with
  | ret a => exact h.1
  | call i next => exact h.1

/-- What others do keeps the weakest precondition. -/
theorem wpi_stable (hE : E.Lawful) {Q : α → σ → Prop} {p : Prog ρ α} {s t : σ}
    (h : wpi handle E Q p s) (ht : E.between s t) : wpi handle E Q p t := by
  have halways : E.always t := hE.always s t (always_of_wpi h) ht
  cases p with
  | ret a => exact ⟨halways, fun u hu => h.2 u (hE.trans s t u ht hu)⟩
  | call i next => exact ⟨halways, fun u hu => h.2 u (hE.trans s t u ht hu)⟩

theorem wpi_mono {Q Q' : α → σ → Prop} (hQ : ∀ a s, Q a s → Q' a s) {p : Prog ρ α} {s : σ}
    (h : wpi handle E Q p s) : wpi handle E Q' p s := by
  induction p generalizing s with
  | ret a => exact ⟨h.1, fun t ht => hQ a t (h.2 t ht)⟩
  | call i next ih => exact ⟨h.1, fun t ht f hf => ih _ (h.2 t ht f hf)⟩

theorem wpi_bind (hE : E.Lawful) {Q : β → σ → Prop} {p : Prog ρ α} {k : α → Prog ρ β} {s : σ}
    (h : wpi handle E (fun a t => wpi handle E Q (k a) t) p s) : wpi handle E Q (p >>= k) s := by
  show wpi handle E Q (p.bind k) s
  induction p generalizing s with
  | ret a => exact h.2 s (hE.refl s)
  | call i next ih => exact ⟨h.1, fun t ht f hf => ih _ (h.2 t ht f hf)⟩

/-- One call, and the rest of the program after it. -/
theorem wpi_perform_bind {Q : α → σ → Prop} {i : ι} {k : ρ i → Prog ρ α} {s : σ}
    (halways : E.always s) (h : ∀ t, E.between s t → ∀ f, E.allowed t i f →
      wpi handle E Q (k (handle t f i).1) (handle t f i).2) :
    wpi handle E Q (Prog.perform i >>= k) s :=
  ⟨halways, h⟩

/-- A loop keeps an invariant that each round moves from the list it started
with to the rest of it. -/
theorem wpi_forEach (hE : E.Lawful) {body : β → Prog ρ Unit} {Inv : List β → σ → Prop}
    (hbody : ∀ b bs s, Inv (b :: bs) s → wpi handle E (fun _ => Inv bs) (body b) s)
    (halways : ∀ s, Inv [] s → E.always s) (hstable : ∀ s t, Inv [] s → E.between s t → Inv [] t)
    (bs : List β) {s : σ} (hs : Inv bs s) :
    wpi handle E (fun _ => Inv []) (Prog.forEach body bs) s := by
  induction bs generalizing s with
  | nil => exact ⟨halways s hs, fun t ht => hstable s t hs ht⟩
  | cons b bs ih =>
    apply wpi_bind hE
    exact wpi_mono (fun _ _ h => ih h) (hbody b bs s hs)

end Rules

/-! ## A program that is alone -/

/-- The states and the rests of a program that its calls lead to, when each
call has an outcome that is allowed in the state it is made in. -/
inductive Leads (handle : Handler ρ σ φ) (allowed : σ → ι → φ → Prop) :
    Prog ρ α → σ → Prog ρ α → σ → Prop where
  | here (p : Prog ρ α) (s : σ) : Leads handle allowed p s p s
  | call {i : ι} {next : ρ i → Prog ρ α} {s : σ} {f : φ} {p : Prog ρ α} {t : σ}
      (hallowed : allowed s i f)
      (hnext : Leads handle allowed (next (handle s f i).1) (handle s f i).2 p t) :
      Leads handle allowed (.call i next) s p t

/-- Nobody else does anything. -/
def alone (allowed : σ → ι → φ → Prop) (always : σ → Prop) : Surroundings ι σ φ :=
  ⟨allowed, fun s t => s = t, always⟩

theorem alone_lawful {allowed : σ → ι → φ → Prop} {always : σ → Prop} :
    (alone allowed always).Lawful where
  refl _ := rfl
  trans _ _ _ hst htu := hst.trans htu
  always _ _ h hst := hst ▸ h

section Alone

variable {handle : Handler ρ σ φ} {allowed : σ → ι → φ → Prop} {always : σ → Prop}
  {Q : α → σ → Prop} {p q : Prog ρ α} {s t : σ}

/-- Where more is allowed, the calls lead to more. -/
theorem Leads.mono {more : σ → ι → φ → Prop} (hmore : ∀ s i f, allowed s i f → more s i f)
    (h : Leads handle allowed p s q t) : Leads handle more p s q t := by
  induction h with
  | here p s => exact .here p s
  | call hallowed _ ih => exact .call (hmore _ _ _ hallowed) ih

theorem wpi_of_leads (h : wpi handle (alone allowed always) Q p s)
    (hleads : Leads handle allowed p s q t) : wpi handle (alone allowed always) Q q t := by
  induction hleads with
  | here p s => exact h
  | call hallowed _ ih => exact ih (h.2 _ rfl _ hallowed)

/-- What holds in every state of a program holds in each that its calls lead
to. -/
theorem always_of_leads (h : wpi handle (alone allowed always) Q p s)
    (hleads : Leads handle allowed p s q t) : always t :=
  always_of_wpi (wpi_of_leads h hleads)

theorem post_of_leads (h : wpi handle (alone allowed always) Q p s) {a : α}
    (hleads : Leads handle allowed p s (.ret a) t) : Q a t :=
  (wpi_of_leads h hleads).2 t rfl

/-- One call of a program that is alone. -/
theorem alone_call {i : ι} {k : ρ i → Prog ρ α} (halways : always s) (h : ∀ f, allowed s i f →
    wpi handle (alone allowed always) Q (k (handle s f i).1) (handle s f i).2) :
    wpi handle (alone allowed always) Q (Prog.perform i >>= k) s := by
  refine wpi_perform_bind halways ?_
  rintro _ rfl f hf
  exact h f hf

theorem alone_pure {a : α} (halways : always s) (h : Q a s) :
    wpi handle (alone allowed always) Q (pure a) s := by
  refine ⟨halways, ?_⟩
  intro _ heq
  subst heq
  exact h

theorem alone_true (halways : ∀ t, always t) (p : Prog ρ α) (s : σ) :
    wpi handle (alone allowed always) (fun _ _ => True) p s := by
  induction p generalizing s with
  | ret a => exact ⟨halways s, fun _ _ => trivial⟩
  | call i next ih => exact ⟨halways s, fun t _ f _ => ih _ _⟩

/-- Where every call has an outcome that is allowed, the program comes to its
end. -/
theorem exists_leads (hallowed : ∀ s i, ∃ f, allowed s i f)
    (h : wpi handle (alone allowed always) Q p s) :
    ∃ a t, Leads handle allowed p s (.ret a) t ∧ Q a t := by
  induction p generalizing s with
  | ret a => exact ⟨a, s, .here _ s, h.2 s rfl⟩
  | call i next ih =>
    obtain ⟨f, hf⟩ := hallowed s i
    obtain ⟨a, t, hleads, hQ⟩ := ih _ (h.2 s rfl f hf)
    exact ⟨a, t, .call hf hleads, hQ⟩

/-- The outcomes that a program gets, when they are picked one after the other,
are allowed. -/
def Along (handle : Handler ρ σ φ) (allowed : σ → ι → φ → Prop) :
    Prog ρ α → (Nat → φ) → σ → Prop
  | .ret _, _, _ => True
  | .call i next, fs, s => allowed s i (fs 0) ∧
      Along handle allowed (next (handle s (fs 0) i).1) (fun n => fs (n + 1)) (handle s (fs 0) i).2

/-- For outcomes that are written out, the condition can be evaluated. -/
instance Along.decidable [∀ s i f, Decidable (allowed s i f)] :
    (p : Prog ρ α) → (fs : Nat → φ) → (s : σ) → Decidable (Along handle allowed p fs s)
  | .ret _, _, _ => isTrue trivial
  | .call i next, fs, s =>
    have := Along.decidable (next (handle s (fs 0) i).1) (fun n => fs (n + 1)) (handle s (fs 0) i).2
    inferInstanceAs (Decidable (allowed s i (fs 0) ∧ Along handle allowed _ _ _))

theorem along_of_forall (h : ∀ s i f, allowed s i f) (p : Prog ρ α) (fs : Nat → φ) (s : σ) :
    Along handle allowed p fs s := by
  induction p generalizing fs s with
  | ret a => trivial
  | call i next ih => exact ⟨h _ _ _, ih _ _ _⟩

theorem Along.mono {more : σ → ι → φ → Prop} (hmore : ∀ s i f, allowed s i f → more s i f)
    {fs : Nat → φ} (h : Along handle allowed p fs s) : Along handle more p fs s := by
  induction p generalizing fs s with
  | ret a => trivial
  | call i next ih => exact ⟨hmore _ _ _ h.1, ih _ h.2⟩

/-- What holds after a program under the outcomes that are allowed holds after
each run of it that gets them. -/
theorem post_of_along (h : wpi handle (alone allowed always) Q p s) {fs : Nat → φ}
    (halong : Along handle allowed p fs s) : Q (p.play handle fs s).1 (p.play handle fs s).2 := by
  induction p generalizing fs s with
  | ret a => exact h.2 s rfl
  | call i next ih => exact ih _ (h.2 s rfl (fs 0) halong.1) halong.2

section Watched

variable {γ : Type} {watch : γ → σ → φ → (i : ι) → ρ i → γ}

/-- What is kept next to the state does not matter to a program. -/
theorem play_watched (p : Prog ρ α) (fs : Nat → φ) (s : σ) (g : γ) :
    (p.play (handle.watched watch) fs (s, g)).1 = (p.play handle fs s).1 ∧
      (p.play (handle.watched watch) fs (s, g)).2.1 = (p.play handle fs s).2 := by
  induction p generalizing fs s g with
  | ret a => exact ⟨rfl, rfl⟩
  | call i next ih => exact ih _ _ _ _

theorem along_watched {fs : Nat → φ} (h : Along handle allowed p fs s) (g : γ) :
    Along (handle.watched watch) (fun t => allowed t.1) p fs (s, g) := by
  induction p generalizing fs s g with
  | ret a => trivial
  | call i next ih => exact ⟨h.1, ih _ h.2 _⟩

end Watched

end Alone

/-! ## One program after the other -/

/-- The shared state, and the program that runs.  One that is over is left in
its place. -/
structure Solo (ρ : ι → Type) (σ : Type) where
  shared : σ
  task : Prog ρ Unit

/-- Nothing runs. -/
def Solo.init (s : σ) : Solo ρ σ := ⟨s, .ret ()⟩

inductive Turn (β ε φ : Type) where
  /-- the next program starts, when the last one is over -/
  | start (b : β)
  | call (f : φ)
  | other (e : ε)

def Solo.step (handle : Handler ρ σ φ) (body : β → Prog ρ Unit) (other : ε → σ → σ)
    (s : Solo ρ σ) : Turn β ε φ → Option (Solo ρ σ)
  | .start b =>
    match s.task with
    | .ret () => some { s with task := body b }
    | .call _ _ => none
  | .call f => (s.task.step handle f s.shared).map fun (task, shared) => ⟨shared, task⟩
  | .other e => some { s with shared := other e s.shared }

/-- Calls have only outcomes that are allowed, and others do only what `may`
says. -/
def Solo.Meets (allowed : σ → ι → φ → Prop) (may : σ → ε → Prop) (s : Solo ρ σ) :
    Turn β ε φ → Prop
  | .start _ => True
  | .call f => ∀ i ∈ s.task.next?, allowed s.shared i f
  | .other e => may s.shared e

/-- For a run that is written out, the condition can be evaluated. -/
instance Solo.Meets.decidable {allowed : σ → ι → φ → Prop} [∀ s i f, Decidable (allowed s i f)]
    {may : σ → ε → Prop} [∀ s e, Decidable (may s e)] (s : Solo ρ σ) :
    (t : Turn β ε φ) → Decidable (Solo.Meets allowed may s t)
  | .start _ => isTrue trivial
  | .call f => inferInstanceAs (Decidable (∀ i ∈ s.task.next?, allowed s.shared i f))
  | .other e => inferInstanceAs (Decidable (may s.shared e))

section Runs

variable {handle : Handler ρ σ φ} {E : Surroundings ι σ φ} {body : β → Prog ρ Unit}
  {other : ε → σ → σ} {may : σ → ε → Prop} {Inv : σ → Prop}

theorem wpi_solo_step (hE : E.Lawful) (hmay : ∀ s e, may s e → E.between s (other e s))
    (hbody : ∀ b s, Inv s → wpi handle E (fun _ => Inv) (body b) s) (s : Solo ρ σ)
    (t : Turn β ε φ) (s' : Solo ρ σ) (h : wpi handle E (fun _ => Inv) s.task s.shared)
    (hmeets : Solo.Meets E.allowed may s t) (hstep : s.step handle body other t = some s') :
    wpi handle E (fun _ => Inv) s'.task s'.shared := by
  obtain ⟨w, task⟩ := s
  cases t with
  | start b =>
    cases task with
    | ret a =>
      cases hstep
      exact hbody b w (h.2 w (hE.refl w))
    | call i next => simp [Solo.step] at hstep
  | call f =>
    cases task with
    | ret a => simp [Solo.step, Prog.step] at hstep
    | call i next =>
      simp only [Solo.step, Prog.step, Option.map_some, Option.some.injEq] at hstep
      subst hstep
      exact h.2 w (hE.refl w) f (hmeets i rfl)
  | other e =>
    cases hstep
    exact wpi_stable hE h (hmay w e hmeets)

/-- Every state of a run has what the programs and the others keep. -/
theorem run_always (hE : E.Lawful) (hmay : ∀ s e, may s e → E.between s (other e s))
    (hbody : ∀ b s, Inv s → wpi handle E (fun _ => Inv) (body b) s)
    (hstable : ∀ s t, Inv s → E.between s t → Inv t) (halways : ∀ s, Inv s → E.always s)
    {s : σ} (hs : Inv s) {turns : List (Turn β ε φ)} {s' : Solo ρ σ}
    (hrun : run (Solo.step handle body other) (Solo.init s) turns = some s')
    (hmeets : EveryStep (Solo.step handle body other) (Solo.Meets E.allowed may) (Solo.init s)
      turns) : E.always s'.shared := by
  have hinit : wpi handle E (fun _ => Inv) (Solo.init s : Solo ρ σ).task (Solo.init s : Solo ρ σ).shared :=
    ⟨halways s hs, fun t ht => hstable s t hs ht⟩
  exact always_of_wpi
    (run_invariant_of_everyStep (wpi_solo_step hE hmay hbody) hinit hmeets hrun)

end Runs

end Lib.Interference
