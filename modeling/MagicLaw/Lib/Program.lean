/-!
# Programs of calls, and their rules under faults and crashes

A program is a tree of calls to its surroundings: `ret a` is a finished
program, and `call i next` makes the call `i` and goes on with what the call
yields.  Between two calls nothing of the surroundings changes, so a crash
between any two calls is a program that is dropped at one of its nodes.

A handler says what a call does to the state of the surroundings.  Besides
the call it gets an outcome `φ` that the environment picks: whether the call
fails, what a clock shows.

`wp` is the weakest precondition of a program: under it, every outcome that
`Faults` allows leads to the postcondition, and at every call where a crash
is possible the state is one that can be crashed in.

* `wp_bind`, `wp_perform`, `wp_mono` and `wp_forEach` are the rules for
  programs, and `wp_exceptT_bind` is the one for programs that may stop early.
* `wp_call_iff` is what one step of a program does; a machine that runs
  programs step by step keeps `wp` by it.

`exec` runs a whole program at once, where nothing comes between its calls;
`play` does the same with a stream of outcomes and no crash.  `exec_of_wp` and
`play_of_wp` read off their results from the weakest precondition.

Where others act on the state between two calls, the handler is `amid` them:
then an outcome says too what they did before the call.  `wp_amid` is the rule
for a call, and what they do keeps such a weakest precondition (`stable_wp`).

A program is `Careful` when every call of it is one that may be made after the
replies before it.  So it keeps what each of these calls keeps, whatever fails
and wherever it crashes: `careful_call_iff` is its first call, for a machine
that runs programs step by step, and `careful_bind`, `careful_ite` and the like
are the rules for programs, so the definition is closed at the end.
-/

namespace Lib.Program

variable {ι : Type} {ρ : ι → Type} {α β : Type} {σ φ : Type}

/-- A program over the calls `ι`, where the call `i` yields a `ρ i`. -/
inductive Prog (ρ : ι → Type) (α : Type) where
  | ret (a : α)
  | call (i : ι) (next : ρ i → Prog ρ α)

namespace Prog

/-- First one program, then another with its result. -/
def bind : Prog ρ α → (α → Prog ρ β) → Prog ρ β
  | .ret a, k => k a
  | .call i next, k => .call i fun r => (next r).bind k

instance : Monad (Prog ρ) where
  pure := .ret
  bind := .bind

instance : LawfulMonad (Prog ρ) := by
  have hassoc : ∀ {α β γ : Type} (p : Prog ρ α) (f : α → Prog ρ β) (g : β → Prog ρ γ),
      (p.bind f).bind g = p.bind fun a => (f a).bind g := by
    intro α β γ p f g
    induction p with
    | ret a => rfl
    | call i next ih => exact congrArg (Prog.call i) (funext fun r => ih r)
  refine LawfulMonad.mk' (Prog ρ) ?_ (fun _ _ => rfl) hassoc
  intro α p
  show p.bind .ret = p
  induction p with
  | ret a => rfl
  | call i next ih => exact congrArg (Prog.call i) (funext fun r => ih r)

/-- The program that makes one call. -/
def perform (i : ι) : Prog ρ (ρ i) := .call i .ret

/-- One program for each element of a list, in its order. -/
def forEach (body : β → Prog ρ Unit) : List β → Prog ρ Unit
  | [] => .ret ()
  | b :: bs => (body b).bind fun _ => forEach body bs

/-- The call that a program makes next. -/
def next? : Prog ρ α → Option ι
  | .ret _ => none
  | .call i _ => some i

end Prog

open Prog

/-! ## Handlers and faults -/

/-- What the call `i` yields and leaves behind, for an outcome that the
environment picks. -/
abbrev Handler (ρ : ι → Type) (σ φ : Type) := σ → φ → (i : ι) → ρ i × σ

/-- A handler next to which something is kept of what the calls do. -/
def Handler.watched {γ : Type} (handle : Handler ρ σ φ)
    (watch : γ → σ → φ → (i : ι) → ρ i → γ) : Handler ρ (σ × γ) φ :=
  fun (s, g) f i => ((handle s f i).1, (handle s f i).2, watch g s f i (handle s f i).1)

/-- One call of a program. -/
def Prog.step (handle : Handler ρ σ φ) (f : φ) : Prog ρ α → σ → Option (Prog ρ α × σ)
  | .ret _, _ => none
  | .call i next, s => some (next (handle s f i).1, (handle s f i).2)

/-- The whole program, where the environment picks the outcome of each call:
`none` is a crash before the call, and then the program yields nothing. -/
def Prog.exec (handle : Handler ρ σ φ) (env : ι → Option φ) : Prog ρ α → σ → Option α × σ
  | .ret a, s => (some a, s)
  | .call i next, s =>
    match env i with
    | none => (none, s)
    | some f => (next (handle s f i).1).exec handle env (handle s f i).2

/-- The whole program, where the environment picks the outcomes one after the
other, and every call is made. -/
def Prog.play (handle : Handler ρ σ φ) : Prog ρ α → (Nat → φ) → σ → α × σ
  | .ret a, _, s => (a, s)
  | .call i next, fs, s =>
    (next (handle s (fs 0) i).1).play handle (fun n => fs (n + 1)) (handle s (fs 0) i).2

theorem play_perform_bind {handle : Handler ρ σ φ} {i : ι} (k : ρ i → Prog ρ α) (fs : Nat → φ)
    (s : σ) : (perform i >>= k).play handle fs s =
      (k (handle s (fs 0) i).1).play handle (fun n => fs (n + 1)) (handle s (fs 0) i).2 := rfl

/-- What is computed from the result of a program changes nothing else. -/
theorem play_bind_pure {handle : Handler ρ σ φ} (f : α → β) (p : Prog ρ α) (fs : Nat → φ) (s : σ) :
    (p >>= fun a => pure (f a)).play handle fs s =
      (f (p.play handle fs s).1, (p.play handle fs s).2) := by
  show (p.bind fun a => .ret (f a)).play handle fs s = _
  induction p generalizing fs s with
  | ret a => rfl
  | call i next ih => exact ih _ _ _

section Exec

variable {handle : Handler ρ σ φ} {env : ι → Option φ}

@[simp] theorem exec_ret (a : α) (s : σ) : (Prog.ret a : Prog ρ α).exec handle env s = (some a, s) :=
  rfl

@[simp] theorem exec_pure (a : α) (s : σ) :
    (pure a : Prog ρ α).exec handle env s = (some a, s) :=
  rfl

theorem exec_call (i : ι) (next : ρ i → Prog ρ α) (s : σ) :
    (Prog.call i next).exec handle env s =
      match env i with
      | none => (none, s)
      | some f => (next (handle s f i).1).exec handle env (handle s f i).2 := by
  rw [Prog.exec]

theorem exec_perform (i : ι) (s : σ) :
    (perform i : Prog ρ (ρ i)).exec handle env s =
      match env i with
      | none => (none, s)
      | some f => (some (handle s f i).1, (handle s f i).2) := by
  rw [perform, exec_call]
  rfl

theorem exec_bind (p : Prog ρ β) (k : β → Prog ρ α) (s : σ) :
    (p >>= k).exec handle env s =
      match p.exec handle env s with
      | (none, s') => (none, s')
      | (some b, s') => (k b).exec handle env s' := by
  show (p.bind k).exec handle env s = _
  induction p generalizing s with
  | ret b => rfl
  | call i next ih =>
    show (Prog.call i fun r => (next r).bind k).exec handle env s = _
    rw [exec_call, exec_call]
    cases env i with
    | none => rfl
    | some f => exact ih _ _

end Exec

/-- Which outcomes a call may have, before which call (`none`: after the last
one) a crash may come, and in which states it may leave the surroundings. -/
structure Faults (ι σ φ : Type) where
  allowed : ι → φ → Prop
  mayCrash : Option ι → Prop
  atCrash : σ → Prop

/-- The weakest precondition of a program. -/
def wp (handle : Handler ρ σ φ) (F : Faults ι σ φ) (Q : α → σ → Prop) : Prog ρ α → σ → Prop
  | .ret a, s => Q a s
  | .call i next, s =>
    (F.mayCrash (some i) → F.atCrash s) ∧
      ∀ f, F.allowed i f → wp handle F Q (next (handle s f i).1) (handle s f i).2

section Rules

variable {handle : Handler ρ σ φ} {F : Faults ι σ φ}

theorem wp_call_iff {Q : α → σ → Prop} {i : ι} {next : ρ i → Prog ρ α} {s : σ} :
    wp handle F Q (.call i next) s ↔ (F.mayCrash (some i) → F.atCrash s) ∧
      ∀ f, F.allowed i f → wp handle F Q (next (handle s f i).1) (handle s f i).2 := Iff.rfl

theorem wp_perform {Q : ρ i → σ → Prop} {s : σ} :
    wp handle F Q (perform i) s ↔ (F.mayCrash (some i) → F.atCrash s) ∧
      ∀ f, F.allowed i f → Q (handle s f i).1 (handle s f i).2 := Iff.rfl

@[simp] theorem wp_bind {Q : β → σ → Prop} {p : Prog ρ α} {k : α → Prog ρ β} {s : σ} :
    wp handle F Q (p >>= k) s ↔ wp handle F (fun a s' => wp handle F Q (k a) s') p s := by
  show wp handle F Q (p.bind k) s ↔ _
  induction p generalizing s with
  | ret a => rfl
  | call i next ih =>
    show (_ ∧ ∀ f, _ → wp handle F Q ((next _).bind k) _) ↔ _
    simp only [ih]
    rfl

theorem wp_mono {Q Q' : α → σ → Prop} (hQ : ∀ a s, Q a s → Q' a s) {p : Prog ρ α} {s : σ}
    (h : wp handle F Q p s) : wp handle F Q' p s := by
  induction p generalizing s with
  | ret a => exact hQ a s h
  | call i next ih =>
    obtain ⟨hcrash, hnext⟩ := wp_call_iff.mp h
    exact wp_call_iff.mpr ⟨hcrash, fun f hf => ih _ (hnext f hf)⟩

/-- A loop keeps an invariant that each round moves from the list it started
with to the rest of it. -/
theorem wp_forEach {body : β → Prog ρ Unit} {Inv : List β → σ → Prop}
    (hbody : ∀ b bs s, Inv (b :: bs) s → wp handle F (fun _ => Inv bs) (body b) s)
    (bs : List β) {s : σ} (hs : Inv bs s) :
    wp handle F (fun _ => Inv []) (forEach body bs) s := by
  induction bs generalizing s with
  | nil => exact hs
  | cons b bs ih =>
    show wp handle F _ (body b >>= fun _ => forEach body bs) s
    rw [wp_bind]
    exact wp_mono (fun _ _ h => ih h) (hbody b bs s hs)

/-- One call of a program keeps its weakest precondition. -/
theorem wp_step {Q : α → σ → Prop} {p p' : Prog ρ α} {s s' : σ} {f : φ}
    (h : wp handle F Q p s) (hstep : p.step handle f s = some (p', s'))
    (hallowed : ∀ i, p.next? = some i → F.allowed i f) : wp handle F Q p' s' := by
  cases p with
  | ret a => simp [Prog.step] at hstep
  | call i next =>
    simp only [Prog.step, Option.some.injEq, Prod.mk.injEq] at hstep
    obtain ⟨rfl, rfl⟩ := hstep
    exact (wp_call_iff.mp h).2 f (hallowed i rfl)

/-- Wherever a program may crash, it leaves a state that can be crashed in. -/
theorem wp_atCrash {Q : α → σ → Prop} {p : Prog ρ α} {s : σ} (h : wp handle F Q p s)
    (hQ : ∀ a, F.mayCrash none → Q a s → F.atCrash s) (hcrash : F.mayCrash p.next?) :
    F.atCrash s := by
  cases p with
  | ret a => exact hQ a hcrash h
  | call i next => exact (wp_call_iff.mp h).1 hcrash

/-- The outcomes that an environment has picked beforehand, where a crash comes
before a call that it picks none for and leaves a state of `P`. -/
def following (env : ι → Option φ) (P : σ → Prop) : Faults ι σ φ where
  allowed i f := env i = some f
  mayCrash i? := i?.elim False fun i => env i = none
  atCrash := P

/-- What the weakest precondition promises of a program, also when it crashes
on the way, holds of its run. -/
theorem exec_of_wp {env : ι → Option φ} {P : σ → Prop} {p : Prog ρ α} {s : σ}
    (h : wp handle (following env P) (fun _ => P) p s) : P (p.exec handle env s).2 := by
  induction p generalizing s with
  | ret a => exact h
  | call i next ih =>
    obtain ⟨hcrash, hnext⟩ := wp_call_iff.mp h
    rw [exec_call]
    cases hi : env i with
    | none => exact hcrash hi
    | some f => exact ih _ (hnext f hi)

/-- No call is ruled out any outcome, and nothing crashes. -/
def anyOutcome : Faults ι σ φ where
  allowed _ _ := True
  mayCrash _ := False
  atCrash _ := True

theorem wp_anyOutcome_perform {Q : ρ i → σ → Prop} {s : σ} :
    wp handle anyOutcome Q (perform i) s ↔ ∀ f, Q (handle s f i).1 (handle s f i).2 :=
  ⟨fun h f => h.2 f trivial, fun h => ⟨fun _ => trivial, fun f _ => h f⟩⟩

/-- One call, and the rest of the program after it. -/
theorem wp_anyOutcome_bind {Q : α → σ → Prop} {i : ι} {k : ρ i → Prog ρ α} {s : σ}
    (h : ∀ f, wp handle anyOutcome Q (k (handle s f i).1) (handle s f i).2) :
    wp handle anyOutcome Q (perform i >>= k) s :=
  ⟨fun hcrash => hcrash.elim, fun f _ => h f⟩

theorem wp_anyOutcome_true (p : Prog ρ α) (s : σ) :
    wp handle anyOutcome (fun _ _ => True) p s := by
  induction p generalizing s with
  | ret a => trivial
  | call i next ih => exact ⟨fun _ => trivial, fun f _ => ih _ _⟩

/-- First one program, then another one unless the first stops. -/
theorem wp_exceptT_bind {ε : Type} {Q : Except ε β → σ → Prop} {p : ExceptT ε (Prog ρ) α}
    {k : α → ExceptT ε (Prog ρ) β} {s : σ} :
    wp handle F Q (p >>= k).run s ↔
      wp handle F (fun result s' => match result with
        | .ok a => wp handle F Q (k a).run s'
        | .error e => Q (.error e) s') p.run s := by
  rw [ExceptT.run_bind, wp_bind]
  constructor
  · refine wp_mono fun result s' h => ?_
    cases result with
    | ok a => exact h
    | error e => exact h
  · refine wp_mono fun result s' h => ?_
    cases result with
    | ok a => exact h
    | error e => exact h

/-- One call, and a program after it that may stop. -/
theorem wp_anyOutcome_lift_bind {ε : Type} {Q : Except ε α → σ → Prop} {i : ι}
    {k : ρ i → ExceptT ε (Prog ρ) α} {s : σ}
    (h : ∀ f, wp handle anyOutcome Q (k (handle s f i).1).run (handle s f i).2) :
    wp handle anyOutcome Q (ExceptT.lift (perform i) >>= k).run s :=
  wp_anyOutcome_bind h

/-- What holds after a program under every outcome holds after each run of
it. -/
theorem play_of_wp {Q : α → σ → Prop} {p : Prog ρ α} {s : σ} (h : wp handle anyOutcome Q p s)
    (fs : Nat → φ) : Q (p.play handle fs s).1 (p.play handle fs s).2 := by
  induction p generalizing s fs with
  | ret a => exact h
  | call i next ih => exact ih _ ((wp_call_iff.mp h).2 (fs 0) trivial) _

end Rules

/-! ## Others between the calls -/

section Others

variable {ε : Type} {other : ε → σ → σ} {handle : Handler ρ σ φ} {F : Faults ι σ φ}

/-- The state after what others did, the first of them first. -/
def moved (other : ε → σ → σ) (es : List ε) (s : σ) : σ := es.foldl (fun s e => other e s) s

/-- A call that comes after what others did. -/
def Handler.amid (other : ε → σ → σ) (handle : Handler ρ σ φ) : Handler ρ σ (φ × List ε) :=
  fun s f i => handle (moved other f.2 s) f.1 i

/-- The same faults, whatever others do. -/
def Faults.amid (F : Faults ι σ φ) : Faults ι σ (φ × List ε) where
  allowed i f := F.allowed i f.1
  mayCrash := F.mayCrash
  atCrash := F.atCrash

/-- Others do not end it. -/
def Stable (other : ε → σ → σ) (P : σ → Prop) : Prop := ∀ e s, P s → P (other e s)

theorem Stable.moved {P : σ → Prop} (h : Stable other P) (es : List ε) {s : σ} (hs : P s) :
    P (moved other es s) := by
  induction es generalizing s with
  | nil => exact hs
  | cons e es ih => exact ih (h e s hs)

/-- One call, whatever others did before it. -/
theorem wp_amid {i : ι} {Q : ρ i → σ → Prop} {s : σ}
    (h : ∀ es, wp handle F Q (perform i) (moved other es s)) :
    wp (handle.amid other) F.amid Q (perform i) s :=
  ⟨(h []).1, fun f hf => (h f.2).2 f.1 hf⟩

/-- What others do keeps the weakest precondition among others. -/
theorem stable_wp {Q : α → σ → Prop} (hQ : ∀ a, Stable other (Q a))
    (hcrash : Stable other F.atCrash) (p : Prog ρ α) :
    Stable other (wp (handle.amid other) F.amid Q p) := by
  intro e s h
  cases p with
  | ret a => exact hQ a e s h
  | call i next =>
    obtain ⟨hatCrash, hnext⟩ := wp_call_iff.mp h
    exact wp_call_iff.mpr ⟨fun hmay => hcrash e s (hatCrash hmay), fun f hf =>
      hnext (f.1, e :: f.2) hf⟩

/-- A step right away keeps it too. -/
theorem wp_amid_step {Q : α → σ → Prop} {p p' : Prog ρ α} {s s' : σ} {f : φ}
    (h : wp (handle.amid other) F.amid Q p s) (hstep : p.step handle f s = some (p', s'))
    (hallowed : ∀ i, p.next? = some i → F.allowed i f) :
    wp (handle.amid other) F.amid Q p' s' := by
  refine wp_step (f := (f, [])) h ?_ hallowed
  cases p with
  | ret a => cases hstep
  | call i next => exact hstep

end Others

/-! ## Careful programs -/

/-- The program makes only calls that `fits` allows, as long as every reply is
as `told` promises. -/
def Careful (fits : ι → Prop) (told : (i : ι) → ρ i → Prop) : Prog ρ α → Prop
  | .ret _ => True
  | .call i next => fits i ∧ ∀ r, told i r → Careful fits told (next r)

section Careful

variable {fits : ι → Prop} {told : (i : ι) → ρ i → Prop}

theorem careful_call_iff {i : ι} {next : ρ i → Prog ρ α} :
    Careful fits told (.call i next) ↔ fits i ∧ ∀ r, told i r → Careful fits told (next r) :=
  Iff.rfl

theorem careful_ret (a : α) : Careful fits told (.ret a : Prog ρ α) := trivial

theorem careful_pure (a : α) : Careful fits told (pure a : Prog ρ α) := trivial

theorem careful_bind {p : Prog ρ β} {k : β → Prog ρ α} (hp : Careful fits told p)
    (hk : ∀ b, Careful fits told (k b)) : Careful fits told (p >>= k) := by
  show Careful fits told (p.bind k)
  induction p with
  | ret b => exact hk b
  | call i next ih => exact ⟨hp.1, fun r hr => ih r (hp.2 r hr)⟩

/-- One call, and a program that may use what the reply promises. -/
theorem careful_perform_bind {i : ι} {k : ρ i → Prog ρ α} (hfits : fits i)
    (hk : ∀ r, told i r → Careful fits told (k r)) :
    Careful fits told (Prog.perform i >>= k) :=
  ⟨hfits, hk⟩

theorem careful_perform {i : ι} (hfits : fits i) :
    Careful fits told (Prog.perform i : Prog ρ (ρ i)) :=
  ⟨hfits, fun _ _ => trivial⟩

theorem careful_forEach {body : β → Prog ρ Unit} {bs : List β}
    (h : ∀ b ∈ bs, Careful fits told (body b)) : Careful fits told (Prog.forEach body bs) := by
  induction bs with
  | nil => trivial
  | cons b bs ih =>
    refine careful_bind (h b List.mem_cons_self) fun _ => ih ?_
    exact fun b' hb' => h b' (List.mem_cons_of_mem _ hb')

/-- One of two programs, whichever the condition takes. -/
theorem careful_ite {c : Prop} [Decidable c] {p q : Prog ρ α} (hp : Careful fits told p)
    (hq : Careful fits told q) : Careful fits told (if c then p else q) := by
  split
  · exact hp
  · exact hq

theorem careful_mono {fits' : ι → Prop} (hfits : ∀ i, fits i → fits' i) {p : Prog ρ α}
    (h : Careful fits told p) : Careful fits' told p := by
  induction p with
  | ret a => trivial
  | call i next ih => exact ⟨hfits i h.1, fun r hr => ih r (h.2 r hr)⟩

/-- The results of the program are of `R`, as long as every reply is as `told`
promises. -/
def Yields (told : (i : ι) → ρ i → Prop) (R : α → Prop) : Prog ρ α → Prop
  | .ret a => R a
  | .call i next => ∀ r, told i r → Yields told R (next r)

theorem yields_pure {R : α → Prop} {a : α} (h : R a) :
    Yields told R (pure a : Prog ρ α) := h

theorem yields_perform_bind {R : α → Prop} {i : ι} {k : ρ i → Prog ρ α}
    (h : ∀ r, told i r → Yields told R (k r)) : Yields told R (Prog.perform i >>= k) := h

/-- A program that may use what the one before it yields. -/
theorem careful_bind_of_yields {R : β → Prop} {p : Prog ρ β} {k : β → Prog ρ α}
    (hp : Careful fits told p) (hR : Yields told R p) (hk : ∀ b, R b → Careful fits told (k b)) :
    Careful fits told (p >>= k) := by
  show Careful fits told (p.bind k)
  induction p with
  | ret b => exact hk b hR
  | call i next ih => exact ⟨hp.1, fun r hr => ih r (hp.2 r hr) (hR r hr)⟩

end Careful

/- Goals about a program stay as they are, and none of its conditions is
evaluated. -/
attribute [irreducible] Careful

end Lib.Program
