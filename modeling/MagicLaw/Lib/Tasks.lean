import Mathlib.Data.List.Basic
import MagicLaw.Lib.Machine
import MagicLaw.Lib.Program

/-!
# Tasks over a shared state, and exclusive claims

Any number of programs run over one shared state.  A move starts a program,
makes the next call of one of those that run, or is something that happens to
the shared state besides.  So the runs of the machine are the interleavings of
the programs, call by call.

The module has two results about such runs.

* A discipline names the calls that act on a key and the replies that tell a
  program that it has claimed a key.  A program is `Guarded` when each of its
  acts on a key is the call right after its own claim of that key.  If a claim
  succeeds only for a key that is not claimed, and a claimed key stays
  claimed, then every key is acted on at most once in every run
  (`count_le_succ`, `count_le_one`).
* A pairing names the calls that open a key and the calls that close one.  A
  program is `Paired` when each call that opens a key is followed at once by
  the one that closes it, so what a task is about to close (`due?`) is what
  its last call opened (`paired_call`, `allPaired_step`).
-/

namespace Lib.Tasks

open Lib.Program Lib.Machine

variable {ι : Type} {ρ : ι → Type} {α β ε σ φ κ : Type}

/-! ## The machine -/

/-- The programs that have been started, and the state they share.  A program
that is over stays in the list. -/
structure Pool (ρ : ι → Type) (α σ : Type) where
  shared : σ
  tasks : List (Prog ρ α)

inductive Move (β ε φ : Type) where
  | start (b : β)
  /-- the next call of the task with this number -/
  | call (n : Nat) (f : φ)
  | other (e : ε)

/-- Nothing runs. -/
def Pool.init (s : σ) : Pool ρ α σ := ⟨s, []⟩

def Pool.step (handle : Handler ρ σ φ) (body : β → Prog ρ α) (other : ε → σ → σ)
    (s : Pool ρ α σ) : Move β ε φ → Option (Pool ρ α σ)
  | .start b => some { s with tasks := s.tasks ++ [body b] }
  | .call n f =>
    match s.tasks[n]? with
    | none => none
    | some p => (p.step handle f s.shared).map fun (p', w) => ⟨w, s.tasks.set n p'⟩
  | .other e => some { s with shared := other e s.shared }

/-- The calls of a run have only outcomes that are allowed in the shared state
they are made in. -/
def Meets (allowed : σ → ι → φ → Prop) (s : Pool ρ α σ) : Move β ε φ → Prop
  | .call n f => ∀ p ∈ s.tasks[n]?, ∀ i ∈ p.next?, allowed s.shared i f
  | _ => True

/-- For a run that is written out, the condition can be evaluated. -/
instance Meets.decidable {allowed : σ → ι → φ → Prop} [∀ s i f, Decidable (allowed s i f)]
    (s : Pool ρ α σ) : (m : Move β ε φ) → Decidable (Meets allowed s m)
  | .call n f =>
    inferInstanceAs (Decidable (∀ p ∈ s.tasks[n]?, ∀ i ∈ p.next?, allowed s.shared i f))
  | .start _ | .other _ => isTrue trivial

/-- What allows less is met by less. -/
theorem meets_weaken {A B : σ → ι → φ → Prop} (h : ∀ s i f, A s i f → B s i f) {s : Pool ρ α σ}
    {m : Move β ε φ} (hmeets : Meets A s m) : Meets B s m := by
  cases m with
  | call n f => exact fun p hp i hi => h _ i f (hmeets p hp i hi)
  | start b => trivial
  | other e => trivial

section Step

variable {handle : Handler ρ σ φ} {body : β → Prog ρ α} {other : ε → σ → σ}
  {allowed : σ → ι → φ → Prop}

/-- A call is made by the task with that number. -/
theorem task_step_of_call {s s' : Pool ρ α σ} {n : Nat} {f : φ}
    (hstep : s.step handle body other (.call n f) = some s') :
    ∃ p p' w, s.tasks[n]? = some p ∧ p.step handle f s.shared = some (p', w) ∧
      s' = ⟨w, s.tasks.set n p'⟩ := by
  unfold Pool.step at hstep
  cases hp : s.tasks[n]? with
  | none => simp [hp] at hstep
  | some p =>
    simp only [hp, Option.map_eq_some_iff] at hstep
    obtain ⟨⟨p', w⟩, hmade, rfl⟩ := hstep
    exact ⟨p, p', w, rfl, hmade, rfl⟩

/-- What a call of a task does. -/
theorem step_call_eq_some {s s' : Pool ρ α σ} {n : Nat} {f : φ}
    (hstep : s.step handle body other (.call n f) = some s') :
    ∃ i next, ∃ hn : n < s.tasks.length, s.tasks[n] = .call i next ∧
      s' = ⟨(handle s.shared f i).2, s.tasks.set n (next (handle s.shared f i).1)⟩ := by
  obtain ⟨p, p', w, hp, hmade, rfl⟩ := task_step_of_call hstep
  obtain ⟨hn, hget⟩ := List.getElem?_eq_some_iff.mp hp
  cases p with
  | ret a => cases hmade
  | call i next =>
    cases hmade
    exact ⟨i, next, hn, hget, rfl⟩

theorem meets_call {s : Pool ρ α σ} {n : Nat} {f : φ} {i : ι} {next : ρ i → Prog ρ α}
    (hmeets : Meets allowed s (.call n f : Move β ε φ)) (hn : n < s.tasks.length)
    (hget : s.tasks[n] = .call i next) : allowed s.shared i f := by
  have hp : s.tasks[n]? = some (.call i next) := List.getElem?_eq_some_iff.mpr ⟨hn, hget⟩
  exact hmeets _ hp i rfl

end Step

/-- A task moves on, and keeps a property that it has: what has the property
after the move had it before, or is this task. -/
theorem exists_mem_set_iff {tasks : List α} {n : Nat} {a b : α} {P : α → Prop}
    (hn : tasks[n]? = some a) (hkept : P a → P b) :
    (∃ x ∈ tasks.set n b, P x) ↔ (∃ x ∈ tasks, P x) ∨ P b := by
  obtain ⟨hlt, hget⟩ := List.getElem?_eq_some_iff.mp hn
  constructor
  · rintro ⟨x, hx, hpx⟩
    rcases List.mem_or_eq_of_mem_set hx with hx | rfl
    · exact Or.inl ⟨x, hx, hpx⟩
    · exact Or.inr hpx
  · have hb : b ∈ tasks.set n b := List.mem_set hlt b
    rintro (⟨x, hx, hpx⟩ | hpb)
    · obtain ⟨m, hm, rfl⟩ := List.getElem_of_mem hx
      by_cases hmn : n = m
      · subst hmn
        exact ⟨b, hb, hkept (hget ▸ hpx)⟩
      · have hm' : m < (tasks.set n b).length := by rwa [List.length_set]
        exact ⟨tasks[m], List.mem_iff_getElem.mpr ⟨m, hm', List.getElem_set_ne hmn hm'⟩, hpx⟩
    · exact ⟨b, hb, hpb⟩

/-! ## Exclusive claims -/

/-- Which calls the programs make, which of them act on a key, which replies
are a claim of a key, and what the shared state knows of both. -/
structure Discipline (ρ : ι → Type) (σ κ : Type) where
  legal : ι → Prop
  /-- what the programs can rely on of a reply -/
  told : (i : ι) → ρ i → Prop := fun _ _ => True
  acts : ι → Option κ
  won : (i : ι) → ρ i → Option κ
  claimed : σ → κ → Bool
  /-- how often a key has been acted on -/
  count : σ → κ → Nat

/-- The program acts on a key only right after it claimed the key; `right` is
the key that it has claimed with its last call. -/
def Guarded (D : Discipline ρ σ κ) : Option κ → Prog ρ α → Prop
  | _, .ret _ => True
  | right, .call i next =>
    D.legal i ∧ (∀ k, D.acts i = some k → right = some k) ∧
      ∀ r, D.told i r → Guarded D (D.won i r) (next r)

section Guarded

variable {D : Discipline ρ σ κ} {right : Option κ}

theorem guarded_call_iff {i : ι} {next : ρ i → Prog ρ α} :
    Guarded D right (.call i next) ↔ D.legal i ∧
      (∀ k, D.acts i = some k → right = some k) ∧
        ∀ r, D.told i r → Guarded D (D.won i r) (next r) := Iff.rfl

/-- A program that needs no claim is guarded after any. -/
theorem Guarded.weaken {p : Prog ρ α} (h : Guarded D none p) : Guarded D right p := by
  cases p with
  | ret a => trivial
  | call i next =>
    obtain ⟨hlegal, hacts, hnext⟩ := guarded_call_iff.mp h
    exact guarded_call_iff.mpr ⟨hlegal, fun k hk => absurd (hacts k hk) (by simp), hnext⟩

theorem guarded_bind {p : Prog ρ α} {k : α → Prog ρ β} (hp : Guarded D right p)
    (hk : ∀ a, Guarded D none (k a)) : Guarded D right (p >>= k) := by
  show Guarded D right (p.bind k)
  induction p generalizing right with
  | ret a => exact (hk a).weaken
  | call i next ih =>
    obtain ⟨hlegal, hacts, hnext⟩ := guarded_call_iff.mp hp
    exact guarded_call_iff.mpr ⟨hlegal, hacts, fun r hr => ih r (hnext r hr)⟩

theorem guarded_forEach {body : β → Prog ρ Unit} (h : ∀ b, Guarded D none (body b)) (bs : List β) :
    Guarded D none (Prog.forEach body bs) := by
  induction bs with
  | nil => trivial
  | cons b bs ih => exact guarded_bind (h b) fun _ => ih

/-- A call that is no act, before a program that is guarded after it. -/
theorem guarded_perform_bind {i : ι} {k : ρ i → Prog ρ α} (hlegal : D.legal i)
    (hacts : D.acts i = none) (hk : ∀ r, D.told i r → Guarded D (D.won i r) (k r)) :
    Guarded D right (Prog.perform i >>= k) := by
  refine guarded_call_iff.mpr ⟨hlegal, fun key hkey => ?_, hk⟩
  rw [hacts] at hkey
  exact absurd hkey (by simp)

/-- An act, right after the claim of its key. -/
theorem guarded_act_bind {i : ι} {k : ρ i → Prog ρ α} (hlegal : D.legal i)
    (hacts : D.acts i = right) (hk : ∀ r, D.told i r → Guarded D (D.won i r) (k r)) :
    Guarded D right (Prog.perform i >>= k) :=
  guarded_call_iff.mpr ⟨hlegal, fun _ hkey => hacts.symm.trans hkey, hk⟩

end Guarded

/-- What the calls and the other moves do to the claims and the counts. -/
structure Discipline.Sound [DecidableEq κ] (D : Discipline ρ σ κ) (handle : Handler ρ σ φ)
    (allowed : σ → ι → φ → Prop) (other : ε → σ → σ) : Prop where
  told_call : ∀ s f i, D.legal i → allowed s i f → D.told i (handle s f i).1
  won_free : ∀ s f i k, D.legal i → allowed s i f → D.won i (handle s f i).1 = some k →
    D.claimed s k = false ∧ D.claimed (handle s f i).2 k = true
  claimed_call : ∀ s f i k, D.legal i → allowed s i f → D.claimed s k = true →
    D.claimed (handle s f i).2 k = true
  claimed_other : ∀ s e k, D.claimed s k = true → D.claimed (other e s) k = true
  count_call : ∀ s f i k, D.legal i → allowed s i f →
    D.count (handle s f i).2 k ≤ D.count s k + if D.acts i = some k then 1 else 0
  count_other : ∀ s e k, D.count (other e s) k = D.count s k

/-- The call that the task makes next acts on the key. -/
def Acting [DecidableEq κ] (D : Discipline ρ σ κ) (k : κ) (p : Prog ρ α) : Bool :=
  p.next?.bind D.acts = some k

/-- The acts on a key that were made since some state, and those that are about
to be made, are one at most, and none when the key is not claimed. -/
structure Exclusive [DecidableEq κ] (D : Discipline ρ σ κ) (since : σ) (s : Pool ρ α σ) :
    Prop where
  guarded : ∀ p ∈ s.tasks, ∃ right, Guarded D right p
  one : ∀ k, D.count s.shared k + s.tasks.countP (Acting D k) ≤
    D.count since k + if D.claimed s.shared k then 1 else 0

section Exclusive

variable [DecidableEq κ] {D : Discipline ρ σ κ} {handle : Handler ρ σ φ}
  {body : β → Prog ρ α} {other : ε → σ → σ} {allowed : σ → ι → φ → Prop} {since : σ}

/-- A program that has claimed nothing is not about to act. -/
theorem acting_eq_false {k : κ} {right : Option κ} {p : Prog ρ α} (h : Guarded D right p)
    (hright : right ≠ some k) : Acting D k p = false := by
  cases p with
  | ret a => rfl
  | call i next =>
    have hacts : D.acts i ≠ some k := fun ha => hright (h.2.1 k ha)
    exact decide_eq_false hacts

theorem exclusive_call (hsound : D.Sound handle allowed other) {s s' : Pool ρ α σ} {n : Nat}
    {f : φ} (h : Exclusive D since s) (hmeets : Meets allowed s (.call n f : Move β ε φ))
    (hstep : s.step handle body other (.call n f) = some s') : Exclusive D since s' := by
  obtain ⟨i, next, hn, hget, rfl⟩ := step_call_eq_some hstep
  have hallowed := meets_call hmeets hn hget
  obtain ⟨right, hguarded⟩ := h.guarded _ (List.getElem_mem hn)
  rw [hget] at hguarded
  have hnext : Guarded D (D.won i (handle s.shared f i).1) (next (handle s.shared f i).1) :=
    hguarded.2.2 _ (hsound.told_call s.shared f i hguarded.1 hallowed)
  constructor
  · exact forall_mem_set h.guarded ⟨_, hnext⟩
  · intro k
    have hone := h.one k
    have hcount := hsound.count_call s.shared f i k hguarded.1 hallowed
    have hset := countP_set_add (Acting D k) (List.getElem?_eq_some_iff.mpr ⟨hn, hget⟩)
      (next (handle s.shared f i).1)
    have hacting : Acting D k (.call i next) = decide (D.acts i = some k) := rfl
    rw [hacting] at hset
    simp only [decide_eq_true_eq] at hset
    dsimp only
    by_cases hwon : D.won i (handle s.shared f i).1 = some k
    · -- a claim: the key was free, so nobody has acted or is about to
      obtain ⟨hfree, hclaimed⟩ := hsound.won_free s.shared f i k hguarded.1 hallowed hwon
      rw [hfree] at hone
      rw [hclaimed]
      have : (if Acting D k (next (handle s.shared f i).1) then 1 else 0) ≤ 1 := by split <;> omega
      simp only [Bool.false_eq_true, if_false, if_true] at hone ⊢
      omega
    · have hnot := acting_eq_false hnext hwon
      rw [hnot] at hset
      simp only [Bool.false_eq_true, if_false] at hset
      cases hclaimed : D.claimed s.shared k with
      | true =>
        rw [hclaimed] at hone
        rw [hsound.claimed_call s.shared f i k hguarded.1 hallowed hclaimed]
        simp only [if_true] at hone ⊢
        omega
      | false =>
        rw [hclaimed] at hone
        simp only [Bool.false_eq_true, if_false] at hone
        have : 0 ≤ if D.claimed (handle s.shared f i).2 k then 1 else 0 := Nat.zero_le _
        omega

theorem exclusive_step (hsound : D.Sound handle allowed other)
    (hbody : ∀ b, Guarded D none (body b)) (s : Pool ρ α σ) (m : Move β ε φ) (s' : Pool ρ α σ)
    (h : Exclusive D since s) (hmeets : Meets allowed s m)
    (hstep : s.step handle body other m = some s') : Exclusive D since s' := by
  cases m with
  | call n f => exact exclusive_call hsound h hmeets hstep
  | start b =>
    cases hstep
    constructor
    · exact forall_mem_concat h.guarded ⟨none, hbody b⟩
    · intro k
      have hnot : Acting D k (body b) = false := acting_eq_false (hbody b) (by simp)
      have hone := h.one k
      rw [List.countP_append, List.countP_singleton, hnot]
      simpa using hone
  | other e =>
    cases hstep
    constructor
    · exact h.guarded
    · intro k
      have hone := h.one k
      show D.count (other e s.shared) k + s.tasks.countP (Acting D k) ≤
        D.count since k + if D.claimed (other e s.shared) k then 1 else 0
      rw [hsound.count_other]
      cases hclaimed : D.claimed s.shared k with
      | true =>
        rw [hsound.claimed_other s.shared e k hclaimed]
        rwa [hclaimed] at hone
      | false =>
        rw [hclaimed] at hone
        simp only [Bool.false_eq_true, if_false] at hone
        omega

/-- In every run whose calls have only outcomes that are allowed, each key is
acted on once at most. -/
theorem count_le_succ (hsound : D.Sound handle allowed other)
    (hbody : ∀ b, Guarded D none (body b)) {s : σ} {moves : List (Move β ε φ)} {s' : Pool ρ α σ}
    (hrun : run (Pool.step handle body other) (Pool.init s) moves = some s')
    (hmeets : EveryStep (Pool.step handle body other) (Meets allowed) (Pool.init s) moves)
    (k : κ) : D.count s'.shared k ≤ D.count s k + 1 := by
  have hinit : Exclusive D s (Pool.init s : Pool ρ α σ) := by
    constructor
    · intro p hp
      exact absurd hp List.not_mem_nil
    · exact fun k => Nat.le_add_right _ _
  have hone := (run_invariant_of_everyStep (exclusive_step hsound hbody) hinit hmeets hrun).one k
  have : (if D.claimed s'.shared k then 1 else 0) ≤ 1 := by split <;> omega
  omega

/-- When no act was made before the run, there is one at most. -/
theorem count_le_one (hsound : D.Sound handle allowed other)
    (hbody : ∀ b, Guarded D none (body b)) {s : σ} (hstart : ∀ k, D.count s k = 0)
    {moves : List (Move β ε φ)} {s' : Pool ρ α σ}
    (hrun : run (Pool.step handle body other) (Pool.init s) moves = some s')
    (hmeets : EveryStep (Pool.step handle body other) (Meets allowed) (Pool.init s) moves)
    (k : κ) : D.count s'.shared k ≤ 1 := by
  have hcount := count_le_succ hsound hbody hrun hmeets k
  rwa [hstart, Nat.zero_add] at hcount

end Exclusive

/-! ## Calls in pairs -/

/-- Which calls the programs make, which replies open a key, and which calls
close one. -/
structure Pairing (ρ : ι → Type) (κ : Type) where
  legal : ι → Prop
  opens : (i : ι) → ρ i → Option κ
  closes : ι → Option κ

/-- What the last call opened, `due`, is closed by the next one, and nothing
else is closed. -/
def Paired (P : Pairing ρ κ) : Option κ → Prog ρ α → Prop
  | due, .ret _ => due = none
  | due, .call i next => P.legal i ∧ P.closes i = due ∧ ∀ r, Paired P (P.opens i r) (next r)

/-- What the task is about to close. -/
def due? (P : Pairing ρ κ) (p : Prog ρ α) : Option κ := p.next?.bind P.closes

section Paired

variable {P : Pairing ρ κ} {due : Option κ}

theorem paired_pure (a : α) : Paired P none (pure a : Prog ρ α) := rfl

theorem Paired.due?_eq {p : Prog ρ α} (h : Paired P due p) : due? P p = due := by
  cases p with
  | ret a =>
    have hdue : due = none := h
    rw [hdue]
    rfl
  | call i next => exact h.2.1

theorem paired_bind {p : Prog ρ α} {k : α → Prog ρ β} (hp : Paired P due p)
    (hk : ∀ a, Paired P none (k a)) : Paired P due (p >>= k) := by
  show Paired P due (p.bind k)
  induction p generalizing due with
  | ret a =>
    have hdue : due = none := hp
    rw [hdue]
    exact hk a
  | call i next ih => exact ⟨hp.1, hp.2.1, fun r => ih r (hp.2.2 r)⟩

theorem paired_forEach {body : β → Prog ρ Unit} (h : ∀ b, Paired P none (body b)) (bs : List β) :
    Paired P none (Prog.forEach body bs) := by
  induction bs with
  | nil => rfl
  | cons b bs ih => exact paired_bind (h b) fun _ => ih

/-- A call that closes what is due, before a program that closes what it
opens. -/
theorem paired_perform_bind {i : ι} {k : ρ i → Prog ρ α} (hlegal : P.legal i)
    (hcloses : P.closes i = due) (hk : ∀ r, Paired P (P.opens i r) (k r)) :
    Paired P due (Prog.perform i >>= k) :=
  ⟨hlegal, hcloses, hk⟩

end Paired

/-- The tasks close what they open. -/
def AllPaired (P : Pairing ρ κ) (s : Pool ρ α σ) : Prop := ∀ p ∈ s.tasks, ∃ due, Paired P due p

section Pairs

variable {P : Pairing ρ κ} {handle : Handler ρ σ φ} {body : β → Prog ρ α} {other : ε → σ → σ}
  {allowed : σ → ι → φ → Prop}

/-- A call of a task is legal and closes what was due, and what is due after it
is what it opened. -/
theorem paired_call {s s' : Pool ρ α σ} {n : Nat} {f : φ} (h : AllPaired P s)
    (hstep : s.step handle body other (.call n f) = some s') :
    ∃ i next, ∃ hn : n < s.tasks.length, s.tasks[n] = .call i next ∧ P.legal i ∧
      Paired P (P.opens i (handle s.shared f i).1) (next (handle s.shared f i).1) ∧
      s' = ⟨(handle s.shared f i).2, s.tasks.set n (next (handle s.shared f i).1)⟩ := by
  obtain ⟨i, next, hn, hget, rfl⟩ := step_call_eq_some hstep
  obtain ⟨due, hpaired⟩ := h _ (List.getElem_mem hn)
  rw [hget] at hpaired
  exact ⟨i, next, hn, hget, hpaired.1, hpaired.2.2 _, rfl⟩

theorem allPaired_step (hbody : ∀ b, Paired P none (body b)) {s s' : Pool ρ α σ} {m : Move β ε φ}
    (h : AllPaired P s) (hstep : s.step handle body other m = some s') : AllPaired P s' := by
  cases m with
  | start b =>
    cases hstep
    exact forall_mem_concat h ⟨none, hbody b⟩
  | call n f =>
    obtain ⟨i, next, hn, -, -, hnext, rfl⟩ := paired_call h hstep
    exact forall_mem_set h ⟨_, hnext⟩
  | other e =>
    cases hstep
    exact h

theorem allPaired_init (s : σ) : AllPaired P (Pool.init s : Pool ρ α σ) :=
  fun _ hp => absurd hp List.not_mem_nil

end Pairs

end Lib.Tasks
