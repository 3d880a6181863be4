/-!
# Chains of stages

A stage takes a context and a state of the surroundings to the next context,
or fails.  A chain runs its stages one after the other.  A context can say
that it is stopped: then the stages after it are skipped, up to those that are
terminal, which run all the same.

* `run_append`, `run_cons_of_skip` and the two `run_cons_of` lemmas for a
  stage that runs are the equations of a chain.
* `run_keeps` and `run_keeps_context` are the rules for what every stage keeps
  of the surroundings and of the context, `run_holds` the one for what it keeps
  of both.
* `run_of_stopped` and `stoppedBy_of_stopped` are the rules for a context that
  is stopped before the stages.
* `stoppedBy` says whether the stage with a name has stopped the context;
  `stoppedBy_append` and `stoppedBy_of_name_ne` reduce it to the stages with
  this name.
-/

namespace Lib.Stages

/-- A stage with contexts `γ`, surroundings `σ` and errors `ε`. -/
structure Stage (γ σ ε : Type) where
  name : String
  isTerminal : Bool
  process : γ → σ → Except ε γ × σ

variable {γ σ ε : Type} {stopped : γ → Bool}

/-- The stages in their order, where `stopped` says which contexts are
stopped. -/
def run (stopped : γ → Bool) : List (Stage γ σ ε) → γ → σ → Except ε γ × σ
  | [], c, s => (.ok c, s)
  | stage :: stages, c, s =>
    if stopped c && !stage.isTerminal then run stopped stages c s
    else
      match stage.process c s with
      | (.error e, s') => (.error e, s')
      | (.ok c', s') => run stopped stages c' s'

@[simp] theorem run_nil (c : γ) (s : σ) :
    run stopped ([] : List (Stage γ σ ε)) c s = (.ok c, s) := rfl

theorem run_cons_of_skip {stage : Stage γ σ ε} {stages : List (Stage γ σ ε)} {c : γ} {s : σ}
    (hstopped : stopped c = true) (hterminal : stage.isTerminal = false) :
    run stopped (stage :: stages) c s = run stopped stages c s := by
  rw [run, if_pos (by simp [hstopped, hterminal])]

theorem run_cons_of_ok {stage : Stage γ σ ε} {stages : List (Stage γ σ ε)} {c c' : γ} {s s' : σ}
    (hruns : stopped c = false ∨ stage.isTerminal = true)
    (hprocess : stage.process c s = (.ok c', s')) :
    run stopped (stage :: stages) c s = run stopped stages c' s' := by
  rw [run, if_neg (by rcases hruns with h | h <;> simp [h]), hprocess]

theorem run_append (first second : List (Stage γ σ ε)) (c : γ) (s : σ) :
    run stopped (first ++ second) c s =
      match run stopped first c s with
      | (.error e, s') => (.error e, s')
      | (.ok c', s') => run stopped second c' s' := by
  induction first generalizing c s with
  | nil => rfl
  | cons stage stages ih =>
    rw [List.cons_append, run, run]
    by_cases hskip : (stopped c && !stage.isTerminal) = true
    · rw [if_pos hskip, if_pos hskip, ih]
    · rw [if_neg hskip, if_neg hskip]
      cases stage.process c s with
      | mk result s' =>
        cases result with
        | error e => rfl
        | ok c' => exact ih c' s'

theorem run_append_of_ok {first : List (Stage γ σ ε)} {c c' : γ} {s s' : σ}
    (h : run stopped first c s = (.ok c', s')) (second : List (Stage γ σ ε)) :
    run stopped (first ++ second) c s = run stopped second c' s' := by
  rw [run_append, h]

theorem run_append_of_error {first : List (Stage γ σ ε)} {c : γ} {s s' : σ} {e : ε}
    (h : run stopped first c s = (.error e, s')) (second : List (Stage γ σ ε)) :
    run stopped (first ++ second) c s = (.error e, s') := by
  rw [run_append, h]

/-- A property of the surroundings that every stage keeps is kept by the
chain. -/
theorem run_keeps {P : σ → Prop} {stages : List (Stage γ σ ε)}
    (hstage : ∀ stage ∈ stages, ∀ c s, P s → P (stage.process c s).2) (c : γ) {s : σ}
    (hs : P s) : P (run stopped stages c s).2 := by
  induction stages generalizing c s with
  | nil => exact hs
  | cons stage stages ih =>
    have hrest := ih fun stage' h => hstage stage' (List.mem_cons_of_mem _ h)
    rw [run]
    by_cases hskip : (stopped c && !stage.isTerminal) = true
    · rw [if_pos hskip]
      exact hrest c hs
    · rw [if_neg hskip]
      have hprocess := hstage stage List.mem_cons_self c s hs
      cases hresult : stage.process c s with
      | mk result s' =>
        rw [hresult] at hprocess
        cases result with
        | error e => exact hprocess
        | ok c' => exact hrest c' hprocess

/-- A property of the context that every stage keeps is kept by the chain. -/
theorem run_keeps_context {P : γ → Prop} {stages : List (Stage γ σ ε)}
    (hstage : ∀ stage ∈ stages, ∀ c s c' s', P c → stage.process c s = (.ok c', s') → P c')
    {c c' : γ} {s s' : σ} (hc : P c) (hrun : run stopped stages c s = (.ok c', s')) : P c' := by
  induction stages generalizing c s with
  | nil =>
    cases hrun
    exact hc
  | cons stage stages ih =>
    have hstages : ∀ stage' ∈ stages, ∀ c s c' s', P c → stage'.process c s = (.ok c', s') → P c' :=
      fun stage' h => hstage stage' (List.mem_cons_of_mem _ h)
    rw [run] at hrun
    by_cases hskip : (stopped c && !stage.isTerminal) = true
    · rw [if_pos hskip] at hrun
      exact ih hstages hc hrun
    · rw [if_neg hskip] at hrun
      cases hresult : stage.process c s with
      | mk result s'' =>
        rw [hresult] at hrun
        cases result with
        | error e => cases hrun
        | ok c'' => exact ih hstages (hstage stage List.mem_cons_self c s c'' s'' hc hresult) hrun

/-- A property of both that every stage keeps, as far as it does not fail,
leaves of the surroundings what it says of them. -/
theorem run_holds {P : γ → σ → Prop} {Q : σ → Prop} (hleaves : ∀ c s, P c s → Q s)
    {stages : List (Stage γ σ ε)}
    (hok : ∀ stage ∈ stages, ∀ c s c' s', P c s → stage.process c s = (.ok c', s') → P c' s')
    (herror : ∀ stage ∈ stages, ∀ c s e s', P c s → stage.process c s = (.error e, s') → Q s')
    {c : γ} {s : σ} (h : P c s) : Q (run stopped stages c s).2 := by
  induction stages generalizing c s with
  | nil => exact hleaves c s h
  | cons stage stages ih =>
    have hrest := @ih (fun stage' h => hok stage' (List.mem_cons_of_mem _ h))
      (fun stage' h => herror stage' (List.mem_cons_of_mem _ h))
    rw [run]
    by_cases hskip : (stopped c && !stage.isTerminal) = true
    · rw [if_pos hskip]
      exact hrest h
    · rw [if_neg hskip]
      cases hresult : stage.process c s with
      | mk result s' =>
        cases result with
        | error e => exact herror stage List.mem_cons_self c s e s' h hresult
        | ok c' => exact hrest (hok stage List.mem_cons_self c s c' s' h hresult)

theorem run_singleton (stage : Stage γ σ ε) (c : γ) (s : σ) :
    run stopped [stage] c s =
      if stopped c && !stage.isTerminal then (.ok c, s) else stage.process c s := by
  rw [run]
  by_cases hskip : (stopped c && !stage.isTerminal) = true
  · rw [if_pos hskip, if_pos hskip, run_nil]
  · rw [if_neg hskip, if_neg hskip]
    cases stage.process c s with
    | mk result s' => cases result <;> rfl

/-- A stopped context passes the stages that are not terminal. -/
theorem run_of_stopped {stages : List (Stage γ σ ε)} {c : γ} (hstopped : stopped c = true)
    (hterminal : ∀ stage ∈ stages, stage.isTerminal = false) (s : σ) :
    run stopped stages c s = (.ok c, s) := by
  induction stages with
  | nil => rfl
  | cons stage stages ih =>
    rw [run_cons_of_skip hstopped (hterminal stage List.mem_cons_self)]
    exact ih fun stage' h => hterminal stage' (List.mem_cons_of_mem _ h)

/-- The stage with this name runs and stops a context that was not stopped. -/
def stoppedBy (stopped : γ → Bool) (name : String) : List (Stage γ σ ε) → γ → σ → Bool
  | [], _, _ => false
  | stage :: stages, c, s =>
    if stopped c && !stage.isTerminal then stoppedBy stopped name stages c s
    else
      match stage.process c s with
      | (.error _, _) => false
      | (.ok c', s') =>
        (stage.name = name && !stopped c && stopped c') || stoppedBy stopped name stages c' s'

theorem stoppedBy_append (name : String) (first second : List (Stage γ σ ε)) (c : γ) (s : σ) :
    stoppedBy stopped name (first ++ second) c s =
      (stoppedBy stopped name first c s ||
        match run stopped first c s with
        | (.error _, _) => false
        | (.ok c', s') => stoppedBy stopped name second c' s') := by
  induction first generalizing c s with
  | nil => rfl
  | cons stage stages ih =>
    rw [List.cons_append, stoppedBy, stoppedBy, run]
    by_cases hskip : (stopped c && !stage.isTerminal) = true
    · rw [if_pos hskip, if_pos hskip, if_pos hskip, ih]
    · rw [if_neg hskip, if_neg hskip, if_neg hskip]
      cases stage.process c s with
      | mk result s' =>
        cases result with
        | error e => rfl
        | ok c' => simp only [ih, Bool.or_assoc]

/-- None of the stages that are not terminal stops what is stopped. -/
theorem stoppedBy_of_stopped {name : String} {stages : List (Stage γ σ ε)} {c : γ}
    (hstopped : stopped c = true) (hterminal : ∀ stage ∈ stages, stage.isTerminal = false)
    (s : σ) : stoppedBy stopped name stages c s = false := by
  induction stages with
  | nil => rfl
  | cons stage stages ih =>
    have hskip : (stopped c && !stage.isTerminal) = true := by
      rw [hstopped, hterminal stage List.mem_cons_self]
      rfl
    rw [stoppedBy, if_pos hskip]
    exact ih fun stage' h => hterminal stage' (List.mem_cons_of_mem _ h)

/-- A stage with another name does not count. -/
theorem stoppedBy_of_name_ne {name : String} {stages : List (Stage γ σ ε)}
    (hname : ∀ stage ∈ stages, stage.name ≠ name) (c : γ) (s : σ) :
    stoppedBy stopped name stages c s = false := by
  induction stages generalizing c s with
  | nil => rfl
  | cons stage stages ih =>
    have hrest := ih fun stage' h => hname stage' (List.mem_cons_of_mem _ h)
    rw [stoppedBy]
    split
    · exact hrest c s
    · split
      · rfl
      · rw [hrest, decide_eq_false (hname stage List.mem_cons_self)]
        rfl

end Lib.Stages
