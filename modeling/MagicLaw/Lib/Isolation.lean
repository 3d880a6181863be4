import MagicLaw.Lib.Machine

/-!
# What some actions of a run see of the others

A machine whose actions are always enabled puts something out with each
action.  The run without some of its actions may put out something else with
the rest of them.

`Unwinding` relates the states of the run to those of the run without the
dropped actions, step by step.  Where a kept action puts out the same in
related states exactly when it meets a condition, the two runs put out the
same exactly when every kept action of the run meets it (`outputs_eq_iff`).
-/

namespace Lib.Isolation

open Lib.Machine

variable {σ α ο : Type*}

/-- What the kept actions of a run put out. -/
def outputs (f : σ → α → σ) (out : σ → α → ο) (kept : α → Bool) : σ → List α → List ο
  | _, [] => []
  | s, a :: as =>
    if kept a then out s a :: outputs f out kept (f s a) as else outputs f out kept (f s a) as

/-- The dropped actions are not seen by the related states, and the kept ones
put out the same where they meet `P`, and only there. -/
structure Unwinding (f : σ → α → σ) (out : σ → α → ο) (kept : α → Bool) (Sim : σ → σ → Prop)
    (P : σ → α → Prop) : Prop where
  dropped : ∀ s t a, kept a = false → Sim s t → Sim (f s a) t
  out_eq_iff : ∀ s t a, kept a = true → Sim s t → (out s a = out t a ↔ P s a)
  sim : ∀ s t a, kept a = true → Sim s t → P s a → Sim (f s a) (f t a)

section Unwinding

variable {f : σ → α → σ} {out : σ → α → ο} {kept : α → Bool} {Sim : σ → σ → Prop}
  {P : σ → α → Prop}

theorem outputs_cons_kept {a : α} (h : kept a = true) (s : σ) (as : List α) :
    outputs f out kept s (a :: as) = out s a :: outputs f out kept (f s a) as :=
  if_pos h

theorem outputs_cons_dropped {a : α} (h : kept a = false) (s : σ) (as : List α) :
    outputs f out kept s (a :: as) = outputs f out kept (f s a) as :=
  if_neg (by simp [h])

theorem everyStep_total_cons (Q : σ → α → Prop) (s : σ) (a : α) (as : List α) :
    EveryStep (total f) Q s (a :: as) ↔ Q s a ∧ EveryStep (total f) Q (f s a) as := by
  simp [EveryStep, total]

/-- The run and the run without the dropped actions put out the same exactly
when every kept action meets the condition. -/
theorem outputs_eq_iff (h : Unwinding f out kept Sim P) {s t : σ} (hsim : Sim s t) (as : List α) :
    outputs f out kept s as = outputs f out kept t (as.filter kept) ↔
      EveryStep (total f) (fun s a => kept a = true → P s a) s as := by
  induction as generalizing s t with
  | nil => simp [outputs, EveryStep]
  | cons a as ih =>
    rw [everyStep_total_cons]
    cases hkept : kept a with
    | false =>
      have hfilter : (a :: as).filter kept = as.filter kept := by simp [hkept]
      rw [hfilter, outputs_cons_dropped hkept, ih (h.dropped s t a hkept hsim)]
      simp
    | true =>
      have hfilter : (a :: as).filter kept = a :: as.filter kept := by simp [hkept]
      rw [hfilter, outputs_cons_kept hkept, outputs_cons_kept hkept, List.cons.injEq,
        h.out_eq_iff s t a hkept hsim]
      simp only [forall_const]
      apply and_congr_right
      intro hP
      exact ih (h.sim s t a hkept hsim hP)

end Unwinding

/-- A machine that another one simulates puts out the same. -/
theorem outputs_eq_of_sim {τ : Type*} {f : σ → α → σ} {out : σ → α → ο} {g : τ → α → τ}
    {out' : τ → α → ο} (Sim : σ → τ → Prop) (hout : ∀ s t a, Sim s t → out s a = out' t a)
    (hstep : ∀ s t a, Sim s t → Sim (f s a) (g t a)) (kept : α → Bool) {s : σ} {t : τ}
    (hsim : Sim s t) (as : List α) : outputs f out kept s as = outputs g out' kept t as := by
  induction as generalizing s t with
  | nil => rfl
  | cons a as ih =>
    have hrest := ih (hstep s t a hsim)
    cases hkept : kept a with
    | false => rw [outputs_cons_dropped hkept, outputs_cons_dropped hkept, hrest]
    | true => rw [outputs_cons_kept hkept, outputs_cons_kept hkept, hout s t a hsim, hrest]

end Lib.Isolation
