import Mathlib.Data.List.Basic

/-!
# A loop over flags and their values

The arguments of a command are read from the left.  An argument is a switch,
or takes the argument after it as its value, whatever that looks like, or is
refused.  What is read is kept in a state, which later flags may overwrite.

`parse_invariant` is the induction over the loop.
-/

namespace Lib.Flags

variable {σ : Type}

/-- What the loop does with an argument. -/
inductive FlagKind (σ : Type) where
  | switch (set : σ → σ)
  | value (missing : String) (set : String → σ → Except String σ)
  | refuse (error : String)

def parse (flag : String → FlagKind σ) : List String → σ → Except String σ
  | [], s => .ok s
  | arg :: rest, s =>
    match flag arg, rest with
    | .switch set, rest => parse flag rest (set s)
    | .value missing _, [] => .error missing
    | .value _ set, v :: rest =>
      match set v s with
      | .error e => .error e
      | .ok s => parse flag rest s
    | .refuse e, _ => .error e

/-- The flag keeps a property of what was read, with any of the values. -/
def FlagKind.Keeps (P : σ → Prop) (values : List String) : FlagKind σ → Prop
  | .switch set => ∀ s, P s → P (set s)
  | .value _ set => ∀ v ∈ values, ∀ s t, P s → set v s = .ok t → P t
  | .refuse _ => True

/-- What every argument keeps as a flag, with every argument as its value,
holds of what was read. -/
theorem parse_invariant {flag : String → FlagKind σ} {P : σ → Prop} {all args : List String} {s t : σ}
    (hkeeps : ∀ arg ∈ all, (flag arg).Keeps P all) (hargs : args ⊆ all) (hs : P s)
    (hparse : parse flag args s = .ok t) : P t := by
  fun_induction parse flag args s with
  | case1 s =>
    cases hparse
    exact hs
  | case2 arg s set rest hflag ih =>
    have hswitch := hkeeps arg (hargs List.mem_cons_self)
    rw [hflag] at hswitch
    exact ih (fun a ha => hargs (List.mem_cons_of_mem _ ha)) (hswitch s hs) hparse
  | case3 => cases hparse
  | case4 => cases hparse
  | case5 arg s missing set v rest hflag s' hset ih =>
    have hvalue := hkeeps arg (hargs List.mem_cons_self)
    rw [hflag] at hvalue
    have hv : v ∈ all := hargs (List.mem_cons_of_mem _ List.mem_cons_self)
    have hrest : rest ⊆ all := fun a ha =>
      hargs (List.mem_cons_of_mem _ (List.mem_cons_of_mem _ ha))
    exact ih hrest (hvalue v hv s s' hs hset) hparse
  | case6 => cases hparse

end Lib.Flags
