import Mathlib.Data.List.Perm.Subperm
import Mathlib.Logic.Function.Basic

/-!
# Stamps that are a gap apart

A limiter keeps, for each key, the instant of the last attempt, and admits an
attempt that comes a gap later.  A stamp is an admitted attempt: its key and
its instant.

`Spaced` is the invariant of the limiter: no stamp is later than the last
attempt of its key, and two stamps of one key are a gap apart.

* `Spaced.touch` is an attempt that is not admitted, `Spaced.admit` one that
  is.
* `Spaced.of_subperm` forgets and rearranges stamps.
-/

namespace Lib.Spacing

variable {κ : Type} {gap : Nat}

structure Stamp (κ : Type) where
  key : κ
  instant : Nat

/-- Two stamps of one key are a gap apart. -/
def Apart (gap : Nat) (a b : Stamp κ) : Prop :=
  a.key = b.key → a.instant + gap ≤ b.instant ∨ b.instant + gap ≤ a.instant

theorem Apart.symm {a b : Stamp κ} (h : Apart gap a b) : Apart gap b a :=
  fun hkey => (h hkey.symm).symm

structure Spaced (gap : Nat) (last : κ → Option Nat) (stamps : List (Stamp κ)) : Prop where
  covered : ∀ a ∈ stamps, ∃ t, last a.key = some t ∧ a.instant ≤ t
  apart : stamps.Pairwise (Apart gap)

variable {last : κ → Option Nat} {stamps stamps' : List (Stamp κ)}

theorem spaced_nil : Spaced gap last [] :=
  ⟨fun _ h => absurd h List.not_mem_nil, List.Pairwise.nil⟩

theorem Spaced.of_perm (h : Spaced gap last stamps) (hperm : stamps.Perm stamps') :
    Spaced gap last stamps' where
  covered a ha := h.covered a (hperm.mem_iff.mpr ha)
  apart := (hperm.pairwise_iff fun h => h.symm).mp h.apart

theorem Spaced.of_sublist (h : Spaced gap last stamps) (hsub : stamps'.Sublist stamps) :
    Spaced gap last stamps' where
  covered a ha := h.covered a (hsub.subset ha)
  apart := h.apart.sublist hsub

theorem Spaced.of_subperm (h : Spaced gap last stamps) (hsub : stamps'.Subperm stamps) :
    Spaced gap last stamps' := by
  obtain ⟨list, hperm, hsublist⟩ := hsub
  exact (h.of_sublist hsublist).of_perm hperm

variable [DecidableEq κ]

/-- The last attempt of a key is not earlier than the one before. -/
theorem Spaced.touch (h : Spaced gap last stamps) {key : κ} {instant : Nat}
    (hlater : ∀ t, last key = some t → t ≤ instant) :
    Spaced gap (Function.update last key (some instant)) stamps where
  covered a ha := by
    obtain ⟨t, ht, hle⟩ := h.covered a ha
    by_cases hkey : a.key = key
    · rw [hkey, Function.update_self]
      rw [hkey] at ht
      exact ⟨instant, rfl, Nat.le_trans hle (hlater t ht)⟩
    · rw [Function.update_of_ne hkey]
      exact ⟨t, ht, hle⟩
  apart := h.apart

/-- An attempt that comes a gap after the last one of its key is admitted. -/
theorem Spaced.admit (h : Spaced gap last stamps) {key : κ} {instant : Nat}
    (hlater : ∀ t, last key = some t → t + gap ≤ instant) :
    Spaced gap (Function.update last key (some instant)) (⟨key, instant⟩ :: stamps) := by
  have htouch : Spaced gap (Function.update last key (some instant)) stamps :=
    h.touch fun t ht => Nat.le_trans (Nat.le_add_right t gap) (hlater t ht)
  constructor
  · intro a ha
    rcases List.mem_cons.mp ha with rfl | ha
    · exact ⟨instant, Function.update_self .., Nat.le_refl _⟩
    · exact htouch.covered a ha
  · refine List.pairwise_cons.mpr ⟨?_, h.apart⟩
    intro a ha hkey
    obtain ⟨t, ht, hle⟩ := h.covered a ha
    have hkey' : key = a.key := hkey
    have hgap : t + gap ≤ instant := hlater t (hkey' ▸ ht)
    right
    show a.instant + gap ≤ instant
    omega

end Lib.Spacing
