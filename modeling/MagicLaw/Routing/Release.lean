import Mathlib.Algebra.Group.Int.Defs
import Mathlib.Algebra.Group.Nat.Defs
import MagicLaw.Routing.Conservation

/-!
# What an insert releases

The reorder window after any sequence of inserts, with arrivals in any order
and negative ones among them.  `releaseCutoff` is the cutoff in numbers without
a limit: the largest arrival, or 0 if that is larger, less the window.

* `released_exactly`: an insert releases, in the order of the sort keys, the
  buffered messages up to the cutoff, it keeps the others, and the cutoff never
  goes down.
-/

namespace MagicLaw.Routing

/-- The message is in the buffer when the new one has been put into it. -/
def ReorderWindow.Buffers (window : ReorderWindow) (msg m : Message) : Prop :=
  (window.buffer.insert msg.sortKey msg)[m.sortKey]? = some m

/-- The largest of the arrivals, and of 0. -/
def largestArrival (arrivals : List Arrival) : Int :=
  (arrivals.map fun arrival => arrival.2.toInt).foldl max 0

/-- The window is taken off, down to the smallest `i64`. -/
def releaseCutoff (windowMs : UInt64) (arrivals : List Arrival) : Int :=
  max Int64.minValue.toInt (largestArrival arrivals - windowMs.toNat)

/-! ## The cutoff -/

theorem toInt_max (a b : Int64) : (max a b).toInt = max a.toInt b.toInt := by
  show (if a ≤ b then b else a).toInt = _
  by_cases hle : a ≤ b
  · have := Int64.le_iff_toInt_le.mp hle
    rw [if_pos hle]
    omega
  · have := Int64.lt_iff_toInt_lt.mp (Int64.not_le.mp hle)
    rw [if_neg hle]
    omega

theorem largestArrival_concat (arrivals : List Arrival) (arrival : Arrival) :
    largestArrival (arrivals ++ [arrival]) =
      max (largestArrival arrivals) arrival.2.toInt := by
  unfold largestArrival
  rw [List.map_append, List.foldl_append]
  rfl

theorem toInt_latestArrivalMs (arrivals : List Arrival) :
    (latestArrivalMs arrivals).toInt = largestArrival arrivals := by
  induction arrivals using List.reverseRecOn with
  | nil => rfl
  | append_singleton arrivals arrival ih =>
    unfold latestArrivalMs
    rw [List.foldl_append, largestArrival_concat, ← ih]
    exact toInt_max _ _

/-- A window that is an `i64` stays what it is when it is cast to one. -/
theorem toInt_toInt64 {windowMs : UInt64} (h : windowMs.toNat ≤ 2 ^ 63 - 1) :
    windowMs.toInt64.toInt = windowMs.toNat := by
  have hofNat : windowMs.toInt64 = Int64.ofNat windowMs.toNat := by
    rw [← UInt64.toInt64_ofNat', UInt64.ofNat_toNat]
  rw [hofNat, Int64.toInt_ofNat_of_lt]
  omega

theorem toInt_cutoffAfter {windowMs : UInt64} (h : windowMs.toNat ≤ 2 ^ 63 - 1)
    (arrivals : List Arrival) :
    (cutoffAfter windowMs arrivals).toInt = releaseCutoff windowMs arrivals := by
  have hmax : Int64.maxValue.toInt = 2 ^ 63 - 1 := Int64.toInt_maxValue
  have hlatest := (latestArrivalMs arrivals).toInt_lt
  unfold cutoffAfter releaseCutoff
  rw [toInt_saturatingSub, toInt_toInt64 h, ← toInt_latestArrivalMs]
  omega

theorem releaseCutoff_concat_le (windowMs : UInt64) (arrivals : List Arrival)
    (arrival : Arrival) :
    releaseCutoff windowMs arrivals ≤ releaseCutoff windowMs (arrivals ++ [arrival]) := by
  unfold releaseCutoff
  rw [largestArrival_concat]
  omega

/-! ## The release -/

theorem released_exactly (windowMs : UInt64) (hwindow : windowMs.toNat ≤ 2 ^ 63 - 1)
    (arrivals : List Arrival) (arrival : Arrival) :
    let window := after windowMs arrivals
    let cutoff := releaseCutoff windowMs (arrivals ++ [arrival])
    let released := (window.insert arrival.1 arrival.2).1
    let kept := (window.insert arrival.1 arrival.2).2
    (released.Pairwise fun m m' => m.sortKey < m'.sortKey) ∧
      (∀ m, m ∈ released ↔ window.Buffers arrival.1 m ∧ m.sortKey.toInt ≤ cutoff) ∧
      (∀ m, kept.Holds m ↔ window.Buffers arrival.1 m ∧ cutoff < m.sortKey.toInt) ∧
      releaseCutoff windowMs arrivals ≤ cutoff := by
  intro window cutoff released kept
  have hcutoff : kept.cutoff.toInt = cutoff := by
    have hafter : kept = after windowMs (arrivals ++ [arrival]) := after_append.symm
    rw [hafter, cutoff_after]
    exact toInt_cutoffAfter hwindow _
  have hle : ∀ m : Message, m.sortKey ≤ kept.cutoff ↔ m.sortKey.toInt ≤ cutoff := by
    intro m
    rw [Int64.le_iff_toInt_le, hcutoff]
  refine ⟨window.sorted_insert arrival.1 arrival.2, ?_, ?_,
    releaseCutoff_concat_le windowMs arrivals arrival⟩
  · intro m
    rw [← hle, ReorderWindow.Buffers, getElem?_inserted_iff]
    exact window.mem_released_iff arrival.1 arrival.2 m
  · intro m
    rw [← Int.not_le, ← hle, ReorderWindow.Buffers, getElem?_inserted_iff]
    exact window.holds_insert_iff arrival.1 arrival.2 m

/-- The clock jumps back from 1000 to -7, and the cutoff stays at 800. -/
theorem released_exactly_jump :
    let window := after 200 [(fromAlice "first" 900, 1000)]
    let kept := (window.insert (fromAlice "second" 750) (-7)).2
    ∀ m, kept.Holds m ↔ window.Buffers (fromAlice "second" 750) m ∧ 800 < m.sortKey.toInt := by
  have hcutoff : releaseCutoff 200
      ([(fromAlice "first" 900, 1000)] ++ [(fromAlice "second" 750, -7)]) = 800 := by
    decide
  have h := (released_exactly 200 (by decide) [(fromAlice "first" 900, 1000)]
    (fromAlice "second" 750, -7)).2.2.1
  rw [hcutoff] at h
  exact h

end MagicLaw.Routing
