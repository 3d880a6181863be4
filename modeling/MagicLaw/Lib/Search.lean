import Mathlib.Data.List.Sort

/-!
# A search from the greatest down

A list is sorted by size, the greatest first, and searched for the first item
that a function accepts.  Where no two accepted items have one size, the hit is
the greatest accepted item, whatever the order of the list was before.
-/

namespace Lib.Search

variable {α β : Type} {f : α → Option β} {size : α → Nat} {l : List α}

/-- The accepted items differ in size. -/
def Apart (f : α → Option β) (size : α → Nat) (l : List α) : Prop :=
  ∀ a ∈ l, ∀ b ∈ l, (f a).isSome → (f b).isSome → size a = size b → a = b

theorem Apart.tail {a : α} (h : Apart f size (a :: l)) : Apart f size l :=
  fun b hb c hc => h b (List.mem_cons_of_mem a hb) c (List.mem_cons_of_mem a hc)

theorem findSome?_eq_some_iff_of_pairwise (hsorted : l.Pairwise fun a b => size b ≤ size a)
    (hapart : Apart f size l) {x : β} :
    l.findSome? f = some x ↔
      ∃ a ∈ l, f a = some x ∧ ∀ b ∈ l, (f b).isSome → size b ≤ size a := by
  induction l with
  | nil => simp
  | cons a l ih =>
    obtain ⟨hfirst, hrest⟩ := List.pairwise_cons.mp hsorted
    cases ha : f a with
    | some y =>
      rw [List.findSome?_cons_of_isSome (by rw [ha]; rfl), ha]
      constructor
      · intro hxy
        refine ⟨a, List.mem_cons_self, ha.trans hxy, fun b hb _ => ?_⟩
        rcases List.mem_cons.mp hb with rfl | hb
        · exact Nat.le_refl _
        · exact hfirst b hb
      · -- no item behind `a` is greater, so the greatest accepted one is `a`
        intro ⟨b, hb, hbx, hmax⟩
        have hab : size a ≤ size b := hmax a List.mem_cons_self (by rw [ha]; rfl)
        have hba : size b ≤ size a := by
          rcases List.mem_cons.mp hb with rfl | hb
          · exact Nat.le_refl _
          · exact hfirst b hb
        have heq : b = a := hapart b hb a List.mem_cons_self (by rw [hbx]; rfl) (by rw [ha]; rfl)
          (Nat.le_antisymm hba hab)
        rw [← ha, ← heq, hbx]
    | none =>
      have hnot : ∀ b, (f b).isSome → b ∈ a :: l → b ∈ l := by
        intro b hb hmem
        rcases List.mem_cons.mp hmem with rfl | hmem
        · rw [ha] at hb
          cases hb
        · exact hmem
      rw [List.findSome?_cons_of_isNone (by rw [ha]; rfl), ih hrest hapart.tail]
      constructor
      · intro ⟨b, hb, hbx, hmax⟩
        exact ⟨b, List.mem_cons_of_mem a hb, hbx, fun c hc hsome => hmax c (hnot c hsome hc) hsome⟩
      · intro ⟨b, hb, hbx, hmax⟩
        exact ⟨b, hnot b (by rw [hbx]; rfl) hb, hbx,
          fun c hc => hmax c (List.mem_cons_of_mem a hc)⟩

/-- The search finds the greatest item that is accepted. -/
theorem findSome?_insertionSort (hapart : Apart f size l) {x : β} :
    (l.insertionSort fun a b => size b ≤ size a).findSome? f = some x ↔
      ∃ a ∈ l, f a = some x ∧ ∀ b ∈ l, (f b).isSome → size b ≤ size a := by
  have : Std.Total fun a b : α => size b ≤ size a := ⟨fun a b => Nat.le_total _ _⟩
  have : IsTrans α fun a b => size b ≤ size a := ⟨fun _ _ _ hab hbc => Nat.le_trans hbc hab⟩
  have hmem : ∀ a, a ∈ l.insertionSort (fun a b => size b ≤ size a) ↔ a ∈ l :=
    fun a => List.mem_insertionSort _
  rw [findSome?_eq_some_iff_of_pairwise (List.pairwise_insertionSort _ l)
    fun a ha b hb => hapart a ((hmem a).mp ha) b ((hmem b).mp hb)]
  simp only [hmem]

end Lib.Search
