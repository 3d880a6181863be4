import Mathlib.Data.List.AList

/-!
# Finite maps, read through their keys

A map is a list of entries no two of which have the same key.  Two operations
on maps with pairs of keys, one on the values, and the insertion of a list, each
with one lemma that says what a lookup yields after it.
-/

namespace Lib

variable {α β γ δ : Type} [DecidableEq α] [DecidableEq γ]

abbrev Map (α β : Type) := AList fun _ : α => β

namespace Map

/-- The entries with one first key, under their second keys. -/
def row (m : Map (α × γ) β) (a : α) : Map γ β :=
  (m.entries.filterMap fun e => if e.1.1 = a then some ⟨e.1.2, e.2⟩ else none).toAList

/-- The entries with other first keys. -/
def dropRow (m : Map (α × γ) β) (a : α) : Map (α × γ) β :=
  (m.entries.filter fun e => e.1.1 ≠ a).toAList

/-- The values that `f` keeps, as it yields them. -/
def filterMap (m : Map α β) (f : β → Option δ) : Map α δ :=
  (m.entries.filterMap fun e => (f e.2).map fun d => ⟨e.1, d⟩).toAList

/-- The values one after the other, each under its key. -/
def insertAll (key : β → α) (m : Map α β) (values : List β) : Map α β :=
  values.foldl (fun m value => m.insert (key value) value) m

theorem lookup_row (m : Map (α × γ) β) (a : α) (c : γ) :
    (m.row a).lookup c = m.lookup (a, c) := by
  rw [row, AList.lookup_to_alist]
  show _ = m.entries.dlookup (a, c)
  induction m.entries with
  | nil => rfl
  | cons e es ih =>
    obtain ⟨⟨a', c'⟩, b⟩ := e
    by_cases ha : a' = a
    · subst ha
      by_cases hc : c = c'
      · subst hc
        simp
      · simpa [hc] using ih
    · have hne : (a, c) ≠ (a', c') := fun h => ha (congrArg Prod.fst h).symm
      simpa [ha, hne] using ih

theorem lookup_dropRow (m : Map (α × γ) β) (a : α) (k : α × γ) :
    (m.dropRow a).lookup k = if k.1 = a then none else m.lookup k := by
  rw [dropRow, AList.lookup_to_alist]
  show _ = if k.1 = a then none else m.entries.dlookup k
  induction m.entries with
  | nil => simp
  | cons e es ih =>
    obtain ⟨k', b⟩ := e
    by_cases ha : k'.1 = a
    · have hdrop : List.filter (fun e : (_ : α × γ) × β => decide (e.1.1 ≠ a)) (⟨k', b⟩ :: es) =
          List.filter (fun e => decide (e.1.1 ≠ a)) es := by
        simp [ha]
      rw [hdrop, ih]
      split
      · rfl
      · rename_i hk
        have hne : k ≠ k' := fun h => hk (h ▸ ha)
        rw [List.dlookup_cons_ne _ _ hne]
    · by_cases hk : k = k'
      · subst hk
        simp [ha]
      · simpa [ha, hk] using ih

theorem lookup_filterMap (m : Map α β) (f : β → Option δ) (a : α) :
    (m.filterMap f).lookup a = (m.lookup a).bind f := by
  rw [filterMap, AList.lookup_to_alist]
  show _ = (m.entries.dlookup a).bind f
  have hnodup := m.nodupKeys
  generalize m.entries = es at hnodup ⊢
  induction es with
  | nil => rfl
  | cons e es ih =>
    obtain ⟨a', b⟩ := e
    obtain ⟨hnotMem, hrest⟩ := List.nodupKeys_cons.mp hnodup
    by_cases ha : a = a'
    · subst ha
      cases hf : f b with
      | some d => simp [hf]
      | none =>
        -- the dropped entry was the only one with the key
        have hnone : es.dlookup a = none := List.dlookup_eq_none.mpr hnotMem
        simpa [hf, hnone] using ih hrest
    · cases hf : f b with
      | some d => simpa [hf, ha] using ih hrest
      | none => simpa [hf, ha] using ih hrest

/-- The last value with a key is the one that is found. -/
theorem lookup_insertAll (key : β → α) (m : Map α β) (values : List β) (a : α) :
    (m.insertAll key values).lookup a =
      (values.reverse.find? fun value => key value = a).or (m.lookup a) := by
  unfold insertAll
  induction values generalizing m with
  | nil => rfl
  | cons value values ih =>
    rw [List.foldl_cons, ih, List.reverse_cons, List.find?_append]
    by_cases ha : key value = a
    · subst ha
      simp
    · have hne : a ≠ key value := fun h => ha h.symm
      simp [AList.lookup_insert_ne hne, ha]

end Map

end Lib
