import Mathlib.Data.List.Nodup

/-!
# Tables with a primary key

A table is a list of rows, in the order of their insertion, no two of which
have the same key.  The uniqueness is a field of the table, so that every
operation keeps it by construction.

The operations are those of SQL: an insert that is refused or ignored when
the key is taken, an update and a delete of the row with a key, and a select.
`find?` is the row with a key, and each operation has one lemma that says what
`find?` yields after it, for every key.
-/

namespace Lib

/-- A table of rows `β`, with the primary key `key`. -/
structure KeyedTable {κ β : Type} (key : β → κ) where
  rows : List β
  nodup : (rows.map key).Nodup

namespace KeyedTable

variable {κ β : Type} [DecidableEq κ] {key : β → κ}

omit [DecidableEq κ] in
theorem eq_of_rows {t t' : KeyedTable key} (h : t.rows = t'.rows) : t = t' := by
  cases t
  cases t'
  cases h
  rfl

def empty : KeyedTable key where
  rows := []
  nodup := List.nodup_nil

/-- One row. -/
def single (row : β) : KeyedTable key where
  rows := [row]
  nodup := List.nodup_singleton _

/-- The row with a key. -/
def find? (t : KeyedTable key) (k : κ) : Option β :=
  t.rows.find? fun row => key row = k

theorem find?_eq_some_iff {t : KeyedTable key} {k : κ} {row : β} :
    t.find? k = some row ↔ row ∈ t.rows ∧ key row = k := by
  constructor
  · intro h
    refine ⟨List.mem_of_find?_eq_some h, ?_⟩
    have := List.find?_some h
    simpa using this
  · intro hrow
    obtain ⟨hmem, rfl⟩ := hrow
    cases h : t.find? (key row) with
    | none =>
      have := List.find?_eq_none.mp h row hmem
      simp at this
    | some row' =>
      have hmem' : row' ∈ t.rows := List.mem_of_find?_eq_some h
      have hkey : key row' = key row := by
        have := List.find?_some h
        simpa using this
      rw [List.inj_on_of_nodup_map t.nodup hmem' hmem hkey]

theorem key_of_find? {t : KeyedTable key} {k : κ} {row : β} (h : t.find? k = some row) :
    key row = k :=
  (find?_eq_some_iff.mp h).2

theorem find?_eq_none_iff {t : KeyedTable key} {k : κ} :
    t.find? k = none ↔ ∀ row ∈ t.rows, key row ≠ k := by
  rw [find?, List.find?_eq_none]
  simp

@[simp] theorem find?_empty (k : κ) : (empty : KeyedTable key).find? k = none := rfl

/-! ## Insert -/

/-- One more row, with a key that is not taken. -/
def append (t : KeyedTable key) (row : β) (h : t.find? (key row) = none) : KeyedTable key where
  rows := t.rows ++ [row]
  nodup := by
    rw [List.map_append, List.map_singleton]
    refine List.Nodup.append t.nodup (List.nodup_singleton _) ?_
    intro k hk hk'
    obtain ⟨row', hrow', rfl⟩ := List.mem_map.mp hk
    exact find?_eq_none_iff.mp h row' hrow' (List.mem_singleton.mp hk')

theorem find?_append (t : KeyedTable key) (row : β) (h : t.find? (key row) = none) (k : κ) :
    (t.append row h).find? k = if k = key row then some row else t.find? k := by
  unfold append find?
  rw [List.find?_append]
  by_cases hk : k = key row
  · subst hk
    have hnone : t.rows.find? (fun row' => key row' = key row) = none := h
    simp [hnone]
  · rw [if_neg hk, List.find?_singleton]
    simp [Ne.symm hk]

/-- `INSERT`: refused when the key is taken. -/
def insert (t : KeyedTable key) (row : β) : Option (KeyedTable key) :=
  if h : t.find? (key row) = none then some (t.append row h) else none

/-- `INSERT OR IGNORE`. -/
def insertOrIgnore (t : KeyedTable key) (row : β) : KeyedTable key :=
  if h : t.find? (key row) = none then t.append row h else t

theorem insert_eq_some {t : KeyedTable key} {row : β} (h : t.find? (key row) = none) :
    t.insert row = some (t.append row h) :=
  dif_pos h

theorem insert_eq_none {t : KeyedTable key} {row : β} (h : t.find? (key row) ≠ none) :
    t.insert row = none :=
  dif_neg h

/-- What an insert that is not refused leaves. -/
theorem eq_append_of_insert {t t' : KeyedTable key} {row : β} (h : t.insert row = some t') :
    ∃ hfree : t.find? (key row) = none, t' = t.append row hfree := by
  by_cases hfree : t.find? (key row) = none
  · rw [insert_eq_some hfree] at h
    exact ⟨hfree, (Option.some.inj h).symm⟩
  · rw [insert_eq_none hfree] at h
    cases h

/-- What holds of the rows and of the new one holds after an insert. -/
theorem forall_of_insert {t t' : KeyedTable key} {row : β} {P : β → Prop}
    (hinsert : t.insert row = some t') (h : ∀ old ∈ t.rows, P old) (hnew : P row) :
    ∀ row ∈ t'.rows, P row := by
  obtain ⟨hfree, rfl⟩ := eq_append_of_insert hinsert
  exact List.forall_mem_append.mpr ⟨h, List.forall_mem_singleton.mpr hnew⟩

theorem find?_insertOrIgnore (t : KeyedTable key) (row : β) (k : κ) :
    (t.insertOrIgnore row).find? k =
      if k = key row then some ((t.find? k).getD row) else t.find? k := by
  unfold insertOrIgnore
  by_cases hrow : t.find? (key row) = none
  · rw [dif_pos hrow, find?_append]
    by_cases hk : k = key row
    · subst hk
      simp [hrow]
    · rw [if_neg hk, if_neg hk]
  · rw [dif_neg hrow]
    by_cases hk : k = key row
    · subst hk
      obtain ⟨old, hold⟩ := Option.ne_none_iff_exists'.mp hrow
      simp [hold]
    · rw [if_neg hk]

/-! ## Update -/

/-- `UPDATE … WHERE key = k`. -/
def update (t : KeyedTable key) (k : κ) (f : β → β) (hf : ∀ row, key (f row) = key row) :
    KeyedTable key where
  rows := t.rows.map fun row => if key row = k then f row else row
  nodup := by
    have hkeys : (t.rows.map fun row => if key row = k then f row else row).map key =
        t.rows.map key := by
      rw [List.map_map]
      refine List.map_congr_left fun row _ => ?_
      show key (if key row = k then f row else row) = key row
      by_cases h : key row = k
      · rw [if_pos h, hf]
      · rw [if_neg h]
    rw [hkeys]
    exact t.nodup

theorem find?_update (t : KeyedTable key) (k : κ) (f : β → β)
    (hf : ∀ row, key (f row) = key row) (k' : κ) :
    (t.update k f hf).find? k' = if k' = k then (t.find? k).map f else t.find? k' := by
  have hkey : ∀ row, key (if key row = k then f row else row) = key row := by
    intro row
    by_cases h : key row = k
    · rw [if_pos h, hf]
    · rw [if_neg h]
  have hfind : (t.update k f hf).find? k' =
      (t.find? k').map fun row => if key row = k then f row else row := by
    unfold update find?
    rw [List.find?_map]
    refine congrArg _ (congrArg (List.find? · t.rows) ?_)
    funext row
    simp only [Function.comp, hkey]
  rw [hfind]
  by_cases hk : k' = k
  · subst hk
    rw [if_pos rfl]
    cases h : t.find? k' with
    | none => rfl
    | some row => simp [key_of_find? h]
  · rw [if_neg hk]
    cases h : t.find? k' with
    | none => rfl
    | some row => simp [key_of_find? h, hk]

/-- One row is replaced, in its place. -/
theorem rows_update {t : KeyedTable key} {k : κ} {row : β} (h : t.find? k = some row) (f : β → β)
    (hf : ∀ row, key (f row) = key row) :
    ∃ before after, t.rows = before ++ row :: after ∧
      (t.update k f hf).rows = before ++ f row :: after := by
  obtain ⟨hrow, rfl⟩ := find?_eq_some_iff.mp h
  obtain ⟨before, after, hrows⟩ := List.append_of_mem hrow
  have hnodup := t.nodup
  rw [hrows, List.map_append, List.map_cons, List.nodup_middle, List.nodup_cons,
    List.mem_append, not_or] at hnodup
  have hsame : ∀ l : List β, key row ∉ l.map key →
      l.map (fun old => if key old = key row then f old else old) = l := by
    intro l hl
    refine (List.map_congr_left fun old hold => ?_).trans (List.map_id l)
    exact if_neg fun hkey => hl (List.mem_map.mpr ⟨old, hold, hkey⟩)
  refine ⟨before, after, hrows, ?_⟩
  show t.rows.map (fun old => if key old = key row then f old else old) = _
  rw [hrows, List.map_append, List.map_cons, if_pos rfl, hsame before hnodup.1.1,
    hsame after hnodup.1.2]

/-- An update changes nothing exactly when it leaves the row as it is. -/
theorem update_eq_self_iff {t : KeyedTable key} {k : κ} {row : β} (h : t.find? k = some row)
    (f : β → β) (hf : ∀ row, key (f row) = key row) : t.update k f hf = t ↔ f row = row := by
  obtain ⟨before, after, hrows, hupdate⟩ := rows_update h f hf
  constructor
  · intro heq
    rw [heq, hrows, List.append_cancel_left_eq, List.cons.injEq] at hupdate
    exact hupdate.1.symm
  · intro hrow
    apply eq_of_rows
    rw [hupdate, hrow, hrows]

/-- The rows that have a property, after an update. -/
theorem countP_update {t : KeyedTable key} {k : κ} {row : β} (h : t.find? k = some row)
    (f : β → β) (hf : ∀ row, key (f row) = key row) (p : β → Bool) :
    (t.update k f hf).rows.countP p + (if p row then 1 else 0) =
      t.rows.countP p + if p (f row) then 1 else 0 := by
  obtain ⟨before, after, hrows, hupdate⟩ := rows_update h f hf
  rw [hrows, hupdate, List.countP_append, List.countP_append, List.countP_cons, List.countP_cons]
  omega

/-! ## Other columns -/

/-- An update of one row that does not touch a column. -/
theorem nodup_map_update {γ : Type} {t : KeyedTable key} {k : κ} {column : β → γ} (f : β → β)
    (hf : ∀ row, key (f row) = key row) (hcolumn : ∀ row, column (f row) = column row)
    (h : (t.rows.map column).Nodup) : ((t.update k f hf).rows.map column).Nodup := by
  have hsame : (t.update k f hf).rows.map column = t.rows.map column := by
    unfold update
    rw [List.map_map]
    refine List.map_congr_left fun row _ => ?_
    show column (if key row = k then f row else row) = column row
    split
    · exact hcolumn row
    · rfl
  rw [hsame]
  exact h

/-- One more row, with a column that no row has. -/
theorem nodup_map_insert {γ : Type} {t t' : KeyedTable key} {row : β} {column : β → γ}
    (h : (t.rows.map column).Nodup) (hinsert : t.insert row = some t')
    (hnew : ∀ old ∈ t.rows, column old ≠ column row) : (t'.rows.map column).Nodup := by
  obtain ⟨hfree, rfl⟩ := eq_append_of_insert hinsert
  unfold append
  rw [List.map_append, List.map_singleton]
  refine h.append (List.nodup_singleton _) fun value hvalue hvalue' => ?_
  obtain ⟨old, hold, rfl⟩ := List.mem_map.mp hvalue
  exact hnew old hold (List.mem_singleton.mp hvalue')

/-! ## Delete and select -/

/-- `DELETE … WHERE key = k`. -/
def delete (t : KeyedTable key) (k : κ) : KeyedTable key where
  rows := t.rows.filter fun row => key row ≠ k
  nodup := t.nodup.sublist (List.filter_sublist.map key)

theorem find?_delete (t : KeyedTable key) (k k' : κ) :
    (t.delete k).find? k' = if k' = k then none else t.find? k' := by
  unfold delete find?
  rw [List.find?_filter]
  by_cases hk : k' = k
  · rw [if_pos hk, List.find?_eq_none]
    intro row _
    simp [hk]
  · rw [if_neg hk]
    refine congrArg (List.find? · t.rows) ?_
    funext row
    by_cases hrow : key row = k'
    · simp [hrow, hk]
    · simp [hrow]

/-- The row takes the place of the one with its key. -/
def upsert (t : KeyedTable key) (row : β) : KeyedTable key :=
  (t.delete (key row)).append row (by rw [find?_delete, if_pos rfl])

theorem find?_upsert (t : KeyedTable key) (row : β) (k : κ) :
    (t.upsert row).find? k = if k = key row then some row else t.find? k := by
  unfold upsert
  rw [find?_append, find?_delete]
  by_cases hk : k = key row
  · rw [if_pos hk, if_pos hk]
  · rw [if_neg hk, if_neg hk, if_neg hk]

/-- `DELETE … WHERE NOT p`. -/
def retain (t : KeyedTable key) (p : β → Bool) : KeyedTable key where
  rows := t.rows.filter p
  nodup := t.nodup.sublist (List.filter_sublist.map key)

theorem find?_retain (t : KeyedTable key) (p : β → Bool) (k : κ) :
    (t.retain p).find? k = (t.find? k).filter p := by
  cases hfind : t.find? k with
  | none =>
    rw [find?_eq_none_iff] at hfind
    rw [Option.filter_none, find?_eq_none_iff]
    intro row hrow
    exact hfind row (List.mem_of_mem_filter hrow)
  | some row =>
    obtain ⟨hmem, hkey⟩ := find?_eq_some_iff.mp hfind
    by_cases hp : p row = true
    · rw [Option.filter_some, if_pos hp, find?_eq_some_iff]
      exact ⟨List.mem_filter.mpr ⟨hmem, hp⟩, hkey⟩
    · rw [Option.filter_some, if_neg hp, find?_eq_none_iff]
      intro row' hrow' hkey'
      obtain ⟨hmem', hp'⟩ := List.mem_filter.mp hrow'
      have hfind' := find?_eq_some_iff.mpr ⟨hmem', hkey'⟩
      rw [hfind, Option.some.injEq] at hfind'
      exact hp (hfind' ▸ hp')

/-- `SELECT … WHERE p`, in the order of insertion. -/
def select (t : KeyedTable key) (p : β → Bool) : List β :=
  t.rows.filter p

theorem mem_select {t : KeyedTable key} {p : β → Bool} {row : β} :
    row ∈ t.select p ↔ t.find? (key row) = some row ∧ p row = true := by
  rw [select, List.mem_filter, find?_eq_some_iff, and_iff_left rfl]

omit [DecidableEq κ] in
theorem nodup_select (t : KeyedTable key) (p : β → Bool) : ((t.select p).map key).Nodup :=
  t.nodup.sublist (List.filter_sublist.map key)

end KeyedTable

end Lib
