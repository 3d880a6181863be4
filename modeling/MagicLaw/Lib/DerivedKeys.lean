import MagicLaw.Lib.KeyedTable

/-!
# Upserts on a column that the key is derived from

A table may have a primary key that is made of another column, which is unique
too.  An upsert with a conflict clause on the column looks for a row with the
column; if there is none it inserts a row, and that is refused when the derived
key is taken.

`upsertOn` is the statement.  `upsertOn_isNone_iff` says when it is refused and
`upsertOn_eq_self_iff` when it changes nothing.  In a table that `Lists` some
values, with the keys that are derived from them, it is refused exactly when
another of the values has the same key (`Lists.upsertOn_isSome_iff`), and
otherwise the value is listed after it (`Lists.upsertOn`).
-/

namespace Lib.KeyedTable

variable {κ β γ : Type} [DecidableEq κ] [DecidableEq γ] {key : β → κ}

/-- `INSERT … ON CONFLICT(column) DO UPDATE`, where the row to insert has the
value `c` in the column. -/
def upsertOn (t : KeyedTable key) (column : β → γ) (c : γ) (fresh : β) (touch : β → β)
    (htouch : ∀ row, key (touch row) = key row) : Option (KeyedTable key) :=
  match t.rows.find? fun row => column row = c with
  | some old => some (t.update (key old) touch htouch)
  | none => t.insert fresh

section Upsert

variable {t : KeyedTable key} {column : β → γ} {c : γ} {fresh : β} {touch : β → β}
  {htouch : ∀ row, key (touch row) = key row}

/-- The upsert is refused when no row has the column and the key is taken. -/
theorem upsertOn_isNone_iff : (t.upsertOn column c fresh touch htouch).isNone ↔
    (∀ row ∈ t.rows, column row ≠ c) ∧ ∃ row ∈ t.rows, key row = key fresh := by
  unfold upsertOn
  cases hfind : t.rows.find? fun row => column row = c with
  | some old =>
    refine iff_of_false (by simp) fun h => ?_
    exact h.1 old (List.mem_of_find?_eq_some hfind) (by simpa using List.find?_some hfind)
  | none =>
    have hcolumn : ∀ row ∈ t.rows, column row ≠ c := by
      intro row hrow
      simpa using List.find?_eq_none.mp hfind row hrow
    rw [and_iff_right hcolumn]
    show (t.insert fresh).isNone = true ↔ _
    by_cases hfree : t.find? (key fresh) = none
    · rw [insert_eq_some hfree]
      rw [find?_eq_none_iff] at hfree
      exact iff_of_false (by simp) fun ⟨row, hrow, hkey⟩ => hfree row hrow hkey
    · rw [insert_eq_none hfree]
      obtain ⟨row, hrow⟩ := Option.ne_none_iff_exists'.mp hfree
      exact iff_of_true rfl ⟨row, find?_eq_some_iff.mp hrow⟩

/-- The upsert changes nothing exactly when it finds a row and leaves it as it
is. -/
theorem upsertOn_eq_self_iff : t.upsertOn column c fresh touch htouch = some t ↔
    ∃ row, t.rows.find? (fun row => column row = c) = some row ∧ touch row = row := by
  unfold upsertOn
  cases hfind : t.rows.find? fun row => column row = c with
  | some old =>
    have hold : t.find? (key old) = some old :=
      find?_eq_some_iff.mpr ⟨List.mem_of_find?_eq_some hfind, rfl⟩
    simpa using update_eq_self_iff hold touch htouch
  | none =>
    refine iff_of_false (fun h => ?_) (by simp)
    obtain ⟨_, heq⟩ := eq_append_of_insert h
    have hlength := congrArg (fun table => table.rows.length) heq
    simp [append] at hlength

end Upsert

/-- The column of the rows has these values, each once, and their keys are the
ones that are derived from it. -/
structure Lists (t : KeyedTable key) (column : β → γ) (derive : γ → κ) (good : β → Prop)
    (values : List γ) : Prop where
  nodup : (t.rows.map column).Nodup
  mem : ∀ c, c ∈ t.rows.map column ↔ c ∈ values
  derived : ∀ row ∈ t.rows, key row = derive (column row)
  good : ∀ row ∈ t.rows, good row

section Lists

variable {t t' : KeyedTable key} {column : β → γ} {derive : γ → κ} {good : β → Prop}
  {values : List γ} {c : γ} {fresh : β} {touch : β → β} {htouch : ∀ row, key (touch row) = key row}

omit [DecidableEq κ] [DecidableEq γ] in
theorem lists_nil (h : t.rows = []) : Lists t column derive good [] := by
  constructor <;> simp [h]

/-- In such a table the upsert is refused exactly when another value has the
key. -/
theorem Lists.upsertOn_isSome_iff (h : Lists t column derive good values)
    (hfresh : key fresh = derive c) :
    (t.upsertOn column c fresh touch htouch).isSome ↔
      ∀ c' ∈ values, derive c' = derive c → c' = c := by
  rw [← Option.not_isNone, Bool.not_eq_true', Bool.eq_false_iff, ne_eq, upsertOn_isNone_iff]
  constructor
  · intro hnot c' hc' hkey
    obtain ⟨row, hrow, rfl⟩ := List.mem_map.mp ((h.mem c').mpr hc')
    by_contra hne
    refine hnot ⟨fun other hother hcolumn => ?_, row, hrow, ?_⟩
    · -- a row with the column of the new one would have its key
      have hsame : key other = key row := by
        rw [h.derived other hother, h.derived row hrow, hcolumn, hkey]
      have heq := List.inj_on_of_nodup_map t.nodup hother hrow hsame
      exact hne (heq ▸ hcolumn)
    · rw [h.derived row hrow, hkey, hfresh]
  · intro hapart hrefused
    obtain ⟨hnone, row, hrow, hkey⟩ := hrefused
    refine hnone row hrow (hapart _ ((h.mem _).mp (List.mem_map_of_mem hrow)) ?_)
    rw [← h.derived row hrow, hkey, hfresh]

omit [DecidableEq γ] in
/-- A row that is changed and keeps its column. -/
theorem Lists.update {old : κ} (h : Lists t column derive good values)
    (hcolumn : ∀ row, column (touch row) = column row) (htouched : ∀ row, good row → good (touch row)) :
    Lists (t.update old touch htouch) column derive good values := by
  have hrows : ∀ row ∈ (t.update old touch htouch).rows, ∃ before ∈ t.rows,
      column row = column before ∧ key row = key before ∧ good row := by
    intro row hrow
    obtain ⟨before, hbefore, rfl⟩ := List.mem_map.mp hrow
    refine ⟨before, hbefore, ?_⟩
    split
    · exact ⟨hcolumn before, htouch before, htouched before (h.good before hbefore)⟩
    · exact ⟨rfl, rfl, h.good before hbefore⟩
  have hsame : (t.update old touch htouch).rows.map column = t.rows.map column := by
    unfold KeyedTable.update
    rw [List.map_map]
    refine List.map_congr_left fun row _ => ?_
    show column (if key row = old then touch row else row) = column row
    split
    · exact hcolumn row
    · rfl
  refine ⟨?_, fun c' => ?_, fun row hrow => ?_, fun row hrow => ?_⟩
  · rw [hsame]
    exact h.nodup
  · rw [hsame]
    exact h.mem c'
  · obtain ⟨before, hbefore, hsameColumn, hkey, -⟩ := hrows row hrow
    rw [hkey, h.derived before hbefore, hsameColumn]
  · obtain ⟨-, -, -, -, hrowGood⟩ := hrows row hrow
    exact hrowGood

omit [DecidableEq γ] in
/-- A row that is inserted with a new column. -/
theorem Lists.insert (h : Lists t column derive good values) (hfresh : key fresh = derive (column fresh))
    (hgood : good fresh) (hnew : ∀ row ∈ t.rows, column row ≠ column fresh)
    (hsome : t.insert fresh = some t') : Lists t' column derive good (column fresh :: values) := by
  have hnodup := nodup_map_insert h.nodup hsome hnew
  have hderived := forall_of_insert hsome h.derived hfresh
  have hgoods := forall_of_insert hsome h.good hgood
  refine ⟨hnodup, fun c' => ?_, hderived, hgoods⟩
  obtain ⟨hfree, rfl⟩ := eq_append_of_insert hsome
  show c' ∈ (t.rows ++ [fresh]).map column ↔ _
  rw [List.map_append, List.mem_append, h.mem, List.map_singleton, List.mem_singleton,
    List.mem_cons, or_comm]

omit [DecidableEq κ] [DecidableEq γ] in
/-- A value may be listed twice. -/
theorem Lists.of_mem_iff {values' : List γ} (h : Lists t column derive good values)
    (hvalues : ∀ c, c ∈ values ↔ c ∈ values') : Lists t column derive good values' :=
  ⟨h.nodup, fun c => (h.mem c).trans (hvalues c), h.derived, h.good⟩

/-- After it the value is listed too. -/
theorem Lists.upsertOn (h : Lists t column derive good values)
    (hfresh : key fresh = derive c) (hvalue : column fresh = c) (hgood : good fresh)
    (hcolumn : ∀ row, column (touch row) = column row) (htouched : ∀ row, good row → good (touch row))
    (hsome : t.upsertOn column c fresh touch htouch = some t') :
    Lists t' column derive good (c :: values) := by
  subst hvalue
  unfold KeyedTable.upsertOn at hsome
  split at hsome
  · next old hfind =>
    cases hsome
    have hmem : column fresh ∈ values := by
      rw [← h.mem]
      refine List.mem_map.mpr ⟨old, List.mem_of_find?_eq_some hfind, ?_⟩
      simpa using List.find?_some hfind
    refine (h.update hcolumn htouched).of_mem_iff fun c' => ?_
    rw [List.mem_cons]
    exact ⟨.inr, fun hc' => hc'.elim (fun heq => heq ▸ hmem) id⟩
  · next hnone =>
    have hnew : ∀ row ∈ t.rows, column row ≠ column fresh := by
      intro row hrow
      simpa using List.find?_eq_none.mp hnone row hrow
    exact h.insert hfresh hgood hnew hsome

end Lists

end Lib.KeyedTable
