import MagicLaw.Lib.Text

/-!
# Replacing a pattern in a text

`String.replace` goes over the steps of a search for the pattern, from the
left.  What it keeps of the text does not depend on the replacement: these are
the `parts` between the matches.

* `replace_eq`: the replacement joins the parts.
* `intercalate_parts` and `not_contains_of_mem_parts`: the pattern joins them
  to the text, and occurs in none of them.

So a replacement is never searched for the pattern.
-/

namespace Lib.Replace

open String String.Slice String.Slice.Pattern String.Slice.Pattern.Model

/-- The parts of the text between the matches of the pattern. -/
def parts (pattern s : String) : List String := (s.split pattern).toList.map Slice.copy

/-! ## A search and its parts -/

theorem copy_slice_append {s : Slice} {a b c : s.Pos} (hab : a ≤ b) (hbc : b ≤ c) :
    (s.slice a b hab).copy ++ (s.slice b c hbc).copy =
      (s.slice a c (Slice.Pos.le_trans hab hbc)).copy := by
  simp [(Slice.Pos.slice b _ _ hab hbc).splits.eq_append]

/-- Where no match begins the pattern does not occur. -/
theorem not_infix_slice {pattern : String} (hpattern : pattern ≠ "") {s : Slice}
    {first curr : s.Pos} (h : first ≤ curr)
    (hno : ∀ p, first ≤ p → p < curr → ¬ MatchesAt pattern p) :
    ¬ pattern.toList <:+: (s.slice first curr h).copy.toList := by
  rintro ⟨u, v, huv⟩
  have hslice : (s.slice first curr h).copy = String.ofList u ++ pattern ++ String.ofList v := by
    rw [← String.toList_inj, ← huv]
    simp
  obtain ⟨l, r, hfirst, hcurr⟩ := Slice.copy_slice_eq_iff_splits.mp ⟨h, hslice⟩
  have hat : s.copy = (l ++ String.ofList u) ++ (pattern ++ (String.ofList v ++ r)) := by
    rw [hfirst.eq_append]
    simp only [String.append_assoc]
  have hp := Slice.Pos.splits_ofEqAppend hat
  refine hno _ ?_ ?_ (ForwardStringSearcher.matchesAt_iff_splits.mpr ⟨_, _, hp⟩)
  · rw [hfirst.le_iff_exists_eq_append hp]
    exact ⟨String.ofList u, rfl, by simp only [String.append_assoc]⟩
  · rw [hp.lt_iff_exists_eq_append hcurr]
    refine ⟨pattern ++ String.ofList v, ?_, by simp only [String.append_assoc],
      by simp only [String.append_assoc]⟩
    simp [hpattern]

section Search

variable {pattern : String} [StrictPatternModel pattern] {s : Slice} {first curr : s.Pos}
  {steps : List (SearchStep s)}

/-- The parts from `first` on, where no match begins before `curr`. -/
noncomputable def partsFrom (pattern : String) [StrictPatternModel pattern] {s : Slice}
    (first curr : s.Pos) (h : first ≤ curr) : List String :=
  (Model.split pattern first curr h).map fun part => part.toSlice.copy

theorem partsFrom_endPos (h : first ≤ s.endPos) :
    partsFrom pattern first s.endPos h = [(s.slice first s.endPos h).copy] := by
  simp [partsFrom]

theorem partsFrom_of_match {stop : s.Pos} (h : first ≤ curr)
    (hmatch : IsLongestMatchAt pattern curr stop) :
    partsFrom pattern first curr h =
      (s.slice first curr h).copy :: partsFrom pattern stop stop (Slice.Pos.le_refl _) := by
  rw [partsFrom, split_eq_of_isLongestMatchAt hmatch]
  simp [partsFrom]

theorem partsFrom_of_no_match {stop : s.Pos} (h : first ≤ curr) (hle : curr ≤ stop)
    (hno : ∀ p, curr ≤ p → p < stop → ¬ MatchesAt pattern p) :
    partsFrom pattern first curr h = partsFrom pattern first stop (Slice.Pos.le_trans h hle) := by
  rw [partsFrom, partsFrom, split_eq_of_not_matchesAt _ hle hno]

theorem partsFrom_ne_nil (hsteps : IsValidSearchFrom pattern curr steps) (h : first ≤ curr) :
    partsFrom pattern first curr h ≠ [] := by
  induction hsteps with
  | endPos => simp [partsFrom_endPos]
  | matched hmatch _ _ => simp [partsFrom_of_match h hmatch]
  | mismatched hlt hno _ ih =>
    rw [partsFrom_of_no_match h (Std.le_of_lt hlt) hno]
    exact ih _

/-- The replacement goes between the parts. -/
theorem foldl_steps {f : String → SearchStep s → String} {rep : String}
    (hmatched : ∀ acc a b, f acc (.matched a b) = acc ++ rep)
    (hrejected : ∀ acc a b, f acc (.rejected a b) = acc ++ (s.slice! a b).copy)
    (hsteps : IsValidSearchFrom pattern curr steps) (h : first ≤ curr) (acc : String) :
    steps.foldl f (acc ++ (s.slice first curr h).copy) =
      acc ++ rep.intercalate (partsFrom pattern first curr h) := by
  induction hsteps generalizing first acc with
  | endPos => simp [partsFrom_endPos]
  | matched hmatch hvalid ih =>
    have hrest := ih (Slice.Pos.le_refl _) (acc ++ (s.slice first _ h).copy ++ rep)
    rw [Slice.copy_slice_self, String.append_empty] at hrest
    rw [List.foldl_cons, hmatched, hrest, partsFrom_of_match h hmatch,
      intercalate_cons_of_ne_nil (partsFrom_ne_nil hvalid _)]
    simp only [String.append_assoc]
  | mismatched hlt hno hvalid ih =>
    have hle := Std.le_of_lt hlt
    rw [List.foldl_cons, hrejected, ← Slice.slice_eq_slice! (h := hle), String.append_assoc,
      copy_slice_append, ih, partsFrom_of_no_match h hle hno]

/-- The pattern joins the parts to the text. -/
theorem intercalate_partsFrom (hsteps : IsValidSearchFrom pattern curr steps) (h : first ≤ curr) :
    pattern.intercalate (partsFrom pattern first curr h) =
      (s.slice first s.endPos (Slice.Pos.le_endPos _)).copy := by
  induction hsteps generalizing first with
  | endPos => simp [partsFrom_endPos]
  | matched hmatch hvalid ih =>
    obtain ⟨hle, hcopy⟩ := ForwardStringSearcher.isLongestMatchAt_iff.mp hmatch
    rw [partsFrom_of_match h hmatch, intercalate_cons_of_ne_nil (partsFrom_ne_nil hvalid _),
      ih (Slice.Pos.le_refl _), ← hcopy, copy_slice_append, copy_slice_append]
  | mismatched hlt hno hvalid ih =>
    rw [partsFrom_of_no_match h (Std.le_of_lt hlt) hno, ih]

theorem not_infix_of_mem_partsFrom (hpattern : pattern ≠ "")
    (hsteps : IsValidSearchFrom pattern curr steps) (h : first ≤ curr)
    (hno : ∀ p, first ≤ p → p < curr → ¬ MatchesAt pattern p) :
    ∀ part ∈ partsFrom pattern first curr h, ¬ pattern.toList <:+: part.toList := by
  induction hsteps generalizing first with
  | endPos =>
    rw [partsFrom_endPos, List.forall_mem_singleton]
    exact not_infix_slice hpattern h hno
  | matched hmatch hvalid ih =>
    rw [partsFrom_of_match h hmatch, List.forall_mem_cons]
    refine ⟨not_infix_slice hpattern h hno, ih (Slice.Pos.le_refl _) fun p hle hlt => ?_⟩
    exact absurd hle (Std.not_le.mpr hlt)
  | @mismatched _ start stop hlt hrejected hvalid ih =>
    rw [partsFrom_of_no_match h (Std.le_of_lt hlt) hrejected]
    refine ih _ fun p hle hp => ?_
    by_cases hbefore : p < start
    · exact hno p hle hbefore
    · exact hrejected p (Std.not_lt.mp hbefore) hp

end Search

/-! ## Texts -/

variable {pattern : String}

/-- A valid search, and the parts that it finds. -/
theorem parts_eq (hpattern : pattern ≠ "") (s : String) :
    ∃ _ : StrictPatternModel pattern,
      IsValidSearchFrom pattern s.toSlice.startPos (ToForwardSearcher.toSearcher pattern s.toSlice).toList ∧
      parts pattern s = partsFrom pattern s.toSlice.startPos s.toSlice.startPos (Slice.Pos.le_refl _) := by
  have := ForwardStringSearcher.strictPatternModel hpattern
  have := ForwardStringSearcher.lawfulToForwardSearcherModel hpattern
  refine ⟨inferInstance, LawfulToForwardSearcherModel.isValidSearchFrom_toList s.toSlice, ?_⟩
  rw [parts, split_eq_split_toSlice, toList_split_eq_splitToSubslice,
    toList_splitToSubslice_eq_modelSplit, List.map_map]
  rfl

theorem replace_eq (hpattern : pattern ≠ "") (s rep : String) :
    s.replace pattern rep = rep.intercalate (parts pattern s) := by
  obtain ⟨hstrict, hsteps, hparts⟩ := parts_eq hpattern s
  have hstart : "" = "" ++ (s.toSlice.slice s.toSlice.startPos s.toSlice.startPos
      (Slice.Pos.le_refl _)).copy := by
    rw [Slice.copy_slice_self, String.append_empty]
  rw [hparts, String.replace, Slice.replace, ← Std.Iter.foldl_toList, hstart]
  refine (foldl_steps (fun acc _ _ => ?_) (fun _ _ _ => rfl) hsteps _ "").trans String.empty_append
  show acc ++ rep.toSlice.copy = acc ++ rep
  rw [String.copy_toSlice]

theorem intercalate_parts (hpattern : pattern ≠ "") (s : String) :
    pattern.intercalate (parts pattern s) = s := by
  obtain ⟨hstrict, hsteps, hparts⟩ := parts_eq hpattern s
  rw [hparts, intercalate_partsFrom hsteps]
  simp

theorem not_contains_of_mem_parts (hpattern : pattern ≠ "") {s part : String}
    (h : part ∈ parts pattern s) : Text.contains part pattern = false := by
  obtain ⟨hstrict, hsteps, hparts⟩ := parts_eq hpattern s
  rw [hparts] at h
  have hnot := not_infix_of_mem_partsFrom hpattern hsteps (Slice.Pos.le_refl _)
    (fun p hle hlt => absurd hle (Std.not_le.mpr hlt)) part h
  exact decide_eq_false hnot

end Lib.Replace
