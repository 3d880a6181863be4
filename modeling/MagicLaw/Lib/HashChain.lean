import Mathlib.Data.List.Infix
import Mathlib.Data.List.Nodup

/-!
# Hash chains

A chain is a list of links.  Each link carries a content, the hash of the
link before it (`none` for the first link), and its own hash, which `hash`
computes from the other two.  `Linked hash p ls` says that `ls` continues a
chain whose last hash is `p`.

The module proves the three facts that an integrity argument needs.

* `linked_append`: a chain extends exactly at its head.
* `linked_iff_of_same_hashes`: a copy with the same stored hashes is a chain
  exactly when every content still hashes to the stored value.
* `linked_iff_prefix`: of all the lists whose links are drawn from a chain,
  exactly the prefixes are chains.  It rests on `hashes_nodup`: the hashes
  along a chain are distinct as soon as equal hashes commit to equal
  predecessors (`Binding`).
-/

namespace Lib.HashChain

/-- One link of a chain. -/
structure Link (H C : Type*) where
  prev : Option H
  content : C
  hash : H

variable {H C : Type*} {hash : Option H → C → H}

/-- The links continue a chain whose last hash is `p`. -/
def Linked (hash : Option H → C → H) : Option H → List (Link H C) → Prop
  | _, [] => True
  | p, l :: ls =>
      l.prev = p ∧ l.hash = hash l.prev l.content ∧ Linked hash (some l.hash) ls

/-- The last hash of a chain that continues one whose last hash is `p`. -/
def head (p : Option H) : List (Link H C) → Option H
  | [] => p
  | l :: ls => head (some l.hash) ls

@[simp] theorem head_nil (p : Option H) : head p ([] : List (Link H C)) = p := rfl

@[simp] theorem head_append (p : Option H) (xs ys : List (Link H C)) :
    head p (xs ++ ys) = head (head p xs) ys := by
  induction xs generalizing p with
  | nil => rfl
  | cons x xs ih => exact ih _

theorem head_take_succ {ls : List (Link H C)} {i : Nat} (p : Option H)
    (hi : i < ls.length) : head p (ls.take (i + 1)) = some (ls[i]).hash := by
  rw [List.take_succ_eq_append_getElem hi, head_append]
  rfl

/-! ## Extending and cutting a chain -/

theorem linked_append (p : Option H) (xs ys : List (Link H C)) :
    Linked hash p (xs ++ ys) ↔ Linked hash p xs ∧ Linked hash (head p xs) ys := by
  induction xs generalizing p with
  | nil => simp [Linked]
  | cons x xs ih =>
    simp only [List.cons_append, Linked, ih, head, and_assoc]

/-- One more link continues a chain exactly when it names the head and
carries its own hash. -/
theorem linked_concat (p : Option H) (xs : List (Link H C)) (x : Link H C) :
    Linked hash p (xs ++ [x]) ↔
      Linked hash p xs ∧ x.prev = head p xs ∧ x.hash = hash x.prev x.content := by
  rw [linked_append]
  simp [Linked]

theorem Linked.of_prefix {p : Option H} {xs ys : List (Link H C)}
    (h : Linked hash p ys) (hpre : xs <+: ys) : Linked hash p xs := by
  obtain ⟨zs, rfl⟩ := hpre
  exact ((linked_append p xs zs).mp h).1

/-- The link at position `i` names the head of the links before it. -/
theorem Linked.prev_getElem {p : Option H} {ls : List (Link H C)}
    (h : Linked hash p ls) {i : Nat} (hi : i < ls.length) :
    (ls[i]).prev = head p (ls.take i) := by
  have hpre : ls.take (i + 1) <+: ls := List.take_prefix _ _
  have hlink := h.of_prefix hpre
  rw [List.take_succ_eq_append_getElem hi, linked_concat] at hlink
  exact hlink.2.1

theorem Linked.hash_of_mem {p : Option H} {ls : List (Link H C)}
    (h : Linked hash p ls) {l : Link H C} (hl : l ∈ ls) :
    l.hash = hash l.prev l.content := by
  induction ls generalizing p with
  | nil => simp at hl
  | cons x xs ih =>
    rcases List.mem_cons.mp hl with rfl | hl
    · exact h.2.1
    · exact ih h.2.2 hl

/-- A link of a chain names no predecessor, or the hash of another link. -/
theorem Linked.prev_of_mem {ls : List (Link H C)} (h : Linked hash none ls)
    {l : Link H C} (hl : l ∈ ls) :
    l.prev = none ∨ ∃ l' ∈ ls, l.prev = some l'.hash := by
  obtain ⟨i, hi, rfl⟩ := List.mem_iff_getElem.mp hl
  rw [h.prev_getElem hi]
  cases i with
  | zero => exact Or.inl rfl
  | succ i =>
    have hi' : i < ls.length := by omega
    exact Or.inr ⟨ls[i], List.getElem_mem hi', head_take_succ none hi'⟩

/-! ## A copy with the same stored hashes -/

/-- The two links store the same two hashes. -/
def SameHashes (l l' : Link H C) : Prop :=
  l'.prev = l.prev ∧ l'.hash = l.hash

/-- A copy of a chain that keeps the stored hashes is a chain exactly when
every content of the copy still hashes to the stored value. -/
theorem linked_iff_of_same_hashes {p : Option H} {ls ls' : List (Link H C)}
    (h : Linked hash p ls) (hsame : List.Forall₂ SameHashes ls ls') :
    Linked hash p ls' ↔
      List.Forall₂ (fun l l' => hash l.prev l'.content = hash l.prev l.content) ls ls' := by
  induction hsame generalizing p with
  | nil => simp [Linked]
  | @cons l l' ls ls' hl _ ih =>
    obtain ⟨hprev, hhash, hrest⟩ := h
    have hkeep : l'.prev = p := hl.1.trans hprev
    rw [List.forall₂_cons, ← ih hrest]
    simp only [Linked, hkeep, true_and, hl.2, hhash, ← hprev]
    rw [eq_comm]

/-! ## Lists drawn from a chain -/

/-- Equal hashes commit to equal predecessors. -/
def Binding (ls : List (Link H C)) : Prop :=
  ∀ l ∈ ls, ∀ l' ∈ ls, l.hash = l'.hash → l.prev = l'.prev

/-- With distinct hashes, two prefixes with the same head are equal. -/
theorem prefix_eq_of_head_eq {ls xs ys : List (Link H C)}
    (hnodup : (ls.map Link.hash).Nodup) (hx : xs <+: ls) (hy : ys <+: ls)
    (h : head none xs = head none ys) : xs = ys := by
  have hlen : xs.length = ys.length := by
    rw [List.prefix_iff_eq_take.mp hx, List.prefix_iff_eq_take.mp hy] at h
    have hxl := hx.length_le
    have hyl := hy.length_le
    rcases hi : xs.length with _ | i <;> rcases hj : ys.length with _ | j
    · rfl
    · rw [hi, hj, head_take_succ none (by omega)] at h
      simp at h
    · rw [hi, hj, head_take_succ none (by omega)] at h
      simp at h
    · rw [hi, hj, head_take_succ none (by omega), head_take_succ none (by omega),
        Option.some.injEq] at h
      have hil : i < (ls.map Link.hash).length := by rw [List.length_map]; omega
      have hjl : j < (ls.map Link.hash).length := by rw [List.length_map]; omega
      have hmap : (ls.map Link.hash)[i] = (ls.map Link.hash)[j] := by
        rw [List.getElem_map, List.getElem_map]
        exact h
      rw [(hnodup.getElem_inj_iff).mp hmap]
  rw [List.prefix_iff_eq_take.mp hx, List.prefix_iff_eq_take.mp hy, hlen]

/-- The hashes along a chain are distinct.  A repeated hash would name the
same predecessor twice, and going back from there one of the two occurrences
reaches the start of the chain before the other. -/
theorem hashes_nodup {ls : List (Link H C)} (h : Linked hash none ls)
    (hbind : Binding ls) : (ls.map Link.hash).Nodup := by
  induction ls using List.reverseRecOn with
  | nil => simp
  | append_singleton ls x ih =>
    have hls : Linked hash none ls := ((linked_concat none ls x).mp h).1
    have hnodup := ih hls fun l hl l' hl' =>
      hbind l (List.mem_append_left _ hl) l' (List.mem_append_left _ hl')
    rw [List.map_append, List.map_singleton, List.nodup_append]
    refine ⟨hnodup, by simp, ?_⟩
    intro _ hmem _ hx heq
    subst heq
    obtain ⟨l, hl, hlx⟩ := List.mem_map.mp hmem
    rw [List.mem_singleton] at hx
    have hprev : l.prev = x.prev :=
      hbind l (List.mem_append_left _ hl) x (by simp) (hlx.trans hx)
    obtain ⟨i, hi, rfl⟩ := List.mem_iff_getElem.mp hl
    rw [hls.prev_getElem hi, ((linked_concat none ls x).mp h).2.1] at hprev
    have heq := prefix_eq_of_head_eq hnodup (List.take_prefix i ls) (List.prefix_refl ls) hprev
    have hlen := congrArg List.length heq
    rw [List.length_take] at hlen
    omega

/-- A list drawn from a chain that continues the prefix `xs` of it runs along
the rest of the chain. -/
theorem prefix_of_linked_of_subset {xs ls ls' : List (Link H C)}
    (hnodup : (ls.map Link.hash).Nodup) (h : Linked hash none ls)
    (hx : xs <+: ls) (hsub : ∀ l ∈ ls', l ∈ ls)
    (h' : Linked hash (head none xs) ls') : xs ++ ls' <+: ls := by
  induction ls' generalizing xs with
  | nil => simpa using hx
  | cons l ls' ih =>
    obtain ⟨i, hi, hil⟩ := List.mem_iff_getElem.mp (hsub l (by simp))
    have hprev : head none (ls.take i) = head none xs := by
      rw [← h.prev_getElem hi, hil]
      exact h'.1
    have hxs : ls.take i = xs :=
      prefix_eq_of_head_eq hnodup (List.take_prefix i ls) hx hprev
    have hnext : xs ++ [l] <+: ls := by
      rw [← hxs, ← hil, ← List.take_succ_eq_append_getElem hi]
      exact List.take_prefix _ _
    have hrest : Linked hash (head none (xs ++ [l])) ls' := by
      rw [head_append]
      exact h'.2.2
    have := ih hnext (fun m hm => hsub m (List.mem_cons_of_mem _ hm)) hrest
    rwa [List.append_assoc] at this

/-- Of all the lists whose links are drawn from a chain, exactly its prefixes
are chains. -/
theorem linked_iff_prefix {ls ls' : List (Link H C)} (h : Linked hash none ls)
    (hbind : Binding ls) (hsub : ∀ l ∈ ls', l ∈ ls) :
    Linked hash none ls' ↔ ls' <+: ls := by
  constructor
  · intro h'
    have := prefix_of_linked_of_subset (hashes_nodup h hbind) h List.nil_prefix hsub h'
    rwa [List.nil_append] at this
  · exact h.of_prefix

end Lib.HashChain
