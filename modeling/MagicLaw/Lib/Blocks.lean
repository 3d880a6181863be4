import Mathlib.Data.List.Basic
import Mathlib.Algebra.Group.Nat.Defs

/-!
# Blocks of a fixed length, and padding to them

`mapBlocks` applies a function to the blocks of a list, one after the other,
and leaves what is too short for a block.  A function with an inverse can be
undone block by block (`mapBlocks_cancel`).

`pad` is the padding of PKCS#7: it fills the last block with bytes that say
how many they are, and there is at least one of them.  `unpad?` takes it off,
and accepts exactly the padded texts (`unpad?_eq_some_iff`).
-/

namespace Lib.Blocks

/-! ## Blocks -/

variable {α : Type*} {n : Nat}

theorem size_take_toArray {l : List α} (h : n ≤ l.length) : (l.take n).toArray.size = n := by
  rw [List.size_toArray, List.length_take, Nat.min_eq_left h]

/-- The first block. -/
def block (l : List α) (h : n ≤ l.length) : Vector α n := ⟨(l.take n).toArray, size_take_toArray h⟩

theorem drop_shorter {l : List α} (h : 0 < n ∧ n ≤ l.length) : (l.drop n).length < l.length := by
  rw [List.length_drop]
  omega

def mapBlocks (f : Vector α n → Vector α n) (l : List α) : List α :=
  if h : 0 < n ∧ n ≤ l.length then (f (block l h.2)).toList ++ mapBlocks f (l.drop n) else l
termination_by l.length
decreasing_by exact drop_shorter h

theorem mapBlocks_of_short {l : List α} (h : l.length < n) (f : Vector α n → Vector α n) :
    mapBlocks f l = l := by
  rw [mapBlocks, dif_neg (by omega)]

theorem block_append (b : Vector α n) (l : List α) (h : n ≤ (b.toList ++ l).length) :
    block (b.toList ++ l) h = b := by
  apply Vector.toList_inj.mp
  exact List.take_left' b.length_toList

theorem mapBlocks_append (hn : 0 < n) (f : Vector α n → Vector α n) (b : Vector α n)
    (l : List α) : mapBlocks f (b.toList ++ l) = (f b).toList ++ mapBlocks f l := by
  have hle : n ≤ (b.toList ++ l).length := by
    rw [List.length_append, b.length_toList]
    omega
  rw [mapBlocks, dif_pos ⟨hn, hle⟩, block_append, List.drop_left' b.length_toList]

/-- A list that is long enough is a block and the rest. -/
theorem toList_block_append {l : List α} (h : n ≤ l.length) :
    (block l h).toList ++ l.drop n = l :=
  List.take_append_drop n l

@[simp] theorem length_mapBlocks (f : Vector α n → Vector α n) (l : List α) :
    (mapBlocks f l).length = l.length := by
  fun_induction mapBlocks f l with
  | case1 l h ih =>
    rw [List.length_append, ih, Vector.length_toList, List.length_drop]
    omega
  | case2 => rfl

/-- What a function does to the blocks, its inverse undoes. -/
theorem mapBlocks_cancel {f g : Vector α n → Vector α n} (h : ∀ b, g (f b) = b) (l : List α) :
    mapBlocks g (mapBlocks f l) = l := by
  fun_induction mapBlocks f l with
  | case1 l hblock ih =>
    rw [mapBlocks_append hblock.1, h, ih, toList_block_append]
  | case2 l hshort =>
    rw [mapBlocks, dif_neg hshort]

/-! ## Padding -/

/-- From 1 to `n`, up to the next multiple of `n`. -/
def padLength (n length : Nat) : Nat := n - length % n

def pad (n : Nat) (text : List UInt8) : List UInt8 :=
  text ++ List.replicate (padLength n text.length) (UInt8.ofNat (padLength n text.length))

def unpad? (n : Nat) (padded : List UInt8) : Option (List UInt8) :=
  match padded.getLast? with
  | none => none
  | some last =>
    if last.toNat = 0 ∨ n < last.toNat ∨ padded.length < last.toNat then none
    else if (padded.drop (padded.length - last.toNat)).all (· = last) then
      some (padded.take (padded.length - last.toNat))
    else none

theorem padLength_pos (hn : 0 < n) (length : Nat) : 0 < padLength n length := by
  have := Nat.mod_lt length hn
  unfold padLength
  omega

theorem padLength_le (n length : Nat) : padLength n length ≤ n := Nat.sub_le ..

/-- A padded text is made of whole blocks. -/
theorem dvd_length_pad (hn : 0 < n) (text : List UInt8) : n ∣ (pad n text).length := by
  have hmod := Nat.mod_lt text.length hn
  have hparts := Nat.div_add_mod text.length n
  refine ⟨text.length / n + 1, ?_⟩
  rw [pad, List.length_append, List.length_replicate, padLength, Nat.mul_add]
  omega

theorem unpad?_pad (hn : 0 < n) (h256 : n < 256) (text : List UInt8) :
    unpad? n (pad n text) = some text := by
  have hpos := padLength_pos hn text.length
  have hle := padLength_le n text.length
  unfold pad
  generalize padLength n text.length = k at hpos hle
  have hvalue : (UInt8.ofNat k).toNat = k := UInt8.toNat_ofNat_of_lt (Nat.lt_of_le_of_lt hle h256)
  have hlast : (text ++ List.replicate k (UInt8.ofNat k)).getLast? = some (UInt8.ofNat k) := by
    rw [List.getLast?_append_of_ne_nil _ (by simp; omega), List.getLast?_replicate]
    simp
    omega
  have hlength : (text ++ List.replicate k (UInt8.ofNat k)).length = text.length + k := by simp
  unfold unpad?
  rw [hlast]
  dsimp only
  rw [hvalue, hlength, Nat.add_sub_cancel, if_neg (by omega), List.drop_left, List.take_left,
    if_pos (by simp)]

/-- Before a padding that fills the last block. -/
theorem padLength_sub {length k : Nat} (hdvd : n ∣ length) (hpos : 0 < k) (hn : k ≤ n)
    (hlength : k ≤ length) : padLength n (length - k) = k := by
  obtain ⟨blocks, rfl⟩ := hdvd
  obtain ⟨before, rfl⟩ : ∃ before, blocks = before + 1 := by
    refine ⟨blocks - 1, ?_⟩
    cases blocks <;> omega
  have hrest : n * (before + 1) - k = n - k + n * before := by
    rw [Nat.mul_add]
    omega
  rw [hrest, padLength, Nat.add_mul_mod_self_left]
  by_cases hfull : k = n
  · subst hfull
    simp
  · rw [Nat.mod_eq_of_lt (by omega)]
    omega

/-- What is taken off is the padding. -/
theorem pad_of_unpad? {padded text : List UInt8} (hdvd : n ∣ padded.length)
    (h : unpad? n padded = some text) : pad n text = padded := by
  unfold unpad? at h
  split at h
  case h_1 => cases h
  case h_2 last hlast =>
    split at h
    case isTrue => cases h
    case isFalse hrange =>
      obtain ⟨hall, rfl⟩ := Option.ite_none_right_eq_some.mp h |>.imp_right Option.some.inj
      have hk : padLength n (padded.length - last.toNat) = last.toNat :=
        padLength_sub hdvd (by omega) (by omega) (by omega)
      have hdrop : padded.drop (padded.length - last.toNat) =
          List.replicate last.toNat last := by
        rw [List.eq_replicate_iff]
        constructor
        · rw [List.length_drop]
          omega
        · simpa using hall
      have hlength : (padded.take (padded.length - last.toNat)).length =
          padded.length - last.toNat := by
        rw [List.length_take]
        omega
      rw [pad, hlength, hk, UInt8.ofNat_toNat, ← hdrop, List.take_append_drop]

theorem unpad?_eq_some_iff (hn : 0 < n) (h256 : n < 256) {padded text : List UInt8}
    (hdvd : n ∣ padded.length) : unpad? n padded = some text ↔ pad n text = padded := by
  constructor
  · exact pad_of_unpad? hdvd
  · rintro rfl
    exact unpad?_pad hn h256 text

end Lib.Blocks
