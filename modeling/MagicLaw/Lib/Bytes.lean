import Mathlib.Data.List.Basic

/-!
# Strings and integers as bytes

The bytes of a string (`str::as_bytes`) and of an `i64` (`i64::to_be_bytes`),
and when two byte strings built from them are equal.

`eq_of_separated` is the rule for a separator byte that occurs in neither
first part, and `eq_of_same_length_suffix` is the rule for a last part of
fixed length.
-/

namespace Lib.Bytes

/-! ## UTF-8 -/

/-- `str::as_bytes`. -/
def asBytes (s : String) : List UInt8 := s.toByteArray.data.toList

theorem asBytes_append (s t : String) : asBytes (s ++ t) = asBytes s ++ asBytes t := by
  simp [asBytes]

theorem asBytes_inj {s t : String} : asBytes s = asBytes t ↔ s = t := by
  rw [← String.toByteArray_inj, ByteArray.ext_iff, ← Array.toList_inj]
  rfl

/-- The bytes of a string are the bytes of its characters. -/
theorem asBytes_ofList (l : List Char) :
    asBytes (String.ofList l) = l.flatMap String.utf8EncodeChar := by
  simp [asBytes, List.utf8Encode]

/-- A character whose bytes are all ASCII is ASCII itself, and its one byte is
its code. -/
theorem utf8EncodeChar_of_ascii {c : Char} (h : ∀ b ∈ String.utf8EncodeChar c, b.toNat < 128) :
    c.toNat < 128 ∧ String.utf8EncodeChar c = [UInt8.ofNat c.toNat] := by
  have hv : c.val.toNat < 128 := by
    unfold String.utf8EncodeChar at h
    by_cases h1 : c.val.toNat ≤ 0x7f
    · omega
    by_cases h2 : c.val.toNat ≤ 0x7ff
    · have hfirst := h (UInt8.ofNat (c.val.toNat / 64 % 0x20 + 0xc0))
        (by simp only [if_neg h1, if_pos h2, List.mem_cons, true_or])
      rw [UInt8.toNat_ofNat'] at hfirst
      omega
    by_cases h3 : c.val.toNat ≤ 0xffff
    · have hfirst := h (UInt8.ofNat (c.val.toNat / 4096 % 0x10 + 0xe0))
        (by simp only [if_neg h1, if_neg h2, if_pos h3, List.mem_cons, true_or])
      rw [UInt8.toNat_ofNat'] at hfirst
      omega
    · have hfirst := h (UInt8.ofNat (c.val.toNat / 262144 % 0x08 + 0xf0))
        (by simp only [if_neg h1, if_neg h2, if_neg h3, List.mem_cons, true_or])
      rw [UInt8.toNat_ofNat'] at hfirst
      omega
  refine ⟨hv, ?_⟩
  unfold String.utf8EncodeChar
  exact if_pos (by omega)

/-- A text whose bytes are all ASCII has one byte for each character. -/
theorem asBytes_of_ascii {s : String} (h : ∀ b ∈ asBytes s, b.toNat < 128) :
    (∀ c ∈ s.toList, c.toNat < 128) ∧ asBytes s = s.toList.map fun c => UInt8.ofNat c.toNat := by
  rw [← String.ofList_toList (s := s), asBytes_ofList] at h ⊢
  rw [String.toList_ofList]
  have hchar : ∀ c ∈ s.toList, c.toNat < 128 ∧
      String.utf8EncodeChar c = [UInt8.ofNat c.toNat] := fun c hc =>
    utf8EncodeChar_of_ascii fun b hb => h b (List.mem_flatMap.mpr ⟨c, hc, hb⟩)
  refine ⟨fun c hc => (hchar c hc).1, ?_⟩
  rw [List.flatMap_congr fun c hc => (hchar c hc).2, ← List.map_eq_flatMap]

/-! ## Big-endian integers -/

/-- `i64::to_be_bytes`. -/
def toBeBytes (n : Int64) : List UInt8 :=
  ([56, 48, 40, 32, 24, 16, 8, 0] : List UInt64).map fun shift =>
    (n.toUInt64 >>> shift).toUInt8

@[simp] theorem length_toBeBytes (n : Int64) : (toBeBytes n).length = 8 := rfl

theorem toBeBytes_inj {m n : Int64} : toBeBytes m = toBeBytes n ↔ m = n := by
  constructor
  · intro h
    have hm := m.toUInt64.toNat_lt
    have hn := n.toUInt64.toNat_lt
    have heq : m.toUInt64.toNat = n.toUInt64.toNat := by
      simp only [toBeBytes, List.map_cons, List.map_nil, List.cons.injEq, and_true,
        ← UInt8.toNat_inj, UInt64.toNat_toUInt8, UInt64.toNat_shiftRight,
        Nat.shiftRight_eq_div_pow] at h
      simp at h
      omega
    cases m
    cases n
    exact congrArg Int64.ofUInt64 (UInt64.toNat_inj.mp heq)
  · exact congrArg toBeBytes

/-! ## Splitting a byte string -/

/-- A separator that occurs in neither first part splits both lists at the
same place. -/
theorem eq_of_separated {α : Type*} {sep : α} {xs ys zs ws : List α}
    (hx : sep ∉ xs) (hy : sep ∉ ys) (h : xs ++ sep :: zs = ys ++ sep :: ws) :
    xs = ys ∧ zs = ws := by
  induction xs generalizing ys with
  | nil =>
    cases ys with
    | nil => simpa using h
    | cons y ys =>
      rw [List.nil_append, List.cons_append, List.cons.injEq] at h
      exact absurd (h.1 ▸ List.mem_cons_self) hy
  | cons x xs ih =>
    cases ys with
    | nil =>
      rw [List.nil_append, List.cons_append, List.cons.injEq] at h
      exact absurd (h.1 ▸ List.mem_cons_self) hx
    | cons y ys =>
      rw [List.cons_append, List.cons_append, List.cons.injEq] at h
      rw [List.mem_cons, not_or] at hx hy
      obtain ⟨hxs, hzs⟩ := ih hx.2 hy.2 h.2
      exact ⟨by rw [h.1, hxs], hzs⟩

/-- Two lists with last parts of one length are equal part by part. -/
theorem eq_of_same_length_suffix {α : Type*} {xs ys zs ws : List α}
    (hlen : zs.length = ws.length) : xs ++ zs = ys ++ ws ↔ xs = ys ∧ zs = ws :=
  ⟨fun h => List.append_inj' h hlen, fun ⟨hx, hz⟩ => by rw [hx, hz]⟩

end Lib.Bytes
