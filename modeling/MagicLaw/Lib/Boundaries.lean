import MagicLaw.Lib.Lines
import MagicLaw.Lib.Text

/-!
# Character boundaries

A text is its bytes, and some of the positions between the bytes lie between
two characters.  `isCharBoundary` finds them by the byte that follows, as
`str::is_char_boundary` does, and `sliceTo` is `&s[..index]`, which panics at
any other position.

* `isCharBoundary_iff`: the boundaries are where the starts of the text end.
* `isLongestStart_of_greatest`: the last boundary at or below a limit cuts off
  the longest start that has no more bytes than the limit, and there is only
  one such start (`IsLongestStart.unique`).
-/

namespace Lib.Boundaries

open Lib.Bytes Lib.Lines

variable {s p q : String} {index limit : Nat}

/-- `str::is_char_boundary`.  The bytes from `0x80` to `0xbf` continue a
character. -/
def isCharBoundary (s : String) (index : Nat) : Bool :=
  if index = 0 then true
  else
    match (asBytes s)[index]? with
    | some b => b < 0x80 || 0xc0 ≤ b
    | none => index = (asBytes s).length

/-- `&s[..index]`, where `none` is the panic. -/
def sliceTo (s : String) (index : Nat) : Option String :=
  if isCharBoundary s index then fromUtf8? ((asBytes s).take index) else none

/-! ## Boundaries and starts -/

theorem length_asBytes (s : String) : (asBytes s).length = s.utf8ByteSize := by
  unfold asBytes
  rw [Array.length_toList]
  rfl

/-- No byte of a character is `0xf8` or above. -/
theorem lt_of_mem_utf8EncodeChar {c : Char} {b : UInt8} (h : b ∈ String.utf8EncodeChar c) :
    b.toNat < 0xf8 := by
  unfold String.utf8EncodeChar at h
  dsimp only at h
  generalize c.val.toNat = n at h
  split at h
  · obtain rfl := List.mem_singleton.mp h
    rw [UInt8.toNat_ofNat']
    omega
  · split at h
    · simp only [List.mem_cons, List.not_mem_nil, or_false] at h
      rcases h with rfl | rfl
      all_goals
        rw [UInt8.toNat_ofNat']
        omega
    · split at h
      · simp only [List.mem_cons, List.not_mem_nil, or_false] at h
        rcases h with rfl | rfl | rfl
        all_goals
          rw [UInt8.toNat_ofNat']
          omega
      · simp only [List.mem_cons, List.not_mem_nil, or_false] at h
        rcases h with rfl | rfl | rfl | rfl
        all_goals
          rw [UInt8.toNat_ofNat']
          omega

/-- Of the bytes of a character those that do not continue it are the first. -/
theorem isUTF8FirstByte_iff {b : UInt8} (h : b.toNat < 0xf8) :
    b.IsUTF8FirstByte ↔ b < 0x80 ∨ 0xc0 ≤ b := by
  have hall : ∀ n < 0xf8, (UInt8.ofNat n).IsUTF8FirstByte ↔
      UInt8.ofNat n < 0x80 ∨ 0xc0 ≤ UInt8.ofNat n := by
    decide +kernel
  have hb := hall b.toNat h
  rwa [UInt8.ofNat_toNat] at hb

theorem mem_utf8EncodeChar_of_mem {b : UInt8} (h : b ∈ asBytes s) :
    ∃ c, b ∈ String.utf8EncodeChar c := by
  rw [← String.ofList_toList (s := s), asBytes_ofList] at h
  obtain ⟨c, -, hc⟩ := List.mem_flatMap.mp h
  exact ⟨c, hc⟩

theorem isCharBoundary_iff_isValid :
    isCharBoundary s index = true ↔ (⟨index⟩ : String.Pos.Raw).IsValid s := by
  unfold isCharBoundary
  by_cases hzero : index = 0
  · subst hzero
    rw [if_pos rfl]
    exact iff_of_true rfl String.Pos.Raw.isValid_zero
  · have hend : (⟨index⟩ : String.Pos.Raw) = s.rawEndPos ↔ index = (asBytes s).length := by
      rw [length_asBytes, String.Pos.Raw.ext_iff]
      rfl
    have hlt : (⟨index⟩ : String.Pos.Raw) < s.rawEndPos ↔ index < (asBytes s).length := by
      rw [length_asBytes]
      rfl
    rw [if_neg hzero, String.Pos.Raw.isValid_iff_isUTF8FirstByte, hend]
    cases hbyte : (asBytes s)[index]? with
    | none =>
      have hout := List.getElem?_eq_none_iff.mp hbyte
      have hnot : ¬ (⟨index⟩ : String.Pos.Raw) < s.rawEndPos := by
        rw [hlt]
        omega
      simp [hnot]
    | some b =>
      obtain ⟨hin, hb⟩ := List.getElem?_eq_some_iff.mp hbyte
      obtain ⟨c, hc⟩ := mem_utf8EncodeChar_of_mem (List.mem_of_getElem? hbyte)
      have hfirst := isUTF8FirstByte_iff (lt_of_mem_utf8EncodeChar hc)
      have hget (h : (⟨index⟩ : String.Pos.Raw) < s.rawEndPos) : s.getUTF8Byte ⟨index⟩ h = b := hb
      have hne : index ≠ (asBytes s).length := by omega
      simp [hget, hfirst, hne, hlt.mpr hin]

/-- A boundary is where a start of the text ends. -/
theorem isCharBoundary_iff :
    isCharBoundary s index = true ↔ ∃ p rest, s = p ++ rest ∧ (asBytes p).length = index := by
  rw [isCharBoundary_iff_isValid, String.Pos.Raw.isValid_iff_exists_append]
  simp only [length_asBytes, String.Pos.Raw.ext_iff, String.byteIdx_rawEndPos, eq_comm]

/-- The text before a boundary. -/
theorem sliceTo_append (p rest : String) : sliceTo (p ++ rest) (asBytes p).length = some p := by
  have hboundary : isCharBoundary (p ++ rest) (asBytes p).length = true :=
    isCharBoundary_iff.mpr ⟨p, rest, rfl, rfl⟩
  rw [sliceTo, if_pos hboundary, asBytes_append, List.take_left, fromUtf8?_asBytes]

/-! ## The longest start -/

/-- The longest start of the text with at most so many bytes. -/
structure IsLongestStart (limit : Nat) (s p : String) : Prop where
  start : ∃ rest, s = p ++ rest
  fits : (asBytes p).length ≤ limit
  longest : ∀ q rest, s = q ++ rest → (asBytes q).length ≤ limit → ∃ more, p = q ++ more

theorem IsLongestStart.unique (hp : IsLongestStart limit s p) (hq : IsLongestStart limit s q) :
    p = q := by
  obtain ⟨rest, hs⟩ := hp.start
  obtain ⟨rest', hs'⟩ := hq.start
  obtain ⟨more, hmore⟩ := hp.longest q rest' hs' hq.fits
  obtain ⟨more', hmore'⟩ := hq.longest p rest hs hp.fits
  have hsize := congrArg String.utf8ByteSize hmore
  have hsize' := congrArg String.utf8ByteSize hmore'
  rw [String.utf8ByteSize_append] at hsize hsize'
  exact (Text.append_inj_of_eq (hs.symm.trans hs') (by omega)).1

/-- What is before the last boundary that is not above the limit. -/
theorem isLongestStart_of_greatest {cut : Nat} (hcut : isCharBoundary s cut = true)
    (hle : cut ≤ limit) (hmax : ∀ i ≤ limit, isCharBoundary s i = true → i ≤ cut) :
    ∃ p, sliceTo s cut = some p ∧ IsLongestStart limit s p := by
  obtain ⟨p, rest, rfl, rfl⟩ := isCharBoundary_iff.mp hcut
  refine ⟨p, sliceTo_append p rest, ⟨rest, rfl⟩, hle, fun q rest' hq hfits => ?_⟩
  have hshorter := hmax _ hfits (isCharBoundary_iff.mpr ⟨q, rest', hq, rfl⟩)
  rw [length_asBytes, length_asBytes] at hshorter
  obtain ⟨more, hmore, -⟩ := Text.append_eq_append_of_le hq.symm hshorter
  exact ⟨more, hmore⟩

end Lib.Boundaries
