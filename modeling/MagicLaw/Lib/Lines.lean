import MagicLaw.Lib.Bytes

/-!
# A stream of bytes that is read line by line

The stream is the list of the bytes that are left.  `readLine` is
`BufRead::read_line` with a new string: it takes the bytes up to and including
the next newline, or all of them, and fails where they are not UTF-8.

A newline byte is part of no other character, so what `readLine` takes from
the bytes of a text is a line of the text (`readLine_line`).
-/

namespace Lib.Lines

open Lib.Bytes

/-! ## UTF-8 -/

/-- `String::from_utf8` -/
def fromUtf8? (bytes : List UInt8) : Option String := String.fromUTF8? ⟨bytes.toArray⟩

theorem fromUtf8?_eq_some_iff {bytes : List UInt8} {s : String} :
    fromUtf8? bytes = some s ↔ asBytes s = bytes := by
  unfold fromUtf8? String.fromUTF8?
  constructor
  · intro h
    split at h
    case isTrue hvalid =>
      cases h
      rfl
    case isFalse => cases h
  · rintro rfl
    have hsame : ByteArray.mk (asBytes s).toArray = s.toByteArray := rfl
    rw [dif_pos (hsame ▸ s.isValidUTF8)]
    congr 1

@[simp] theorem fromUtf8?_asBytes (s : String) : fromUtf8? (asBytes s) = some s :=
  fromUtf8?_eq_some_iff.mpr rfl

def newline : UInt8 := 0x0a

theorem newline_mem_utf8EncodeChar (c : Char) :
    newline ∈ String.utf8EncodeChar c ↔ c = '\n' := by
  have hchar : c = '\n' ↔ c.val.toNat = 10 := by
    rw [Char.ext_iff, UInt32.ext_iff]
    rfl
  rw [hchar]
  unfold String.utf8EncodeChar newline
  dsimp only
  generalize c.val.toNat = n
  -- The bytes of a character that takes more than one are 0x80 and above.
  split
  · simp [UInt8.ext_iff]
    omega
  · split
    · simp [UInt8.ext_iff]
      omega
    · split <;> simp [UInt8.ext_iff] <;> omega

theorem newline_mem_asBytes (s : String) : newline ∈ asBytes s ↔ '\n' ∈ s.toList := by
  have hs : asBytes s = s.toList.flatMap String.utf8EncodeChar := by
    rw [← asBytes_ofList, String.ofList_toList]
  simp [hs, newline_mem_utf8EncodeChar]

/-! ## Lines -/

/-- The first line with its newline, and what follows. -/
def takeLine : List UInt8 → List UInt8 × List UInt8
  | [] => ([], [])
  | b :: bs => if b = newline then ([b], bs) else (b :: (takeLine bs).1, (takeLine bs).2)

theorem takeLine_append (bytes : List UInt8) : (takeLine bytes).1 ++ (takeLine bytes).2 = bytes := by
  induction bytes with
  | nil => rfl
  | cons b bs ih =>
    unfold takeLine
    split
    · rfl
    · rw [List.cons_append, ih]

theorem takeLine_line {line : List UInt8} (h : newline ∉ line) (rest : List UInt8) :
    takeLine (line ++ newline :: rest) = (line ++ [newline], rest) := by
  induction line with
  | nil => rfl
  | cons b bs ih =>
    rw [List.mem_cons, not_or] at h
    rw [List.cons_append, takeLine, if_neg (Ne.symm h.1), ih h.2]
    rfl

/-- What `read_line` finds. -/
inductive Line where
  | eof
  | notUtf8
  | text (line : String) (rest : List UInt8)

def readLine (input : List UInt8) : Line :=
  if (takeLine input).1 = [] then .eof
  else
    match fromUtf8? (takeLine input).1 with
    | none => .notUtf8
    | some line => .text line (takeLine input).2

@[simp] theorem readLine_nil : readLine [] = .eof := rfl

/-- A line that is read is no longer in the stream. -/
theorem readLine_shorter {input rest : List UInt8} {line : String}
    (h : readLine input = .text line rest) : rest.length < input.length := by
  have hparts := congrArg List.length (takeLine_append input)
  rw [List.length_append] at hparts
  unfold readLine at h
  split at h
  case isTrue => cases h
  case isFalse hline =>
    have hpos := List.length_pos_of_ne_nil hline
    split at h
    case h_1 => cases h
    case h_2 =>
      cases h
      omega

/-- From the bytes of a text that has no newline, and a newline after it, the
text is read. -/
theorem readLine_line {s : String} (h : '\n' ∉ s.toList) (rest : List UInt8) :
    readLine (asBytes s ++ newline :: rest) = .text (s ++ "\n") rest := by
  have hline : asBytes s ++ [newline] = asBytes (s ++ "\n") := by
    rw [asBytes_append]
    rfl
  unfold readLine
  rw [takeLine_line (mt (newline_mem_asBytes s).mp h)]
  dsimp only
  rw [if_neg (by simp), hline, fromUtf8?_asBytes]

end Lib.Lines
