import Mathlib.Data.List.Nodup
import MagicLaw.Lib.Sha256
import MagicLaw.Lib.Text

/-!
# Message authentication codes, and bytes as text

HMAC with SHA-256, three texts for a list of bytes, and the text of bytes that
need not be well-formed UTF-8.  `base64NoPad_inj`: the text without padding
says what the bytes are.
-/

namespace Lib.Mac

/-! ## HMAC -/

/-- The key as one block of the hash. -/
def blockKey (key : List UInt8) : List UInt8 :=
  let key := if 64 < key.length then (Sha256.digest key).toList else key
  key ++ List.replicate (64 - key.length) 0

def hmacSha256 (key message : List UInt8) : List UInt8 :=
  let block := blockKey key
  let inner := Sha256.digest (block.map (fun b => b ^^^ 0x36) ++ message)
  (Sha256.digest (block.map (fun b => b ^^^ 0x5c) ++ inner.toList)).toList

/-! ## Bytes as text -/

def hexDigits : List Char :=
  ['0', '1', '2', '3', '4', '5', '6', '7', '8', '9', 'a', 'b', 'c', 'd', 'e', 'f']

/-- Two digits for each byte. -/
def hex (bytes : List UInt8) : String :=
  String.ofList (bytes.flatMap fun b =>
    [hexDigits.getD (b.toNat / 16) '0', hexDigits.getD (b.toNat % 16) '0'])

/-- The digits are small letters already. -/
theorem toAsciiLowercase_hex (bytes : List UInt8) : Text.toAsciiLowercase (hex bytes) = hex bytes := by
  have hall : ('0' :: hexDigits).all (fun c => c.toLower = c) := by decide
  have hsmall : ∀ c ∈ '0' :: hexDigits, c.toLower = c :=
    fun c hc => of_decide_eq_true (List.all_eq_true.mp hall c hc)
  have hdigit : ∀ n, (hexDigits.getD n '0').toLower = hexDigits.getD n '0' := by
    intro n
    apply hsmall
    cases hn : hexDigits[n]? with
    | none =>
      rw [List.getD_eq_getElem?_getD, hn]
      exact List.mem_cons_self
    | some c =>
      rw [List.getD_eq_getElem?_getD, hn]
      exact List.mem_cons_of_mem _ (List.mem_of_getElem? hn)
  unfold Text.toAsciiLowercase hex
  rw [String.toList_ofList, List.map_flatMap]
  congr 1
  apply List.flatMap_congr
  intro b _
  rw [List.map_cons, List.map_cons, hdigit, hdigit]
  rfl

def base64Digits : List Char :=
  "ABCDEFGHIJKLMNOPQRSTUVWXYZabcdefghijklmnopqrstuvwxyz0123456789+/".toList

/-- The digit for the six bits from `shift` on. -/
def base64Digit (n shift : Nat) : Char := base64Digits.getD (n >>> shift % 64) 'A'

def base64Chars : List UInt8 → List Char
  | a :: b :: c :: rest =>
    let n := a.toNat * 65536 + b.toNat * 256 + c.toNat
    base64Digit n 18 :: base64Digit n 12 :: base64Digit n 6 :: base64Digit n 0 :: base64Chars rest
  | [a, b] =>
    let n := a.toNat * 65536 + b.toNat * 256
    [base64Digit n 18, base64Digit n 12, base64Digit n 6, '=']
  | [a] =>
    let n := a.toNat * 65536
    [base64Digit n 18, base64Digit n 12, '=', '=']
  | [] => []

/-- The standard alphabet, with padding. -/
def base64 (bytes : List UInt8) : String := String.ofList (base64Chars bytes)

def base64NoPadChars : List UInt8 → List Char
  | a :: b :: c :: rest =>
    let n := a.toNat * 65536 + b.toNat * 256 + c.toNat
    base64Digit n 18 :: base64Digit n 12 :: base64Digit n 6 :: base64Digit n 0 ::
      base64NoPadChars rest
  | [a, b] =>
    let n := a.toNat * 65536 + b.toNat * 256
    [base64Digit n 18, base64Digit n 12, base64Digit n 6]
  | [a] =>
    let n := a.toNat * 65536
    [base64Digit n 18, base64Digit n 12]
  | [] => []

/-- The standard alphabet, without padding. -/
def base64NoPad (bytes : List UInt8) : String := String.ofList (base64NoPadChars bytes)

theorem base64Digits_length : base64Digits.length = 64 := by decide +kernel

theorem base64Digits_nodup : base64Digits.Nodup := by decide +kernel

theorem base64Digit_eq_getElem (n shift : Nat) :
    base64Digit n shift = base64Digits.get ⟨n >>> shift % 64,
      base64Digits_length.symm ▸ Nat.mod_lt _ (by decide)⟩ := by
  unfold base64Digit
  rw [List.getD_eq_getElem?_getD, List.getElem?_eq_getElem, Option.getD_some]
  rfl

/-- A digit says which six bits it stands for. -/
theorem base64Digit_inj {n n' shift shift' : Nat}
    (h : base64Digit n shift = base64Digit n' shift') :
    n / 2 ^ shift % 64 = n' / 2 ^ shift' % 64 := by
  rw [base64Digit_eq_getElem, base64Digit_eq_getElem] at h
  have hindex := Fin.val_eq_of_eq (base64Digits_nodup.injective_get h)
  simpa only [Nat.shiftRight_eq_div_pow] using hindex

/-- The digits of three bytes stand for no other three bytes. -/
theorem eq_of_base64Digits {n n' : Nat} (hn : n < 2 ^ 24) (hn' : n' < 2 ^ 24)
    (h18 : base64Digit n 18 = base64Digit n' 18) (h12 : base64Digit n 12 = base64Digit n' 12)
    (h6 : base64Digit n 6 = base64Digit n' 6) (h0 : base64Digit n 0 = base64Digit n' 0) :
    n = n' := by
  have h18 := base64Digit_inj h18
  have h12 := base64Digit_inj h12
  have h6 := base64Digit_inj h6
  have h0 := base64Digit_inj h0
  omega

theorem base64NoPadChars_inj {bs bs' : List UInt8}
    (h : base64NoPadChars bs = base64NoPadChars bs') : bs = bs' := by
  induction bs using base64NoPadChars.induct generalizing bs' with
  | case1 a b c rest ih =>
    match bs', h with
    | a' :: b' :: c' :: rest', h =>
      simp only [base64NoPadChars, List.cons.injEq] at h
      obtain ⟨h18, h12, h6, h0, hrest⟩ := h
      have ha := a.toNat_lt
      have hb := b.toNat_lt
      have hc := c.toNat_lt
      have ha' := a'.toNat_lt
      have hb' := b'.toNat_lt
      have hc' := c'.toNat_lt
      have hn := eq_of_base64Digits (by omega) (by omega) h18 h12 h6 h0
      have habc : a.toNat = a'.toNat ∧ b.toNat = b'.toNat ∧ c.toNat = c'.toNat := by omega
      rw [UInt8.toNat_inj.mp habc.1, UInt8.toNat_inj.mp habc.2.1, UInt8.toNat_inj.mp habc.2.2,
        ih hrest]
    | [a', b'], h => simp [base64NoPadChars] at h
    | [a'], h => simp [base64NoPadChars] at h
    | [], h => simp [base64NoPadChars] at h
  | case2 a b =>
    match bs', h with
    | a' :: b' :: c' :: rest', h => simp [base64NoPadChars] at h
    | [a', b'], h =>
      simp only [base64NoPadChars, List.cons.injEq, and_true] at h
      obtain ⟨h18, h12, h6⟩ := h
      have h18 := base64Digit_inj h18
      have h12 := base64Digit_inj h12
      have h6 := base64Digit_inj h6
      have ha := a.toNat_lt
      have hb := b.toNat_lt
      have ha' := a'.toNat_lt
      have hb' := b'.toNat_lt
      have hab : a.toNat = a'.toNat ∧ b.toNat = b'.toNat := by omega
      rw [UInt8.toNat_inj.mp hab.1, UInt8.toNat_inj.mp hab.2]
    | [a'], h => simp [base64NoPadChars] at h
    | [], h => simp [base64NoPadChars] at h
  | case3 a =>
    match bs', h with
    | a' :: b' :: c' :: rest', h => simp [base64NoPadChars] at h
    | [a', b'], h => simp [base64NoPadChars] at h
    | [a'], h =>
      simp only [base64NoPadChars, List.cons.injEq, and_true] at h
      obtain ⟨h18, h12⟩ := h
      have h18 := base64Digit_inj h18
      have h12 := base64Digit_inj h12
      have ha := a.toNat_lt
      have ha' := a'.toNat_lt
      have haa : a.toNat = a'.toNat := by omega
      rw [UInt8.toNat_inj.mp haa]
    | [], h => simp [base64NoPadChars] at h
  | case4 =>
    match bs', h with
    | a' :: b' :: c' :: rest', h => simp [base64NoPadChars] at h
    | [a', b'], h => simp [base64NoPadChars] at h
    | [a'], h => simp [base64NoPadChars] at h
    | [], h => rfl

theorem base64NoPad_inj {bs bs' : List UInt8} : base64NoPad bs = base64NoPad bs' ↔ bs = bs' := by
  constructor
  · intro h
    exact base64NoPadChars_inj (String.ofList_injective h)
  · exact congrArg base64NoPad

theorem base64NoPad_ne_empty {bs : List UInt8} (h : bs ≠ []) : base64NoPad bs ≠ "" := by
  intro hempty
  have hnil : base64NoPadChars bs = base64NoPadChars [] := String.ofList_injective hempty
  exact h (base64NoPadChars_inj hnil)

/-! ## Text from bytes -/

/-- A character that has begun: its value so far, how many bytes are still to
come, and the range of the next one. -/
structure Begun where
  value : Nat
  remaining : Nat
  lo : Nat
  hi : Nat

/-- `U+FFFD` -/
def replacement : Char := Char.ofNat 0xfffd

/-- What a byte begins, after the characters that it ends. -/
def startOf (b : UInt8) : List Char × Option Begun :=
  let n := b.toNat
  if n < 0x80 then ([Char.ofNat n], none)
  else if 0xc2 ≤ n && n ≤ 0xdf then ([], some ⟨n - 0xc0, 1, 0x80, 0xbf⟩)
  else if n = 0xe0 then ([], some ⟨0, 2, 0xa0, 0xbf⟩)
  -- no surrogates
  else if n = 0xed then ([], some ⟨0xd, 2, 0x80, 0x9f⟩)
  else if 0xe1 ≤ n && n ≤ 0xef then ([], some ⟨n - 0xe0, 2, 0x80, 0xbf⟩)
  else if n = 0xf0 then ([], some ⟨0, 3, 0x90, 0xbf⟩)
  else if 0xf1 ≤ n && n ≤ 0xf3 then ([], some ⟨n - 0xf0, 3, 0x80, 0xbf⟩)
  else if n = 0xf4 then ([], some ⟨4, 3, 0x80, 0x8f⟩)
  else ([replacement], none)

/-- The characters of the bytes, with one replacement for each longest part
that is the beginning of a character. -/
def lossyChars : Option Begun → List UInt8 → List Char
  | none, [] => []
  | some _, [] => [replacement]
  | none, b :: bs => (startOf b).1 ++ lossyChars (startOf b).2 bs
  | some c, b :: bs =>
    if c.lo ≤ b.toNat && b.toNat ≤ c.hi then
      let value := c.value * 64 + (b.toNat - 0x80)
      if c.remaining = 1 then Char.ofNat value :: lossyChars none bs
      else lossyChars (some ⟨value, c.remaining - 1, 0x80, 0xbf⟩) bs
    else replacement :: (startOf b).1 ++ lossyChars (startOf b).2 bs

/-- `String::from_utf8_lossy` -/
def fromUtf8Lossy (bytes : List UInt8) : String := String.ofList (lossyChars none bytes)

/-- Of bytes that are cut there are the first characters of all of them, and
one replacement where the cut goes through a character. -/
theorem lossyChars_cut (begun : Option Begun) (bytes rest : List UInt8) :
    ∃ start, start <+: lossyChars begun (bytes ++ rest) ∧
      (lossyChars begun bytes = start ∨ lossyChars begun bytes = start ++ [replacement]) := by
  induction bytes generalizing begun with
  | nil =>
    cases begun with
    | none => exact ⟨[], List.nil_prefix, .inl rfl⟩
    | some c => exact ⟨[], List.nil_prefix, .inr rfl⟩
  | cons b bytes ih =>
    -- Both texts go on from the same place after the characters that `b` gives.
    have hnext : ∀ (cs : List Char) (next : Option Begun),
        ∃ start, start <+: cs ++ lossyChars next (bytes ++ rest) ∧
          (cs ++ lossyChars next bytes = start ∨
            cs ++ lossyChars next bytes = start ++ [replacement]) := by
      intro cs next
      obtain ⟨start, hstart, hchars⟩ := ih next
      refine ⟨cs ++ start, (List.prefix_append_right_inj cs).mpr hstart, ?_⟩
      rcases hchars with hchars | hchars
      · exact .inl (by rw [hchars])
      · exact .inr (by rw [hchars, List.append_assoc])
    cases begun with
    | none => exact hnext (startOf b).1 (startOf b).2
    | some c =>
      rw [List.cons_append]
      unfold lossyChars
      split
      · dsimp only
        split
        · exact hnext [_] none
        · exact hnext [] _
      · exact hnext (replacement :: (startOf b).1) (startOf b).2

-- A test vector of the standard, with the key `Jefe`.
example : hex (hmacSha256 [0x4a, 0x65, 0x66, 0x65]
      [0x77, 0x68, 0x61, 0x74, 0x20, 0x64, 0x6f, 0x20, 0x79, 0x61, 0x20, 0x77, 0x61, 0x6e, 0x74,
        0x20, 0x66, 0x6f, 0x72, 0x20, 0x6e, 0x6f, 0x74, 0x68, 0x69, 0x6e, 0x67, 0x3f]) =
    "5bdcc146bf60754e6a042426089575c75a003f089d2739839dec58b964ec3843" := by decide +kernel

example : fromUtf8Lossy [0x61, 0xe1, 0x80, 0xe2, 0x82, 0xac, 0xff] = "a\uFFFD€\uFFFD" := by
  decide +kernel

end Lib.Mac
