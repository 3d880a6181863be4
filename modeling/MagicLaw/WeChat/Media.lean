import MagicLaw.Lib.Blocks

/-!
# The encryption of media

`encrypt_aes_128_ecb_pkcs7` and `decrypt_aes_128_ecb_pkcs7` of
`channels/wechat/ilink.rs`.  The block functions of AES-128 are a parameter.

* `decrypt_inverts_encrypt`: the two functions are inverse to each other,
  decryption accepts what encryption can return and nothing else, and it does
  not panic.

Decryption returns `none` where a slice or a subtraction would panic.  Memory
does not run out.
-/

namespace MagicLaw.WeChat

open Lib.Blocks

/-! ## The functions -/

/-- `Aes128::encrypt_block` and `Aes128::decrypt_block`, by their key. -/
structure BlockFunctions where
  encryptBlock : Vector UInt8 16 → Vector UInt8 16 → Vector UInt8 16
  decryptBlock : Vector UInt8 16 → Vector UInt8 16 → Vector UInt8 16

/-- Under every key the two are inverse permutations of the blocks. -/
structure BlockFunctions.Inverse (aes : BlockFunctions) : Prop where
  decrypt_encrypt : ∀ key block, aes.decryptBlock key (aes.encryptBlock key block) = block
  encrypt_decrypt : ∀ key block, aes.encryptBlock key (aes.decryptBlock key block) = block

inductive DecryptError where
  | emptyInput
  | invalidPadding
  | keyError (message : String)
  deriving DecidableEq, Repr

/-- The subtraction of `usize` values. -/
def sub? (a b : Nat) : Option Nat := if b ≤ a then some (a - b) else none

/-- `bytes[start..]` -/
def sliceFrom? (bytes : List UInt8) (start : Nat) : Option (List UInt8) :=
  if start ≤ bytes.length then some (bytes.drop start) else none

def decryptAes128EcbPkcs7 (aes : BlockFunctions) (encrypted : List UInt8) (key : Vector UInt8 16) :
    Option (Except DecryptError (List UInt8)) :=
  if encrypted.isEmpty then some (.error .emptyInput)
  else if encrypted.length % 16 ≠ 0 then some (.error .invalidPadding)
  else
    let decrypted := mapBlocks (aes.decryptBlock key) encrypted
    match decrypted.getLast? with
    | none => some (.error .emptyInput)
    | some last =>
      let padLen := last.toNat
      if padLen = 0 ∨ 16 < padLen ∨ decrypted.length < padLen then some (.error .invalidPadding)
      else do
        let start ← sub? decrypted.length padLen
        let padding ← sliceFrom? decrypted start
        if !padding.all (fun byte => byte.toNat = padLen) then return .error .invalidPadding
        return .ok (decrypted.take start)

def encryptAes128EcbPkcs7 (aes : BlockFunctions) (plaintext : List UInt8) (key : Vector UInt8 16) :
    List UInt8 :=
  let padLen := 16 - plaintext.length % 16
  let padLen := if padLen = 0 then 16 else padLen
  let padded := plaintext ++ List.replicate padLen (UInt8.ofNat padLen)
  mapBlocks (aes.encryptBlock key) padded

/-! ## Padding and blocks -/

variable {aes : BlockFunctions} {key : Vector UInt8 16}

theorem encrypt_eq (plaintext : List UInt8) :
    encryptAes128EcbPkcs7 aes plaintext key =
      mapBlocks (aes.encryptBlock key) (pad 16 plaintext) := by
  have hpos : ¬16 - plaintext.length % 16 = 0 := by omega
  unfold encryptAes128EcbPkcs7
  dsimp only
  rw [if_neg hpos]
  rfl

/-- Whole blocks are decrypted and the padding is taken off. -/
theorem decrypt_eq {encrypted : List UInt8} (hne : encrypted ≠ []) (hblocks : 16 ∣ encrypted.length) :
    decryptAes128EcbPkcs7 aes encrypted key =
      some ((unpad? 16 (mapBlocks (aes.decryptBlock key) encrypted)).elim
        (.error .invalidPadding) .ok) := by
  have hempty : ¬encrypted.isEmpty = true := by simpa using hne
  have hlength : ¬encrypted.length % 16 ≠ 0 := by omega
  have hlast : mapBlocks (aes.decryptBlock key) encrypted ≠ [] := by
    rw [← List.length_pos_iff, length_mapBlocks, List.length_pos_iff]
    exact hne
  unfold decryptAes128EcbPkcs7 unpad?
  rw [if_neg hempty, if_neg hlength]
  dsimp only
  generalize mapBlocks (aes.decryptBlock key) encrypted = decrypted at hlast
  rw [List.getLast?_eq_getLast_of_ne_nil hlast]
  dsimp only
  generalize decrypted.getLast hlast = last
  by_cases hrange : last.toNat = 0 ∨ 16 < last.toNat ∨ decrypted.length < last.toNat
  · rw [if_pos hrange, if_pos hrange]
    rfl
  · have hstart : sub? decrypted.length last.toNat = some (decrypted.length - last.toNat) :=
      if_pos (by omega)
    have hslice : sliceFrom? decrypted (decrypted.length - last.toNat) =
        some (decrypted.drop (decrypted.length - last.toNat)) := if_pos (by omega)
    have hsame : (fun byte : UInt8 => decide (byte.toNat = last.toNat)) =
        fun byte => decide (byte = last) :=
      funext fun byte => decide_eq_decide.mpr UInt8.toNat_inj
    rw [if_neg hrange, if_neg hrange, hstart, ← hsame]
    show (sliceFrom? decrypted _ >>= _) = _
    rw [hslice]
    show (if (!List.all _ _) = true then _ else _) = _
    cases (decrypted.drop (decrypted.length - last.toNat)).all
      fun byte => decide (byte.toNat = last.toNat) <;> rfl

theorem decrypt_nil : decryptAes128EcbPkcs7 aes [] key = some (.error .emptyInput) := rfl

theorem decrypt_of_not_dvd {encrypted : List UInt8} (hne : encrypted ≠ [])
    (hblocks : ¬16 ∣ encrypted.length) :
    decryptAes128EcbPkcs7 aes encrypted key = some (.error .invalidPadding) := by
  have hempty : ¬encrypted.isEmpty = true := by simpa using hne
  unfold decryptAes128EcbPkcs7
  rw [if_neg hempty, if_pos (by omega)]

/-- Decryption does not panic. -/
theorem decrypt_isSome (encrypted : List UInt8) :
    (decryptAes128EcbPkcs7 aes encrypted key).isSome = true := by
  by_cases hne : encrypted = []
  · rw [hne, decrypt_nil]
    rfl
  · by_cases hblocks : 16 ∣ encrypted.length
    · rw [decrypt_eq hne hblocks]
      rfl
    · rw [decrypt_of_not_dvd hne hblocks]
      rfl

/-- What encryption returns is made of whole blocks, and there is one at
least. -/
theorem length_encrypt (plaintext : List UInt8) :
    encryptAes128EcbPkcs7 aes plaintext key ≠ [] ∧
      16 ∣ (encryptAes128EcbPkcs7 aes plaintext key).length := by
  have hpos := padLength_pos (n := 16) (by omega) plaintext.length
  rw [encrypt_eq]
  constructor
  · rw [← List.length_pos_iff, length_mapBlocks, pad, List.length_append, List.length_replicate]
    omega
  · rw [length_mapBlocks]
    exact dvd_length_pad (by omega) plaintext

theorem decrypt_eq_ok_iff (haes : aes.Inverse) {encrypted plaintext : List UInt8} :
    decryptAes128EcbPkcs7 aes encrypted key = some (.ok plaintext) ↔
      encryptAes128EcbPkcs7 aes plaintext key = encrypted := by
  constructor
  · intro h
    have hne : encrypted ≠ [] := by
      rintro rfl
      exact nomatch h
    have hblocks : 16 ∣ encrypted.length := by
      by_contra hblocks
      rw [decrypt_of_not_dvd hne hblocks] at h
      cases h
    rw [decrypt_eq hne hblocks] at h
    cases htext : unpad? 16 (mapBlocks (aes.decryptBlock key) encrypted) with
    | none =>
      rw [htext] at h
      cases h
    | some text =>
      rw [htext] at h
      cases h
      have hpad := pad_of_unpad? (by rwa [length_mapBlocks]) htext
      rw [encrypt_eq, hpad, mapBlocks_cancel (haes.encrypt_decrypt key)]
  · rintro rfl
    obtain ⟨hne, hblocks⟩ := @length_encrypt aes key plaintext
    rw [decrypt_eq hne hblocks, encrypt_eq, mapBlocks_cancel (haes.decrypt_encrypt key),
      unpad?_pad (by omega) (by omega)]
    rfl

theorem decrypt_inverts_encrypt (aes : BlockFunctions) (haes : aes.Inverse)
    (key : Vector UInt8 16) :
    (∀ plaintext, decryptAes128EcbPkcs7 aes (encryptAes128EcbPkcs7 aes plaintext key) key =
      some (.ok plaintext)) ∧
    (∀ encrypted plaintext, decryptAes128EcbPkcs7 aes encrypted key = some (.ok plaintext) →
      encryptAes128EcbPkcs7 aes plaintext key = encrypted) ∧
    ∀ encrypted, decryptAes128EcbPkcs7 aes encrypted key ≠ none := by
  refine ⟨?_, ?_, ?_⟩
  · intro plaintext
    exact (decrypt_eq_ok_iff haes).mpr rfl
  · intro encrypted plaintext h
    exact (decrypt_eq_ok_iff haes).mp h
  · intro encrypted
    exact Option.isSome_iff_ne_none.mp (decrypt_isSome encrypted)

/-! ## A text that looks like padding, under the key of zeros -/

/-- The padding that a text of whole blocks gets. -/
def padBlock : Vector UInt8 16 := .replicate 16 0x10

/-- What AES-128 makes of it under the key of zeros. -/
def padBlockEncrypted : Vector UInt8 16 :=
  #v[0x01, 0x43, 0xdb, 0x63, 0xee, 0x66, 0xb0, 0xcd,
    0xff, 0x9f, 0x69, 0x91, 0x76, 0x80, 0x15, 0x1e]

/-- The two blocks change places, and the other ones stay. -/
def swapPadBlock (block : Vector UInt8 16) : Vector UInt8 16 :=
  if block = padBlock then padBlockEncrypted
  else if block = padBlockEncrypted then padBlock
  else block

/-- A pair of block functions that is AES-128 on this block. -/
def aesOnPadBlock : BlockFunctions where
  encryptBlock _ := swapPadBlock
  decryptBlock _ := swapPadBlock

theorem swapPadBlock_swapPadBlock (block : Vector UInt8 16) :
    swapPadBlock (swapPadBlock block) = block := by
  have hne : padBlockEncrypted ≠ padBlock := by decide
  unfold swapPadBlock
  by_cases hpad : block = padBlock
  · subst hpad
    rw [if_pos rfl, if_neg hne, if_pos rfl]
  · by_cases hencrypted : block = padBlockEncrypted
    · subst hencrypted
      rw [if_neg hpad, if_pos rfl, if_pos rfl]
    · rw [if_neg hpad, if_neg hencrypted, if_neg hpad, if_neg hencrypted]

theorem aesOnPadBlock_inverse : aesOnPadBlock.Inverse where
  decrypt_encrypt _ := swapPadBlock_swapPadBlock
  encrypt_decrypt _ := swapPadBlock_swapPadBlock

theorem encrypt_padBlock :
    encryptAes128EcbPkcs7 aesOnPadBlock padBlock.toList (.replicate 16 0) =
      padBlockEncrypted.toList ++ padBlockEncrypted.toList := by
  have hpad : pad 16 padBlock.toList = padBlock.toList ++ (padBlock.toList ++ []) := by decide
  have hswap : swapPadBlock padBlock = padBlockEncrypted := if_pos rfl
  rw [encrypt_eq, hpad, mapBlocks_append (by decide), mapBlocks_append (by decide)]
  show (swapPadBlock padBlock).toList ++
    ((swapPadBlock padBlock).toList ++ mapBlocks swapPadBlock []) = _
  rw [hswap, mapBlocks_of_short (by decide), List.append_nil]

/-- A text of one block, all of it like the padding, gets a second block and is
read back with its own one. -/
theorem decrypt_inverts_encrypt_padBlock :
    encryptAes128EcbPkcs7 aesOnPadBlock padBlock.toList (.replicate 16 0) =
      padBlockEncrypted.toList ++ padBlockEncrypted.toList ∧
    decryptAes128EcbPkcs7 aesOnPadBlock (padBlockEncrypted.toList ++ padBlockEncrypted.toList)
      (.replicate 16 0) = some (.ok padBlock.toList) := by
  refine ⟨encrypt_padBlock, ?_⟩
  have h := (decrypt_inverts_encrypt aesOnPadBlock aesOnPadBlock_inverse (.replicate 16 0)).1
    padBlock.toList
  rwa [encrypt_padBlock] at h

end MagicLaw.WeChat
