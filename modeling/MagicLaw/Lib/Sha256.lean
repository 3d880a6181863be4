/-!
# SHA-256

SHA-256 of a byte string, on words that are natural numbers below `2 ^ 32`.
The definitions follow the standard: the message is padded to whole blocks of
sixteen words, each block is expanded to sixty-four words, and sixty-four
rounds mix the words into the eight working variables.

The developments that use a hash function take it as a parameter.  This
function is the one their concrete examples are computed with.
-/

namespace Lib.Sha256

/-- The modulus of the word arithmetic. -/
def word : Nat := 4294967296

/-- Rotation of a word to the right. -/
def rotr (x n : Nat) : Nat := ((x >>> n) ||| (x <<< (32 - n))) % word

/-- The round constants. -/
def roundConstants : List Nat := [
  0x428a2f98, 0x71374491, 0xb5c0fbcf, 0xe9b5dba5, 0x3956c25b, 0x59f111f1, 0x923f82a4, 0xab1c5ed5,
  0xd807aa98, 0x12835b01, 0x243185be, 0x550c7dc3, 0x72be5d74, 0x80deb1fe, 0x9bdc06a7, 0xc19bf174,
  0xe49b69c1, 0xefbe4786, 0x0fc19dc6, 0x240ca1cc, 0x2de92c6f, 0x4a7484aa, 0x5cb0a9dc, 0x76f988da,
  0x983e5152, 0xa831c66d, 0xb00327c8, 0xbf597fc7, 0xc6e00bf3, 0xd5a79147, 0x06ca6351, 0x14292967,
  0x27b70a85, 0x2e1b2138, 0x4d2c6dfc, 0x53380d13, 0x650a7354, 0x766a0abb, 0x81c2c92e, 0x92722c85,
  0xa2bfe8a1, 0xa81a664b, 0xc24b8b70, 0xc76c51a3, 0xd192e819, 0xd6990624, 0xf40e3585, 0x106aa070,
  0x19a4c116, 0x1e376c08, 0x2748774c, 0x34b0bcb5, 0x391c0cb3, 0x4ed8aa4a, 0x5b9cca4f, 0x682e6ff3,
  0x748f82ee, 0x78a5636f, 0x84c87814, 0x8cc70208, 0x90befffa, 0xa4506ceb, 0xbef9a3f7, 0xc67178f2]

/-- The eight working variables. -/
structure Working where
  a : Nat
  b : Nat
  c : Nat
  d : Nat
  e : Nat
  f : Nat
  g : Nat
  h : Nat

/-- The initial hash value. -/
def initial : Working where
  a := 0x6a09e667
  b := 0xbb67ae85
  c := 0x3c6ef372
  d := 0xa54ff53a
  e := 0x510e527f
  f := 0x9b05688c
  g := 0x1f83d9ab
  h := 0x5be0cd19

/-- Word-wise sum. -/
def Working.add (s t : Working) : Working where
  a := (s.a + t.a) % word
  b := (s.b + t.b) % word
  c := (s.c + t.c) % word
  d := (s.d + t.d) % word
  e := (s.e + t.e) % word
  f := (s.f + t.f) % word
  g := (s.g + t.g) % word
  h := (s.h + t.h) % word

/-- One round.  `kw` is the sum of the round constant and the schedule word. -/
def round (s : Working) (kw : Nat) : Working :=
  let s1 := rotr s.e 6 ^^^ rotr s.e 11 ^^^ rotr s.e 25
  let ch := (s.e &&& s.f) ^^^ ((word - 1 - s.e) &&& s.g)
  let t1 := s.h + s1 + ch + kw
  let s0 := rotr s.a 2 ^^^ rotr s.a 13 ^^^ rotr s.a 22
  let maj := (s.a &&& s.b) ^^^ (s.a &&& s.c) ^^^ (s.b &&& s.c)
  { a := (t1 + s0 + maj) % word, b := s.a, c := s.b, d := s.c
    e := (s.d + t1) % word, f := s.e, g := s.f, h := s.g }

/-- The rounds of one block.  The second list is the window of the next
sixteen schedule words; each round takes the first and appends the word that
is sixteen places on. -/
def rounds : List Nat → List Nat → Working → Working
  | k :: ks, w :: ws, s =>
    let w1 := ws.getD 0 0
    let w9 := ws.getD 8 0
    let w14 := ws.getD 13 0
    let s0 := rotr w1 7 ^^^ rotr w1 18 ^^^ (w1 >>> 3)
    let s1 := rotr w14 17 ^^^ rotr w14 19 ^^^ (w14 >>> 10)
    rounds ks (ws ++ [(w + s0 + w9 + s1) % word]) (round s (k + w))
  | _, _, s => s

/-- The first `n` blocks of the words, one after the other. -/
def compress : Nat → List Nat → Working → Working
  | 0, _, s => s
  | n + 1, ws, s => compress n (ws.drop 16) (s.add (rounds roundConstants (ws.take 16) s))

/-- The padding: a one bit, zeros, and the length in bits in eight bytes. -/
def pad (message : List UInt8) : List UInt8 :=
  let length := message.length
  message ++ (0x80 : UInt8) :: List.replicate ((119 - length % 64) % 64) 0 ++
    ([56, 48, 40, 32, 24, 16, 8, 0] : List Nat).map fun shift =>
      UInt8.ofNat ((length * 8) >>> shift)

/-- Big-endian words. -/
def words : List UInt8 → List Nat
  | a :: b :: c :: d :: rest =>
    (a.toNat * 16777216 + b.toNat * 65536 + c.toNat * 256 + d.toNat) :: words rest
  | _ => []

/-- The byte of a word that starts at bit `shift`. -/
def byteAt (w shift : Nat) : UInt8 := UInt8.ofNat (w >>> shift)

/-- The digest of a message. -/
def digest (message : List UInt8) : Vector UInt8 32 :=
  let ws := words (pad message)
  let s := compress (ws.length / 16) ws initial
  #v[byteAt s.a 24, byteAt s.a 16, byteAt s.a 8, byteAt s.a 0,
    byteAt s.b 24, byteAt s.b 16, byteAt s.b 8, byteAt s.b 0,
    byteAt s.c 24, byteAt s.c 16, byteAt s.c 8, byteAt s.c 0,
    byteAt s.d 24, byteAt s.d 16, byteAt s.d 8, byteAt s.d 0,
    byteAt s.e 24, byteAt s.e 16, byteAt s.e 8, byteAt s.e 0,
    byteAt s.f 24, byteAt s.f 16, byteAt s.f 8, byteAt s.f 0,
    byteAt s.g 24, byteAt s.g 16, byteAt s.g 8, byteAt s.g 0,
    byteAt s.h 24, byteAt s.h 16, byteAt s.h 8, byteAt s.h 0]

-- The digest of `"abc"`, from the examples of the standard.
example : digest [0x61, 0x62, 0x63] =
    #v[0xba, 0x78, 0x16, 0xbf, 0x8f, 0x01, 0xcf, 0xea, 0x41, 0x41, 0x40, 0xde, 0x5d, 0xae,
      0x22, 0x23, 0xb0, 0x03, 0x61, 0xa3, 0x96, 0x17, 0x7a, 0x9c, 0xb4, 0x10, 0xff, 0x61,
      0xf2, 0x00, 0x15, 0xad] := by decide +kernel

end Lib.Sha256
