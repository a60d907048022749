import SmartWallet.Digest.Blocks

set_option autoImplicit false

/-! # SHA-256

The secure hash of FIPS 180-4 with 32-bit words: a message is padded to blocks of 64 bytes, and each
block is mixed into a state of eight words by 64 rounds. The result always has 32 bytes, which the
type says. -/

namespace SmartWallet.Digest.Sha256

/-- The state between rounds: eight words. -/
structure State where
  /-- The words, in the order the standard names them. -/
  (a b c d e f g h : UInt32)

/-- The first 32 bits of the fractional parts of the square roots of the first eight primes. -/
def initial : State :=
  ⟨0x6a09e667, 0xbb67ae85, 0x3c6ef372, 0xa54ff53a, 0x510e527f, 0x9b05688c, 0x1f83d9ab, 0x5be0cd19⟩

/-- The first 32 bits of the fractional parts of the cube roots of the first sixty-four primes. -/
def constants : List UInt32 :=
  [0x428a2f98, 0x71374491, 0xb5c0fbcf, 0xe9b5dba5, 0x3956c25b, 0x59f111f1, 0x923f82a4, 0xab1c5ed5,
   0xd807aa98, 0x12835b01, 0x243185be, 0x550c7dc3, 0x72be5d74, 0x80deb1fe, 0x9bdc06a7, 0xc19bf174,
   0xe49b69c1, 0xefbe4786, 0x0fc19dc6, 0x240ca1cc, 0x2de92c6f, 0x4a7484aa, 0x5cb0a9dc, 0x76f988da,
   0x983e5152, 0xa831c66d, 0xb00327c8, 0xbf597fc7, 0xc6e00bf3, 0xd5a79147, 0x06ca6351, 0x14292967,
   0x27b70a85, 0x2e1b2138, 0x4d2c6dfc, 0x53380d13, 0x650a7354, 0x766a0abb, 0x81c2c92e, 0x92722c85,
   0xa2bfe8a1, 0xa81a664b, 0xc24b8b70, 0xc76c51a3, 0xd192e819, 0xd6990624, 0xf40e3585, 0x106aa070,
   0x19a4c116, 0x1e376c08, 0x2748774c, 0x34b0bcb5, 0x391c0cb3, 0x4ed8aa4a, 0x5b9cca4f, 0x682e6ff3,
   0x748f82ee, 0x78a5636f, 0x84c87814, 0x8cc70208, 0x90befffa, 0xa4506ceb, 0xbef9a3f7, 0xc67178f2]

/-- Rotation to the right by `n` bits, for `0 < n < 32`. -/
def rotateRight (x n : UInt32) : UInt32 := (x >>> n) ||| (x <<< (32 - n))

/-- The word that follows in the message schedule, whose words so far stand newest first. -/
def nextWord (newest : List UInt32) : UInt32 :=
  let x := newest.getD 1 0
  let y := newest.getD 14 0
  (rotateRight x 17 ^^^ rotateRight x 19 ^^^ (x >>> 10)) + newest.getD 6 0
    + (rotateRight y 7 ^^^ rotateRight y 18 ^^^ (y >>> 3)) + newest.getD 15 0

/-- Adds `n` words to a schedule whose words stand newest first. -/
def extend : Nat → List UInt32 → List UInt32
  | 0, newest => newest
  | n + 1, newest => extend n (nextWord newest :: newest)

/-- The sixty-four words of a block's schedule. -/
def schedule (block : Bytes) : List UInt32 :=
  let words := (blocks 4 block).map fun w => UInt32.ofNat (Bytes.toNat w)
  (extend 48 words.reverse).reverse

/-- One round, with its constant and schedule word. -/
def round (s : State) (kw : UInt32 × UInt32) : State :=
  let s1 := rotateRight s.e 6 ^^^ rotateRight s.e 11 ^^^ rotateRight s.e 25
  let choice := (s.e &&& s.f) ^^^ (~~~s.e &&& s.g)
  let t1 := s.h + s1 + choice + kw.1 + kw.2
  let s0 := rotateRight s.a 2 ^^^ rotateRight s.a 13 ^^^ rotateRight s.a 22
  let majority := (s.a &&& s.b) ^^^ (s.a &&& s.c) ^^^ (s.b &&& s.c)
  ⟨t1 + (s0 + majority), s.a, s.b, s.c, s.d + t1, s.e, s.f, s.g⟩

/-- Mixes one block into the state. -/
def compress (s : State) (block : Bytes) : State :=
  let t := (constants.zip (schedule block)).foldl round s
  ⟨s.a + t.a, s.b + t.b, s.c + t.c, s.d + t.d, s.e + t.e, s.f + t.f, s.g + t.g, s.h + t.h⟩

/-- The words of a state as bytes, most significant first. -/
def State.toBytes (s : State) : Bytes32 :=
  ⟨Bytes.ofNat 4 s.a.toNat ++ Bytes.ofNat 4 s.b.toNat ++ Bytes.ofNat 4 s.c.toNat
    ++ Bytes.ofNat 4 s.d.toNat ++ Bytes.ofNat 4 s.e.toNat ++ Bytes.ofNat 4 s.f.toNat
    ++ Bytes.ofNat 4 s.g.toNat ++ Bytes.ofNat 4 s.h.toNat, by simp⟩

end Sha256

/-- The SHA-256 digest of a message. -/
def sha256 (m : Bytes) : Bytes32 :=
  ((blocks 64 (pad 64 8 m)).foldl Sha256.compress Sha256.initial).toBytes

end SmartWallet.Digest
