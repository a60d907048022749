import SmartWallet.Bytes

set_option autoImplicit false

/-! # Padding and blocks

The SHA-2 family hashes a message in blocks of `n` bytes. The message is closed by a one bit, zeros,
and its length in bits as a number of `l` bytes, so that the whole is a multiple of `n`. -/

namespace SmartWallet.Digest

/-- The message, `0x80`, as many zeros as needed, and the bit length in the last `l` bytes of a
block of `n`. -/
def pad (n l : Nat) (m : Bytes) : Bytes :=
  m ++ 0x80 :: List.replicate ((n - (m.length + 1 + l) % n) % n) 0 ++ Bytes.ofNat l (8 * m.length)

/-- The consecutive pieces of `n` bytes; a shorter tail is dropped. -/
def blocks (n : Nat) (b : Bytes) : List Bytes :=
  (List.range (b.length / n)).map fun i => (b.drop (n * i)).take n

end SmartWallet.Digest
