import SmartWallet.Digest.Sha256

set_option autoImplicit false

/-! # Keyed hashing

HMAC with SHA-256 (RFC 2104): the key, brought to the block size of 64 bytes, is mixed in before the
message and once more before the inner digest. -/

namespace SmartWallet.Digest

/-- The key of one block: a longer key is hashed first, and zeros fill the rest. -/
def hmacKey (key : Bytes) : Bytes :=
  let k := if key.length ≤ 64 then key else (sha256 key).toList
  k ++ List.replicate (64 - k.length) 0

/-- The HMAC-SHA-256 of a message under a key. -/
def hmac (key m : Bytes) : Bytes32 :=
  let k := hmacKey key
  sha256 (k.map (· ^^^ 0x5c) ++ (sha256 (k.map (· ^^^ 0x36) ++ m)).toList)

end SmartWallet.Digest
