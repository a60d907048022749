import SmartWallet.Ecdsa
import SmartWallet.Digest.Hmac

set_option autoImplicit false

/-! # Signing with P-256

A signing key is a number below the group order. The secret number of each signature is derived from
the key and the digest by HMAC, as RFC 6979 lays down, so that signing needs no randomness and the
same message always gets the same signature. -/

namespace SmartWallet.Ecdsa

/-- A signing key, as 32 bytes most significant first. -/
structure SigningKey where
  /-- The bytes of the secret number. -/
  secret : Bytes32
deriving DecidableEq

namespace SigningKey

/-- The public key, or the tag and zeros for the secret number zero. -/
def publicKey (k : SigningKey) : PublicKey :=
  match (P256.Point.multiply k.secret.toNat .generator).toAffine? with
  | some (x, y) => .ofCoordinates (.ofNat 32 x.val) (.ofNat 32 y.val)
  | none => .ofCoordinates (.ofNat 32 0) (.ofNat 32 0)

/-- The state of the derivation: the HMAC key and the running value. -/
structure Generator where
  /-- The HMAC key. -/
  key : Bytes
  /-- The running value. -/
  value : Bytes

/-- Mixes a text into the state. -/
def Generator.absorb (g : Generator) (text : Bytes) : Generator :=
  let key := (Digest.hmac g.key (g.value ++ text)).toList
  ⟨key, (Digest.hmac key g.value).toList⟩

/-- The state seeded with the secret number and the digest. -/
def Generator.seeded (secret digest : Bytes) : Generator :=
  let g : Generator := ⟨List.replicate 32 0, List.replicate 32 1⟩
  (g.absorb (0 :: (secret ++ digest))).absorb (1 :: (secret ++ digest))

/-- The first candidate in range. A candidate is out of range with probability below `2⁻³²`; after
`fuel` refusals the last one is reduced into range instead. -/
def Generator.candidate : Nat → Generator → Nat
  | 0, g => Bytes.toNat g.value % (P256.n - 1) + 1
  | fuel + 1, g =>
    let value := (Digest.hmac g.key g.value).toList
    let v := Bytes.toNat value
    if Signature.isScalar v then v
    else Generator.candidate fuel (Generator.absorb ⟨g.key, value⟩ [0])

/-- The secret number of the signature of a digest. -/
def nonce (k : SigningKey) (digest : Bytes32) : Nat :=
  let reduced := Bytes.ofNat 32 (digest.toNat % P256.n)
  (Generator.seeded k.secret.toList reduced).candidate 64

/-- The signature of a digest; its second number may be high. -/
def sign (k : SigningKey) (digest : Bytes32) : Signature :=
  let t := k.nonce digest
  match (P256.Point.multiply t .generator).toAffine? with
  | none => .ofNumbers 0 0
  | some (x, _) =>
    let r := P256.scalar x.val
    let z := P256.scalar digest.toNat
    let s := Modular.inverse (P256.scalar t) * (z + r * P256.scalar k.secret.toNat)
    .ofNumbers r.val s.val

end SigningKey

end SmartWallet.Ecdsa
