import SmartWallet.Digest.Sha512
import SmartWallet.Curve.Edwards25519

set_option autoImplicit false

/-! # Ed25519 signatures

Keys of 32 bytes and signatures of 64. Verification is strict: the number in the signature is below
the group order, neither the key nor the commitment has small order, and the commitment is compared
as bytes, so that a signature has one spelling and a key cannot verify two messages at once. -/

namespace SmartWallet.Ed25519

structure PublicKey where
  bytes : Bytes32
deriving DecidableEq

/-- A signature: the commitment and a number, least significant byte first. -/
structure Signature where
  bytes : FixedBytes 64
deriving DecidableEq

/-- The digest of the parts, as a number modulo the group order. -/
def challenge (parts : Bytes) : Nat :=
  Bytes.toNatLE (Digest.sha512 parts).toList % Edwards25519.order

/-- Whether the signature is one of the message by the key. -/
def verify (x : Signature) (message : Bytes) (k : PublicKey) : Bool :=
  let commitment : Bytes32 := x.bytes.takeLeft (m := 32) (n := 32)
  let s := Bytes.toNatLE (x.bytes.toList.drop 32)
  match Edwards25519.Point.ofBytes? k.bytes, Edwards25519.Point.ofBytes? commitment with
  | some q, some c =>
    let h := challenge (commitment.toList ++ k.bytes.toList ++ message)
    !q.hasSmallOrder && decide (s < Edwards25519.order) && !c.hasSmallOrder
      && decide (((Edwards25519.Point.multiply s .base).add
          (Edwards25519.Point.multiply h q.negate)).toBytes = commitment)
  | _, _ => false

/-! ## Signing -/

/-- A signing key, made from a seed of 32 bytes. -/
structure Keypair where
  seed : Bytes32
deriving DecidableEq

namespace Keypair

/-- The digest of the seed: its first half makes the secret number, its second half the secret
numbers of signatures. -/
def expanded (k : Keypair) : Bytes := (Digest.sha512 k.seed.toList).toList

/-- The secret number: the first half with its three lowest bits and its top bit cleared and the bit
below the top set. -/
def scalar (k : Keypair) : Nat :=
  let v := Bytes.toNatLE (k.expanded.take 32)
  (v - v % 8) % 0x4000000000000000000000000000000000000000000000000000000000000000
    + 0x4000000000000000000000000000000000000000000000000000000000000000

def publicKey (k : Keypair) : PublicKey :=
  ⟨(Edwards25519.Point.multiply k.scalar .base).toBytes⟩

def sign (k : Keypair) (message : Bytes) : Signature :=
  let r := challenge (k.expanded.drop 32 ++ message)
  let commitment := (Edwards25519.Point.multiply r .base).toBytes
  let h := challenge (commitment.toList ++ k.publicKey.bytes.toList ++ message)
  let s := (r + h * k.scalar) % Edwards25519.order
  ⟨commitment.append (n := 32) ⟨Bytes.ofNatLE 32 s, Bytes.length_ofNatLE _ _⟩⟩

end Keypair

end SmartWallet.Ed25519
