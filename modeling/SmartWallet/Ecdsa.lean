import SmartWallet.Digest.Sha256
import SmartWallet.Curve.P256

set_option autoImplicit false

/-! # ECDSA over P-256

A public key is written in 65 bytes, the tag `4` and the two coordinates; a signature is written in
64 bytes, the numbers `r` and `s`. Both `(r, s)` and `(r, n - s)` fit the same message and key, so
one of each pair is chosen: the *low* one, with `s` at most half the group order. Verification
refuses the other, and `Signature.normalize` replaces it. -/

namespace SmartWallet.Ecdsa

/-- The tag byte of an uncompressed point. -/
def uncompressedTag : UInt8 := 4

/-! ## Keys -/

/-- A public key in its 65-byte form; whether it is a point of the curve is not part of it. -/
structure PublicKey where
  bytes : FixedBytes 65
deriving DecidableEq

namespace PublicKey

/-- The key with the given coordinates. -/
def ofCoordinates (x y : Bytes32) : PublicKey :=
  ⟨⟨uncompressedTag :: (x.toList ++ y.toList), by simp [x.length_toList, y.length_toList]⟩⟩

/-- A key read from exactly 65 bytes that start with the tag. -/
def ofSec1? (b : Bytes) : Option PublicKey :=
  match FixedBytes.ofList? 65 b with
  | some k => if b.head? = some uncompressedTag then some ⟨k⟩ else none
  | none => none

/-- The point of the curve that the key writes: the tag stands in front, both coordinates are below
the field size, and they satisfy the curve equation. -/
def toPoint? (k : PublicKey) : Option P256.Point :=
  let x := Bytes.toNat ((k.bytes.toList.drop 1).take 32)
  let y := Bytes.toNat (k.bytes.toList.drop 33)
  if k.bytes.toList.head? = some uncompressedTag ∧ x < P256.p ∧ y < P256.p
      ∧ P256.onCurve (P256.coordinate x) (P256.coordinate y) then
    some (.ofAffine (P256.coordinate x) (P256.coordinate y))
  else none

/-- Whether the key is a point of the curve. -/
def isOnCurve (k : PublicKey) : Bool := k.toPoint?.isSome

end PublicKey

/-! ## Signatures -/

/-- A signature in its 64-byte form; whether its numbers are in range is not part of it. -/
structure Signature where
  bytes : FixedBytes 64
deriving DecidableEq

namespace Signature

/-- The first number. -/
def r (x : Signature) : Nat := Bytes.toNat (x.bytes.toList.take 32)

/-- The second number. -/
def s (x : Signature) : Nat := Bytes.toNat (x.bytes.toList.drop 32)

/-- The signature made of two numbers below `2²⁵⁶`. -/
def ofNumbers (r s : Nat) : Signature := ⟨(FixedBytes.ofNat 32 r).append (FixedBytes.ofNat 32 s)⟩

/-- Whether a number can stand in a signature: it lies in `1, …, n - 1`. -/
def isScalar (v : Nat) : Bool := 0 < v ∧ v < P256.n

/-- Whether both numbers are in range. -/
def inRange (x : Signature) : Bool := isScalar x.r && isScalar x.s

/-- The smaller of a number and its negative modulo the group order. -/
def low (s : Nat) : Nat := if s ≤ P256.n / 2 then s else P256.n - s

/-- Whether the signature is in range with its second number at most half the group order. -/
def isLowS (x : Signature) : Bool := x.inRange && decide (x.s ≤ P256.n / 2)

/-- The low signature of the pair, if the numbers are in range. -/
def normalize? (x : Signature) : Option Signature :=
  if x.inRange then some (ofNumbers x.r (low x.s)) else none

end Signature

/-! ## Verification -/

/-- Whether the signature is low, the key a point of the curve, and the signature one of the digest
by that key. -/
def verify (x : Signature) (digest : Bytes32) (k : PublicKey) : Bool :=
  if x.isLowS then
    match k.toPoint? with
    | none => false
    | some q =>
      let w := Modular.inverse (P256.scalar x.s)
      let u := P256.scalar digest.toNat * w
      let v := P256.scalar x.r * w
      match
        ((P256.Point.multiply u.val .generator).add (P256.Point.multiply v.val q)).toAffine? with
      | none => false
      | some (rx, _) => rx.val % P256.n = x.r
  else false

end SmartWallet.Ecdsa
