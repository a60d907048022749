import SmartWallet.Bytes

set_option autoImplicit false

/-! # Strkeys

The text form of accounts, seeds and contracts: a version byte, 32 bytes of payload and a checksum
of two bytes, least significant first, all 35 bytes written as 56 digits in base 32. The version is
chosen so that the first character tells the kind: `G`, `S` or `C`. Since 56 digits are exactly 35
bytes there are no spare bits, and each payload has one text. -/

namespace SmartWallet.Strkey

/-- What a strkey names. -/
inductive Kind where
  /-- An account, by its Ed25519 key. -/
  | account
  /-- The secret seed of an account. -/
  | seed
  | contract
deriving DecidableEq, Repr

/-- The version byte, eight times the value of the first character. -/
def Kind.version : Kind → UInt8
  | account => 48
  | seed => 144
  | contract => 16

/-! ## Checksum -/

/-- One bit of the checksum division. -/
def crcStep (r : UInt16) : UInt16 :=
  if r &&& 0x8000 = 0 then r <<< 1 else (r <<< 1) ^^^ 0x1021

/-- Takes one byte into the checksum. -/
def crcByte (r : UInt16) (x : UInt8) : UInt16 :=
  (List.range 8).foldl (fun r _ => crcStep r) (r ^^^ (x.toUInt16 <<< 8))

/-- The cyclic checksum with polynomial `x¹⁶ + x¹² + x⁵ + 1`. -/
def checksum (b : Bytes) : UInt16 := b.foldl crcByte 0

/-- The version, the payload and their checksum. -/
def frame (kind : Kind) (payload : Bytes32) : Bytes :=
  let body := kind.version :: payload.toList
  body ++ Bytes.ofNatLE 2 (checksum body).toNat

/-! ## Digits -/

/-- The base-32 digit of a value below 32. -/
def digit (v : Nat) : Char := if v < 26 then Char.ofNat (65 + v) else Char.ofNat (24 + v)

/-- The value of a base-32 digit. -/
def digitValue? (c : Char) : Option Nat :=
  let v := c.toNat
  if 65 ≤ v ∧ v ≤ 90 then some (v - 65)
  else if 50 ≤ v ∧ v ≤ 55 then some (v - 24)
  else none

/-- The lowest `k` base-32 digits of a number, least significant first. -/
def digitsOf : Nat → Nat → List Char
  | 0, _ => []
  | k + 1, v => digit (v % 32) :: digitsOf k (v / 32)

/-- The text of a payload. -/
def encode (kind : Kind) (payload : Bytes32) : String :=
  String.ofList (digitsOf 56 (Bytes.toNat (frame kind payload))).reverse

/-- The payload that a text of the given kind names. -/
def decode? (kind : Kind) (text : String) : Option Bytes32 := do
  let values ← text.toList.mapM digitValue?
  if values.length ≠ 56 then none
  let b := Bytes.ofNat 35 (values.foldl (fun v x => v * 32 + x) 0)
  let payload ← FixedBytes.ofList? 32 ((b.drop 1).take 32)
  if b = frame kind payload then some payload else none

end SmartWallet.Strkey
