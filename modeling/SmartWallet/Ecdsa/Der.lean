import SmartWallet.Bytes.Cursor
import SmartWallet.Bytes.Hex
import SmartWallet.Ecdsa

set_option autoImplicit false

/-! # DER signatures

Authenticators hand out a signature as a DER sequence of two integers,

    30 len 02 lr r 02 ls s

where `r` and `s` are most significant byte first, with a zero byte in front when the top bit would
be set. `readSignature` turns that into the compact low form. It is lenient in two places: the
length of the sequence is not looked at, and bytes after the second integer are ignored; an integer
may also be longer than it needs to be, up to 32 bytes. `writeSignature` writes the minimal form. -/

namespace SmartWallet.Ecdsa.Der

/-- Why a signature is refused. -/
inductive ParseError where
  /-- The first byte is not the tag of a sequence. -/
  | notASequence (tag : UInt8)
  /-- A number does not start with the tag of an integer. -/
  | notAnInteger (tag : UInt8)
  /-- A number has no bytes, or more than fit in 32 after a leading zero is dropped. -/
  | invalidIntegerLength (len : Nat)
  /-- The text ends too early. -/
  | truncated (cause : Truncated)
  /-- A number is zero, or not below the group order. -/
  | invalidScalar
deriving DecidableEq, Repr

/-- The report of a refused signature. -/
def ParseError.message : ParseError → String
  | notASequence tag => "expected DER SEQUENCE tag 0x30, found 0x" ++ Hex.encode [tag]
  | notAnInteger tag => "expected DER INTEGER tag 0x02, found 0x" ++ Hex.encode [tag]
  | invalidIntegerLength len => s!"invalid DER INTEGER length {len}"
  | truncated cause => cause.message
  | invalidScalar => "signature scalar out of range"

instance : MonadLift (Except Truncated) (Except ParseError) := ⟨Except.mapError .truncated⟩

def sequenceTag : UInt8 := 0x30

def integerTag : UInt8 := 0x02

/-- The digits of an integer that count: a zero in front of 32 bytes is a sign and is dropped. -/
def magnitude (digits : Bytes) : Bytes :=
  match digits with
  | 0 :: rest => if rest.length = 32 then rest else digits
  | _ => digits

/-- Reads one integer of at most 32 bytes. -/
def readInteger (c : Cursor) : Except ParseError (Nat × Cursor) := do
  let (tag, c) ← c.readU8
  if tag ≠ integerTag then throw (.notAnInteger tag)
  let (len, c) ← c.readU8
  let (digits, c) ← c.read len.toNat
  let digits' := magnitude digits
  if digits' = [] ∨ 32 < digits'.length then throw (.invalidIntegerLength len.toNat)
  return (Bytes.toNat digits', c)

/-- Reads a DER signature into its compact low form. -/
def readSignature (der : Bytes) : Except ParseError Signature := do
  let c := Cursor.start der
  let (tag, c) ← c.readU8
  if tag ≠ sequenceTag then throw (.notASequence tag)
  let c ← c.skip 1
  let (r, c) ← readInteger c
  let (s, _) ← readInteger c
  match (Signature.ofNumbers r s).normalize? with
  | some x => return x
  | none => throw .invalidScalar

/-- Brings a compact signature to its low form. -/
def normalizeCompact (x : Signature) : Except ParseError Signature :=
  match x.normalize? with
  | some y => .ok y
  | none => .error .invalidScalar

/-- Drops the zeros in front of a number, but not its last digit. -/
def dropZeros : Bytes → Bytes
  | 0 :: x :: rest => dropZeros (x :: rest)
  | digits => digits

/-- The shortest DER integer for a number of at most 32 bytes. -/
def writeInteger (v : Nat) : Bytes :=
  let digits := dropZeros (Bytes.ofNat 32 v)
  let signed := if digits.head?.any (0x80 ≤ ·) then 0 :: digits else digits
  integerTag :: UInt8.ofNat signed.length :: signed

/-- The shortest DER form of a signature. -/
def writeSignature (x : Signature) : Bytes :=
  let body := writeInteger x.r ++ writeInteger x.s
  sequenceTag :: UInt8.ofNat body.length :: body

end SmartWallet.Ecdsa.Der
