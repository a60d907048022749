import SmartWallet.Bytes

set_option autoImplicit false

/-! # External data representation

The binary form of everything that goes on chain. Numbers are written most significant byte first;
texts and byte strings of variable length are preceded by their length and filled up with zeros to a
multiple of four; lists are preceded by their length; an optional value by zero or one; a variant by
its number.

A `Reader` takes its value off the front of a byte string and hands on the rest, so the first
problem in the order of the fields is the one reported. An `Encoding` is the written form
together with whether every length in it is within its maximum: a value with a longer list has
no form. Reading what was written, with anything behind it, gives the value and what was
behind it. A truth value is the one exception to the converse: every number but one reads as
`false`, which is written as zero. -/

namespace SmartWallet.Xdr

/-- Why a byte string is no written form. -/
inductive Error where
  /-- There are too few bytes, or they cannot be read from their text. -/
  | io
  /-- A variant, or the presence of an optional value, has an unknown number, or bytes are left. -/
  | invalid
  /-- A length is above its maximum. -/
  | lengthExceedsMax
  /-- The bytes that fill up a text are not zero. -/
  | nonZeroPadding
deriving DecidableEq, Repr

/-- The report of an error; there is none for missing bytes. -/
def Error.message? : Error → Option String
  | io => none
  | invalid => some "xdr value invalid"
  | lengthExceedsMax => some "xdr value max length exceeded"
  | nonZeroPadding => some "xdr padding contains non-zero bytes"

/-- The largest length that can be written. -/
def maxLength : Nat := 0xffffffff

/-! ## Written forms -/

/-- A written form, and whether every length in it is within its maximum. -/
structure Encoding where
  bytes : Bytes
  /-- Whether the lengths are within their maxima. -/
  fits : Bool

namespace Encoding

/-- Nothing. -/
def empty : Encoding := ⟨[], true⟩

/-- One form after the other. -/
def append (a b : Encoding) : Encoding := ⟨a.bytes ++ b.bytes, a.fits && b.fits⟩

instance : Append Encoding := ⟨append⟩

@[simp] theorem bytes_append (a b : Encoding) : (a ++ b).bytes = a.bytes ++ b.bytes := rfl

@[simp] theorem fits_append (a b : Encoding) : (a ++ b).fits = (a.fits && b.fits) := rfl

def number (n v : Nat) : Encoding := ⟨Bytes.ofNat n v, true⟩

/-- The number of a variant. -/
def tag (v : Nat) : Encoding := number 4 v

/-- Bytes whose number is known. -/
def fixed (b : Bytes) : Encoding := ⟨b, true⟩

/-- How many zeros fill up `n` bytes to a multiple of four. -/
def padding (n : Nat) : Nat := (4 - n % 4) % 4

/-- At most `max` bytes. -/
def opaqueBytes (max : Nat) (b : Bytes) : Encoding :=
  ⟨Bytes.ofNat 4 b.length ++ b ++ List.replicate (padding b.length) 0, decide (b.length ≤ max)⟩

/-- The forms of a list of values, one after the other. -/
def concat {α : Type} (write : α → Encoding) : List α → Encoding
  | [] => empty
  | x :: rest => write x ++ concat write rest

/-- The length of a list of at most `max` items. -/
def length (max n : Nat) : Encoding := ⟨Bytes.ofNat 4 n, decide (n ≤ max)⟩

/-- At most `max` values. -/
def list {α : Type} (max : Nat) (write : α → Encoding) (items : List α) : Encoding :=
  length max items.length ++ concat write items

/-- A value that may be missing. -/
def option {α : Type} (write : α → Encoding) : Option α → Encoding
  | none => tag 0
  | some x => tag 1 ++ write x

/-- The bytes, if the lengths are within their maxima. -/
def toBytes (e : Encoding) : Except Error Bytes :=
  if e.fits then .ok e.bytes else .error .lengthExceedsMax

end Encoding

/-! ## Readers -/

/-- Takes a value off the front of a byte string. -/
abbrev Reader := StateT Bytes (Except Error)

namespace Reader

/-- The next `n` bytes. -/
def take (n : Nat) : Reader Bytes := fun b =>
  if n ≤ b.length then .ok (b.take n, b.drop n) else .error .io

/-- The next `n` bytes with their count. -/
def fixed (n : Nat) : Reader (FixedBytes n) := fun b =>
  if h : n ≤ b.length then
    .ok (⟨b.take n, by rw [List.length_take]; omega⟩, b.drop n)
  else .error .io

def number (n : Nat) : Reader Nat := Bytes.toNat <$> take n

/-- The number of a variant. -/
def tag : Reader Nat := number 4

/-- A variant that is not known. -/
def invalid {α : Type} : Reader α := fun _ => .error .invalid

/-- A length of at most `max`. -/
def length (max : Nat) : Reader Nat := do
  let n ← number 4
  if n ≤ max then return n else throw .lengthExceedsMax

/-- At most `max` bytes. -/
def opaqueBytes (max : Nat) : Reader Bytes := do
  let n ← length max
  let b ← take n
  let pad ← take (Encoding.padding n)
  if pad.all (· = 0) then return b else throw .nonZeroPadding

/-- A known number of values. -/
def repeated {α : Type} (read : Reader α) : Nat → Reader (List α)
  | 0 => pure []
  | n + 1 => do
    let x ← read
    let rest ← repeated read n
    return x :: rest

/-- At most `max` values. -/
def list {α : Type} (max : Nat) (read : Reader α) : Reader (List α) := do
  repeated read (← length max)

/-- A value that may be missing. -/
def option {α : Type} (read : Reader α) : Reader (Option α) := do
  match ← tag with
  | 0 => return none
  | 1 => some <$> read
  | _ => invalid

/-- A reader that may use the number of bytes left, which bounds the depth of what can follow. -/
def sized {α : Type} (read : Nat → Reader α) : Reader α := fun b => read b.length b

/-- Reads a whole byte string. -/
def run {α : Type} (read : Reader α) (b : Bytes) : Except Error α := do
  let (x, rest) ← read b
  if rest = [] then return x else throw .invalid

end Reader

end SmartWallet.Xdr

namespace SmartWallet

/-! ## Types with a written form -/

/-- A type whose values have a written form. -/
class Xdr (α : Type) where
  /-- Reads a value. -/
  read : Xdr.Reader α
  /-- Writes a value. -/
  write : α → Xdr.Encoding

namespace Xdr

instance : Xdr UInt32 := ⟨UInt32.ofNat <$> .number 4, fun v => .number 4 v.toNat⟩

instance : Xdr UInt64 := ⟨UInt64.ofNat <$> .number 8, fun v => .number 8 v.toNat⟩

instance : Xdr Int32 :=
  ⟨(fun v => (UInt32.ofNat v).toInt32) <$> .number 4, fun v => .number 4 v.toUInt32.toNat⟩

instance : Xdr Int64 :=
  ⟨(fun v => (UInt64.ofNat v).toInt64) <$> .number 8, fun v => .number 8 v.toUInt64.toNat⟩

/-- Reads one as true and every other number as false. -/
instance : Xdr Bool := ⟨(· == 1) <$> .number 4, fun b => .number 4 b.toNat⟩

instance {n : Nat} : Xdr (FixedBytes n) := ⟨.fixed n, fun b => .fixed b.toList⟩

instance {α : Type} [Xdr α] : Xdr (Option α) := ⟨.option read, .option write⟩

/-- Reads at most `max` values. -/
def readList {α : Type} [Xdr α] (max : Nat) : Reader (List α) := .list max read

def writeList {α : Type} [Xdr α] (max : Nat) (items : List α) : Encoding := .list max write items

/-- The bytes of a value. -/
def encode {α : Type} [Xdr α] (x : α) : Except Error Bytes := (write x).toBytes

/-- The value that a byte string writes. -/
def decode {α : Type} [Xdr α] (b : Bytes) : Except Error α := Reader.run read b

end Xdr

end SmartWallet
