import SmartWallet.Bytes.Cursor

set_option autoImplicit false

/-! # Reading in steps, and with machine words

A reader is used step by step, and goes on after a step that failed. `Cursor.step` makes one step
with a cursor: if it fails, the caller goes on with the cursor from before.

A cursor counts in natural numbers. A `WordCursor` is the same reader as a machine has it: offsets
and lengths are words of 64 bits, and the position is a variable that a step overwrites. The end of
a range is computed with an addition that tells when the sum is no word, so such a range is reported
like any other that does not fit. The position is moved on by an addition without such a test, and
an overflow there would be a fault, which is no report at all. -/

namespace SmartWallet

/-! ## Steps -/

/-- A step of a reader. -/
inductive ReadStep where
  /-- Moves to an absolute position. -/
  | seek (offset : UInt64)
  | skip (len : UInt64)
  | read (len : UInt64)
  /-- Reads at an absolute position and does not move. -/
  | peekAt (offset len : UInt64)
  /-- Reads a number of bytes that is known beforehand. -/
  | readFixed (n : UInt64)
  | readU8
  | readU16
  | readU32
deriving DecidableEq, Repr

/-- What a step answers. -/
inductive ReadAnswer where
  /-- The step was made, and reads nothing. -/
  | moved
  | data (b : Bytes)
  | u8 (v : UInt8)
  | u16 (v : UInt16)
  | u32 (v : UInt32)
deriving DecidableEq, Repr

namespace Cursor

/-- What a step answers, and the position that it leaves. -/
def attempt (c : Cursor) : ReadStep → Except Truncated (ReadAnswer × Cursor)
  | .seek offset => (fun d => (.moved, d)) <$> c.seek offset.toNat
  | .skip len => (fun d => (.moved, d)) <$> c.skip len.toNat
  | .read len => (fun (b, d) => (.data b, d)) <$> c.read len.toNat
  | .peekAt offset len => (fun b => (.data b, c)) <$> c.peekAt offset.toNat len.toNat
  | .readFixed n => (fun (b, d) => (.data b.toList, d)) <$> c.readFixed n.toNat
  | .readU8 => (fun (v, d) => (.u8 v, d)) <$> c.readU8
  | .readU16 => (fun (v, d) => (.u16 v, d)) <$> c.readU16
  | .readU32 => (fun (v, d) => (.u32 v, d)) <$> c.readU32

/-- Makes a step, or stays where it is if the step fails. -/
def step (s : ReadStep) : StateM Cursor (Except Truncated ReadAnswer) := fun c =>
  match c.attempt s with
  | .ok (answer, d) => (.ok answer, d)
  | .error t => (.error t, c)

end Cursor

/-! ## Words -/

/-- The sum of two words, if it is a word. -/
def checkedAdd? (a b : UInt64) : Option UInt64 :=
  if a.toNat + b.toNat < UInt64.size then some (a + b) else none

/-- Why a step with machine words fails. -/
inductive ReadFault where
  | truncated (cause : Truncated)
  /-- The position is moved on to one that is no word. -/
  | overflow
  /-- Bytes are copied to a place that has another length. -/
  | length
deriving DecidableEq, Repr

/-- A position in a byte string whose length is a word. Nothing in the type
keeps it from passing the end. -/
structure WordCursor where
  bytes : Bytes
  length_lt : bytes.length < UInt64.size
  offset : UInt64

/-- A computation that moves a position, which remains where it is moved to when the computation
fails. -/
abbrev WordReader (α : Type) : Type := ExceptT ReadFault (StateM WordCursor) α

namespace WordCursor

def start (b : Bytes) (h : b.length < UInt64.size) : WordCursor := ⟨b, h, 0⟩

/-- The length of the byte string. -/
def size (w : WordCursor) : UInt64 := UInt64.ofNat w.bytes.length

def truncatedAt (w : WordCursor) (offset len : UInt64) : ReadFault :=
  .truncated ⟨offset.toNat, len.toNat, w.size.toNat - offset.toNat⟩

/-- The `len` bytes at an absolute position: a slice is there if it ends after it starts
and within the byte string. -/
def peekAt (w : WordCursor) (offset len : UInt64) : Except ReadFault Bytes :=
  match checkedAdd? offset len with
  | none => .error (w.truncatedAt offset len)
  | some stop =>
    if offset ≤ stop ∧ stop ≤ w.size then
      .ok ((w.bytes.drop offset.toNat).take (stop - offset).toNat)
    else .error (w.truncatedAt offset len)

def seek (offset : UInt64) : WordReader Unit := do
  let w ← get
  if w.size < offset then throw (w.truncatedAt offset 0)
  set { w with offset }

/-- The next `len` bytes; the position moves on only after they are there. -/
def read (len : UInt64) : WordReader Bytes := do
  let w ← get
  let b ← w.peekAt w.offset len
  match checkedAdd? w.offset len with
  | none => throw .overflow
  | some offset =>
    set { w with offset }
    return b

def skip (len : UInt64) : WordReader Unit := (fun _ => ()) <$> read len

/-- The next `n` bytes, copied to a place for so many. -/
def readFixed (n : UInt64) : WordReader (FixedBytes n.toNat) := do
  match FixedBytes.ofList? n.toNat (← read n) with
  | none => throw .length
  | some b => return b

def readU8 : WordReader UInt8 := (fun b => UInt8.ofNat b.toNat) <$> readFixed 1

def readU16 : WordReader UInt16 := (fun b => UInt16.ofNat b.toNat) <$> readFixed 2

def readU32 : WordReader UInt32 := (fun b => UInt32.ofNat b.toNat) <$> readFixed 4

/-- Makes a step. -/
def step (s : ReadStep) : StateM WordCursor (Except ReadFault ReadAnswer) := ExceptT.run <|
  match s with
  | .seek offset => (fun _ => .moved) <$> seek offset
  | .skip len => (fun _ => .moved) <$> skip len
  | .read len => .data <$> read len
  | .peekAt offset len => do return .data (← (← get).peekAt offset len)
  | .readFixed n => (fun b => .data b.toList) <$> readFixed n
  | .readU8 => .u8 <$> readU8
  | .readU16 => .u16 <$> readU16
  | .readU32 => .u32 <$> readU32

end WordCursor

end SmartWallet
