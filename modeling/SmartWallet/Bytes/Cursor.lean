import SmartWallet.Bytes

set_option autoImplicit false

/-! # Bounds-checked reading

A cursor is a byte string and a position in it that never passes the end. Every read says how many
bytes it wants; one that does not fit answers `Truncated`, which records where the read was tried,
how much it wanted and how much there was. A failing read returns no cursor, so the caller still
holds the one from before: failure and peeking never move the position. -/

namespace SmartWallet

/-- A read past the end: `len` bytes were wanted at `offset`, where only `available` follow. -/
structure Truncated where
  /-- Where the read was tried. -/
  offset : Nat
  /-- How many bytes it wanted. -/
  len : Nat
  /-- How many bytes follow `offset`, zero when it lies past the end. -/
  available : Nat
deriving DecidableEq, Repr

/-- The report of a read past the end. -/
def Truncated.message (e : Truncated) : String :=
  s!"truncated: cannot read {e.len} bytes at offset {e.offset}, {e.available} available"

/-- A position in a byte string. -/
structure Cursor where
  /-- The whole byte string. -/
  bytes : Bytes
  offset : Nat
  /-- The position does not pass the end. -/
  offset_le : offset ≤ bytes.length

namespace Cursor

/-- The start of a byte string. -/
def start (b : Bytes) : Cursor := ⟨b, 0, Nat.zero_le _⟩

/-- What a read of `len` bytes at `offset` would report as missing. -/
def truncatedAt (c : Cursor) (offset len : Nat) : Truncated :=
  ⟨offset, len, c.bytes.length - offset⟩

/-- The bytes from the position on. -/
def remaining (c : Cursor) : Bytes := c.bytes.drop c.offset

/-- Moves to an absolute position, at most the end. -/
def seek (c : Cursor) (offset : Nat) : Except Truncated Cursor :=
  if h : offset ≤ c.bytes.length then .ok ⟨c.bytes, offset, h⟩
  else .error (c.truncatedAt offset 0)

/-- The `len` bytes at an absolute position. -/
def peekAt (c : Cursor) (offset len : Nat) : Except Truncated Bytes :=
  if offset + len ≤ c.bytes.length then .ok ((c.bytes.drop offset).take len)
  else .error (c.truncatedAt offset len)

/-- The next `len` bytes, and the position after them. -/
def read (c : Cursor) (len : Nat) : Except Truncated (Bytes × Cursor) :=
  if h : c.offset + len ≤ c.bytes.length then
    .ok ((c.bytes.drop c.offset).take len, ⟨c.bytes, c.offset + len, h⟩)
  else .error (c.truncatedAt c.offset len)

/-- Passes over the next `len` bytes. -/
def skip (c : Cursor) (len : Nat) : Except Truncated Cursor := Prod.snd <$> c.read len

/-- The next `n` bytes with their count. -/
def readFixed (c : Cursor) (n : Nat) : Except Truncated (FixedBytes n × Cursor) :=
  if h : c.offset + n ≤ c.bytes.length then
    .ok (⟨(c.bytes.drop c.offset).take n, by
      rw [List.length_take, List.length_drop]; omega⟩, ⟨c.bytes, c.offset + n, h⟩)
  else .error (c.truncatedAt c.offset n)

/-- The `n` bytes at an absolute position with their count. -/
def peekFixedAt (c : Cursor) (offset n : Nat) : Except Truncated (FixedBytes n) :=
  if h : offset + n ≤ c.bytes.length then
    .ok ⟨(c.bytes.drop offset).take n, by rw [List.length_take, List.length_drop]; omega⟩
  else .error (c.truncatedAt offset n)

/-- The next byte. -/
def readU8 (c : Cursor) : Except Truncated (UInt8 × Cursor) :=
  (fun (b, c) => (UInt8.ofNat (Bytes.toNat b), c)) <$> c.read 1

/-- The next two bytes as a number, most significant first. -/
def readU16 (c : Cursor) : Except Truncated (UInt16 × Cursor) :=
  (fun (b, c) => (UInt16.ofNat (Bytes.toNat b), c)) <$> c.read 2

/-- The next four bytes as a number, most significant first. -/
def readU32 (c : Cursor) : Except Truncated (UInt32 × Cursor) :=
  (fun (b, c) => (UInt32.ofNat (Bytes.toNat b), c)) <$> c.read 4

end Cursor

end SmartWallet
