set_option autoImplicit false

/-! # Byte strings

A byte string is a list of bytes, so that prefixes, suffixes and concatenation are those of lists.
`Bytes.toNat` and `Bytes.ofNat` pass between byte strings and numbers, most significant byte first;
the `LE` pair does the same with the least significant byte first. `FixedBytes n` is a byte string
that carries the proof that it has `n` bytes: hashes, keys and signatures are of this kind.

Main statements: `length_ofNat`, `toNat_ofNat` and `ofNat_toNat` — at a fixed length the numbers
below `bound n` and the byte strings are the same thing. -/

namespace SmartWallet

/-- A byte string. -/
abbrev Bytes := List UInt8

namespace Bytes

/-! ## Numbers -/

/-- The number that a byte string writes in base 256, most significant byte first. -/
def toNat (b : Bytes) : Nat := b.foldl (fun n x => n * 256 + x.toNat) 0

/-- The number that a byte string writes in base 256, least significant byte first. -/
def toNatLE (b : Bytes) : Nat := b.foldr (fun x n => x.toNat + 256 * n) 0

/-- The lowest `n` digits of `v` in base 256, least significant first. -/
def ofNatLE : Nat → Nat → Bytes
  | 0, _ => []
  | n + 1, v => UInt8.ofNat v :: ofNatLE n (v / 256)

/-- The lowest `n` digits of `v` in base 256, most significant first. -/
def ofNat (n v : Nat) : Bytes := (ofNatLE n v).reverse

@[simp] theorem length_ofNatLE (n v : Nat) : (ofNatLE n v).length = n := by
  induction n generalizing v with
  | zero => rfl
  | succ n ih => simp [ofNatLE, ih]

@[simp] theorem length_ofNat (n v : Nat) : (ofNat n v).length = n := by simp [ofNat]

theorem toNat_eq_toNatLE_reverse (b : Bytes) : toNat b = toNatLE b.reverse := by
  unfold toNat toNatLE
  rw [List.foldr_reverse]
  congr 1
  funext n x
  omega

/-- How many byte strings of length `n` there are, and so the least number that does not fit. -/
def bound : Nat → Nat
  | 0 => 1
  | n + 1 => 256 * bound n

theorem toNatLE_ofNatLE (n v : Nat) : toNatLE (ofNatLE n v) = v % bound n := by
  induction n generalizing v with
  | zero => simp [ofNatLE, toNatLE, bound, Nat.mod_one]
  | succ n ih =>
    have h := ih (v / 256)
    simp only [ofNatLE, toNatLE, List.foldr_cons] at h ⊢
    rw [h, bound, Nat.mod_mul]
    simp

/-- Writing a number in `n` bytes and reading it back keeps what fits. -/
theorem toNat_ofNat (n v : Nat) : toNat (ofNat n v) = v % bound n := by
  rw [toNat_eq_toNatLE_reverse, ofNat, List.reverse_reverse, toNatLE_ofNatLE]

theorem ofNatLE_toNatLE (b : Bytes) : ofNatLE b.length (toNatLE b) = b := by
  induction b with
  | nil => rfl
  | cons x r ih =>
    have hx := x.toNat_lt
    have hd : (x.toNat + 256 * toNatLE r) / 256 = toNatLE r := by omega
    have hm : UInt8.ofNat (x.toNat + 256 * toNatLE r) = x := by
      apply UInt8.toNat_inj.mp
      simp
    show UInt8.ofNat (x.toNat + 256 * toNatLE r) ::
      ofNatLE r.length ((x.toNat + 256 * toNatLE r) / 256) = x :: r
    rw [hm, hd, ih]

/-- Reading a byte string as a number and writing it in the same length gives it back. -/
theorem ofNat_toNat (b : Bytes) : ofNat b.length (toNat b) = b := by
  have h := ofNatLE_toNatLE b.reverse
  rw [List.length_reverse] at h
  rw [ofNat, toNat_eq_toNatLE_reverse, h, List.reverse_reverse]

/-! ## Text -/

/-- The UTF-8 bytes of a text. -/
def ofString (s : String) : Bytes := s.toUTF8.data.toList

/-- The text that the bytes spell in UTF-8, if they do. -/
def toString? (b : Bytes) : Option String := String.fromUTF8? ⟨b.toArray⟩

end Bytes

/-! ## Byte strings of a fixed length -/

/-- A byte string of exactly `n` bytes. -/
structure FixedBytes (n : Nat) where
  toList : Bytes
  length_toList : toList.length = n
deriving DecidableEq

namespace FixedBytes

/-- A byte string as one of fixed length, if it has that length. -/
def ofList? (n : Nat) (b : Bytes) : Option (FixedBytes n) :=
  if h : b.length = n then some ⟨b, h⟩ else none

/-- The byte `x`, `n` times. -/
def replicate (n : Nat) (x : UInt8) : FixedBytes n := ⟨List.replicate n x, List.length_replicate⟩

/-- The `n` lowest bytes of a number, most significant first. -/
def ofNat (n v : Nat) : FixedBytes n := ⟨Bytes.ofNat n v, Bytes.length_ofNat n v⟩

/-- The number that the bytes write, most significant byte first. -/
def toNat {n : Nat} (b : FixedBytes n) : Nat := Bytes.toNat b.toList

/-- One byte string after the other. -/
def append {m n : Nat} (a : FixedBytes m) (b : FixedBytes n) : FixedBytes (m + n) :=
  ⟨a.toList ++ b.toList, by rw [List.length_append, a.length_toList, b.length_toList]⟩

/-- The first `m` of `m + n` bytes. -/
def takeLeft {m n : Nat} (b : FixedBytes (m + n)) : FixedBytes m :=
  ⟨b.toList.take m, by rw [List.length_take, b.length_toList]; omega⟩

/-- The last `n` of `m + n` bytes. -/
def takeRight {m n : Nat} (b : FixedBytes (m + n)) : FixedBytes n :=
  ⟨b.toList.drop m, by rw [List.length_drop, b.length_toList]; omega⟩

theorem ext {n : Nat} {a b : FixedBytes n} (h : a.toList = b.toList) : a = b := by
  cases a; cases b; cases h; rfl

@[simp] theorem ofList?_toList {n : Nat} (b : FixedBytes n) : ofList? n b.toList = some b := by
  simp [ofList?, b.length_toList]

theorem ofList?_eq_some_iff {n : Nat} {l : Bytes} {b : FixedBytes n} :
    ofList? n l = some b ↔ b.toList = l := by
  constructor
  · intro h
    unfold ofList? at h
    split at h
    · cases h; rfl
    · cases h
  · rintro rfl
    exact ofList?_toList b

end FixedBytes

/-- A 32-byte string: a SHA-256 digest, a key, or an identifier made from one. -/
abbrev Bytes32 := FixedBytes 32

end SmartWallet
