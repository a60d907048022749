import SmartWallet.Bytes

set_option autoImplicit false

/-! # Hexadecimal text

Two lower-case digits per byte, most significant first. Reading takes digits of either case and
names the first byte of the text that is not a digit, together with its position; the text is read
as bytes, so a character outside ASCII is blamed on its first byte. -/

namespace SmartWallet.Hex

/-- The lower-case digit of a value below 16. -/
def digit (v : Nat) : Char :=
  if v < 10 then Char.ofNat (48 + v) else Char.ofNat (87 + v)

/-- The value of a digit of either case. -/
def digitValue? (c : UInt8) : Option Nat :=
  if 48 ≤ c.toNat ∧ c.toNat ≤ 57 then some (c.toNat - 48)
  else if 97 ≤ c.toNat ∧ c.toNat ≤ 102 then some (c.toNat - 87)
  else if 65 ≤ c.toNat ∧ c.toNat ≤ 70 then some (c.toNat - 55)
  else none

/-- The two digits of a byte. -/
def byteDigits (x : UInt8) : List Char := [digit (x.toNat / 16), digit (x.toNat % 16)]

/-- The text of a byte string. -/
def encode (b : Bytes) : String := String.ofList (b.flatMap byteDigits)

/-- A byte of the text that is no digit. -/
structure BadDigit where
  found : UInt8
  position : Nat
deriving DecidableEq, Repr

/-- Reads pairs of digits, the first of which stands at index `i`. A lone last byte is dropped. -/
def decodeFrom (i : Nat) : Bytes → Except BadDigit Bytes
  | hi :: lo :: rest =>
    match digitValue? hi, digitValue? lo with
    | none, _ => .error ⟨hi, i⟩
    | some _, none => .error ⟨lo, i + 1⟩
    | some h, some l => do return UInt8.ofNat (16 * h + l) :: (← decodeFrom (i + 2) rest)
  | _ => .ok []

/-- The bytes that a text of digits writes. -/
def decode (text : Bytes) : Except BadDigit Bytes := decodeFrom 0 text

theorem length_of_decodeFrom {i : Nat} {text b : Bytes} (h : decodeFrom i text = .ok b) :
    b.length = text.length / 2 := by
  fun_induction decodeFrom i text generalizing b with
  | case1 => cases h
  | case2 => cases h
  | case3 i hi lo rest hv lv hh hl ih =>
    cases hr : decodeFrom (i + 2) rest with
    | error e => rw [hr] at h; cases h
    | ok t =>
      rw [hr] at h
      cases h
      simp [ih hr]
      omega
  | case4 text i hne =>
    cases h
    match text, hne with
    | [], _ => rfl
    | [_], _ => simp
    | x :: y :: r, hne => exact absurd rfl (hne x y r)

end SmartWallet.Hex
