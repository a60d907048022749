import SmartWallet.Bytes

set_option autoImplicit false

/-! # Byte strings as numbers

A byte string of length `n` writes a number below `bound n`, and such a number is read back from its
`n` bytes. -/

namespace SmartWallet

namespace Bytes

theorem bound_pos (n : Nat) : 0 < bound n := by
  induction n with
  | zero => exact Nat.one_pos
  | succ n ih =>
      rw [bound]
      omega

theorem bound_mono {m n : Nat} (h : m ≤ n) : bound m ≤ bound n := by
  induction h with
  | refl => exact Nat.le_refl _
  | step _ ih =>
      rw [bound]
      omega

/-- A byte string writes a number that fits in its length. -/
theorem toNat_lt_bound (b : Bytes) : toNat b < bound b.length := by
  have h := toNat_ofNat b.length (toNat b)
  rw [ofNat_toNat] at h
  rw [h]
  exact Nat.mod_lt _ (bound_pos _)

theorem toNat_ofNat_of_lt {n v : Nat} (h : v < bound n) : toNat (ofNat n v) = v := by
  rw [toNat_ofNat, Nat.mod_eq_of_lt h]

/-- Digits behind a number move it up by as many places. -/
theorem foldl_digits (v : Nat) (b : Bytes) :
    b.foldl (fun n x => n * 256 + x.toNat) v = v * bound b.length + toNat b := by
  induction b generalizing v with
  | nil =>
      show v = v * 1 + 0
      omega
  | cons x b ih =>
      have hrest : toNat (x :: b) = (0 * 256 + x.toNat) * bound b.length + toNat b := ih _
      rw [List.foldl_cons, ih, hrest, List.length_cons, bound]
      calc (v * 256 + x.toNat) * bound b.length + toNat b
          = v * (256 * bound b.length) + (x.toNat * bound b.length + toNat b) := by
            rw [Nat.add_mul, Nat.mul_assoc, Nat.add_assoc]
        _ = v * (256 * bound b.length) + ((0 * 256 + x.toNat) * bound b.length + toNat b) := by
            rw [Nat.zero_mul, Nat.zero_add]

theorem toNat_cons (x : UInt8) (b : Bytes) :
    toNat (x :: b) = x.toNat * bound b.length + toNat b := by
  have h : toNat (x :: b) = (0 * 256 + x.toNat) * bound b.length + toNat b := foldl_digits _ b
  rwa [Nat.zero_mul, Nat.zero_add] at h

/-- A number whose first digit is not zero does not fit in fewer digits. -/
theorem bound_le_toNat_cons {x : UInt8} (hx : x ≠ 0) (b : Bytes) :
    bound b.length ≤ toNat (x :: b) := by
  have hpos : 1 ≤ x.toNat := by
    have hne : x.toNat ≠ 0 := fun h => hx (UInt8.toNat_inj.mp h)
    omega
  calc bound b.length = 1 * bound b.length := (Nat.one_mul _).symm
    _ ≤ x.toNat * bound b.length := Nat.mul_le_mul_right _ hpos
    _ ≤ x.toNat * bound b.length + toNat b := Nat.le_add_right _ _
    _ = toNat (x :: b) := (toNat_cons x b).symm

theorem length_lt_of_toNat_cons_lt {x : UInt8} {b : Bytes} {n : Nat} (hx : x ≠ 0)
    (h : toNat (x :: b) < bound n) : b.length < n := by
  apply Nat.lt_of_not_le
  intro hlength
  have hbound := bound_mono hlength
  have hle := bound_le_toNat_cons hx b
  omega

@[simp] theorem toNat_zero_cons (b : Bytes) : toNat (0 :: b) = toNat b := rfl

theorem ofNat_toNat_singleton (x : UInt8) : UInt8.ofNat (toNat [x]) = x := by
  have h : toNat [x] = x.toNat := by
    show 0 * 256 + x.toNat = x.toNat
    omega
  rw [h, UInt8.ofNat_toNat]

end Bytes

/-! ## Byte strings of a fixed length -/

namespace FixedBytes

variable {n : Nat}

theorem toNat_lt_bound (b : FixedBytes n) : b.toNat < Bytes.bound n := by
  have h := Bytes.toNat_lt_bound b.toList
  rwa [b.length_toList] at h

theorem ofNat_toNat (b : FixedBytes n) : Bytes.ofNat n b.toNat = b.toList := by
  have h := Bytes.ofNat_toNat b.toList
  rwa [b.length_toList] at h

end FixedBytes

end SmartWallet
