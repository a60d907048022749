import SmartWallet.Ecdsa
import SmartWallet.Proofs.Bytes.Number

set_option autoImplicit false

/-! # Signatures and their low forms

A signature is made of two numbers, and its low form has the smaller of the second number and its
negative. The low form does not tell the two signatures of a pair apart (`low_negate`), so it does
not matter which of them was made. Verification does: it accepts one of the pair at most
(`verify_negate`). -/

namespace SmartWallet.Ecdsa

namespace Signature

/-! ## The numbers of a signature -/

theorem r_lt (x : Signature) : x.r < Bytes.bound 32 := by
  have h := Bytes.toNat_lt_bound (x.bytes.toList.take 32)
  rwa [List.length_take, x.bytes.length_toList] at h

theorem s_lt (x : Signature) : x.s < Bytes.bound 32 := by
  have h := Bytes.toNat_lt_bound (x.bytes.toList.drop 32)
  rwa [List.length_drop, x.bytes.length_toList] at h

theorem n_lt : P256.n < Bytes.bound 32 := by decide

@[simp] theorem r_ofNumbers {r s : Nat} (hr : r < Bytes.bound 32) : (ofNumbers r s).r = r := by
  show Bytes.toNat ((Bytes.ofNat 32 r ++ Bytes.ofNat 32 s).take 32) = r
  rw [List.take_left' (Bytes.length_ofNat 32 r), Bytes.toNat_ofNat_of_lt hr]

@[simp] theorem s_ofNumbers {r s : Nat} (hs : s < Bytes.bound 32) : (ofNumbers r s).s = s := by
  show Bytes.toNat ((Bytes.ofNat 32 r ++ Bytes.ofNat 32 s).drop 32) = s
  rw [List.drop_left' (Bytes.length_ofNat 32 r), Bytes.toNat_ofNat_of_lt hs]

/-- The first number in its 32 bytes. -/
theorem ofNat_r (x : Signature) : Bytes.ofNat 32 x.r = x.bytes.toList.take 32 := by
  have h := Bytes.ofNat_toNat (x.bytes.toList.take 32)
  rwa [List.length_take, x.bytes.length_toList] at h

/-- The second number in its 32 bytes. -/
theorem ofNat_s (x : Signature) : Bytes.ofNat 32 x.s = x.bytes.toList.drop 32 := by
  have h := Bytes.ofNat_toNat (x.bytes.toList.drop 32)
  rwa [List.length_drop, x.bytes.length_toList] at h

/-- A signature is made of its numbers. -/
theorem ofNumbers_r_s (x : Signature) : ofNumbers x.r x.s = x := by
  show Signature.mk _ = Signature.mk x.bytes
  congr 1
  apply FixedBytes.ext
  show Bytes.ofNat 32 x.r ++ Bytes.ofNat 32 x.s = x.bytes.toList
  rw [ofNat_r, ofNat_s, List.take_append_drop]

/-! ## Low forms -/

theorem isScalar_iff {v : Nat} : isScalar v = true ↔ 0 < v ∧ v < P256.n := by
  simp [isScalar]

theorem low_le_n (s : Nat) : low s ≤ P256.n := by
  unfold low
  split <;> omega

theorem isScalar_low (s : Nat) : isScalar (low s) = isScalar s := by
  rw [Bool.eq_iff_iff, isScalar_iff, isScalar_iff]
  unfold low
  split <;> omega

theorem isScalar_negate {s : Nat} (h : s ≤ P256.n) : isScalar (P256.n - s) = isScalar s := by
  rw [Bool.eq_iff_iff, isScalar_iff, isScalar_iff]
  omega

theorem n_odd : P256.n % 2 = 1 := by decide

theorem low_le_half (s : Nat) : low s ≤ P256.n / 2 := by
  have hodd := n_odd
  unfold low
  split <;> omega

theorem low_low (s : Nat) : low (low s) = low s := if_pos (low_le_half s)

/-- The low form is the smaller of a number and its negative. -/
theorem low_eq_min (s : Nat) : low s = min s (P256.n - s) := by
  have hodd := n_odd
  unfold low
  split <;> omega

/-- A number and its negative have the same low form, since the order is odd. -/
theorem low_negate {s : Nat} (h : isScalar s = true) : low (P256.n - s) = low s := by
  obtain ⟨hpos, hlt⟩ := isScalar_iff.mp h
  -- `s` and `n - s` cannot both be at most `n / 2`, nor both above it
  have hodd := n_odd
  unfold low
  split <;> split <;> omega

/-- Signatures with the same first number, whose second ones have the same low form if they are in
range, have the same low form. -/
theorem normalize?_congr {x y : Signature} (hr : x.r = y.r)
    (hs : isScalar y.s = true → low x.s = low y.s) (hrange : isScalar x.s = isScalar y.s) :
    x.normalize? = y.normalize? := by
  unfold normalize? inRange
  rw [hr, hrange]
  by_cases hy : (isScalar y.r && isScalar y.s) = true
  · rw [if_pos hy, if_pos hy, hs (Bool.and_eq_true_iff.mp hy).2]
  · rw [if_neg hy, if_neg hy]

theorem inRange_iff {x : Signature} :
    x.inRange = true ↔ (0 < x.r ∧ x.r < P256.n) ∧ 0 < x.s ∧ x.s < P256.n := by
  unfold inRange
  rw [Bool.and_eq_true, isScalar_iff, isScalar_iff]

/-- A signature has a low form if it is in range. -/
theorem normalize?_eq_some_iff {x y : Signature} :
    x.normalize? = some y ↔ x.inRange = true ∧ y = ofNumbers x.r (low x.s) := by
  unfold normalize?
  by_cases hrange : x.inRange = true
  · rw [if_pos hrange, Option.some_inj]
    exact ⟨fun h => ⟨hrange, h.symm⟩, fun h => h.2.symm⟩
  · rw [if_neg hrange]
    constructor
    · exact nofun
    · intro h
      exact absurd h.1 hrange

/-- The low form of a signature made of two numbers. -/
theorem normalize?_ofNumbers_eq_some_iff {r s : Nat} {x : Signature} (hr : r < Bytes.bound 32)
    (hs : s < Bytes.bound 32) :
    (ofNumbers r s).normalize? = some x ↔
      ((0 < r ∧ r < P256.n) ∧ 0 < s ∧ s < P256.n)
        ∧ x.bytes.toList = Bytes.ofNat 32 r ++ Bytes.ofNat 32 (min s (P256.n - s)) := by
  have hlow : x = ofNumbers r (low s) ↔
      x.bytes.toList = Bytes.ofNat 32 r ++ Bytes.ofNat 32 (min s (P256.n - s)) := by
    rw [low_eq_min]
    constructor
    · rintro rfl
      rfl
    · intro h
      exact congrArg Signature.mk (FixedBytes.ext h)
  rw [normalize?_eq_some_iff, inRange_iff, r_ofNumbers hr, s_ofNumbers hs, hlow]

/-! ## Pairs -/

/-- The other signature that fits the same messages and keys. -/
def negate (x : Signature) : Signature := ofNumbers x.r (P256.n - x.s)

theorem s_negate (x : Signature) : x.negate.s = P256.n - x.s :=
  s_ofNumbers (Nat.lt_of_le_of_lt (Nat.sub_le _ _) n_lt)

theorem isLowS_iff {x : Signature} :
    x.isLowS = true ↔ x.inRange = true ∧ x.s ≤ P256.n / 2 := by
  unfold isLowS
  rw [Bool.and_eq_true, decide_eq_true_iff]

/-- Of a pair at most one signature is low. -/
theorem isLowS_negate {x : Signature} (h : x.isLowS = true) : x.negate.isLowS = false := by
  obtain ⟨-, hlow⟩ := isLowS_iff.mp h
  rw [Bool.eq_false_iff]
  intro hnegate
  obtain ⟨-, hlow'⟩ := isLowS_iff.mp hnegate
  rw [s_negate] at hlow'
  -- two halves of an odd number do not make up the whole
  have hodd := n_odd
  omega

end Signature

/-- Verification accepts low signatures only. -/
theorem isLowS_of_verify {x : Signature} {digest : Bytes32} {k : PublicKey}
    (h : verify x digest k = true) : x.isLowS = true := by
  unfold verify at h
  split at h
  · assumption
  · cases h

/-- Verification never accepts both signatures of a pair. -/
theorem verify_negate {x : Signature} {digest : Bytes32} {k : PublicKey}
    (h : verify x digest k = true) : verify x.negate digest k = false := by
  unfold verify
  rw [if_neg]
  rw [Signature.isLowS_negate (isLowS_of_verify h)]
  exact Bool.false_ne_true

end SmartWallet.Ecdsa
