import Mathlib.Algebra.Group.Nat.Defs
import SmartWallet.Json.Record
import SmartWallet.Proofs.Json.Value

set_option autoImplicit false

/-! # Integers in JSON

An integer is written as a minus, if it is negative, and its decimal digits. `int?_ofInt` says that
these digits spell the integer, and `spelled_ofInt` that a reader finds their end: for that the
first digit must not be a zero unless it is the only one. -/

namespace SmartWallet.Json

/-! ## Decimal digits -/

theorem toNat_digit {v : Nat} (h : v < 10) : (UInt8.ofNat (48 + v)).toNat = 48 + v := by
  rw [UInt8.toNat_ofNat']
  omega

theorem isDigit_digit {v : Nat} (h : v < 10) : isDigit (UInt8.ofNat (48 + v)) = true := by
  unfold isDigit
  rw [toNat_digit h, Bool.and_eq_true, decide_eq_true_iff, decide_eq_true_iff]
  omega

/-- The digits of a number are decimal digits. -/
theorem isDigit_of_mem_decimalDigits {k v : Nat} {x : UInt8} (h : x ∈ decimalDigits k v) :
    isDigit x = true := by
  induction k generalizing v with
  | zero => cases h
  | succ k ih =>
      unfold decimalDigits at h
      split at h
      · rename_i hv
        obtain rfl := List.mem_singleton.mp h
        exact isDigit_digit hv
      · rcases List.mem_append.mp h with h | h
        · exact ih h
        · obtain rfl := List.mem_singleton.mp h
          exact isDigit_digit (Nat.mod_lt v (by decide))

/-- The digits of a number write the number. -/
theorem foldl_decimalDigits {k v : Nat} (h : v < 10 ^ k) :
    (decimalDigits k v).foldl (fun v x => v * 10 + (x.toNat - 48)) 0 = v := by
  induction k generalizing v with
  | zero =>
      rw [Nat.pow_zero] at h
      obtain rfl : v = 0 := by omega
      rfl
  | succ k ih =>
      unfold decimalDigits
      split
      · rename_i hv
        rw [List.foldl_cons, toNat_digit hv]
        show 0 * 10 + (48 + v - 48) = v
        omega
      · have hhigh : v / 10 < 10 ^ k := by
          rw [Nat.pow_succ] at h
          omega
        rw [List.foldl_append, ih hhigh, List.foldl_cons, toNat_digit (Nat.mod_lt v (by decide))]
        show v / 10 * 10 + (48 + v % 10 - 48) = v
        omega

/-- A number other than zero has no zero in front. -/
theorem decimalDigits_head {k v : Nat} (hpos : 0 < v) (h : v < 10 ^ k) :
    ∃ x t, decimalDigits k v = x :: t ∧ x ≠ 48 := by
  induction k generalizing v with
  | zero =>
      rw [Nat.pow_zero] at h
      omega
  | succ k ih =>
      unfold decimalDigits
      split
      · rename_i hv
        refine ⟨_, [], rfl, ?_⟩
        intro hzero
        have hnat := congrArg UInt8.toNat hzero
        rw [toNat_digit hv] at hnat
        have h48 : (48 : UInt8).toNat = 48 := rfl
        omega
      · have hhigh : v / 10 < 10 ^ k := by
          rw [Nat.pow_succ] at h
          omega
        obtain ⟨x, t, hdigits, hx⟩ := ih (by omega) hhigh
        rw [hdigits]
        exact ⟨x, _, rfl, hx⟩

/-- The digits of a number, as many as it needs. -/
def digitsOf (v : Nat) : Bytes := decimalDigits (v + 1) v

theorem lt_pow_succ (v : Nat) : v < 10 ^ (v + 1) :=
  Nat.lt_trans (Nat.lt_succ_self v) (Nat.lt_pow_self (by decide))

theorem digitsOf_zero : digitsOf 0 = [48] := rfl

theorem digitsOf_ne_nil (v : Nat) : digitsOf v ≠ [] := by
  unfold digitsOf decimalDigits
  split
  · exact List.cons_ne_nil _ _
  · exact List.append_ne_nil_of_right_ne_nil _ (List.cons_ne_nil _ _)

theorem digits?_digitsOf (v : Nat) : digits? (digitsOf v) = some v := by
  unfold digits?
  rw [if_pos]
  · exact congrArg some (foldl_decimalDigits (lt_pow_succ v))
  · refine ⟨digitsOf_ne_nil v, List.all_eq_true.mpr fun x hx => ?_⟩
    have hdigit := isDigit_of_mem_decimalDigits hx
    unfold isDigit at hdigit
    rwa [Bool.decide_and]

/-! ## Integers -/

theorem ofInt_eq (v : Int) :
    ofInt v = number (if v < 0 then 45 :: digitsOf v.natAbs else digitsOf v.natAbs) := rfl

/-- The digits of a number do not start with a minus. -/
theorem digitsOf_head (v : Nat) : ∃ x t, digitsOf v = x :: t ∧ isDigit x = true := by
  obtain ⟨x, t, h⟩ := List.exists_cons_of_ne_nil (digitsOf_ne_nil v)
  refine ⟨x, t, h, isDigit_of_mem_decimalDigits (k := v + 1) (v := v) ?_⟩
  show x ∈ digitsOf v
  rw [h]
  exact List.mem_cons_self

/-- An integer is spelled by its digits. -/
theorem int?_ofInt (v : Int) : (ofInt v).int? = some v := by
  rw [ofInt_eq]
  split
  · rename_i hneg
    show ((digits? (digitsOf v.natAbs)).bind fun w => if w = 0 then none else some (-(w : Int))) = _
    rw [digits?_digitsOf]
    show (if v.natAbs = 0 then none else some (-(v.natAbs : Int))) = _
    rw [if_neg (by omega)]
    congr 1
    omega
  · rename_i hpos
    obtain ⟨x, t, hdigits, hx⟩ := digitsOf_head v.natAbs
    have hminus : x ≠ 45 := by
      rintro rfl
      cases hx
    have hint : (number (digitsOf v.natAbs)).int?
        = (digits? (digitsOf v.natAbs)).map Int.ofNat := by
      rw [hdigits]
      unfold int?
      split
      · rename_i heq
        cases heq
        exact absurd rfl hminus
      · rename_i heq
        cases heq
        cases digits? (x :: t) <;> rfl
      · rename_i hnumber
        exact absurd rfl (hnumber _)
    rw [hint, digits?_digitsOf]
    show some ((v.natAbs : Nat) : Int) = some v
    congr 1
    omega

/-! ## Finding the end of an integer -/

/-- What can follow a number is no part of one. -/
theorem EndsNumber.head {x : UInt8} {t : Bytes} (h : EndsNumber (x :: t)) :
    isDigit x = false ∧ x ≠ 46 ∧ x ≠ 101 ∧ x ≠ 69 := by
  rcases h x t rfl with rfl | rfl | rfl <;> decide

theorem scanDigits_append {d rest : Bytes} (hd : ∀ x ∈ d, isDigit x = true) (h : EndsNumber rest) :
    scanDigits (d ++ rest) = (d, rest) := by
  have htake : rest.takeWhile isDigit = [] := by
    cases rest with
    | nil => rfl
    | cons x t => exact List.takeWhile_cons_of_neg (by rw [h.head.1]; decide)
  have hdrop : rest.dropWhile isDigit = rest := by
    cases rest with
    | nil => rfl
    | cons x t => exact List.dropWhile_cons_of_neg (by rw [h.head.1]; decide)
  unfold scanDigits
  rw [List.takeWhile_append_of_pos hd, List.dropWhile_append_of_pos hd, htake, hdrop,
    List.append_nil]

/-- The digits of a number are read as its whole part. -/
theorem scanWhole_digitsOf (v : Nat) {rest : Bytes} (h : EndsNumber rest) :
    scanWhole (digitsOf v ++ rest) = some (digitsOf v, rest) := by
  rcases Nat.eq_zero_or_pos v with rfl | hpos
  · rw [digitsOf_zero]
    rfl
  · have hscan : scanDigits (digitsOf v ++ rest) = (digitsOf v, rest) :=
      scanDigits_append (fun x hx => isDigit_of_mem_decimalDigits hx) h
    obtain ⟨x, t, hdigits, hx⟩ : ∃ x t, digitsOf v = x :: t ∧ x ≠ 48 :=
      decimalDigits_head hpos (lt_pow_succ v)
    rw [hdigits] at hscan ⊢
    unfold scanWhole
    split
    · rename_i heq
      exact absurd (List.cons.inj heq).1 hx
    · rw [hscan]
      rfl

/-- No fraction and no exponent follow. -/
theorem scanFraction_of_endsNumber {rest : Bytes} (h : EndsNumber rest) :
    scanFraction rest = some ([], rest) := by
  unfold scanFraction
  split
  · exact absurd rfl h.head.2.1
  · rfl

theorem scanExponent_of_endsNumber {rest : Bytes} (h : EndsNumber rest) :
    scanExponent rest = some ([], rest) := by
  cases rest with
  | nil => rfl
  | cons x t =>
      exact if_neg (not_or.mpr h.head.2.2)

theorem scanNumber_digitsOf (v : Nat) (sign : Bytes) {text rest : Bytes}
    (hsign : scanMinus text = (sign, digitsOf v ++ rest)) (h : EndsNumber rest) :
    scanNumber text = some (sign ++ digitsOf v, rest) := by
  unfold scanNumber
  rw [hsign]
  simp only [scanWhole_digitsOf v h, scanFraction_of_endsNumber h, scanExponent_of_endsNumber h,
    bind, Option.bind, List.append_nil]
  rfl

/-- An integer ends where its digits do. -/
theorem spelled_ofInt (v : Int) : (ofInt v).Spelled := by
  rw [ofInt_eq]
  show IsNumberLexeme _
  obtain ⟨x, t, hdigits, hx⟩ := digitsOf_head v.natAbs
  split
  · refine ⟨⟨45, _, rfl, .inl rfl⟩, fun rest hrest => ?_⟩
    exact scanNumber_digitsOf v.natAbs [45] rfl hrest
  · refine ⟨⟨x, t, hdigits, .inr hx⟩, fun rest hrest => ?_⟩
    refine scanNumber_digitsOf v.natAbs [] ?_ hrest
    have hminus : x ≠ 45 := by
      rintro rfl
      cases hx
    rw [hdigits]
    unfold scanMinus
    split
    · rename_i heq
      exact absurd (List.cons.inj heq).1 hminus
    · rfl

/-! ## Integers of fixed size -/

theorem int64?_ofInt (a : Int64) : (ofInt a.toInt).int64? = some a := by
  have hlow := a.le_toInt
  have hhigh := a.toInt_lt
  unfold int64?
  simp only [int?_ofInt, bind, Option.bind]
  rw [if_pos (by omega), Int64.ofInt_toInt]

theorem uint32?_ofInt (v : UInt32) : (ofInt v.toNat).uint32? = some v := by
  have hlt := v.toNat_lt
  unfold uint32?
  simp only [int?_ofInt, bind, Option.bind]
  rw [if_pos (by omega), Int.toNat_natCast, UInt32.ofNat_toNat]

end SmartWallet.Json
