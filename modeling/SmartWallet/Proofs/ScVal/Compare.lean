import SmartWallet.ScVal.Order

set_option autoImplicit false

/-! # Comparing values by their parts

The order of values is defined through sort keys. This module says what it is without them: byte
strings of one kind compare as byte strings, and vectors compare item by item, a prefix before what
it starts (`compare_bytes`, `compare_symbol`, `compare_contract`, `compare_vec`).

What makes this true is that no sort key starts another (`compare_append_of_not_prefix`): two lists
that begin with the keys of different values differ within these keys, so what follows is not looked
at, and after the keys of one value it is all that counts. -/

namespace SmartWallet

/-! ## Lists that begin with keys -/

/-- Lists whose first parts do not start one another compare by the first parts and then by the
rest. -/
theorem compare_append_of_not_prefix {α : Type} [Ord α] [Std.LawfulEqOrd α] {x y : List α}
    (h : ∀ r s, x ++ r = y ++ s → x = y) (r s : List α) :
    compare (x ++ r) (y ++ s) = (compare x y).then (compare r s) := by
  induction x generalizing y with
  | nil =>
      cases y with
      | nil => rfl
      | cons b y => exact absurd (h (b :: y) [] (by simp)) nofun
  | cons a x ih =>
      cases y with
      | nil => exact absurd (h [] (a :: x) (by simp)) nofun
      | cons b y =>
          rw [List.cons_append, List.cons_append, List.compare_cons_cons, List.compare_cons_cons]
          by_cases hab : compare a b = .eq
          · have heq : a = b := Std.LawfulEqOrd.eq_of_compare hab
            have htail : ∀ r s, x ++ r = y ++ s → x = y := by
              intro r s hrs
              have := h r s (by rw [heq, List.cons_append, List.cons_append, hrs])
              exact (List.cons.inj this).2
            rw [hab, Ordering.eq_then, Ordering.eq_then, ih htail]
          -- the first elements decide
          · cases hcompare : compare a b with
            | eq => exact absurd hcompare hab
            | lt => rfl
            | gt => rfl

/-- The numbers that stand for bytes in a key are in the order of the bytes. -/
theorem Bytes.compare_toNat_succ (x y : UInt8) :
    compare (x.toNat + 1 : Int) (y.toNat + 1) = compare x y := by
  have hlt : (x.toNat + 1 : Int) < y.toNat + 1 ↔ x < y := by
    rw [UInt8.lt_iff_toNat_lt]
    omega
  have heq : (x.toNat + 1 : Int) = y.toNat + 1 ↔ x = y := by
    rw [← UInt8.toNat_inj]
    omega
  show compareOfLessAndEq _ _ = compareOfLessAndEq _ _
  simp only [compareOfLessAndEq, hlt, heq]

theorem Bytes.compare_sortKey (a b : Bytes) : compare a.sortKey b.sortKey = compare a b := by
  induction a generalizing b with
  | nil =>
      cases b with
      | nil => rfl
      | cons y b =>
          have hlt : compare (0 : Int) (y.toNat + 1) = .lt := Int.compare_eq_lt.mpr (by omega)
          rw [sortKey, sortKey, List.compare_cons_cons, hlt]
          rfl
  | cons x a ih =>
      cases b with
      | nil =>
          have hgt : compare (x.toNat + 1 : Int) 0 = .gt := Int.compare_eq_gt.mpr (by omega)
          rw [sortKey, sortKey, List.compare_cons_cons, hgt]
          rfl
      | cons y b =>
          rw [sortKey, sortKey, List.compare_cons_cons, List.compare_cons_cons, compare_toNat_succ,
            ih]

namespace ScVal

/-! ## Values -/

theorem compare_eq (v w : ScVal) : compare v w = compare v.sortKey w.sortKey := rfl

theorem compare_bytes (a b : Bytes) : compare (bytes a) (bytes b) = compare a b := by
  rw [compare_eq, sortKey, sortKey, List.compare_cons_cons, Bytes.compare_sortKey]
  rfl

theorem compare_symbol (a b : Bytes) : compare (symbol a) (symbol b) = compare a b := by
  rw [compare_eq, sortKey, sortKey, List.compare_cons_cons, Bytes.compare_sortKey]
  rfl

theorem compare_contract (a b : ContractAddress) :
    compare (address (.contract a)) (address (.contract b))
      = compare a.bytes.toList b.bytes.toList := by
  rw [compare_eq, sortKey, sortKey, List.compare_cons_cons, Address.sortKey, Address.sortKey,
    List.compare_cons_cons, Bytes.compare_sortKey]
  rfl

/-- Keys of values at the front of two lists are compared first. -/
theorem compare_sortKey_append (v w : ScVal) (r s : List Int) :
    compare (v.sortKey ++ r) (w.sortKey ++ s) = (compare v w).then (compare r s) :=
  compare_append_of_not_prefix
    (fun r s h => congrArg sortKey (sortKey_append_inj v w r s h).1) r s

theorem compare_listSortKey (l m : List ScVal) :
    compare (listSortKey l) (listSortKey m) = compare l m := by
  induction l generalizing m with
  | nil => cases m <;> rfl
  | cons v l ih =>
      cases m with
      | nil => rfl
      | cons w m =>
          rw [listSortKey, listSortKey, List.cons_append, List.cons_append, List.compare_cons_cons,
            compare_sortKey_append, ih, List.compare_cons_cons]
          rfl

/-- Vectors compare item by item. -/
theorem compare_vec (l m : List ScVal) : compare (vec (some l)) (vec (some m)) = compare l m := by
  rw [compare_eq, sortKey, sortKey, List.compare_cons_cons, itemsSortKey, itemsSortKey,
    List.compare_cons_cons, compare_listSortKey]
  rfl

end ScVal

end SmartWallet
