import SmartWallet.ScVal.Basic

set_option autoImplicit false

/-! # The order of contract values

The host keeps maps sorted by key. Values are ordered first by kind and then by content: numbers by
value, byte strings and vectors lexicographically with a prefix before what it starts, a missing
vector before any other.

The order is defined through a *sort key*, a list of integers written so that the lexicographic
order of keys is the order of values. No key starts another, which is what `sortKey_append_inj`
says, so a value can be told from its key: two values compare equal exactly when they are the same,
and equality of values is decidable. -/

namespace SmartWallet

/-! ## Keys of the parts -/

/-- Each byte plus one, and a zero at the end, which is below every byte. -/
def Bytes.sortKey : Bytes → List Int
  | [] => [0]
  | x :: rest => (x.toNat + 1 : Int) :: sortKey rest

/-- The key of a contract failure. -/
def ScError.sortKey : ScError → List Int
  | contract code => [0, code.toNat]
  | host part code => [part.val + 1, code.val]

/-- The key of a contract's code. -/
def ContractExecutable.sortKey : ContractExecutable → List Int
  | wasm digest => 0 :: Bytes.sortKey digest.toList
  | stellarAsset => [1]

def Address.sortKey : Address → List Int
  | account key => 0 :: Bytes.sortKey key.toList
  | contract c => 1 :: Bytes.sortKey c.bytes.toList

namespace ScVal

/-! ## Keys of values -/

mutual

/-- The sort key of a value. -/
def sortKey : ScVal → List Int
  | bool b => [0, b.toNat]
  | void => [1]
  | error e => 2 :: e.sortKey
  | u32 v => [3, v.toNat]
  | i32 v => [4, v.toInt]
  | u64 v => [5, v.toNat]
  | i64 v => [6, v.toInt]
  | timepoint v => [7, v.toNat]
  | duration v => [8, v.toNat]
  | u128 hi lo => [9, hi.toNat, lo.toNat]
  | i128 hi lo => [10, hi.toInt, lo.toNat]
  | u256 hiHi hiLo loHi loLo => [11, hiHi.toNat, hiLo.toNat, loHi.toNat, loLo.toNat]
  | i256 hiHi hiLo loHi loLo => [12, hiHi.toInt, hiLo.toNat, loHi.toNat, loLo.toNat]
  | bytes b => 13 :: Bytes.sortKey b
  | string b => 14 :: Bytes.sortKey b
  | symbol b => 15 :: Bytes.sortKey b
  | vec items => 16 :: itemsSortKey items
  | map entries => 17 :: storageSortKey entries
  | address a => 18 :: a.sortKey
  | ledgerKeyContractInstance => [19]
  | ledgerKeyNonce nonce => [20, nonce.toInt]
  | contractInstance executable storage =>
    21 :: executable.sortKey ++ storageSortKey storage

/-- The sort key of a vector that may be missing. -/
def itemsSortKey : Option (List ScVal) → List Int
  | none => [0]
  | some items => 1 :: listSortKey items

/-- The sort key of a map that may be missing. -/
def storageSortKey : Option (List (ScVal × ScVal)) → List Int
  | none => [0]
  | some entries => 1 :: entriesSortKey entries

/-- The sort key of the items of a vector. -/
def listSortKey : List ScVal → List Int
  | [] => [0]
  | v :: rest => 1 :: v.sortKey ++ listSortKey rest

/-- The sort key of the pairs of a map. -/
def entriesSortKey : List (ScVal × ScVal) → List Int
  | [] => [0]
  | (k, v) :: rest => 1 :: k.sortKey ++ v.sortKey ++ entriesSortKey rest

end

/-- The order of values is that of their sort keys. -/
instance : Ord ScVal := ⟨fun a b => compare a.sortKey b.sortKey⟩

/-! ## No key starts another -/

theorem bytes_sortKey_append_inj {a b : Bytes} {r s : List Int}
    (h : a.sortKey ++ r = b.sortKey ++ s) : a = b ∧ r = s := by
  induction a generalizing b with
  | nil =>
    cases b with
    | nil => simpa [Bytes.sortKey] using h
    | cons y b =>
      simp only [Bytes.sortKey, List.cons_append, List.cons.injEq] at h
      omega
  | cons x a ih =>
    cases b with
    | nil =>
      simp only [Bytes.sortKey, List.cons_append, List.cons.injEq] at h
      omega
    | cons y b =>
      simp only [Bytes.sortKey, List.cons_append, List.cons.injEq] at h
      have hx : x = y := UInt8.toNat_inj.mp (by omega)
      obtain ⟨hab, hrs⟩ := ih h.2
      exact ⟨by rw [hx, hab], hrs⟩

theorem fixedBytes_sortKey_append_inj {n : Nat} {a b : FixedBytes n} {r s : List Int}
    (h : Bytes.sortKey a.toList ++ r = Bytes.sortKey b.toList ++ s) : a = b ∧ r = s :=
  let ⟨hab, hrs⟩ := bytes_sortKey_append_inj h
  ⟨FixedBytes.ext hab, hrs⟩

theorem error_sortKey_append_inj {a b : ScError} {r s : List Int}
    (h : a.sortKey ++ r = b.sortKey ++ s) : a = b ∧ r = s := by
  cases a <;> cases b <;> simp [ScError.sortKey] at h
  · exact ⟨congrArg ScError.contract (UInt32.toNat_inj.mp (by omega)), h.2⟩
  · omega
  · omega
  · obtain ⟨h1, h2, h3⟩ := h
    refine ⟨?_, h3⟩
    rw [ScError.host.injEq]
    exact ⟨Fin.ext (by omega), Fin.ext (by omega)⟩

theorem executable_sortKey_append_inj {a b : ContractExecutable} {r s : List Int}
    (h : a.sortKey ++ r = b.sortKey ++ s) : a = b ∧ r = s := by
  cases a <;> cases b <;> simp [ContractExecutable.sortKey] at h
  · obtain ⟨hab, hrs⟩ := fixedBytes_sortKey_append_inj h
    exact ⟨by rw [hab], hrs⟩
  · exact ⟨rfl, h⟩

theorem address_sortKey_append_inj {a b : Address} {r s : List Int}
    (h : a.sortKey ++ r = b.sortKey ++ s) : a = b ∧ r = s := by
  cases a <;> cases b <;> simp [Address.sortKey] at h
  · obtain ⟨hab, hrs⟩ := fixedBytes_sortKey_append_inj h
    exact ⟨by rw [hab], hrs⟩
  · obtain ⟨hab, hrs⟩ := fixedBytes_sortKey_append_inj h
    refine ⟨?_, hrs⟩
    rw [Address.contract.injEq]
    exact (ContractAddress.mk.injEq _ _).mpr hab

mutual

/-- No sort key starts another. -/
theorem sortKey_append_inj : ∀ (a b : ScVal) (r s : List Int),
    a.sortKey ++ r = b.sortKey ++ s → a = b ∧ r = s
  | .bool x, b, r, s, h => by
    cases b <;> simp [sortKey] at h
    rename_i y
    refine ⟨congrArg ScVal.bool ?_, h.2⟩
    cases x <;> cases y <;> simp at h <;> rfl
  | .void, b, r, s, h => by
    cases b <;> simp [sortKey] at h
    exact ⟨rfl, h⟩
  | .error x, b, r, s, h => by
    cases b <;> simp [sortKey] at h
    obtain ⟨hx, hr⟩ := error_sortKey_append_inj h
    exact ⟨by rw [hx], hr⟩
  | .u32 x, b, r, s, h => by
    cases b <;> simp [sortKey] at h
    exact ⟨congrArg ScVal.u32 (UInt32.toNat_inj.mp (by omega)), h.2⟩
  | .i32 x, b, r, s, h => by
    cases b <;> simp [sortKey] at h
    exact ⟨congrArg ScVal.i32 (Int32.toInt_inj.mp h.1), h.2⟩
  | .u64 x, b, r, s, h => by
    cases b <;> simp [sortKey] at h
    exact ⟨congrArg ScVal.u64 (UInt64.toNat_inj.mp (by omega)), h.2⟩
  | .timepoint x, b, r, s, h => by
    cases b <;> simp [sortKey] at h
    exact ⟨congrArg ScVal.timepoint (UInt64.toNat_inj.mp (by omega)), h.2⟩
  | .duration x, b, r, s, h => by
    cases b <;> simp [sortKey] at h
    exact ⟨congrArg ScVal.duration (UInt64.toNat_inj.mp (by omega)), h.2⟩
  | .i64 x, b, r, s, h => by
    cases b <;> simp [sortKey] at h
    exact ⟨congrArg ScVal.i64 (Int64.toInt_inj.mp h.1), h.2⟩
  | .ledgerKeyNonce x, b, r, s, h => by
    cases b <;> simp [sortKey] at h
    exact ⟨congrArg ScVal.ledgerKeyNonce (Int64.toInt_inj.mp h.1), h.2⟩
  | .u128 x1 x2, b, r, s, h => by
    cases b <;> simp [sortKey] at h
    rename_i y1 y2
    have h1 : x1 = y1 := UInt64.toNat_inj.mp (by omega)
    have h2 : x2 = y2 := UInt64.toNat_inj.mp (by omega)
    exact ⟨by rw [h1, h2], h.2.2⟩
  | .i128 x1 x2, b, r, s, h => by
    cases b <;> simp [sortKey] at h
    rename_i y1 y2
    have h1 : x1 = y1 := Int64.toInt_inj.mp h.1
    have h2 : x2 = y2 := UInt64.toNat_inj.mp (by omega)
    exact ⟨by rw [h1, h2], h.2.2⟩
  | .u256 x1 x2 x3 x4, b, r, s, h => by
    cases b <;> simp [sortKey] at h
    rename_i y1 y2 y3 y4
    have h1 : x1 = y1 := UInt64.toNat_inj.mp (by omega)
    have h2 : x2 = y2 := UInt64.toNat_inj.mp (by omega)
    have h3 : x3 = y3 := UInt64.toNat_inj.mp (by omega)
    have h4 : x4 = y4 := UInt64.toNat_inj.mp (by omega)
    exact ⟨by rw [h1, h2, h3, h4], h.2.2.2.2⟩
  | .i256 x1 x2 x3 x4, b, r, s, h => by
    cases b <;> simp [sortKey] at h
    rename_i y1 y2 y3 y4
    have h1 : x1 = y1 := Int64.toInt_inj.mp h.1
    have h2 : x2 = y2 := UInt64.toNat_inj.mp (by omega)
    have h3 : x3 = y3 := UInt64.toNat_inj.mp (by omega)
    have h4 : x4 = y4 := UInt64.toNat_inj.mp (by omega)
    exact ⟨by rw [h1, h2, h3, h4], h.2.2.2.2⟩
  | .bytes x, b, r, s, h => by
    cases b <;> simp [sortKey] at h
    obtain ⟨hx, hr⟩ := bytes_sortKey_append_inj h
    exact ⟨by rw [hx], hr⟩
  | .string x, b, r, s, h => by
    cases b <;> simp [sortKey] at h
    obtain ⟨hx, hr⟩ := bytes_sortKey_append_inj h
    exact ⟨by rw [hx], hr⟩
  | .symbol x, b, r, s, h => by
    cases b <;> simp [sortKey] at h
    obtain ⟨hx, hr⟩ := bytes_sortKey_append_inj h
    exact ⟨by rw [hx], hr⟩
  | .vec x, b, r, s, h => by
    cases b <;> simp [sortKey] at h
    obtain ⟨hx, hr⟩ := itemsSortKey_append_inj x _ _ _ h
    exact ⟨by rw [hx], hr⟩
  | .map x, b, r, s, h => by
    cases b <;> simp [sortKey] at h
    obtain ⟨hx, hr⟩ := storageSortKey_append_inj x _ _ _ h
    exact ⟨by rw [hx], hr⟩
  | .address x, b, r, s, h => by
    cases b <;> simp [sortKey] at h
    obtain ⟨hx, hr⟩ := address_sortKey_append_inj h
    exact ⟨by rw [hx], hr⟩
  | .ledgerKeyContractInstance, b, r, s, h => by
    cases b <;> simp [sortKey] at h
    exact ⟨rfl, h⟩
  | .contractInstance x y, b, r, s, h => by
    cases b <;> simp [sortKey] at h
    obtain ⟨hx, h⟩ := executable_sortKey_append_inj h
    obtain ⟨hy, hr⟩ := storageSortKey_append_inj y _ _ _ h
    exact ⟨by rw [hx, hy], hr⟩

theorem itemsSortKey_append_inj : ∀ (a b : Option (List ScVal)) (r s : List Int),
    itemsSortKey a ++ r = itemsSortKey b ++ s → a = b ∧ r = s
  | none, b, r, s, h => by
    cases b <;> simp [itemsSortKey] at h
    exact ⟨rfl, h⟩
  | some x, b, r, s, h => by
    cases b <;> simp [itemsSortKey] at h
    obtain ⟨hx, hr⟩ := listSortKey_append_inj x _ _ _ h
    exact ⟨by rw [hx], hr⟩

theorem storageSortKey_append_inj : ∀ (a b : Option (List (ScVal × ScVal))) (r s : List Int),
    storageSortKey a ++ r = storageSortKey b ++ s → a = b ∧ r = s
  | none, b, r, s, h => by
    cases b <;> simp [storageSortKey] at h
    exact ⟨rfl, h⟩
  | some x, b, r, s, h => by
    cases b <;> simp [storageSortKey] at h
    obtain ⟨hx, hr⟩ := entriesSortKey_append_inj x _ _ _ h
    exact ⟨by rw [hx], hr⟩

theorem listSortKey_append_inj : ∀ (a b : List ScVal) (r s : List Int),
    listSortKey a ++ r = listSortKey b ++ s → a = b ∧ r = s
  | [], b, r, s, h => by
    cases b with
    | nil => simpa [listSortKey] using h
    | cons w b => simp [listSortKey] at h
  | v :: a, b, r, s, h => by
    cases b with
    | nil => simp [listSortKey] at h
    | cons w b =>
      simp only [listSortKey, List.cons_append, List.append_assoc, List.cons.injEq,
        true_and] at h
      obtain ⟨hv, h⟩ := sortKey_append_inj v w _ _ h
      obtain ⟨ha, hr⟩ := listSortKey_append_inj a b r s h
      exact ⟨by rw [hv, ha], hr⟩

theorem entriesSortKey_append_inj : ∀ (a b : List (ScVal × ScVal)) (r s : List Int),
    entriesSortKey a ++ r = entriesSortKey b ++ s → a = b ∧ r = s
  | [], b, r, s, h => by
    cases b with
    | nil => simpa [entriesSortKey] using h
    | cons w b => simp [entriesSortKey] at h
  | (k, v) :: a, b, r, s, h => by
    cases b with
    | nil => simp [entriesSortKey] at h
    | cons w b =>
      obtain ⟨l, w⟩ := w
      simp only [entriesSortKey, List.cons_append, List.append_assoc, List.cons.injEq,
        true_and] at h
      obtain ⟨hk, h⟩ := sortKey_append_inj k l _ _ h
      obtain ⟨hv, h⟩ := sortKey_append_inj v w _ _ h
      obtain ⟨ha, hr⟩ := entriesSortKey_append_inj a b r s h
      exact ⟨by rw [hk, hv, ha], hr⟩

end

/-- A value can be told from its sort key. -/
theorem sortKey_inj {a b : ScVal} : a.sortKey = b.sortKey ↔ a = b := by
  constructor
  · intro h
    exact (sortKey_append_inj a b [] [] (by rw [h])).1
  · rintro rfl
    rfl

instance : DecidableEq ScVal := fun _ _ => decidable_of_iff _ sortKey_inj

end ScVal

end SmartWallet
