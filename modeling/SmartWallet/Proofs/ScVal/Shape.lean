import SmartWallet.Proofs.Except
import SmartWallet.Proofs.ScVal.Sort

set_option autoImplicit false

/-! # Taking shapes apart

When a contract value has the shape that was wanted, one lemma for each shape: there is
always just one value with a given content. A field of a record is found by its name alone,
so other fields, and the order of all of them, make no difference to it as long as its name
comes once (`lookup_of_perm_append`). -/

namespace SmartWallet

theorem AuthError.ofOption_eq_ok_iff {α : Type} {e : AuthError} {x : Option α} {a : α} :
    ofOption e x = .ok a ↔ x = some a := by
  cases x with
  | none => exact ⟨nofun, nofun⟩
  | some b =>
      exact ⟨fun h => congrArg some (Except.ok.inj h), fun h => congrArg _ (Option.some.inj h)⟩

namespace ScVal

variable {what name : String} {v w : ScVal} {tag b : Bytes} {items fields : List ScVal}
  {entries : List ScMapEntry}

/-! ## Shapes -/

theorem asVec_eq_ok_iff : v.asVec what = .ok items ↔ v = .ofList items := by
  unfold asVec ofList
  split <;> simp_all

theorem asSymbol_eq_ok_iff : v.asSymbol what = .ok b ↔ v = .symbol b := by
  unfold asSymbol
  split <;> simp_all

theorem asBytes_eq_ok_iff : v.asBytes what = .ok b ↔ v = .bytes b := by
  unfold asBytes
  split <;> simp_all

theorem asMap_eq_ok_iff : v.asMap what = .ok entries ↔ v = .map (some entries) := by
  unfold asMap
  split <;> simp_all

theorem asContract_eq_ok_iff {c : ContractAddress} :
    v.asContract what = .ok c ↔ v = .address (.contract c) := by
  unfold asContract
  split <;> simp_all

theorem asFixedBytes_eq_ok_iff {n : Nat} {x : FixedBytes n} :
    v.asFixedBytes n what = .ok x ↔ v = .bytes x.toList := by
  constructor
  · intro h
    obtain ⟨b, hb, h⟩ := except_bind_eq_ok_iff.mp h
    rw [asBytes_eq_ok_iff.mp hb,
      FixedBytes.ofList?_eq_some_iff.mp (AuthError.ofOption_eq_ok_iff.mp h)]
  · rintro rfl
    exact AuthError.ofOption_eq_ok_iff.mpr (FixedBytes.ofList?_toList x)

theorem asVariant_eq_ok_iff :
    v.asVariant what = .ok (tag, fields) ↔ v = .ofList (.symbol tag :: fields) := by
  constructor
  · intro h
    obtain ⟨items, hitems, h⟩ := except_bind_eq_ok_iff.mp h
    rw [asVec_eq_ok_iff.mp hitems]
    cases items with
    | nil => cases h
    | cons first rest =>
        obtain ⟨name, hname, h⟩ := except_bind_eq_ok_iff.mp h
        rw [asSymbol_eq_ok_iff.mp hname]
        cases h
        rfl
  · rintro rfl
    rfl

theorem field_eq_ok_iff :
    field entries name what = .ok v ↔ entries.lookup (ofName name) = some v :=
  AuthError.ofOption_eq_ok_iff

/-! ## Fields of a record -/

theorem mem_of_lookup {k : ScVal} (h : entries.lookup k = some v) : (k, v) ∈ entries := by
  obtain ⟨before, rest, rfl, -⟩ := List.lookup_eq_some_iff.mp h
  simp

/-- A key that comes once is found as it was, in whatever order the pairs are and whatever pairs
with other keys there are as well. -/
theorem lookup_of_perm_append {l m extra : List ScMapEntry} (hkeys : (l.map Prod.fst).Nodup)
    (hextra : ∀ e ∈ extra, e.1 ∉ l.map Prod.fst) (h : m.Perm (l ++ extra)) {k : ScVal}
    (hk : k ∈ l.map Prod.fst) : m.lookup k = l.lookup k := by
  have hother : pairsOf k extra = [] := by
    refine List.filter_eq_nil_iff.mpr fun e he => ?_
    rw [decide_eq_true_iff]
    rintro rfl
    exact hextra e he hk
  have hperm : (pairsOf k l).Perm (pairsOf k m) := by
    have hm : (pairsOf k m).Perm (pairsOf k (l ++ extra)) := h.filter _
    rw [pairsOf_append, hother, List.append_nil] at hm
    exact hm.symm
  have hnodup : ((pairsOf k l).map Prod.fst).Nodup := hkeys.sublist (List.filter_sublist.map _)
  have hpairs := pairsOf_eq_of_perm hnodup hperm k
  rw [pairsOf_pairsOf, pairsOf_pairsOf] at hpairs
  rw [lookup_eq_head?_pairsOf, lookup_eq_head?_pairsOf, hpairs]

end ScVal

end SmartWallet
