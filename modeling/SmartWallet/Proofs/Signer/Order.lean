import SmartWallet.Proofs.ScVal.Compare
import SmartWallet.Proofs.ScVal.Sort
import SmartWallet.Signer.Basic

set_option autoImplicit false

/-! # The order of signer keys

A wallet's signature map is sorted by the encoded keys, a list of signers by the keys themselves.
`SignerKey.sort_map_toScVal` says that this is the same: keys compare as what they are encoded
as, two keys are equal in the order only if they are the same, and so a list may be sorted before
or after its keys are encoded.

An encoded key is a vector of a name and a payload, and vectors compare item by item. The names of
the three kinds come in the order of the kinds (`compare_name`), and for keys of one kind the
payloads compare as what is in them (`compare_payload`), whatever the lengths of credential ids. -/

namespace SmartWallet

theorem ScVal.compare_ofVariant (name name' : String) (v w : ScVal) :
    compare (ofVariant name [v]) (ofVariant name' [w])
      = (compare (Bytes.ofString name) (Bytes.ofString name')).then (compare v w) := by
  have hvec : compare (ofVariant name [v]) (ofVariant name' [w])
      = compare [ofName name, v] [ofName name', w] := compare_vec _ _
  have hname : compare (ofName name) (ofName name')
      = compare (Bytes.ofString name) (Bytes.ofString name') := compare_symbol _ _
  rw [hvec, List.compare_cons_cons, List.compare_cons_cons, hname]
  cases compare v w <;> rfl

namespace SignerKey

/-! ## Encoded keys -/

/-- The name of the variant that a key is encoded as. -/
def name : SignerKey → String
  | ed25519 _ => "Ed25519"
  | policy _ => "Policy"
  | secp256r1 _ => "Secp256r1"

/-- What stands behind the name. -/
def payload : SignerKey → ScVal
  | ed25519 key => .bytes key.toList
  | policy address => .address (.contract address)
  | secp256r1 credentialId => .bytes credentialId

theorem toScVal_eq (k : SignerKey) : k.toScVal = .ofVariant k.name [k.payload] := by
  cases k <;> rfl

/-- The names are in the order of the kinds. -/
theorem compare_name (a b : SignerKey) :
    compare (Bytes.ofString a.name) (Bytes.ofString b.name) = compare a.rank b.rank := by
  cases a <;> cases b <;> (simp only [name, rank]; decide)

/-- Payloads of one kind compare as what is in them. -/
theorem compare_payload {a b : SignerKey} (h : a.rank = b.rank) :
    compare a.payload b.payload = compare a.content b.content :=
  match a, b, h with
  | ed25519 _, ed25519 _, _ => ScVal.compare_bytes _ _
  | policy _, policy _, _ => ScVal.compare_contract _ _
  | secp256r1 _, secp256r1 _, _ => ScVal.compare_bytes _ _

/-! ## The order -/

theorem compare_eq (a b : SignerKey) :
    compare a b = (compare a.rank b.rank).then (compare a.content b.content) := rfl

/-- Keys compare as what they are encoded as. -/
theorem compare_toScVal (a b : SignerKey) : compare a.toScVal b.toScVal = compare a b := by
  rw [toScVal_eq, toScVal_eq, ScVal.compare_ofVariant, compare_name, compare_eq]
  by_cases hrank : a.rank = b.rank
  · rw [compare_payload hrank]
  -- keys of different kinds differ in their names already
  · have hne : compare a.rank b.rank ≠ .eq := fun h => hrank (Nat.compare_eq_eq.mp h)
    cases hcompare : compare a.rank b.rank with
    | eq => exact absurd hcompare hne
    | lt => rfl
    | gt => rfl

/-- A key is determined by its kind and its content. -/
theorem eq_of_rank_content {a b : SignerKey} (hrank : a.rank = b.rank)
    (hcontent : a.content = b.content) : a = b := by
  match a, b, hrank with
  | ed25519 _, ed25519 _, _ => exact congrArg ed25519 (FixedBytes.ext hcontent)
  | policy ⟨bytes⟩, policy ⟨bytes'⟩, _ =>
      have hbytes : bytes = bytes' := FixedBytes.ext hcontent
      rw [hbytes]
  | secp256r1 _, secp256r1 _, _ => exact congrArg secp256r1 hcontent

instance : Std.TransOrd SignerKey where
  eq_swap {a b} := by
    rw [← compare_toScVal, ← compare_toScVal]
    exact Std.OrientedOrd.eq_swap
  isLE_trans {a b c} hab hbc := by
    rw [← compare_toScVal] at hab hbc ⊢
    exact Std.TransOrd.isLE_trans hab hbc

instance : Std.LawfulEqOrd SignerKey where
  compare_self {a} := by
    rw [← compare_toScVal]
    exact Std.ReflOrd.compare_self
  eq_of_compare {a b} h := by
    rw [compare_eq, Ordering.then_eq_eq] at h
    exact eq_of_rank_content (Nat.compare_eq_eq.mp h.1) (Std.LawfulEqOrd.eq_of_compare h.2)

/-- A key is told from its form as a contract value. -/
theorem toScVal_injective : Function.Injective toScVal := by
  intro a b h
  apply Std.LawfulEqOrd.eq_of_compare
  rw [← compare_toScVal, h, Std.ReflOrd.compare_self]

/-- Signer keys compare as what they are encoded as, and as equal only if they are the same; so a
list of keys may be sorted before its keys are encoded, or after. -/
theorem sort_map_toScVal :
    (∀ a b : SignerKey, compare a b = compare a.toScVal b.toScVal)
      ∧ (∀ a b : SignerKey, compare a b = .eq ↔ a = b)
      ∧ ∀ keys : List SignerKey, (sort keys).map toScVal
        = (keys.map toScVal).mergeSort fun v w => (compare v w).isLE := by
  refine ⟨fun a b => (compare_toScVal a b).symm, ?_, ?_⟩
  · intro a b
    exact Std.LawfulEqOrd.compare_eq_iff_eq
  · intro keys
    apply List.map_mergeSort
    intro a _ b _
    rw [compare_toScVal]

end SignerKey

end SmartWallet
