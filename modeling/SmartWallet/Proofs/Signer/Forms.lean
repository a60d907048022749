import SmartWallet.Proofs.ScVal.Record
import SmartWallet.Proofs.ScVal.Shape
import SmartWallet.Proofs.Signer.RoundTrip
import SmartWallet.Sample

set_option autoImplicit false

/-! # The forms of signers and signatures

Which contract values are read as a given signer key, storage kind or signature. For keys, storage
kinds and Ed25519 signatures it is one value, the one that they are encoded as, so reading and
encoding are inverse to each other. An assertion has more forms: `Signature.HasFields` says that a
map has the three fields somewhere, and whatever else it has is passed over. Of these forms the
encoding is the one whose map is those fields and nothing else, in the order of their names
(`Signature.HasFields.eq_assertionFields_iff`). -/

namespace SmartWallet

/-! ## Signer keys -/

/-- A key is read from its encoding and from nothing else. -/
theorem SignerKey.ofScVal_eq_ok_iff {v : ScVal} {k : SignerKey} :
    ofScVal v = .ok k ↔ k.toScVal = v := by
  constructor
  · intro hread
    obtain ⟨⟨tag, fields⟩, hvariant, h⟩ := except_bind_eq_ok_iff.mp hread
    obtain rfl := ScVal.asVariant_eq_ok_iff.mp hvariant
    rcases fields with _ | ⟨payload, _ | ⟨second, rest⟩⟩
    · cases h
    · -- the name decides which payload there has to be
      dsimp only at h
      by_cases hpolicy : tag = Bytes.ofString "Policy"
      · rw [if_pos hpolicy] at h
        obtain ⟨c, hc, rfl⟩ := map_eq_ok_iff.mp h
        rw [hpolicy, ScVal.asContract_eq_ok_iff.mp hc]
        rfl
      rw [if_neg hpolicy] at h
      by_cases hed25519 : tag = Bytes.ofString "Ed25519"
      · rw [if_pos hed25519] at h
        obtain ⟨b, hb, rfl⟩ := map_eq_ok_iff.mp h
        rw [hed25519, ScVal.asFixedBytes_eq_ok_iff.mp hb]
        rfl
      rw [if_neg hed25519] at h
      by_cases hsecp256r1 : tag = Bytes.ofString "Secp256r1"
      · rw [if_pos hsecp256r1] at h
        obtain ⟨b, hb, rfl⟩ := map_eq_ok_iff.mp h
        rw [hsecp256r1, ScVal.asBytes_eq_ok_iff.mp hb]
        rfl
      · rw [if_neg hsecp256r1] at h
        cases h
    · cases h
  · rintro rfl
    exact ofScVal_toScVal k

/-! ## Storage kinds -/

theorem SignerStorage.ofScVal_toScVal (s : SignerStorage) : ofScVal s.toScVal = .ok s := by
  cases s <;> rfl

/-- A storage kind is read from its encoding and from nothing else. -/
theorem SignerStorage.ofScVal_eq_ok_iff {v : ScVal} {s : SignerStorage} :
    ofScVal v = .ok s ↔ s.toScVal = v := by
  constructor
  · intro hread
    obtain ⟨⟨tag, fields⟩, hvariant, h⟩ := except_bind_eq_ok_iff.mp hread
    obtain rfl := ScVal.asVariant_eq_ok_iff.mp hvariant
    cases fields with
    | cons first rest => cases h
    | nil =>
        dsimp only at h
        by_cases hpersistent : tag = Bytes.ofString persistent.name
        · rw [if_pos hpersistent] at h
          cases h
          rw [hpersistent]
          rfl
        rw [if_neg hpersistent] at h
        by_cases htemporary : tag = Bytes.ofString temporary.name
        · rw [if_pos htemporary] at h
          cases h
          rw [htemporary]
          rfl
        · rw [if_neg htemporary] at h
          cases h
  · rintro rfl
    exact ofScVal_toScVal s

/-! ## Signatures -/

namespace Signature

variable {v : ScVal} {fields : List ScMapEntry} {a : WebAuthn.Assertion}

/-- The names of the fields of an assertion, in the order of symbols. -/
def assertionNames : List String := ["authenticator_data", "client_data_json", "signature"]

theorem pairwise_assertionNames :
    (assertionNames.map ScVal.ofName).Pairwise fun k k' => compare k k' = .lt := by decide

/-- A map has the fields of an assertion, each the first of its name. -/
structure HasFields (fields : List ScMapEntry) (a : WebAuthn.Assertion) : Prop where
  authenticatorData : fields.lookup (.ofName "authenticator_data")
    = some (.bytes a.authenticatorData)
  clientDataJson : fields.lookup (.ofName "client_data_json") = some (.bytes a.clientDataJson)
  signature : fields.lookup (.ofName "signature") = some (.bytes a.signature.bytes.toList)

theorem assertionOfFields_eq_ok_iff : assertionOfFields fields = .ok a ↔ HasFields fields a := by
  constructor
  · intro h
    obtain ⟨v, hv, h⟩ := except_bind_eq_ok_iff.mp h
    obtain ⟨data, hdata, h⟩ := except_bind_eq_ok_iff.mp h
    obtain ⟨w, hw, h⟩ := except_bind_eq_ok_iff.mp h
    obtain ⟨client, hclient, h⟩ := except_bind_eq_ok_iff.mp h
    obtain ⟨x, hx, h⟩ := except_bind_eq_ok_iff.mp h
    obtain ⟨bytes, hbytes, h⟩ := except_bind_eq_ok_iff.mp h
    cases h
    rw [ScVal.field_eq_ok_iff] at hv hw hx
    rw [ScVal.asBytes_eq_ok_iff.mp hdata] at hv
    rw [ScVal.asBytes_eq_ok_iff.mp hclient] at hw
    rw [ScVal.asFixedBytes_eq_ok_iff.mp hbytes] at hx
    exact ⟨hv, hw, hx⟩
  · rintro ⟨hdata, hclient, hsignature⟩
    refine except_bind_eq_ok_iff.mpr ⟨_, ScVal.field_eq_ok_iff.mpr hdata, ?_⟩
    refine except_bind_eq_ok_iff.mpr ⟨_, ScVal.asBytes_eq_ok_iff.mpr rfl, ?_⟩
    refine except_bind_eq_ok_iff.mpr ⟨_, ScVal.field_eq_ok_iff.mpr hclient, ?_⟩
    refine except_bind_eq_ok_iff.mpr ⟨_, ScVal.asBytes_eq_ok_iff.mpr rfl, ?_⟩
    refine except_bind_eq_ok_iff.mpr ⟨_, ScVal.field_eq_ok_iff.mpr hsignature, ?_⟩
    exact except_bind_eq_ok_iff.mpr ⟨_, ScVal.asFixedBytes_eq_ok_iff.mpr rfl, rfl⟩

/-- The contract values that a signature is read from. -/
inductive Form : Signature → ScVal → Prop where
  | ed25519 (signature : FixedBytes 64) :
      Form (.ed25519 signature) (.ofVariant "Ed25519" [.bytes signature.toList])
  | secp256r1 {fields : List ScMapEntry} {a : WebAuthn.Assertion} (h : HasFields fields a) :
      Form (.secp256r1 a) (.ofVariant "Secp256r1" [.map (some fields)])

/-- The values that a signature is read from are its forms. -/
theorem ofScVal_eq_ok_iff {x : Signature} : ofScVal v = .ok x ↔ Form x v := by
  constructor
  · intro hread
    obtain ⟨⟨tag, payloads⟩, hvariant, h⟩ := except_bind_eq_ok_iff.mp hread
    obtain rfl := ScVal.asVariant_eq_ok_iff.mp hvariant
    rcases payloads with _ | ⟨payload, _ | ⟨second, rest⟩⟩
    · cases h
    · dsimp only at h
      by_cases hed25519 : tag = Bytes.ofString "Ed25519"
      · rw [if_pos hed25519] at h
        obtain ⟨b, hb, rfl⟩ := map_eq_ok_iff.mp h
        rw [hed25519, ScVal.asFixedBytes_eq_ok_iff.mp hb]
        exact .ed25519 b
      rw [if_neg hed25519] at h
      by_cases hsecp256r1 : tag = Bytes.ofString "Secp256r1"
      · rw [if_pos hsecp256r1] at h
        obtain ⟨entries, hentries, h⟩ := except_bind_eq_ok_iff.mp h
        obtain ⟨b, hb, rfl⟩ := map_eq_ok_iff.mp h
        rw [hsecp256r1, ScVal.asMap_eq_ok_iff.mp hentries]
        exact .secp256r1 (assertionOfFields_eq_ok_iff.mp hb)
      · rw [if_neg hsecp256r1] at h
        cases h
    · cases h
  · intro h
    cases h with
    | ed25519 signature => exact ofScVal_toScVal (.ed25519 signature)
    | secp256r1 h =>
        show secp256r1 <$> assertionOfFields _ = _
        rw [assertionOfFields_eq_ok_iff.mpr h]
        rfl

/-- An Ed25519 signature is read from its encoding and from nothing else. -/
theorem ofScVal_eq_ed25519_iff {signature : FixedBytes 64} :
    ofScVal v = .ok (.ed25519 signature) ↔ (ed25519 signature).toScVal = v := by
  rw [ofScVal_eq_ok_iff]
  constructor
  · rintro ⟨⟩
    rfl
  · rintro rfl
    exact .ed25519 signature

theorem ofScVal_eq_secp256r1_iff : ofScVal v = .ok (.secp256r1 a) ↔
    ∃ fields, v = .ofVariant "Secp256r1" [.map (some fields)] ∧ HasFields fields a := by
  rw [ofScVal_eq_ok_iff]
  constructor
  · rintro (_ | h)
    exact ⟨_, rfl, h⟩
  · rintro ⟨fields, rfl, h⟩
    exact .secp256r1 h

/-! ## The fields of an assertion -/

theorem map_fst_assertionFields (a : WebAuthn.Assertion) :
    (assertionFields a).map Prod.fst = assertionNames.map ScVal.ofName := rfl

/-- The fields are in the order of symbols as they are listed. -/
theorem toScVal_secp256r1 (a : WebAuthn.Assertion) :
    (secp256r1 a).toScVal = .ofVariant "Secp256r1" [.map (some (assertionFields a))] := by
  have hincreasing : (assertionFields a).Pairwise fun e e' => compare e.1 e'.1 = .lt := by
    have hkeys := pairwise_assertionNames
    rw [← map_fst_assertionFields a] at hkeys
    exact List.pairwise_map.mp hkeys
  have hsorted := ScVal.sortEntries_of_pairwise_lt hincreasing
  show ScVal.ofVariant "Secp256r1" [.map (some (ScVal.sortEntries (assertionFields a)))] = _
  rw [hsorted]

namespace HasFields

/-- Among the maps that have the fields of an assertion, the one that it is
encoded as is known by its keys. -/
theorem eq_assertionFields_iff (h : HasFields fields a) :
    fields = assertionFields a ↔ fields.map Prod.fst = assertionNames.map ScVal.ofName := by
  constructor
  · rintro rfl
    exact map_fst_assertionFields a
  · intro hkeys
    obtain ⟨⟨k₁, v₁⟩, rest₁, rfl, hk₁, hrest₁⟩ := List.map_eq_cons_iff.mp hkeys
    obtain ⟨⟨k₂, v₂⟩, rest₂, rfl, hk₂, hrest₂⟩ := List.map_eq_cons_iff.mp hrest₁
    obtain ⟨⟨k₃, v₃⟩, rest₃, rfl, hk₃, hrest₃⟩ := List.map_eq_cons_iff.mp hrest₂
    obtain rfl := List.map_eq_nil_iff.mp hrest₃
    obtain rfl : k₁ = .ofName "authenticator_data" := hk₁
    obtain rfl : k₂ = .ofName "client_data_json" := hk₂
    obtain rfl : k₃ = .ofName "signature" := hk₃
    obtain rfl : v₁ = .bytes a.authenticatorData := Option.some_inj.mp h.authenticatorData
    obtain rfl : v₂ = .bytes a.clientDataJson := Option.some_inj.mp h.clientDataJson
    obtain rfl : v₃ = .bytes a.signature.bytes.toList := Option.some_inj.mp h.signature
    rfl

/-- The fields are found whatever their order, and beside whatever other keys. -/
theorem of_perm_append {fields' extra : List ScMapEntry} (h : HasFields fields a)
    (hkeys : (fields.map Prod.fst).Nodup) (hextra : ∀ e ∈ extra, e.1 ∉ fields.map Prod.fst)
    (hperm : fields'.Perm (fields ++ extra)) : HasFields fields' a := by
  have hfound : ∀ {k w}, fields.lookup k = some w → fields'.lookup k = some w := by
    intro k w hw
    have hk : k ∈ fields.map Prod.fst := List.mem_map.mpr ⟨(k, w), ScVal.mem_of_lookup hw, rfl⟩
    rw [ScVal.lookup_of_perm_append hkeys hextra hperm hk, hw]
  exact ⟨hfound h.authenticatorData, hfound h.clientDataJson, hfound h.signature⟩

end HasFields

/-- Signer keys, storage kinds and Ed25519 signatures are each read from one value, their encoding,
and a signature that may be missing is read back from its encoding. The values that an assertion is
read from differ in the map of fields: if its keys are different, the assertion is still read after
the map is put in another order and other keys are added, and the map of the encoding is known by
having the names of the three fields as its keys, in the order of symbols. -/
theorem signer_forms :
    (∀ v k, SignerKey.ofScVal v = .ok k ↔ k.toScVal = v)
      ∧ (∀ v s, SignerStorage.ofScVal v = .ok s ↔ s.toScVal = v)
      ∧ (∀ x, optionOfScVal (optionToScVal x) = .ok x)
      ∧ (∀ v s, ofScVal v = .ok (.ed25519 s) ↔ (ed25519 s).toScVal = v)
      ∧ ((assertionNames.map ScVal.ofName).Pairwise fun k k' => compare k k' = .lt)
      ∧ ∀ v a, ofScVal v = .ok (.secp256r1 a) →
        ∃ fields, v = .ofVariant "Secp256r1" [.map (some fields)]
          ∧ (v = (secp256r1 a).toScVal ↔ fields.map Prod.fst = assertionNames.map ScVal.ofName)
          ∧ ((fields.map Prod.fst).Nodup → ∀ extra fields', fields'.Perm (fields ++ extra) →
            (∀ e ∈ extra, e.1 ∉ fields.map Prod.fst) →
            ofScVal (.ofVariant "Secp256r1" [.map (some fields')]) = .ok (.secp256r1 a)) := by
  refine ⟨fun _ _ => SignerKey.ofScVal_eq_ok_iff, fun _ _ => SignerStorage.ofScVal_eq_ok_iff,
    optionOfScVal_optionToScVal, fun _ _ => ofScVal_eq_ed25519_iff, pairwise_assertionNames, ?_⟩
  intro v a hv
  obtain ⟨fields, rfl, h⟩ := ofScVal_eq_secp256r1_iff.mp hv
  refine ⟨fields, rfl, ?_, ?_⟩
  · rw [toScVal_secp256r1, ScVal.ofVariant_inj, ← h.eq_assertionFields_iff]
    simp
  · intro hkeys extra fields' hperm hextra
    exact ofScVal_eq_secp256r1_iff.mpr ⟨fields', rfl, h.of_perm_append hkeys hextra hperm⟩

/-- An assertion is read from a map that has its fields backwards, and one more. -/
theorem signer_forms_reversed :
    let a : WebAuthn.Assertion := ⟨Sample.attestedData, Bytes.ofString "{}", ⟨.replicate 64 7⟩⟩
    let fields := (.ofName "origin", .void) :: (assertionFields a).reverse
    ofScVal (.ofVariant "Secp256r1" [.map (some fields)]) = .ok (.secp256r1 a) := by
  intro a fields
  have hread : ofScVal (secp256r1 a).toScVal = .ok (.secp256r1 a) := ofScVal_toScVal (.secp256r1 a)
  obtain ⟨_, _, _, _, _, hsecp256r1⟩ := signer_forms
  obtain ⟨fields₀, hfields₀, -, hany⟩ := hsecp256r1 _ a hread
  have hmap : assertionFields a = fields₀ := by
    rw [toScVal_secp256r1, ScVal.ofVariant_inj] at hfields₀
    simpa using hfields₀.2
  subst hmap
  have hperm : fields.Perm (assertionFields a ++ [(.ofName "origin", .void)]) :=
    ((List.reverse_perm _).cons _).trans (List.perm_append_singleton _ _).symm
  exact hany (by decide) [(.ofName "origin", .void)] fields hperm (by decide)

end Signature

end SmartWallet
