import SmartWallet.Proofs.ScVal.Shape
import SmartWallet.Signer.Basic

set_option autoImplicit false

/-! # Reading signers and signatures back

A signer key and a signature are read back from the contract values that they are encoded as
(`SignerKey.ofScVal_toScVal`, `Signature.ofScVal_toScVal`), and so is a signature that may be
missing, since what stands for no signature stands for nothing else. The fields of an assertion are
sorted when it is encoded; each is found again by its name. -/

namespace SmartWallet

theorem SignerKey.ofScVal_toScVal (k : SignerKey) : ofScVal k.toScVal = .ok k := by
  cases k with
  | ed25519 key =>
      have hkey : (ScVal.bytes key.toList).asFixedBytes 32 what = .ok key :=
        ScVal.asFixedBytes_eq_ok_iff.mpr rfl
      show ed25519 <$> (ScVal.bytes key.toList).asFixedBytes 32 what = _
      rw [hkey]
      rfl
  | policy address => rfl
  | secp256r1 credentialId => rfl

namespace Signature

/-- The fields of the record that an assertion is encoded as. -/
def assertionFields (a : WebAuthn.Assertion) : List ScMapEntry :=
  [(.ofName "authenticator_data", .bytes a.authenticatorData),
    (.ofName "client_data_json", .bytes a.clientDataJson),
    (.ofName "signature", .bytes a.signature.bytes.toList)]

theorem assertionOfFields_fields (a : WebAuthn.Assertion) :
    assertionOfFields (assertionFields a) = .ok a := by
  have hsignature : (ScVal.bytes a.signature.bytes.toList).asFixedBytes 64 what
      = .ok a.signature.bytes := ScVal.asFixedBytes_eq_ok_iff.mpr rfl
  show ((ScVal.bytes a.signature.bytes.toList).asFixedBytes 64 what >>= fun x =>
    pure (⟨a.authenticatorData, a.clientDataJson, ⟨x⟩⟩ : WebAuthn.Assertion)) = _
  rw [hsignature]
  rfl

/-- An assertion is read from its fields whatever their order. -/
theorem assertionOfFields_sortEntries (fields : List ScMapEntry) :
    assertionOfFields (ScVal.sortEntries fields) = assertionOfFields fields := by
  unfold assertionOfFields
  simp only [ScVal.field_sortEntries]

theorem ofScVal_toScVal (x : Signature) : ofScVal x.toScVal = .ok x := by
  cases x with
  | ed25519 signature =>
      have hsignature : (ScVal.bytes signature.toList).asFixedBytes 64 what = .ok signature :=
        ScVal.asFixedBytes_eq_ok_iff.mpr rfl
      show ed25519 <$> (ScVal.bytes signature.toList).asFixedBytes 64 what = _
      rw [hsignature]
      rfl
  | secp256r1 a =>
      show secp256r1 <$> assertionOfFields (ScVal.sortEntries (assertionFields a)) = _
      rw [assertionOfFields_sortEntries, assertionOfFields_fields]
      rfl

theorem toScVal_ne_void (x : Signature) : x.toScVal ≠ .void := by
  cases x <;> nofun

theorem optionOfScVal_optionToScVal (x : Option Signature) :
    optionOfScVal (optionToScVal x) = .ok x := by
  cases x with
  | none => rfl
  | some x =>
      unfold optionOfScVal optionToScVal
      simp only
      rw [if_neg x.toScVal_ne_void, ofScVal_toScVal]
      rfl

end Signature

end SmartWallet
