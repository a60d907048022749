import SmartWallet.Proofs.WebAuthn.CredentialKey
import SmartWallet.Sample

set_option autoImplicit false

/-! # The sources of a key

A registration can show its key in two fields that a browser may leave out, besides the
attestation object that every registration has. A DER form that is malformed, at whatever stage,
is passed over as if it were missing (`extract_withSources_of_no_publicKey`). Authenticator data
are not: once they are there they decide, and the object is not looked at
(`extract_withSources_data`). So data that are not base64url leave a registration without a key,
even if its object has one (`extract_malformed`). -/

namespace SmartWallet.WebAuthn

/-- The response with other values for the optional sources of its key. -/
def RegistrationResponse.withSources (r : RegistrationResponse)
    (publicKey authenticatorData : Option String) : RegistrationResponse :=
  { r with response := { r.response with
      publicKey := publicKey
      authenticatorData := authenticatorData } }

namespace CredentialKey

/-- An optional field that is missing or not base64url. -/
def Malformed (field : Option String) : Prop :=
  ∀ text, field = some text → Base64Url.decode? text = none

variable {publicKey authenticatorData : Option String} {text : String}

theorem decodeField_of_decode?_eq_none (h : Base64Url.decode? text = none) :
    decodeField text = .error .base64 := by
  unfold decodeField
  rw [h]

theorem Malformed.bind_decode? {field : Option String} (h : Malformed field) :
    field.bind Base64Url.decode? = none := by
  cases field with
  | none => rfl
  | some text => exact h text rfl

/-! ## One source after the other -/

/-- A DER form without a key is as good as none. -/
theorem extract_withSources_of_no_publicKey (r : RegistrationResponse)
    (h : (publicKey.bind Base64Url.decode?).bind ofSpkiTail? = none)
    (authenticatorData : Option String) :
    extract (r.withSources publicKey authenticatorData)
      = extract (r.withSources none authenticatorData) := by
  simp only [extract, RegistrationResponse.withSources, h, Option.bind_none]

/-- Authenticator data decide, and the rest of the response does not count. -/
theorem extract_withSources_data (r : RegistrationResponse) (text : String) :
    extract (r.withSources none (some text)) = decodeField text >>= ofAuthenticatorData := rfl

theorem extract_withSources_object (r : RegistrationResponse) :
    extract (r.withSources none none)
      = decodeField r.response.attestationObject >>= ofAttestationObject := rfl

/-- Without the optional sources the key is the one in the object. -/
theorem extract_of_object {r : RegistrationResponse} {object : Bytes} {k : Ecdsa.PublicKey}
    (hobject : r.response.attestationObject = Base64Url.encode object)
    (hk : ofAttestationObject object = .ok k) : extract (r.withSources none none) = .ok k := by
  rw [extract_withSources_object, hobject, SoftwareAuthenticator.decodeField_encode]
  exact hk

theorem Malformed.extract_publicKey (h : Malformed publicKey) (r : RegistrationResponse)
    (authenticatorData : Option String) :
    extract (r.withSources publicKey authenticatorData)
      = extract (r.withSources none authenticatorData) := by
  apply extract_withSources_of_no_publicKey
  rw [h.bind_decode?]
  rfl

/-- Authenticator data that are not base64url end the search, whatever the other sources have. -/
theorem Malformed.extract_data (h : Malformed publicKey) (htext : Base64Url.decode? text = none)
    (r : RegistrationResponse) :
    extract (r.withSources publicKey (some text)) = .error .base64 := by
  rw [h.extract_publicKey, extract_withSources_data, decodeField_of_decode?_eq_none htext]
  rfl

/-! ## Malformed sources -/

/-- If the object has a key and the optional sources are missing or not base64url, that key is found
exactly if there are no authenticator data; data that are there are an error. The DER form makes no
difference, whatever the data are. -/
theorem extract_malformed {r : RegistrationResponse} {k : Ecdsa.PublicKey}
    (hobject : extract (r.withSources none none) = .ok k) (hkey : Malformed publicKey)
    (hdata : Malformed authenticatorData) :
    (extract (r.withSources publicKey authenticatorData) = .ok k ↔ authenticatorData = none)
    ∧ (authenticatorData ≠ none →
      extract (r.withSources publicKey authenticatorData) = .error .base64)
    ∧ ∀ other, extract (r.withSources publicKey other) = extract (r.withSources none other) := by
  refine ⟨?_, ?_, hkey.extract_publicKey r⟩
  · cases authenticatorData with
    | none =>
        have hfound := (hkey.extract_publicKey r none).trans hobject
        exact ⟨fun _ => rfl, fun _ => hfound⟩
    | some text =>
        have hrefused := hkey.extract_data (hdata text rfl) r
        constructor
        · intro hfound
          rw [hrefused] at hfound
          cases hfound
        · exact nofun
  · intro hpresent
    obtain ⟨text, rfl⟩ := Option.ne_none_iff_exists'.mp hpresent
    exact hkey.extract_data (hdata text rfl) r

/-- A registration that shows its key in the object only. -/
def sampleObjectOnly : RegistrationResponse where
  id := Base64Url.encode Sample.credentialId
  rawId := Sample.credentialId
  response :=
    { clientDataJSON := Base64Url.encode (Bytes.ofString "\x7b\x7d")
      attestationObject := Base64Url.encode (attestationObject Sample.attestedData)
      authenticatorData := none
      publicKey := none
      publicKeyAlgorithm := none
      transports := [] }
  type := .publicKey

theorem extract_sampleObjectOnly :
    extract (sampleObjectOnly.withSources none none) = .ok Sample.publicKey := by
  have hobject : (ofAttestationObject (attestationObject Sample.attestedData)).toOption
      = some Sample.publicKey := by
    decide +kernel
  exact extract_of_object rfl (toOption_eq_some_iff.mp hobject)

theorem malformed_exclamation : Malformed (some "!!!") := by
  rintro _ ⟨⟩
  decide +kernel

theorem extract_malformed_sample :
    extract (sampleObjectOnly.withSources (some "!!!") none) = .ok Sample.publicKey
      ∧ extract (sampleObjectOnly.withSources (some "!!!") (some "!!!")) = .error .base64 := by
  have hskipped := extract_malformed extract_sampleObjectOnly malformed_exclamation
    (show Malformed none from nofun)
  have hrefused := extract_malformed extract_sampleObjectOnly malformed_exclamation
    malformed_exclamation
  exact ⟨hskipped.1.mpr rfl, hrefused.2.1 nofun⟩

/-- Malformed optional sources are not always passed over. -/
theorem not_extract_malformed_skipped :
    ¬ ∀ (r : RegistrationResponse) (k : Ecdsa.PublicKey)
      (publicKey authenticatorData : Option String), extract (r.withSources none none) = .ok k →
        Malformed publicKey → Malformed authenticatorData →
        extract (r.withSources publicKey authenticatorData) = .ok k := by
  intro hall
  have hnone : Malformed none := nofun
  have hfound := hall sampleObjectOnly Sample.publicKey none (some "!!!") extract_sampleObjectOnly
    hnone malformed_exclamation
  rw [hnone.extract_data (malformed_exclamation _ rfl)] at hfound
  cases hfound

end CredentialKey

end SmartWallet.WebAuthn
