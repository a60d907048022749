import SmartWallet.Proofs.Wallet.PasskeySigning
import SmartWallet.Proofs.WebAuthn.CredentialKey

set_option autoImplicit false

/-! # The key that is created

A passkey that a software authenticator makes is created with the id of its credential and
with the key that its registration gives. `createKey_key` says which key that is: the key
of the authenticator, unless the registration has an attestation object only and a header
of an encoded key stands in the id. Such ids exist (`not_sources_agree`), and then it is
the key of whoever chose the id. -/

namespace SmartWallet

open WebAuthn CredentialKey

variable {σ : Type}

namespace Client

variable {c : Client σ} {a : SoftwareAuthenticator} {I : σ → Prop}

theorem createKey_exec {app user : String} {now : Nat} {s : SessionState σ}
    {response : RegistrationResponse} {k : Ecdsa.PublicKey}
    (hresponse : (c.services.register (c.registrationOptions app user now) s.services).1
      = .ok response) (hkey : extract response = .ok k) :
    ((c.createKey app user now).exec s).1 = .ok ⟨response.rawId, k⟩ := by
  obtain ⟨u, hregister⟩ : ∃ u, (c.register (c.registrationOptions app user now)).exec s
      = (.ok response, u) := by
    rw [register, Action.exec_ask, hresponse]
    exact ⟨_, rfl⟩
  have hextract : (Action.ofExcept .credentialKey (extract response)).exec u = (.ok k, u) := by
    rw [Action.exec_ofExcept, hkey]
    rfl
  unfold createKey
  rw [Action.exec_bind_of_ok hregister, Action.exec_bind_of_ok hextract]
  rfl

/-- Every way in which a software authenticator shows its key, with the key that is created. -/
theorem createKey_key (huses : c.services.Uses a I) (hdata : a.attestedData.length < 65536) :
    ofSpkiTail? a.spki = some a.publicKey
      ∧ ofAuthenticatorData a.attestedData = .ok a.publicKey
      ∧ ∃ k, ofAttestationObject (attestationObject a.attestedData) = .ok k
        ∧ FirstIn (a.idField ++ a.coseKey) k
        ∧ (¬ coseHeader <:+: a.idField → k = a.publicKey)
        ∧ ∀ (app user : String) (now : Nat) (s : SessionState σ), I s.services →
          a.cancelled = false → ((c.createKey app user now).exec s).1
            = .ok ⟨a.credentialId, if a.format = .attestationObject then k else a.publicKey⟩ := by
  have hid : a.credentialId.length < 65536 := by
    rw [SoftwareAuthenticator.attestedData_eq, SoftwareAuthenticator.idField] at hdata
    simp only [List.length_append] at hdata
    omega
  obtain ⟨k, hobject, hfirst, hown⟩ := a.exists_ofAttestationObject
  refine ⟨a.ofSpkiTail?_spki, SoftwareAuthenticator.ofAuthenticatorData_attestedData hid, k,
    hobject, hfirst, hown, ?_⟩
  intro app user now s hs hcancelled
  -- an authenticator that is not cancelled answers, since ES256 is asked for
  obtain ⟨response, hresponse⟩ :
      ∃ response, a.register (c.registrationOptions app user now) = .ok response := by
    unfold SoftwareAuthenticator.register
    rw [hcancelled]
    exact ⟨_, rfl⟩
  obtain ⟨hrawId, hextract⟩ := SoftwareAuthenticator.extract_register hresponse hid
  have hanswer := (huses.register (c.registrationOptions app user now) hs).1
  have hkey : extract response
      = .ok (if a.format = .attestationObject then k else a.publicKey) := by
    rw [hextract, hobject]
    split
    · rfl
    · rfl
  rw [createKey_exec (hanswer.trans hresponse) hkey, hrawId]

theorem createKey_key_sample :
    ∃ k, ofAttestationObject (attestationObject Sample.authenticator.attestedData) = .ok k
      ∧ k = Sample.authenticator.publicKey
      ∧ ((Sample.client.createKey "app" "user" 0).exec Sample.session).1
        = .ok ⟨Sample.credentialId, Sample.authenticator.publicKey⟩ := by
  obtain ⟨-, -, k, hobject, -, hown, hcreated⟩ :=
    createKey_key (c := Sample.client) (Environment.services_uses Sample.authenticator)
      (by decide +kernel)
  have hid : ¬ coseHeader <:+: Sample.authenticator.idField := by decide +kernel
  exact ⟨k, hobject, hown hid, hcreated "app" "user" 0 Sample.session rfl rfl⟩

/-- An authenticator with the secret number one, whose credential has the encoded
key of the sample for its id. -/
def impostor : SoftwareAuthenticator :=
  ⟨⟨.ofNat 32 1⟩, coseHeader ++ Sample.x.toList ++ coseSeparator ++ Sample.y.toList,
    .attestationObject, false, false⟩

/-- The sources of the key of an authenticator do not always agree. -/
theorem not_sources_agree :
    ¬ ∀ a : SoftwareAuthenticator, a.attestedData.length < 65536 →
      ofSpkiTail? a.spki = some a.publicKey
        ∧ ofAuthenticatorData a.attestedData = .ok a.publicKey
        ∧ ofAttestationObject (attestationObject a.attestedData) = .ok a.publicKey := by
  intro h
  have hagree := (h impostor (by decide +kernel)).2.2
  have hfound : (ofAttestationObject (attestationObject impostor.attestedData)).toOption
      = some Sample.publicKey := by decide +kernel
  rw [hagree] at hfound
  have hother : impostor.publicKey ≠ Sample.publicKey := by decide +kernel
  exact hother (Option.some.inj hfound)

end Client

end SmartWallet
