import SmartWallet.Proofs.WebAuthn.Assertion

set_option autoImplicit false

/-! # What a software authenticator signs

`SoftwareAuthenticator.check_of_authenticate`: an assertion made from the answer of a
software authenticator passes the check of a wallet, for the key of the authenticator and
the payload that was the challenge, however strict the wallet is about the user. About P-256
it needs one thing, which `Ecdsa.SigningKey.VerifiesLow` says: verification accepts the low
form of what the key signs. -/

namespace SmartWallet

/-- Verification accepts the low form of what the key signs for a digest. -/
def Ecdsa.SigningKey.VerifiesLow (k : SigningKey) (digest : Bytes32) : Prop :=
  ∀ x, (k.sign digest).normalize? = some x → verify x digest k.publicKey = true

/-- Whether the key makes a signature in range for a digest and
verification accepts its low form. -/
def Ecdsa.SigningKey.signsLow (k : SigningKey) (digest : Bytes32) : Bool :=
  (k.sign digest).normalize?.any fun x => verify x digest k.publicKey

theorem Ecdsa.SigningKey.exists_of_signsLow {k : SigningKey} {digest : Bytes32}
    (h : k.signsLow digest = true) :
    ∃ x, (k.sign digest).normalize? = some x ∧ k.VerifiesLow digest := by
  unfold signsLow at h
  unfold VerifiesLow
  generalize (k.sign digest).normalize? = low at *
  cases low with
  | none => cases h
  | some x =>
      refine ⟨x, rfl, ?_⟩
      rintro _ ⟨⟩
      exact h

namespace WebAuthn

namespace SoftwareAuthenticator

/-- The digest that is signed in answer to a challenge. -/
def signedDigest (challenge : Bytes) : Bytes32 :=
  Digest.sha256 (Assertion.signedMessage assertionData (clientData .get challenge))

theorem flags_assertionData : assertionData[flagsOffset]? = some userFlags := by
  -- the hash of the domain takes 32 bytes, and the flags come next
  unfold assertionData dataHeader
  have hlength : (Digest.sha256 (Bytes.ofString rpId)).toList.length = flagsOffset :=
    (Digest.sha256 (Bytes.ofString rpId)).length_toList
  rw [List.append_assoc, List.getElem?_append_right (Nat.le_of_eq hlength), hlength]
  rfl

/-- The user was present and verified, which is enough for every check. -/
theorem checkFlags_userFlags (uv : UserVerification) :
    Assertion.checkFlags userFlags uv = .ok () := by
  cases uv <;> rfl

open Ecdsa.Signature in
/-- High or low, the signature has the low form of the one that the key makes. -/
theorem normalize?_compactSignature (a : SoftwareAuthenticator) (message : Bytes) :
    (a.compactSignature message).normalize? = (a.key.sign (Digest.sha256 message)).normalize? := by
  obtain ⟨x, hx⟩ : ∃ x, a.key.sign (Digest.sha256 message) = x := ⟨_, rfl⟩
  have hcompact : a.compactSignature message
      = ofNumbers x.r (if a.highS then P256.n - low x.s else low x.s) := by
    unfold compactSignature
    rw [hx]
  rw [hcompact, hx]
  have hlow : low x.s < Bytes.bound 32 := Nat.lt_of_le_of_lt (low_le_n x.s) n_lt
  have hnegate : P256.n - low x.s < Bytes.bound 32 := Nat.lt_of_le_of_lt (Nat.sub_le _ _) n_lt
  cases a.highS with
  | false =>
      apply normalize?_congr
      · exact r_ofNumbers x.r_lt
      · intro _
        rw [if_neg Bool.false_ne_true, s_ofNumbers hlow, low_low]
      · rw [if_neg Bool.false_ne_true, s_ofNumbers hlow, isScalar_low]
  | true =>
      apply normalize?_congr
      · exact r_ofNumbers x.r_lt
      · intro hs
        rw [if_pos rfl, s_ofNumbers hnegate, low_negate (by rwa [isScalar_low]), low_low]
      · rw [if_pos rfl, s_ofNumbers hnegate, isScalar_negate (low_le_n x.s), isScalar_low]

theorem readSignature_sign (a : SoftwareAuthenticator) (data client : Bytes) :
    Ecdsa.Der.readSignature (a.sign data client)
      = Ecdsa.Der.normalizeCompact
        (a.compactSignature (Assertion.signedMessage data client)) := by
  unfold sign
  exact Ecdsa.Der.readSignature_writeSignature _

/-- The signature that is handed out reads as the low form of the one that the key makes. -/
theorem readSignature_sign_iff {a : SoftwareAuthenticator} {data client : Bytes}
    {x : Ecdsa.Signature} :
    Ecdsa.Der.readSignature (a.sign data client) = .ok x ↔
      (a.key.sign (Digest.sha256 (Assertion.signedMessage data client))).normalize? = some x := by
  rw [readSignature_sign, Ecdsa.Der.normalizeCompact_eq_ok_iff, normalize?_compactSignature]

/-- An answer comes from the credential, with signed client data for the challenge. -/
theorem authenticate_eq_ok {a : SoftwareAuthenticator} {o : AuthenticationOptions}
    {response : AuthenticationResponse} (h : a.authenticate o = .ok response) :
    response.rawId = a.credentialId ∧ response.response
      = ⟨assertionData, clientData .get o.challenge,
        a.sign assertionData (clientData .get o.challenge), none⟩ := by
  unfold authenticate at h
  split at h
  · cases h
  split at h
  case isFalse => cases h
  case isTrue =>
    cases h
    exact ⟨rfl, rfl⟩

/-- The answer to a request that is admitted. -/
theorem authenticate_of_admitted {a : SoftwareAuthenticator} {o : AuthenticationOptions}
    (hcancelled : a.cancelled = false) (hadmitted : a.admitted o = true) :
    ∃ response, a.authenticate o = .ok response := by
  unfold authenticate
  rw [hcancelled, hadmitted]
  exact ⟨_, rfl⟩

/-- An answer makes an assertion when the key makes a signature in range. -/
theorem ofResponse_of_authenticate {a : SoftwareAuthenticator} {o : AuthenticationOptions}
    {response : AuthenticationResponse} {x : Ecdsa.Signature}
    (hanswer : a.authenticate o = .ok response)
    (hsign : (a.key.sign (signedDigest o.challenge)).normalize? = some x) :
    Assertion.ofResponse response.response
      = .ok ⟨assertionData, clientData .get o.challenge, x⟩ := by
  rw [(authenticate_eq_ok hanswer).2]
  unfold Assertion.ofResponse
  rw [readSignature_sign_iff.mpr hsign]
  rfl

/-- An assertion from the answer of a software authenticator passes the check of a wallet. -/
theorem check_of_authenticate {a : SoftwareAuthenticator} {o : AuthenticationOptions}
    {response : AuthenticationResponse} {assertion : Assertion} {payload : Bytes32}
    (hchallenge : o.challenge = payload.toList) (hanswer : a.authenticate o = .ok response)
    (hassertion : Assertion.ofResponse response.response = .ok assertion)
    (hkey : a.key.VerifiesLow (signedDigest payload.toList)) (uv : UserVerification) :
    assertion.check payload a.publicKey uv = .ok () := by
  -- the challenge that was signed is the payload, byte for byte
  have hresponse := (authenticate_eq_ok hanswer).2
  rw [hchallenge] at hresponse
  rw [hresponse] at hassertion
  obtain ⟨x, hx, hassertion⟩ := except_bind_eq_ok_iff.mp hassertion
  cases hassertion
  have hverify : Ecdsa.verify x (signedDigest payload.toList) a.publicKey = true :=
    hkey x (readSignature_sign_iff.mp hx)
  exact Assertion.check_eq_ok_iff.mpr ⟨_, flags_assertionData, checkFlags_userFlags uv,
    Assertion.checkClientData_render payload origin, hverify⟩

end SoftwareAuthenticator

end WebAuthn

end SmartWallet
