import SmartWallet.Proofs.Ecdsa.Der
import SmartWallet.Proofs.WebAuthn.ClientData
import SmartWallet.WebAuthn.Authenticator

set_option autoImplicit false

/-! # What an accepted assertion is good for

An assertion passes the check of a wallet when each of its tests does (`Assertion.check_eq_ok_iff`).
Three facts follow, which `Assertion.check_bound` puts together. The client data names one
challenge, so an assertion is good for one payload. Verification takes the low signature of a pair
only, so nobody can make a second assertion out of an accepted one by exchanging the signature. And
only the test of the flags looks at what is demanded about the user: whoever passes when
verification of the user is required passes always, and to prefer it is not to demand it. -/

namespace SmartWallet.WebAuthn.Assertion

variable {a : Assertion} {p q : Bytes32} {k : Ecdsa.PublicKey} {uv : UserVerification}

/-! ## The tests -/

/-- What the signature of an assertion is verified against. -/
def digest (a : Assertion) : Bytes32 :=
  Digest.sha256 (signedMessage a.authenticatorData a.clientDataJson)

/-- The client data is that of an authentication with the payload as its challenge. -/
theorem checkClientData_eq_ok_iff {text : Bytes} :
    checkClientData text p = .ok () ↔
      ∃ d, ClientData.parse? text = some d ∧ d.type = .get ∧ d.challenge = p.toList := by
  unfold checkClientData
  cases ClientData.parse? text with
  | none => simp
  | some d =>
      by_cases htype : d.type = .get
      · by_cases hchallenge : d.challenge = p.toList
        · simp [htype, hchallenge]
        · simp [htype, hchallenge]
      · simp [htype]

/-- The tests are made one after the other. -/
theorem check_of_flags {flags : UInt8} (h : a.authenticatorData[flagsOffset]? = some flags)
    (p : Bytes32) (k : Ecdsa.PublicKey) (uv : UserVerification) :
    a.check p k uv = (checkFlags flags uv >>= fun _ =>
      checkClientData a.clientDataJson p >>= fun _ =>
      if Ecdsa.verify a.signature a.digest k then .ok () else .error .invalidSignature) := by
  unfold check
  rw [h]
  rfl

theorem check_of_short (h : a.authenticatorData[flagsOffset]? = none) (p : Bytes32)
    (k : Ecdsa.PublicKey) (uv : UserVerification) : a.check p k uv = .error .missingFlags := by
  unfold check
  rw [h]
  rfl

/-- An assertion passes when each test does. -/
theorem check_eq_ok_iff :
    a.check p k uv = .ok () ↔ ∃ flags, a.authenticatorData[flagsOffset]? = some flags
      ∧ checkFlags flags uv = .ok () ∧ checkClientData a.clientDataJson p = .ok ()
      ∧ Ecdsa.verify a.signature a.digest k = true := by
  cases hflags : a.authenticatorData[flagsOffset]? with
  | none =>
      rw [check_of_short hflags]
      constructor
      · exact nofun
      · rintro ⟨_, ⟨⟩, _⟩
  | some flags =>
      rw [check_of_flags hflags]
      constructor
      · intro h
        obtain ⟨_, huser, h⟩ := except_bind_eq_ok_iff.mp h
        obtain ⟨_, hclient, h⟩ := except_bind_eq_ok_iff.mp h
        split at h
        · exact ⟨flags, rfl, huser, hclient, by assumption⟩
        · cases h
      · rintro ⟨_, ⟨⟩, huser, hclient, hverify⟩
        rw [huser, hclient, hverify]
        rfl

/-- The client data that was written is that of an authentication with the payload as challenge. -/
theorem checkClientData_render (payload : Bytes32) (origin : String) :
    checkClientData (ClientData.render ⟨.get, payload.toList, origin⟩) payload = .ok () :=
  checkClientData_eq_ok_iff.mpr ⟨_, ClientData.parse?_render _, rfl, rfl⟩

/-! ## One payload -/

theorem payload_unique {text : Bytes} (hp : checkClientData text p = .ok ())
    (hq : checkClientData text q = .ok ()) : p = q := by
  obtain ⟨d, hd, -, hchallenge⟩ := checkClientData_eq_ok_iff.mp hp
  obtain ⟨d', hd', -, hchallenge'⟩ := checkClientData_eq_ok_iff.mp hq
  -- the text is read once, so both payloads are the one challenge
  rw [hd] at hd'
  cases hd'
  exact FixedBytes.ext (hchallenge.symm.trans hchallenge')

/-! ## One signature -/

/-- The assertion with the other signature of the pair. -/
def withOtherSignature (a : Assertion) : Assertion := { a with signature := a.signature.negate }

theorem check_withOtherSignature (h : a.check p k uv = .ok ()) :
    a.withOtherSignature.check p k uv = .error .invalidSignature := by
  obtain ⟨flags, hflags, huser, hclient, hverify⟩ := check_eq_ok_iff.mp h
  -- the other tests do not look at the signature, and what is signed is the same
  have hsame : a.withOtherSignature.authenticatorData[flagsOffset]? = some flags := hflags
  have hother : Ecdsa.verify a.withOtherSignature.signature a.withOtherSignature.digest k = false :=
    Ecdsa.verify_negate hverify
  have hclient' : checkClientData a.withOtherSignature.clientDataJson p = .ok () := hclient
  rw [check_of_flags hsame, huser, hclient', hother]
  rfl

/-! ## Demands about the user -/

theorem checkFlags_of_required {flags : UInt8} (h : checkFlags flags .required = .ok ())
    (uv : UserVerification) : checkFlags flags uv = .ok () := by
  unfold checkFlags at h ⊢
  split at h
  · cases h
  · rename_i hpresent
    rw [if_neg hpresent]
    split at h
    · cases h
    · rename_i hverified
      -- what is not refused when it is required is not refused otherwise
      rw [if_neg fun hother => hverified ⟨rfl, hother.2⟩]
      exact h

theorem checkFlags_preferred (flags : UInt8) :
    checkFlags flags .preferred = checkFlags flags .discouraged := rfl

theorem check_of_required (h : a.check p k .required = .ok ()) (uv : UserVerification) :
    a.check p k uv = .ok () := by
  obtain ⟨flags, hflags, huser, hrest⟩ := check_eq_ok_iff.mp h
  exact check_eq_ok_iff.mpr ⟨flags, hflags, checkFlags_of_required huser uv, hrest⟩

theorem check_preferred (a : Assertion) (p : Bytes32) (k : Ecdsa.PublicKey) :
    a.check p k .preferred = a.check p k .discouraged := by
  cases hflags : a.authenticatorData[flagsOffset]? with
  | none => rw [check_of_short hflags, check_of_short hflags]
  | some flags => rw [check_of_flags hflags, check_of_flags hflags, checkFlags_preferred]

/-! ## Together -/

/-- An accepted assertion is good for one payload, whatever key and demand it is checked with next;
it is refused with the other signature of its pair; and it is accepted under every demand if it is
under the strictest, while the two milder ones always give the same answer. -/
theorem check_bound (a : Assertion) (p q : Bytes32) (k k' : Ecdsa.PublicKey)
    (uv uv' : UserVerification) :
    (a.check p k uv = .ok () → a.check q k' uv' = .ok () → p = q)
    ∧ (a.check p k uv = .ok () →
      a.withOtherSignature.check p k uv = .error .invalidSignature)
    ∧ (a.check p k .required = .ok () →
      a.check p k .preferred = .ok () ∧ a.check p k .discouraged = .ok ())
    ∧ a.check p k .preferred = a.check p k .discouraged := by
  refine ⟨?payload, check_withOtherSignature, ?demand, check_preferred a p k⟩
  case payload =>
    intro hp hq
    obtain ⟨_, -, -, hclient, -⟩ := check_eq_ok_iff.mp hp
    obtain ⟨_, -, -, hclient', -⟩ := check_eq_ok_iff.mp hq
    exact payload_unique hclient hclient'
  case demand =>
    intro h
    exact ⟨check_of_required h .preferred, check_of_required h .discouraged⟩

/-- An assertion that the key with the secret number one made for the payload of ones. -/
def sample : Assertion where
  authenticatorData := SoftwareAuthenticator.assertionData
  clientDataJson := SoftwareAuthenticator.clientData .get (FixedBytes.replicate 32 1).toList
  signature := .ofNumbers
    0x403405455dd7923932a5a6210cb69a738a71d76fcb495add364aead51b2a7397
    0x3a962594b124002e780a33647353b2fdb4682433417734c9372770597dcfb2aa

/-- The key with the secret number one, the generator of the group. -/
def sampleKey : Ecdsa.PublicKey := .ofCoordinates
  (.ofNat 32 0x6b17d1f2e12c4247f8bce6e563a440f277037d812deb33a0f4a13945d898c296)
  (.ofNat 32 0x4fe342e2fe1a7f9b8ee7eb4a7c0f9e162bce33576b315ececbb6406837bf51f5)

/-- The sample passes as an authentication for the payload of ones. -/
theorem sample_check : sample.check (.replicate 32 1) sampleKey .required = .ok () := by
  refine check_eq_ok_iff.mpr ⟨SoftwareAuthenticator.userFlags, ?flags, rfl, ?client, ?signature⟩
  case flags => decide +kernel
  case client => exact checkClientData_render _ _
  case signature => decide +kernel

theorem check_bound_sample :
    sample.check (.replicate 32 1) sampleKey .required = .ok ()
    ∧ sample.withOtherSignature.check (.replicate 32 1) sampleKey .required
      = .error .invalidSignature
    ∧ sample.check (.replicate 32 1) sampleKey .preferred = .ok ()
    ∧ ∀ q, sample.check q sampleKey .preferred = .ok () → FixedBytes.replicate 32 1 = q := by
  obtain ⟨_, hother, hdemand, -⟩ :=
    check_bound sample (.replicate 32 1) (.replicate 32 1) sampleKey sampleKey .required .preferred
  refine ⟨sample_check, hother sample_check, (hdemand sample_check).1, fun q hq => ?_⟩
  exact (check_bound sample (.replicate 32 1) q sampleKey sampleKey .required .preferred).1
    sample_check hq

end SmartWallet.WebAuthn.Assertion
