import SmartWallet.Proofs.Authorization.Entry
import SmartWallet.Proofs.WebAuthn.Authenticator
import SmartWallet.Proofs.Wallet.Signing
import SmartWallet.Sample
import SmartWallet.Wallet.Environment

set_option autoImplicit false

/-! # Signatures of passkeys are accepted

`Client.signEntry_passkey_accepted`: an entry that was signed with the passkey of a software
authenticator is one that a wallet accepts from that passkey, whatever the entry held
before. The check is made as the wallet makes it, on the entry as it is afterwards and with
the expiration that stands in it, so everything between the payload and the signature value
has to agree byte for byte. -/

namespace SmartWallet

open WebAuthn

variable {σ : Type}

/-! ## Statement -/

/-- As long as the services are in a state in `I`, a software authenticator answers, and every
request leaves them in such a state. The ledger may answer anything. -/
structure Services.Uses (services : Services σ) (a : SoftwareAuthenticator) (I : σ → Prop) :
    Prop where
  latestLedger {x : σ} : I x → I (services.latestLedger x).2
  contains {x : σ} (d : ContractDatum) : I x → I (services.contains d x).2
  register {x : σ} (o : RegistrationOptions) :
    I x → (services.register o x).1 = a.register o ∧ I (services.register o x).2
  authenticate {x : σ} (o : AuthenticationOptions) :
    I x → (services.authenticate o x).1 = a.authenticate o ∧ I (services.authenticate o x).2

theorem Environment.services_uses (a : SoftwareAuthenticator) :
    services.Uses a fun x => x.authenticator = .software a where
  latestLedger h := h
  contains _ h := h
  register {x} o h := by
    obtain ⟨ledger, _⟩ := x
    cases h
    exact ⟨rfl, rfl⟩
  authenticate {x} o h := by
    obtain ⟨ledger, _⟩ := x
    cases h
    exact ⟨rfl, rfl⟩

/-- A wallet accepts the entry from a passkey: in the signature map stands a pair for the
passkey, and its assertion passes the check against the payload of the entry, however strict
the check is about the user. -/
def AuthEntry.AcceptedFrom (e : AuthEntry) (passphrase : String) (credentialId : Bytes)
    (k : Ecdsa.PublicKey) : Prop :=
  ∃ credentials entries assertion payload,
    e.credentials = .address credentials ∧ credentials.signature = .map (some entries)
    ∧ signatureEntry (.secp256r1 credentialId) (some (.secp256r1 assertion)) ∈ entries
    ∧ e.finalPayload passphrase = .ok payload
    ∧ ∀ uv, assertion.check payload k uv = .ok ()

/-! ## Proof -/

theorem Services.Uses.expires {c : Client σ} {a : SoftwareAuthenticator} {I : σ → Prop}
    (huses : c.services.Uses a I) {o : SignOptions} {s t : SessionState σ} {ledger : UInt32}
    (hs : I s.services) (h : c.Expires o s ledger t) : I t.services := by
  cases h with
  | given _ => exact hs
  | computed _ hlatest _ =>
      have hkeep := huses.latestLedger hs
      rwa [hlatest] at hkeep

namespace Client

/-- An entry signed with a passkey is accepted from the passkey. Of ECDSA nothing is assumed but
that verification accepts the low form of the one signature that is made here. -/
theorem signEntry_passkey_accepted {c : Client σ} {a : SoftwareAuthenticator} {I : σ → Prop}
    (huses : c.services.Uses a I) {s t : SessionState σ} (hs : I s.services) {e e' : AuthEntry}
    {pin : KeyIdPin} {o : SignOptions}
    (hkey : ∀ payload, e'.finalPayload c.config.networkPassphrase = .ok payload →
      a.key.VerifiesLow (SoftwareAuthenticator.signedDigest payload.toList))
    (h : (c.signEntry e (.passkey pin) o).exec s = (.ok e', t)) :
    e'.AcceptedFrom c.config.networkPassphrase a.credentialId a.publicKey := by
  obtain ⟨ledger, u, g, x, hexpires, hsigns, hadd, hanswers, -⟩ := signEntry_exec_ok h
  have hu := huses.expires hs hexpires
  cases hsigns with
  | @passkey _ payload response assertion hpayload hassertion =>
      have hanswer : a.authenticate (c.signingOptions payload (admitted pin s.keyId) o.rpId)
          = .ok response := by
        rw [← (huses.authenticate _ hu).1, Services.answers_singleton_iff.mp hanswers]
      have hfinal : e'.finalPayload c.config.networkPassphrase = .ok payload := by
        rw [AuthEntry.finalPayload_addSignature hadd]
        exact hpayload
      -- what is compared in the end is what was sent as the challenge
      have hid := (SoftwareAuthenticator.authenticate_eq_ok hanswer).1
      have hcheck := SoftwareAuthenticator.check_of_authenticate rfl hanswer hassertion
        (hkey payload hfinal)
      obtain ⟨credentials, entries, -, -, rfl⟩ := AuthEntry.addSignature_eq_ok_iff.mp hadd
      refine ⟨_, _, assertion, payload, rfl, rfl, ?_, hfinal, hcheck⟩
      rw [← hid]
      apply (ScVal.sortEntries_perm _).mem_iff.mpr
      exact List.mem_append_right entries (List.mem_singleton_self _)

/-- A passkey does sign: when the request is admitted and the key makes a signature in range, an
entry with its own credentials and a signature map is signed. -/
theorem signEntry_passkey_ok {c : Client σ} {a : SoftwareAuthenticator} {I : σ → Prop}
    (huses : c.services.Uses a I) {s u : SessionState σ} (hs : I s.services) {e : AuthEntry}
    {credentials : AddressCredentials} {entries : List ScMapEntry} {pin : KeyIdPin}
    {o : SignOptions} {ledger : UInt32} {p : Bytes32} {x : Ecdsa.Signature}
    (hcredentials : e.credentials = .address credentials)
    (hentries : AuthEntry.containerEntries credentials.signature = .ok entries)
    (hledger : (c.expiration o).exec s = (.ok ledger, u)) (hpayload : c.payload e ledger = .ok p)
    (hcancelled : a.cancelled = false)
    (hadmitted : a.admitted (c.signingOptions p (admitted pin u.keyId) o.rpId) = true)
    (hsign : (a.key.sign (SoftwareAuthenticator.signedDigest p.toList)).normalize? = some x) :
    ∃ e' t, (c.signEntry e (.passkey pin) o).exec s = (.ok e', t) := by
  have hu := huses.expires hs (expiration_exec_ok hledger)
  obtain ⟨response, hanswer⟩ := SoftwareAuthenticator.authenticate_of_admitted hcancelled hadmitted
  have hgiven : (c.services.authenticate (c.signingOptions p (admitted pin u.keyId) o.rpId)
      u.services).1 = .ok response := by
    rw [(huses.authenticate _ hu).1, hanswer]
  have hstep : (c.signEntry e (.passkey pin) o).exec s
      = (c.signEntryAt e (.passkey pin) o.rpId ledger).exec u :=
    signEntry_exec_of_ok (AuthEntry.addressCredentials_eq_ok_iff.mpr hcredentials) hledger
  rcases signEntryAt_exec c e (.passkey pin) o.rpId ledger u with
    ⟨g, y, e', -, -, -, hrun⟩ | ⟨l, y, error, hrefuses, hanswers, -⟩
  · exact ⟨e', _, hstep.trans hrun⟩
  -- each reason to refuse contradicts one of the assumptions
  cases hrefuses with
  | payload _ hp =>
      rw [hpayload] at hp
      cases hp
  | ceremony hp =>
      rw [hpayload] at hp
      cases hp
      rw [Services.answers_singleton_iff.mp hanswers] at hgiven
      cases hgiven
  | @signature _ _ response' _ hp hassertion =>
      rw [hpayload] at hp
      cases hp
      rw [Services.answers_singleton_iff.mp hanswers] at hgiven
      cases hgiven
      rw [SoftwareAuthenticator.ofResponse_of_authenticate hanswer hsign] at hassertion
      cases hassertion
  | entry _ hadd =>
      rw [AuthEntry.addSignature_eq_ok_iff.mpr ⟨credentials, entries, hcredentials, hentries, rfl⟩]
        at hadd
      cases hadd

set_option maxRecDepth 100000 in
/-- The sample authenticator makes a signature in range, which is accepted in its low form. -/
theorem sample_signature {p : Bytes32}
    (hp : (Sample.entry Sample.wallet 7).payload Sample.client.config.networkPassphrase 5000
      = .ok p) :
    ∃ x, (Sample.authenticator.key.sign
        (SoftwareAuthenticator.signedDigest p.toList)).normalize? = some x
      ∧ Sample.authenticator.key.VerifiesLow (SoftwareAuthenticator.signedDigest p.toList) := by
  have hall := of_toOption_all
    (x := (Sample.entry Sample.wallet 7).payload Sample.client.config.networkPassphrase 5000)
    (p := fun p => Sample.authenticator.key.signsLow (SoftwareAuthenticator.signedDigest p.toList)
      = true) (by decide +kernel)
  exact Ecdsa.SigningKey.exists_of_signsLow (hall p hp)

theorem signEntry_passkey_accepted_sample :
    ∃ e' t, (Sample.client.signEntry (Sample.entry Sample.wallet 7) (.passkey .any)
        ⟨some 5000, none⟩).exec Sample.session = (.ok e', t)
      ∧ e'.AcceptedFrom Sample.client.config.networkPassphrase Sample.authenticator.credentialId
        Sample.authenticator.publicKey := by
  have huses : Sample.client.services.Uses Sample.authenticator
      fun x => x.authenticator = .software Sample.authenticator :=
    Environment.services_uses Sample.authenticator
  have hledger : (Sample.client.expiration ⟨some 5000, none⟩).exec Sample.session
      = (.ok 5000, Sample.session) := rfl
  have hok : ((Sample.entry Sample.wallet 7).payload
      Sample.client.config.networkPassphrase 5000).isOk = true := by decide +kernel
  obtain ⟨p, hp⟩ := exists_of_isOk hok
  obtain ⟨x, hx, hkey⟩ := sample_signature hp
  have hadmitted : Sample.authenticator.admitted
      (Sample.client.signingOptions p (admitted .any Sample.session.keyId) none) = true := rfl
  obtain ⟨e', t, h⟩ := signEntry_passkey_ok huses rfl rfl rfl hledger hp rfl hadmitted hx
  refine ⟨e', t, h, signEntry_passkey_accepted huses rfl ?_ h⟩
  intro payload hpayload
  obtain ⟨ledger, u, g, y, hexpires, -, hadd, -, -⟩ := signEntry_exec_ok h
  rw [AuthEntry.finalPayload_addSignature hadd] at hpayload
  cases hexpires with
  | given hgiven =>
      cases hgiven
      rw [hp] at hpayload
      cases hpayload
      exact hkey
  | computed hnone _ _ => cases hnone

end Client

end SmartWallet
