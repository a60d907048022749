import SmartWallet.Proofs.Wallet.TwoRuns
import SmartWallet.Proofs.WebAuthn.Authenticator

set_option autoImplicit false

/-! # High and low signatures

Of the two signatures that fit a message some authenticators make the low one and some either. On
the wire the two are different bytes, often not even equally many. A session does not notice:
`Client.run_highS` says that a run with an authenticator that makes high signatures, and one with
the same authenticator making low ones, get the same replies, keep the same default passkey and
wallet, and make the same requests.

The reason is that the signature is the only place where the two authenticators differ, and a
session reads it in one way only, by which both come to the low form. -/

namespace SmartWallet

open WebAuthn

variable {σ τ : Type}

/-! ## One authenticator -/

namespace WebAuthn.SoftwareAuthenticator

/-- The authenticator, making high signatures or low ones. -/
def withHighS (a : SoftwareAuthenticator) (high : Bool) : SoftwareAuthenticator :=
  { a with highS := high }

theorem register_withHighS (a : SoftwareAuthenticator) (high : Bool) (o : RegistrationOptions) :
    (a.withHighS high).register o = a.register o := rfl

/-- High or low, a signature reads the same. -/
theorem readSignature_withHighS (a : SoftwareAuthenticator) (high : Bool) (data client : Bytes) :
    Ecdsa.Der.readSignature ((a.withHighS high).sign data client)
      = Ecdsa.Der.readSignature (a.sign data client) := by
  have hkey : (a.withHighS high).key = a.key := rfl
  rw [readSignature_sign, readSignature_sign]
  apply Ecdsa.Der.normalizeCompact_congr
  rw [normalize?_compactSignature, normalize?_compactSignature, hkey]

/-- The answers to a request cannot be told apart. -/
theorem sameReading_authenticate (a : SoftwareAuthenticator) (high high' : Bool)
    (o : AuthenticationOptions) :
    SameOutcome SameReading ((a.withHighS high).authenticate o)
      ((a.withHighS high').authenticate o) := by
  have hadmitted : (a.withHighS high).admitted o = (a.withHighS high').admitted o := rfl
  have hcancelled : (a.withHighS high).cancelled = (a.withHighS high').cancelled := rfl
  unfold authenticate
  rw [hadmitted, hcancelled]
  split
  · exact .error _
  split
  · refine .ok ⟨rfl, ?_⟩
    unfold Assertion.ofResponse
    dsimp only
    rw [readSignature_withHighS, readSignature_withHighS]
  · exact .error _

end WebAuthn.SoftwareAuthenticator

/-! ## Sessions -/

/-- Services that agree about the ledger, as long as their states are in a relation, and answer from
one authenticator, which makes high signatures for the first and low ones for the second. -/
structure Services.HighLow (x : Services σ) (y : Services τ) (a : SoftwareAuthenticator)
    (R : σ → τ → Prop) : Prop where
  latestLedger : AlikeAnswers R Eq x.latestLedger y.latestLedger
  contains (d : ContractDatum) : AlikeAnswers R Eq (x.contains d) (y.contains d)
  register {s : σ} {t : τ} (o : RegistrationOptions) : R s t →
    (x.register o s).1 = (a.withHighS true).register o
      ∧ (y.register o t).1 = (a.withHighS false).register o
      ∧ R (x.register o s).2 (y.register o t).2
  authenticate {s : σ} {t : τ} (o : AuthenticationOptions) : R s t →
    (x.authenticate o s).1 = (a.withHighS true).authenticate o
      ∧ (y.authenticate o t).1 = (a.withHighS false).authenticate o
      ∧ R (x.authenticate o s).2 (y.authenticate o t).2

variable {R : σ → τ → Prop} {a : SoftwareAuthenticator}

theorem Services.HighLow.alike {x : Services σ} {y : Services τ} (h : x.HighLow y a R) :
    x.Alike y R where
  latestLedger := h.latestLedger
  contains := h.contains
  register o s t hs := by
    obtain ⟨hx, hy, hnext⟩ := h.register o hs
    rw [hx, hy, SoftwareAuthenticator.register_withHighS, SoftwareAuthenticator.register_withHighS]
    exact ⟨.refl _, hnext⟩
  authenticate o s t hs := by
    obtain ⟨hx, hy, hnext⟩ := h.authenticate o hs
    rw [hx, hy]
    exact ⟨a.sameReading_authenticate true false o, hnext⟩

/-- Simulated services with one ledger and the two authenticators. -/
theorem Environment.services_highLow (a : SoftwareAuthenticator) :
    services.HighLow services a fun x y => x.ledger = y.ledger
      ∧ x.authenticator = .software (a.withHighS true)
      ∧ y.authenticator = .software (a.withHighS false) where
  latestLedger := by
    rintro ⟨ledger, _⟩ ⟨_, _⟩ ⟨rfl, rfl, rfl⟩
    exact ⟨.refl _, rfl, rfl, rfl⟩
  contains d := by
    rintro ⟨ledger, _⟩ ⟨_, _⟩ ⟨rfl, rfl, rfl⟩
    exact ⟨.refl _, rfl, rfl, rfl⟩
  register := by
    rintro ⟨ledger, _⟩ ⟨_, _⟩ o ⟨rfl, rfl, rfl⟩
    exact ⟨rfl, rfl, rfl, rfl, rfl⟩
  authenticate := by
    rintro ⟨ledger, _⟩ ⟨_, _⟩ o ⟨rfl, rfl, rfl⟩
    exact ⟨rfl, rfl, rfl, rfl, rfl⟩

namespace Client

/-- Clients for one configuration differ in their services at most. -/
theorem eq_withServices {c : Client σ} {d : Client τ} (h : c.config = d.config) :
    d = c.withServices d.services := by
  obtain ⟨config, factory, hvalid, services⟩ := c
  obtain ⟨_, factory', hvalid', services'⟩ := d
  obtain rfl : config = _ := h
  rw [hvalid] at hvalid'
  cases hvalid'
  rfl

/-- A session does not notice whether its authenticator makes high signatures or low
ones: every command gets the same reply, and the default passkey, the wallet and the
requests made are the same. -/
theorem run_highS {c : Client σ} {d : Client τ} (hconfig : c.config = d.config)
    (hservices : c.services.HighLow d.services a R) {s : SessionState σ} {t : SessionState τ}
    (h : SessionState.Alike R s t) (commands : List Command) :
    ((c.run commands).run s).1 = ((d.run commands).run t).1
      ∧ ((c.run commands).run s).2.keyId = ((d.run commands).run t).2.keyId
      ∧ ((c.run commands).run s).2.wallet = ((d.run commands).run t).2.wallet
      ∧ ((c.run commands).run s).2.journal = ((d.run commands).run t).2.journal := by
  rw [eq_withServices hconfig]
  obtain ⟨hreplies, hend⟩ := alike_run hservices.alike commands s t h
  exact ⟨hreplies, hend.keyId, hend.wallet, hend.journal⟩

/-- A passkey is created, a wallet connected, and an entry signed with the default passkey. -/
def sampleCommands : List Command :=
  [.createKey "Super Peach" "alice" 0,
    .connectWallet (some Sample.credentialId) (some Sample.wallet),
    .signEntry (Sample.entry Sample.wallet 7) (.passkey .default) ⟨some 5000, none⟩]

/-- A session at its start, with high signatures or low ones. -/
def sampleStart (high : Bool) : SessionState Environment :=
  .start ⟨⟨1000, false, []⟩, .software (Sample.authenticator.withHighS high)⟩

theorem run_highS_sample :
    ((Sample.client.run sampleCommands).run (sampleStart true)).1
      = ((Sample.client.run sampleCommands).run (sampleStart false)).1
    ∧ ((Sample.client.run sampleCommands).run (sampleStart true)).2.journal
      = ((Sample.client.run sampleCommands).run (sampleStart false)).2.journal := by
  have hservices := Environment.services_highLow Sample.authenticator
  have hstart : SessionState.Alike (fun x y => x.ledger = y.ledger
      ∧ x.authenticator = .software (Sample.authenticator.withHighS true)
      ∧ y.authenticator = .software (Sample.authenticator.withHighS false))
      (sampleStart true) (sampleStart false) := ⟨rfl, rfl, rfl, rfl, rfl, rfl⟩
  obtain ⟨hreplies, -, -, hjournal⟩ := run_highS (c := Sample.client) (d := Sample.client) rfl
    hservices hstart sampleCommands
  exact ⟨hreplies, hjournal⟩

end Client

end SmartWallet
