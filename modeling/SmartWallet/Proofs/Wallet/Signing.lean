import SmartWallet.Proofs.Wallet.Action
import SmartWallet.Wallet.Session

set_option autoImplicit false

/-! # How an entry is signed

What signing one entry does, said without the steps by which it is done.

* `Client.Expires` says which expiration applies, and whether the ledger was asked for it.
* `Client.Signs` says what a method puts on an entry: the signer, its signature, the payload that
  was signed, and the exchanges with the authenticator.
* `Client.Refuses` says why it puts nothing on it, and which exchanges were made all the same.

`signEntryAt_exec` and `signEntry_exec_ok` say that a run is described by these three. -/

namespace SmartWallet

open WebAuthn

variable {σ : Type}

/-! ## Exchanges with the authenticator -/

/-- A request to the authenticator with its answer. -/
abbrev Exchange := AuthenticationOptions × Except CeremonyError AuthenticationResponse

/-- The authenticator answers the requests of a list in their order, from one state to another. -/
inductive Services.Answers (services : Services σ) : σ → List Exchange → σ → Prop
  | nil (x : σ) : Answers services x [] x
  | cons {x y z : σ} {o : AuthenticationOptions}
      {answer : Except CeremonyError AuthenticationResponse} {rest : List Exchange} :
      services.authenticate o x = (answer, y) → Answers services y rest z →
      Answers services x ((o, answer) :: rest) z

theorem Services.Answers.append {services : Services σ} {x y z : σ} {l m : List Exchange}
    (hl : services.Answers x l y) (hm : services.Answers y m z) :
    services.Answers x (l ++ m) z := by
  induction hl with
  | nil x => exact hm
  | cons h _ ih => exact .cons h (ih hm)

theorem Services.answers_singleton_iff {services : Services σ} {x y : σ}
    {o : AuthenticationOptions} {answer : Except CeremonyError AuthenticationResponse} :
    services.Answers x [(o, answer)] y ↔ services.authenticate o x = (answer, y) := by
  constructor
  · rintro (_ | ⟨h, ⟨⟩⟩)
    exact h
  · intro h
    exact .cons h (.nil y)

/-- A session after some exchanges, which leave the services in the given state. -/
def SessionState.after (s : SessionState σ) (exchanges : List Exchange) (services : σ) :
    SessionState σ :=
  { s with
    services := services
    journal := s.journal ++ exchanges.map fun x => .authentication x.1 }

@[simp] theorem SessionState.after_nil (s : SessionState σ) : s.after [] s.services = s := by
  simp [after]

@[simp] theorem SessionState.after_after (s : SessionState σ) (l m : List Exchange) (x y : σ) :
    (s.after l x).after m y = s.after (l ++ m) y := by
  simp [after]

/-- A session after the ledger was asked for its latest number. -/
def SessionState.afterLedger (s : SessionState σ) (services : σ) : SessionState σ :=
  { s with services := services, journal := s.journal ++ [.latestLedger] }

/-! ## The expiration -/

theorem Client.toNat_saturatingAdd (a b : UInt32) :
    (saturatingAdd a b).toNat = min (a.toNat + b.toNat) 0xffffffff := by
  rw [saturatingAdd, UInt32.toNat_ofNat']
  omega

theorem Config.toNat_ledgersToLive (c : Config) :
    c.ledgersToLive.toNat = c.timeoutSeconds.toNat / 5 := by
  rw [ledgersToLive, UInt32.toNat_div]
  rfl

/-- The expiration is the one that was asked for, or else lies as far after the latest ledger as
signatures are valid, at most at the last number there is. -/
inductive Client.Expires (c : Client σ) (o : SignOptions) (s : SessionState σ) :
    UInt32 → SessionState σ → Prop
  | given {ledger : UInt32} : o.expiration = some ledger → Expires c o s ledger s
  | computed {latest ledger : UInt32} {x : σ} :
      o.expiration = none → c.services.latestLedger s.services = (.ok latest, x) →
      ledger.toNat = min (latest.toNat + c.config.timeoutSeconds.toNat / 5) 0xffffffff →
      Expires c o s ledger (s.afterLedger x)

theorem Client.expiration_exec_ok {c : Client σ} {o : SignOptions} {s t : SessionState σ}
    {ledger : UInt32} (h : (c.expiration o).exec s = (.ok ledger, t)) : c.Expires o s ledger t := by
  unfold expiration at h
  cases ho : o.expiration with
  | some given =>
      rw [ho] at h
      obtain ⟨⟨⟩, rfl⟩ := Prod.mk.inj h
      exact .given ho
  | none =>
      rw [ho] at h
      obtain ⟨latest, u, hlatest, h⟩ := Action.exec_bind_eq_ok_iff.mp h
      obtain ⟨⟨⟩, rfl⟩ := Prod.mk.inj h
      rw [latestLedger, Action.exec_ask] at hlatest
      obtain ⟨hanswer, rfl⟩ := Prod.mk.inj hlatest
      have hsum : (saturatingAdd latest c.config.ledgersToLive).toNat
          = min (latest.toNat + c.config.timeoutSeconds.toNat / 5) 0xffffffff := by
        rw [toNat_saturatingAdd, Config.toNat_ledgersToLive]
      exact .computed ho (Prod.ext (mapError_eq_ok_iff.mp hanswer) rfl) hsum

theorem Client.expiration_exec_error {c : Client σ} {o : SignOptions} {s t : SessionState σ}
    {e : WalletError} (h : (c.expiration o).exec s = (.error e, t)) :
    o.expiration = none ∧ ∃ reason x, c.services.latestLedger s.services = (.error reason, x)
      ∧ e = .ledger reason ∧ t = s.afterLedger x := by
  unfold expiration at h
  cases ho : o.expiration with
  | some given =>
      rw [ho] at h
      cases (Prod.mk.inj h).1
  | none =>
      rw [ho] at h
      rcases Action.exec_bind_eq_error_iff.mp h with h | ⟨_, _, _, h⟩
      · rw [latestLedger, Action.exec_ask] at h
        obtain ⟨hanswer, rfl⟩ := Prod.mk.inj h
        obtain ⟨reason, hreason, rfl⟩ := mapError_eq_error_iff.mp hanswer
        exact ⟨rfl, reason, _, Prod.ext hreason rfl, rfl, rfl⟩
      · cases (Prod.mk.inj h).1

/-! ## The signature -/

/-- What a method puts on an entry. -/
structure Signing where
  /-- The signer. -/
  signer : SignerKey
  /-- Its signature; a policy has none. -/
  signature : Option Signature
  /-- The payload that was signed, if any was. -/
  signed : Option Bytes32
  /-- The exchanges with the authenticator. -/
  exchanges : List Exchange

/-- The pair of the signature map. -/
def Signing.pair (g : Signing) : ScMapEntry := AuthEntry.signatureEntry g.signer g.signature

/-- A method signs an entry that is to expire at a ledger, with a default passkey and a domain. -/
inductive Client.Signs (c : Client σ) (keyId : Option Bytes) (rpId : Option String)
    (ledger : UInt32) (e : AuthEntry) : SignMethod → Signing → Prop
  | keypair {k : Ed25519.Keypair} {p : Bytes32} :
      c.payload e ledger = .ok p →
      Signs c keyId rpId ledger e (.keypair k)
        ⟨.ed25519 k.publicKey.bytes, some (.ed25519 (k.sign p.toList).bytes), some p, []⟩
  | passkey {pin : KeyIdPin} {p : Bytes32} {response : AuthenticationResponse}
      {assertion : Assertion} :
      c.payload e ledger = .ok p →
      Assertion.ofResponse response.response = .ok assertion →
      Signs c keyId rpId ledger e (.passkey pin)
        ⟨.secp256r1 response.rawId, some (.secp256r1 assertion), some p,
          [(c.signingOptions p (admitted pin keyId) rpId, .ok response)]⟩
  | policy {policy : ContractAddress} :
      Signs c keyId rpId ledger e (.policy policy) ⟨.policy policy, none, none, []⟩

/-- A method puts nothing on an entry: the entry cannot be hashed, the user does not sign, the
answer is no signature, or the entry takes no signature. -/
inductive Client.Refuses (c : Client σ) (keyId : Option Bytes) (rpId : Option String)
    (ledger : UInt32) (e : AuthEntry) : SignMethod → List Exchange → WalletError → Prop
  | payload {method : SignMethod} {cause : AuthError} :
      (∀ policy, method ≠ .policy policy) → c.payload e ledger = .error cause →
      Refuses c keyId rpId ledger e method [] (.auth cause)
  | ceremony {pin : KeyIdPin} {p : Bytes32} {cause : CeremonyError} :
      c.payload e ledger = .ok p →
      Refuses c keyId rpId ledger e (.passkey pin)
        [(c.signingOptions p (admitted pin keyId) rpId, .error cause)] (.ceremony cause)
  | signature {pin : KeyIdPin} {p : Bytes32} {response : AuthenticationResponse}
      {cause : Ecdsa.Der.ParseError} :
      c.payload e ledger = .ok p →
      Assertion.ofResponse response.response = .error cause →
      Refuses c keyId rpId ledger e (.passkey pin)
        [(c.signingOptions p (admitted pin keyId) rpId, .ok response)] (.signature cause)
  | entry {method : SignMethod} {g : Signing} {cause : AuthError} :
      Signs c keyId rpId ledger e method g →
      e.addSignature g.signer g.signature ledger = .error cause →
      Refuses c keyId rpId ledger e method g.exchanges (.auth cause)

namespace Client

variable {c : Client σ} {s : SessionState σ} {o : AuthenticationOptions}

theorem authenticate_exec {answer : Except CeremonyError AuthenticationResponse} {x : σ}
    (h : c.services.authenticate o s.services = (answer, x)) :
    (c.authenticate o).exec s = (answer.mapError .ceremony, s.after [(o, answer)] x) := by
  rw [authenticate, Action.exec_ask, h]
  rfl

/-- What the answer to a signing request comes to. -/
def signatureOfAnswer (answer : Except CeremonyError AuthenticationResponse) :
    Except WalletError (Bytes × Assertion) := do
  let response ← answer.mapError .ceremony
  let assertion ← (Assertion.ofResponse response.response).mapError .signature
  return (response.rawId, assertion)

/-- A passkey is asked once. -/
theorem passkeySignature_exec {p : Bytes32} {pin : KeyIdPin} {rpId : Option String}
    {answer : Except CeremonyError AuthenticationResponse} {x : σ}
    (h : c.services.authenticate (c.signingOptions p (admitted pin s.keyId) rpId) s.services
      = (answer, x)) :
    (c.passkeySignature p pin rpId).exec s
      = (signatureOfAnswer answer,
        s.after [(c.signingOptions p (admitted pin s.keyId) rpId, answer)] x) := by
  unfold passkeySignature
  rw [Action.exec_bind_of_ok (Action.exec_get s), Action.exec_bind, authenticate_exec h]
  cases answer with
  | error cause => rfl
  | ok response =>
      show (Action.ofExcept .signature (Assertion.ofResponse response.response)
        >>= fun assertion => pure (response.rawId, assertion) : Action σ _).exec _ = _
      rw [Action.exec_bind, Action.exec_ofExcept]
      show _ = ((Assertion.ofResponse response.response).mapError WalletError.signature
        >>= fun assertion => pure (response.rawId, assertion), _)
      cases Assertion.ofResponse response.response <;> rfl

variable {e : AuthEntry} {method : SignMethod} {rpId : Option String} {ledger : UInt32}

/-- A passkey that signs a payload is known by the id that it answers with. -/
theorem signature_passkey_exec {p : Bytes32} {pin : KeyIdPin}
    {answer : Except CeremonyError AuthenticationResponse} {x : σ}
    (hp : c.payload e ledger = .ok p)
    (h : c.services.authenticate (c.signingOptions p (admitted pin s.keyId) rpId) s.services
      = (answer, x)) :
    (c.signature e (.passkey pin) rpId ledger).exec s
      = ((signatureOfAnswer answer).map fun x => (.secp256r1 x.1, some (.secp256r1 x.2)),
        s.after [(c.signingOptions p (admitted pin s.keyId) rpId, answer)] x) := by
  have hstep : (c.signature e (.passkey pin) rpId ledger).exec s
      = ((fun x => (SignerKey.secp256r1 x.1, some (Signature.secp256r1 x.2)))
        <$> c.passkeySignature p pin rpId).exec s :=
    Action.exec_lift_bind_of_ok hp s
  rw [hstep, Action.exec_map, passkeySignature_exec h]

/-- A method signs, or it refuses, and the exchanges are those that were answered. -/
theorem signature_exec (c : Client σ) (e : AuthEntry) (method : SignMethod)
    (rpId : Option String) (ledger : UInt32) (s : SessionState σ) :
    (∃ g x, c.Signs s.keyId rpId ledger e method g ∧ c.services.Answers s.services g.exchanges x
      ∧ (c.signature e method rpId ledger).exec s
        = (.ok (g.signer, g.signature), s.after g.exchanges x))
    ∨ ∃ l x error, c.Refuses s.keyId rpId ledger e method l error
      ∧ c.services.Answers s.services l x
      ∧ (c.signature e method rpId ledger).exec s = (.error error, s.after l x) := by
  cases method with
  | policy policy =>
      exact .inl ⟨_, s.services, .policy, .nil _, by rw [SessionState.after_nil]; rfl⟩
  | keypair k =>
      cases hp : c.payload e ledger with
      | error cause =>
          refine .inr ⟨[], s.services, .auth cause, .payload nofun hp, .nil _, ?_⟩
          rw [SessionState.after_nil]
          exact Action.exec_lift_bind_of_error hp s
      | ok p =>
          refine .inl ⟨_, s.services, .keypair hp, .nil _, ?_⟩
          rw [SessionState.after_nil]
          exact Action.exec_lift_bind_of_ok hp s
  | passkey pin =>
      cases hp : c.payload e ledger with
      | error cause =>
          refine .inr ⟨[], s.services, .auth cause, .payload nofun hp, .nil _, ?_⟩
          rw [SessionState.after_nil]
          exact Action.exec_lift_bind_of_error hp s
      | ok p =>
          -- whether the method signs depends on what the authenticator answers
          obtain ⟨⟨answer, x⟩, hx⟩ : ∃ r, c.services.authenticate
            (c.signingOptions p (admitted pin s.keyId) rpId) s.services = r := ⟨_, rfl⟩
          have hanswers := Services.answers_singleton_iff.mpr hx
          rw [signature_passkey_exec hp hx]
          cases answer with
          | error cause => exact .inr ⟨_, x, _, .ceremony hp, hanswers, rfl⟩
          | ok response =>
              cases ha : Assertion.ofResponse response.response with
              | error cause =>
                  refine .inr ⟨_, x, _, .signature hp ha, hanswers, ?_⟩
                  simp only [signatureOfAnswer, mapError_ok, mapError_error, bind, Except.bind, ha,
                    Except.map]
              | ok assertion =>
                  refine .inl ⟨_, x, .passkey hp ha, hanswers, ?_⟩
                  simp only [signatureOfAnswer, mapError_ok, bind, Except.bind, ha, Except.map]
                  rfl

/-- Signing an entry at a known expiration puts a signer and its signature on it, or leaves it. -/
theorem signEntryAt_exec (c : Client σ) (e : AuthEntry) (method : SignMethod)
    (rpId : Option String) (ledger : UInt32) (s : SessionState σ) :
    (∃ g x e', c.Signs s.keyId rpId ledger e method g
      ∧ e.addSignature g.signer g.signature ledger = .ok e'
      ∧ c.services.Answers s.services g.exchanges x
      ∧ (c.signEntryAt e method rpId ledger).exec s = (.ok e', s.after g.exchanges x))
    ∨ ∃ l x error, c.Refuses s.keyId rpId ledger e method l error
      ∧ c.services.Answers s.services l x
      ∧ (c.signEntryAt e method rpId ledger).exec s = (.error error, s.after l x) := by
  rcases signature_exec c e method rpId ledger s with
    ⟨g, x, hg, hx, hrun⟩ | ⟨l, x, error, hl, hx, hrun⟩
  · have hstep : (c.signEntryAt e method rpId ledger).exec s
        = ((e.addSignature g.signer g.signature ledger).mapError .auth, s.after g.exchanges x) :=
      Action.exec_bind_of_ok hrun
    cases hadd : e.addSignature g.signer g.signature ledger with
    | ok e' => exact .inl ⟨g, x, e', hg, hadd, hx, by rw [hstep, hadd]; rfl⟩
    | error cause =>
        exact .inr ⟨g.exchanges, x, .auth cause, .entry hg hadd, hx, by rw [hstep, hadd]; rfl⟩
  · exact .inr ⟨l, x, error, hl, hx, Action.exec_bind_of_error hrun⟩

/-- Once there are credentials and the expiration is known, the entry is
signed with that expiration. -/
theorem signEntry_exec_of_ok {o : SignOptions} {a : AddressCredentials} {u : SessionState σ}
    (ha : e.addressCredentials = .ok a) (hledger : (c.expiration o).exec s = (.ok ledger, u)) :
    (c.signEntry e method o).exec s = (c.signEntryAt e method o.rpId ledger).exec u := by
  unfold signEntry
  rw [Action.exec_lift_bind_of_ok ha, Action.exec_bind_of_ok hledger]

theorem Expires.keyId {o : SignOptions} {s t : SessionState σ} {ledger : UInt32}
    (h : c.Expires o s ledger t) : t.keyId = s.keyId := by
  cases h <;> rfl

/-- A signed entry has the signer and the signature of the method, at
the expiration that applies. -/
theorem signEntry_exec_ok {o : SignOptions} {s t : SessionState σ} {e' : AuthEntry}
    (h : (c.signEntry e method o).exec s = (.ok e', t)) :
    ∃ ledger u g x, c.Expires o s ledger u ∧ c.Signs s.keyId o.rpId ledger e method g
      ∧ e.addSignature g.signer g.signature ledger = .ok e'
      ∧ c.services.Answers u.services g.exchanges x ∧ t = u.after g.exchanges x := by
  -- the credentials are looked at first, which changes nothing
  obtain ⟨_, u, hu, h⟩ := Action.exec_bind_eq_ok_iff.mp h
  obtain rfl : s = u := (Prod.mk.inj hu).2
  obtain ⟨ledger, u, hledger, h⟩ := Action.exec_bind_eq_ok_iff.mp h
  have hexpires := expiration_exec_ok hledger
  rcases signEntryAt_exec c e method o.rpId ledger u with
    ⟨g, x, e'', hg, hadd, hx, hrun⟩ | ⟨l, x, error, -, -, hrun⟩
  · rw [hrun] at h
    obtain ⟨⟨⟩, rfl⟩ := Prod.mk.inj h
    rw [hexpires.keyId] at hg
    exact ⟨ledger, u, g, x, hexpires, hg, hadd, hx, rfl⟩
  · rw [hrun] at h
    cases (Prod.mk.inj h).1

end Client

end SmartWallet
