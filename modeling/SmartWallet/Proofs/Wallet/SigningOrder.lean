import Mathlib.Data.List.Nodup
import SmartWallet.Proofs.Except.Traversal
import SmartWallet.Proofs.Signer.Order
import SmartWallet.Proofs.Wallet.PasskeySigning

set_option autoImplicit false

/-! # The order of co-signers

Several signers of a wallet sign one entry in turn, all for one expiration.
`Client.signInTurn_perm`: it does not matter in which order they do. They fail in the same way,
or the entry ends up the same.

Two things make this true. What a co-signer signs is a payload in which the signature map does
not occur, so what it puts on the entry is known before the run, which
`Client.signInTurn_exec` says of the whole run. And the map is sorted, by a sort that keeps
the order of equal keys: with different keys the co-signers do not come into each other's way,
nor into that of pairs that the map held before. -/

namespace SmartWallet

open WebAuthn

variable {σ : Type}

/-! ## Runs -/

/-- One of several who sign an entry. -/
structure CoSigner where
  /-- How it signs. -/
  method : SignMethod
  /-- The domain for its ceremony, if it is not that of the configuration. -/
  rpId : Option String

/-- The key by which a wallet knows a co-signer, when passkeys are that of an authenticator. -/
def CoSigner.key (a : SoftwareAuthenticator) (x : CoSigner) : SignerKey :=
  match x.method with
  | .keypair k => .ed25519 k.publicKey.bytes
  | .passkey _ => .secp256r1 a.credentialId
  | .policy p => .policy p

/-- Has an entry signed by one co-signer after the other, up to the first that fails, for one
expiration. -/
def Client.signInTurn (c : Client σ) (expiration : UInt32) :
    AuthEntry → List CoSigner → Action σ AuthEntry
  | e, [] => return e
  | e, x :: rest => do
    let signed ← c.signEntry e x.method ⟨some expiration, x.rpId⟩
    c.signInTurn expiration signed rest

variable {e : AuthEntry} {credentials : AddressCredentials} {entries : List ScMapEntry}

/-! ## What a co-signer puts on an entry -/

namespace Client

/-- The signer and the signature that a co-signer puts on an entry with a payload. -/
def signatureFor (c : Client σ) (a : SoftwareAuthenticator) (keyId : Option Bytes)
    (payload : Except AuthError Bytes32) (x : CoSigner) :
    Except WalletError (SignerKey × Option Signature) :=
  match x.method with
  | .keypair k => do
    let p ← payload.mapError .auth
    return (.ed25519 k.publicKey.bytes, some (.ed25519 (k.sign p.toList).bytes))
  | .passkey pin => do
    let p ← payload.mapError .auth
    (signatureOfAnswer (a.authenticate (c.signingOptions p (admitted pin keyId) x.rpId))).map
      fun x => (.secp256r1 x.1, some (.secp256r1 x.2))
  | .policy p => return (.policy p, none)

variable {c : Client σ} {a : SoftwareAuthenticator} {I : σ → Prop} {s : SessionState σ}
  {keyId : Option Bytes} {payload : Except AuthError Bytes32}

theorem signatureFor_passkey {p : Bytes32} {pin : KeyIdPin} {rpId : Option String}
    {response : AuthenticationResponse} {assertion : Assertion}
    (hanswer : a.authenticate (c.signingOptions p (admitted pin keyId) rpId) = .ok response)
    (hassertion : Assertion.ofResponse response.response = .ok assertion) :
    c.signatureFor a keyId (.ok p) ⟨.passkey pin, rpId⟩
      = .ok (.secp256r1 response.rawId, some (.secp256r1 assertion)) := by
  show (signatureOfAnswer (a.authenticate (c.signingOptions p (admitted pin keyId) rpId))).map _ = _
  rw [hanswer]
  show (((Assertion.ofResponse response.response).mapError _ >>= _).map _
    : Except WalletError _) = _
  rw [hassertion]
  rfl

/-- A co-signer signs as itself. -/
theorem key_of_signatureFor {x : CoSigner} {g : SignerKey × Option Signature}
    (h : c.signatureFor a keyId payload x = .ok g) : g.1 = x.key a := by
  obtain ⟨method, rpId⟩ := x
  cases method with
  | keypair k =>
      obtain ⟨_, -, h⟩ := except_bind_eq_ok_iff.mp h
      cases h
      rfl
  | passkey pin =>
      obtain ⟨p, -, h⟩ := except_bind_eq_ok_iff.mp h
      obtain ⟨⟨id, assertion⟩, hanswer, rfl⟩ := map_eq_ok_iff.mp h
      obtain ⟨response, hresponse, h⟩ := except_bind_eq_ok_iff.mp hanswer
      obtain ⟨_, -, h⟩ := except_bind_eq_ok_iff.mp h
      cases h
      have hid := (SoftwareAuthenticator.authenticate_eq_ok (mapError_eq_ok_iff.mp hresponse)).1
      exact congrArg SignerKey.secp256r1 hid
  | policy p =>
      cases h
      rfl

/-- The keys of the pairs are those of the co-signers. -/
theorem keys_of_mapM_signatureFor {l : List CoSigner} {gs : List (SignerKey × Option Signature)}
    (h : l.mapM (c.signatureFor a keyId payload) = .ok gs) :
    gs.map Prod.fst = l.map (CoSigner.key a) := by
  have hall := mapM_eq_ok_iff.mp h
  clear h
  induction hall with
  | nil => rfl
  | cons hx _ ih => rw [List.map_cons, List.map_cons, key_of_signatureFor hx, ih]

/-- A co-signer fails for the payload, or it is a passkey. -/
theorem signatureFor_eq_error {x : CoSigner} {d : WalletError}
    (h : c.signatureFor a keyId payload x = .error d) :
    (∃ cause, payload = .error cause ∧ d = .auth cause)
      ∨ (∃ p, payload = .ok p) ∧ x.key a = .secp256r1 a.credentialId := by
  obtain ⟨method, rpId⟩ := x
  cases hpayload : payload with
  | error cause =>
      rw [hpayload] at h
      cases method with
      | keypair k =>
          cases h
          exact .inl ⟨cause, rfl, rfl⟩
      | passkey pin =>
          cases h
          exact .inl ⟨cause, rfl, rfl⟩
      | policy p => cases h
  | ok p =>
      rw [hpayload] at h
      cases method with
      | keypair k => cases h
      | passkey pin => exact .inr ⟨⟨p, rfl⟩, rfl⟩
      | policy p => cases h

/-- Among co-signers with different keys there is one way to fail at most: all but policies fail
with the payload, and with a payload there is one passkey that may. -/
theorem signatureFor_error_unique {l : List CoSigner} (hkeys : (l.map (CoSigner.key a)).Nodup)
    {x y : CoSigner} (hx : x ∈ l) (hy : y ∈ l) {d d' : WalletError}
    (hd : c.signatureFor a keyId payload x = .error d)
    (hd' : c.signatureFor a keyId payload y = .error d') : d = d' := by
  rcases signatureFor_eq_error hd with ⟨cause, hcause, rfl⟩ | ⟨⟨p, hp⟩, hkey⟩
  · rcases signatureFor_eq_error hd' with ⟨cause', hcause', rfl⟩ | ⟨⟨p, hp⟩, -⟩
    · rw [hcause] at hcause'
      cases hcause'
      rfl
    · rw [hcause] at hp
      cases hp
  · rcases signatureFor_eq_error hd' with ⟨cause, hcause, -⟩ | ⟨-, hkey'⟩
    · rw [hcause] at hp
      cases hp
    · have hsame : x = y := List.inj_on_of_nodup_map hkeys hx hy (hkey.trans hkey'.symm)
      rw [hsame, hd'] at hd
      cases hd
      rfl

/-! ## A run -/

/-- What a co-signer puts on an entry depends on the payload of the entry and on the default
passkey, and leaves the session as it needs to be for the next. -/
theorem signature_exec_eq (huses : c.services.Uses a I) (hs : I s.services) (e : AuthEntry)
    (x : CoSigner) (expiration : UInt32) :
    ∃ t, (c.signature e x.method x.rpId expiration).exec s
        = (c.signatureFor a s.keyId (c.payload e expiration) x, t)
      ∧ t.keyId = s.keyId ∧ I t.services := by
  obtain ⟨method, rpId⟩ := x
  cases method with
  | policy p => exact ⟨s, rfl, rfl, hs⟩
  | keypair k =>
      refine ⟨s, ?_, rfl, hs⟩
      cases hp : c.payload e expiration with
      | error cause => exact Action.exec_lift_bind_of_error hp s
      | ok p => exact Action.exec_lift_bind_of_ok hp s
  | passkey pin =>
      cases hp : c.payload e expiration with
      | error cause => exact ⟨s, Action.exec_lift_bind_of_error hp s, rfl, hs⟩
      | ok p =>
          obtain ⟨⟨answer, y⟩, hy⟩ : ∃ r, c.services.authenticate
            (c.signingOptions p (admitted pin s.keyId) rpId) s.services = r := ⟨_, rfl⟩
          obtain ⟨hanswer, hI⟩ := huses.authenticate
            (c.signingOptions p (admitted pin s.keyId) rpId) hs
          rw [hy] at hanswer hI
          obtain rfl : answer = _ := hanswer
          exact ⟨_, signature_passkey_exec hp hy, rfl, hI⟩

/-- What a co-signer signs goes into the map of an entry that has one. -/
theorem signEntry_exec_eq (huses : c.services.Uses a I) (hs : I s.services)
    (he : e.credentials = .address credentials)
    (hentries : AuthEntry.containerEntries credentials.signature = .ok entries) (x : CoSigner)
    (expiration : UInt32) :
    ∃ t, (c.signEntry e x.method ⟨some expiration, x.rpId⟩).exec s
        = ((c.signatureFor a s.keyId (c.payload e expiration) x).map fun g =>
            e.withPair credentials entries expiration (AuthEntry.signatureEntry g.1 g.2), t)
      ∧ t.keyId = s.keyId ∧ I t.services := by
  obtain ⟨t, hrun, hkeyId, ht⟩ := signature_exec_eq huses hs e x expiration
  refine ⟨t, ?_, hkeyId, ht⟩
  -- the credentials are there, and the expiration is given
  have hstep : (c.signEntry e x.method ⟨some expiration, x.rpId⟩).exec s
      = (c.signEntryAt e x.method x.rpId expiration).exec s :=
    signEntry_exec_of_ok (AuthEntry.addressCredentials_eq_ok_iff.mpr he) rfl
  rw [hstep, signEntryAt, Action.exec_bind, hrun]
  cases c.signatureFor a s.keyId (c.payload e expiration) x with
  | error d => rfl
  | ok g =>
      show (Action.exec (liftM (e.addSignature g.1 g.2 expiration)) t) = _
      rw [Action.exec_liftExcept, AuthEntry.addSignature_eq_ok_iff.mpr
        ⟨credentials, entries, he, hentries, rfl⟩]
      rfl

/-- What a run makes of an entry: what the co-signers put on it is known from the entry before the
run, and the pairs are added together. -/
theorem signInTurn_exec (huses : c.services.Uses a I) (hs : I s.services)
    (he : e.credentials = .address credentials)
    (hentries : AuthEntry.containerEntries credentials.signature = .ok entries)
    (expiration : UInt32) (l : List CoSigner) :
    ((c.signInTurn expiration e l).exec s).1
      = (l.mapM (c.signatureFor a s.keyId (c.payload e expiration))).map fun gs =>
        e.withPairs credentials entries expiration
          (gs.map fun g => AuthEntry.signatureEntry g.1 g.2) := by
  induction l generalizing e credentials entries s with
  | nil => rfl
  | cons x l ih =>
      obtain ⟨t, hrun, hkeyId, ht⟩ := signEntry_exec_eq huses hs he hentries x expiration
      rw [signInTurn, Action.exec_bind, hrun, List.mapM_cons]
      cases hg : c.signatureFor a s.keyId (c.payload e expiration) x with
      | error d => rfl
      | ok g =>
          -- the next ones sign the same payload, for the entry with one pair more
          have hpayload : c.payload (e.withPair credentials entries expiration
              (AuthEntry.signatureEntry g.1 g.2)) expiration = c.payload e expiration :=
            AuthEntry.payload_withPair he _ _ _
          have hrest := ih (e := e.withPair credentials entries expiration
            (AuthEntry.signatureEntry g.1 g.2)) ht rfl rfl
          rw [hpayload, hkeyId] at hrest
          refine hrest.trans ?_
          cases l.mapM (c.signatureFor a s.keyId (c.payload e expiration)) with
          | error d => rfl
          | ok gs => exact congrArg Except.ok (AuthEntry.withPairs_withPair _ _ fun _ => rfl)

/-- The order of co-signers with different keys does not matter: they fail in the same way, or they
make the same of the entry, whatever pairs its map held before. -/
theorem signInTurn_perm (huses : c.services.Uses a I) (hs : I s.services)
    (he : e.credentials = .address credentials)
    (hentries : AuthEntry.containerEntries credentials.signature = .ok entries)
    (expiration : UInt32) {l m : List CoSigner} (hkeys : (l.map (CoSigner.key a)).Nodup)
    (h : l.Perm m) :
    ((c.signInTurn expiration e l).exec s).1 = ((c.signInTurn expiration e m).exec s).1 := by
  have halike : ∀ x ∈ l, ∀ y ∈ l, ∀ d d',
      c.signatureFor a s.keyId (c.payload e expiration) x = .error d →
      c.signatureFor a s.keyId (c.payload e expiration) y = .error d' → d = d' :=
    fun x hx y hy _ _ => signatureFor_error_unique hkeys hx hy
  rw [signInTurn_exec huses hs he hentries, signInTurn_exec huses hs he hentries]
  rcases mapM_perm h halike with ⟨d, hl, hm⟩ | ⟨gs, gs', hl, hm, hperm⟩
  · rw [hl, hm]
  · rw [hl, hm]
    -- the keys in the map are different because those of the co-signers are
    have hsigners : (gs.map fun g => g.1.toScVal).Nodup := by
      have hmap := hkeys.map SignerKey.toScVal_injective
      rwa [← keys_of_mapM_signatureFor hl, List.map_map] at hmap
    have hpairs : ((gs.map fun g => AuthEntry.signatureEntry g.1 g.2).map Prod.fst).Nodup := by
      rw [List.map_map]
      exact hsigners
    exact congrArg Except.ok (AuthEntry.withPairs_perm (hperm.map _) hpairs)

/-- A map out of order that holds a pair for the policy among the co-signers already. -/
def sampleHeld : List ScMapEntry :=
  [AuthEntry.signatureEntry (.policy Sample.recipient) none,
    AuthEntry.signatureEntry (.policy Sample.token) none]

def sampleHeldEntry : AuthEntry :=
  ⟨.address ⟨.contract Sample.wallet, 7, 0, .map (some sampleHeld)⟩, Sample.invocation⟩

/-- A key at hand, the passkey of the sample authenticator and a policy. -/
def sampleCoSigners : List CoSigner :=
  [⟨.keypair ⟨.replicate 32 7⟩, none⟩, ⟨.passkey .any, none⟩, ⟨.policy Sample.recipient, none⟩]

/-- The sample client answers from its authenticator. -/
theorem sample_uses : Sample.client.services.Uses Sample.authenticator
    fun x => x.authenticator = .software Sample.authenticator :=
  Environment.services_uses Sample.authenticator

/-- The sample co-signers do sign. -/
theorem exists_signInTurn_sample :
    ∃ e', ((Sample.client.signInTurn 5000 sampleHeldEntry sampleCoSigners).exec Sample.session).1
      = .ok e' := by
  have hok : ((Sample.entry Sample.wallet 7).payload
      Sample.client.config.networkPassphrase 5000).isOk = true := by decide +kernel
  obtain ⟨p, hp⟩ := exists_of_isOk hok
  -- the map of an entry does not occur in its payload
  have hpayload : Sample.client.payload sampleHeldEntry 5000 = .ok p := hp
  obtain ⟨x, hx, -⟩ := sample_signature hp
  obtain ⟨response, hanswer⟩ := SoftwareAuthenticator.authenticate_of_admitted
    (a := Sample.authenticator) (o := Sample.client.signingOptions p [] none) rfl rfl
  have hassertion := SoftwareAuthenticator.ofResponse_of_authenticate hanswer hx
  obtain ⟨gs, hgs⟩ : ∃ gs, sampleCoSigners.mapM (Sample.client.signatureFor Sample.authenticator
      Sample.session.keyId (.ok p)) = .ok gs :=
    ⟨_, mapM_eq_ok_iff.mpr
      (.cons rfl (.cons (signatureFor_passkey hanswer hassertion) (.cons rfl .nil)))⟩
  rw [signInTurn_exec sample_uses rfl rfl rfl, hpayload, hgs]
  exact ⟨_, rfl⟩

theorem signInTurn_perm_sample :
    ∃ e', ((Sample.client.signInTurn 5000 sampleHeldEntry sampleCoSigners).exec Sample.session).1
        = .ok e'
      ∧ ((Sample.client.signInTurn 5000 sampleHeldEntry sampleCoSigners.reverse).exec
        Sample.session).1 = .ok e' := by
  obtain ⟨e', h⟩ := exists_signInTurn_sample
  have hkeys : (sampleCoSigners.map (CoSigner.key Sample.authenticator)).Nodup := by
    decide +kernel
  have hsame := signInTurn_perm sample_uses (s := Sample.session) rfl (e := sampleHeldEntry) rfl rfl
    5000 hkeys (List.reverse_perm _).symm
  exact ⟨e', h, hsame.symm.trans h⟩

end Client

end SmartWallet
