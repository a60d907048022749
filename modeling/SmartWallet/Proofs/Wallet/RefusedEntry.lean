import SmartWallet.Proofs.Authorization.SignatureMap
import SmartWallet.Proofs.Wallet.Requests
import SmartWallet.Proofs.Wallet.Signing
import SmartWallet.Sample

set_option autoImplicit false

/-! # Signing an entry that takes no signature

An entry without credentials of its own, or with a signature value that is neither a map nor
nothing, takes no signature, whoever the signer is. To sign it with a passkey therefore fails, and
changes nothing of the entry. When it fails is another matter. That there are credentials is looked
at first, so without them nobody is asked; but the signature value is looked at only when a
signature is put into it, and by then the user has signed.

`Client.RefusedRun` lists the ways in which the attempt can end. The user is asked in vain exactly
if there are credentials, the expiration is known and the entry can be hashed
(`Client.RefusedRun.authentications_ne_iff`). -/

namespace SmartWallet

open WebAuthn

variable {σ : Type}

/-! ## Authentications -/

/-- The authentications that were asked for, the earliest first. -/
def SessionState.authentications (s : SessionState σ) : List AuthenticationOptions :=
  s.journal.filterMap fun
    | .authentication o => some o
    | _ => none

theorem SessionState.authentications_after (s : SessionState σ) (l : List Exchange) (x : σ) :
    (s.after l x).authentications = s.authentications ++ l.map Prod.fst := by
  unfold authentications
  rw [after, List.filterMap_append, List.filterMap_map]
  congr 1
  rw [← List.filterMap_eq_map]
  rfl

theorem SessionState.authentications_afterLedger (s : SessionState σ) (x : σ) :
    (s.afterLedger x).authentications = s.authentications := by
  unfold authentications
  rw [afterLedger, List.filterMap_append]
  exact List.append_nil _

namespace Client

variable {c : Client σ} {e : AuthEntry} {pin : KeyIdPin} {o : SignOptions}
  {s t u : SessionState σ} {ledger : UInt32} {error : WalletError}

theorem Expires.authentications (h : c.Expires o s ledger t) :
    t.authentications = s.authentications := by
  cases h with
  | given _ => rfl
  | computed _ _ _ => exact s.authentications_afterLedger _

/-- There is one expiration that applies. -/
theorem Expires.unique {ledger' : UInt32} (h : c.Expires o s ledger t)
    (h' : c.Expires o s ledger' u) : ledger = ledger' := by
  cases h with
  | given hgiven =>
      cases h' with
      | given hgiven' => exact Option.some_inj.mp (hgiven.symm.trans hgiven')
      | computed hnone _ _ =>
          rw [hgiven] at hnone
          cases hnone
  | computed hnone hlatest hledger =>
      cases h' with
      | given hgiven' =>
          rw [hnone] at hgiven'
          cases hgiven'
      | computed _ hlatest' hledger' =>
          rw [hlatest] at hlatest'
          cases hlatest'
          exact UInt32.toNat_inj.mp (hledger.trans hledger'.symm)

/-! ## The attempt -/

/-- The error after the user was asked, for an entry that takes no signature because of a cause:
there is no signature in the answer, or the entry does not take it. -/
def errorOfAnswer (cause : AuthError) (answer : Except CeremonyError AuthenticationResponse) :
    WalletError :=
  match signatureOfAnswer answer with
  | .ok _ => .auth cause
  | .error error => error

/-- How the attempt to sign an entry that takes no signature ends, with a passkey: the error,
and the state of the session. -/
inductive RefusedRun (c : Client σ) (e : AuthEntry) (pin : KeyIdPin) (o : SignOptions)
    (s : SessionState σ) : WalletError → SessionState σ → Prop
  /-- There are no credentials, and nobody is asked. -/
  | credentials :
      e.credentials = .sourceAccount →
      RefusedRun c e pin o s (.auth .unsupportedCredentials) s
  /-- The ledger is asked for the expiration and does not answer. -/
  | noLedger {a : AddressCredentials} {reason : String} {x : σ} :
      e.credentials = .address a → o.expiration = none →
      c.services.latestLedger s.services = (.error reason, x) →
      RefusedRun c e pin o s (.ledger reason) (s.afterLedger x)
  /-- The entry cannot be hashed. -/
  | payload {a : AddressCredentials} {ledger : UInt32} {u : SessionState σ} {cause : AuthError} :
      e.credentials = .address a → c.Expires o s ledger u →
      c.payload e ledger = .error cause →
      RefusedRun c e pin o s (.auth cause) u
  /-- The user is asked once, and whatever the answer is, the entry is not signed. -/
  | prompted {a : AddressCredentials} {cause : AuthError} {ledger : UInt32} {u : SessionState σ}
      {p : Bytes32} {answer : Except CeremonyError AuthenticationResponse} {x : σ} :
      e.credentials = .address a → AuthEntry.containerEntries a.signature = .error cause →
      c.Expires o s ledger u → c.payload e ledger = .ok p →
      c.services.authenticate (c.signingOptions p (admitted pin s.keyId) o.rpId) u.services
        = (answer, x) →
      RefusedRun c e pin o s (errorOfAnswer cause answer)
        (u.after [(c.signingOptions p (admitted pin s.keyId) o.rpId, answer)] x)

/-- Whatever is answered, an entry that takes no signature is not signed. -/
theorem signEntryAt_passkey_exec_of_refuses {cause : AuthError} {p : Bytes32} {rpId : Option String}
    {answer : Except CeremonyError AuthenticationResponse} {x : σ}
    (hcause : ∀ signer signature, e.addSignature signer signature ledger = .error cause)
    (hp : c.payload e ledger = .ok p)
    (h : c.services.authenticate (c.signingOptions p (admitted pin s.keyId) rpId) s.services
      = (answer, x)) :
    (c.signEntryAt e (.passkey pin) rpId ledger).exec s
      = (.error (errorOfAnswer cause answer),
        s.after [(c.signingOptions p (admitted pin s.keyId) rpId, answer)] x) := by
  unfold signEntryAt errorOfAnswer
  rw [Action.exec_bind, signature_passkey_exec hp h]
  cases signatureOfAnswer answer with
  | error error => rfl
  | ok signed =>
      show ((e.addSignature _ _ ledger).mapError WalletError.auth, _) = _
      rw [hcause]
      rfl

theorem signEntry_refusedRun (c : Client σ) (h : e.Refuses) (pin : KeyIdPin) (o : SignOptions)
    (s : SessionState σ) : ∃ error t, (c.signEntry e (.passkey pin) o).exec s = (.error error, t)
      ∧ c.RefusedRun e pin o s error t := by
  rcases h with hsource | ⟨a, ha, hnone⟩
  · have hcredentials : e.addressCredentials = .error .unsupportedCredentials := by
      unfold AuthEntry.addressCredentials
      rw [hsource]
    exact ⟨_, s, Action.exec_lift_bind_of_error hcredentials s, .credentials hsource⟩
  -- with credentials the run goes on to the ledger, the hash and the user, and may end at each
  have hcredentials := AuthEntry.addressCredentials_eq_ok_iff.mpr ha
  rcases hledger : (c.expiration o).exec s with ⟨_ | ledger, u⟩
  · obtain ⟨hexpiration, reason, x, hreason, rfl, rfl⟩ := expiration_exec_error hledger
    refine ⟨_, _, ?_, .noLedger ha hexpiration hreason⟩
    unfold signEntry
    rw [Action.exec_lift_bind_of_ok hcredentials, Action.exec_bind_of_error hledger]
  have hexpires := expiration_exec_ok hledger
  have hstep : (c.signEntry e (.passkey pin) o).exec s
      = (c.signEntryAt e (.passkey pin) o.rpId ledger).exec u :=
    signEntry_exec_of_ok hcredentials hledger
  cases hp : c.payload e ledger with
  | error cause =>
      refine ⟨_, u, ?_, .payload ha hexpires hp⟩
      rw [hstep]
      exact Action.exec_bind_of_error (Action.exec_lift_bind_of_error hp u)
  | ok p =>
      obtain ⟨cause, hcause⟩ := AuthEntry.exists_containerEntries_eq_error hnone
      rcases hanswer : c.services.authenticate (c.signingOptions p (admitted pin u.keyId) o.rpId)
        u.services with ⟨answer, x⟩
      have hrun := signEntryAt_passkey_exec_of_refuses
        (fun signer signature => AuthEntry.addSignature_of_containerEntries ha hcause signer
          signature ledger) hp hanswer
      rw [hexpires.keyId] at hrun hanswer
      exact ⟨_, _, hstep.trans hrun, .prompted ha hcause hexpires hp hanswer⟩

/-- The user is asked in vain exactly if there are credentials, the expiration is known
and the entry can be hashed. -/
theorem RefusedRun.authentications_ne_iff (h : c.RefusedRun e pin o s error t) :
    t.authentications ≠ s.authentications ↔ e.credentials ≠ .sourceAccount
      ∧ ∃ ledger u p, c.Expires o s ledger u ∧ c.payload e ledger = .ok p := by
  cases h with
  | credentials hsource => exact ⟨fun hne => absurd rfl hne, fun hne => absurd hsource hne.1⟩
  | noLedger ha hnone hreason =>
      rw [s.authentications_afterLedger]
      refine ⟨fun hne => absurd rfl hne, ?_⟩
      rintro ⟨-, ledger, u, p, hexpires, -⟩
      cases hexpires with
      | given hgiven =>
          rw [hnone] at hgiven
          cases hgiven
      | computed _ hlatest _ =>
          rw [hreason] at hlatest
          cases hlatest
  | payload ha hexpires hcause =>
      rw [hexpires.authentications]
      refine ⟨fun hne => absurd rfl hne, ?_⟩
      rintro ⟨-, ledger, u, p, hexpires', hp⟩
      rw [hexpires'.unique hexpires, hcause] at hp
      cases hp
  | prompted ha _ hexpires hp _ =>
      rw [SessionState.authentications_after, hexpires.authentications]
      refine ⟨fun _ => ⟨?_, _, _, _, hexpires, hp⟩, fun _ => ?_⟩
      · rw [ha]
        nofun
      · simp

theorem perform_signEntry_run {signed : Except WalletError AuthEntry} {method : SignMethod}
    (h : (c.signEntry e method o).exec s = (signed, t)) :
    (c.perform (.signEntry e method o)).run s = (Reply.ofSigned e signed, t) := by
  show (Reply.ofSigned e ((c.signEntry e method o).exec s).1,
    ((c.signEntry e method o).exec s).2) = _
  rw [h]

/-- With a passkey, an entry that takes no signature is never signed: it stays as it was, and so do
the default passkey and the wallet. Without credentials nobody is asked. With credentials the ledger
is asked for the expiration if there is need to, and then, if the expiration is known and the entry
can be hashed, the user is asked once, although the signature will not be taken. -/
theorem perform_signEntry_refused (c : Client σ) (h : e.Refuses) (pin : KeyIdPin) (o : SignOptions)
    (s : SessionState σ) :
    ∃ error t,
      (c.perform (.signEntry e (.passkey pin) o)).run s = (.entries (.error error) [e], t)
      ∧ t.keyId = s.keyId ∧ t.wallet = s.wallet
      ∧ c.RefusedRun e pin o s error t
      ∧ (t.authentications ≠ s.authentications ↔ e.credentials ≠ .sourceAccount
        ∧ ∃ ledger u p, c.Expires o s ledger u ∧ c.payload e ledger = .ok p) := by
  obtain ⟨error, t, hexec, hrefused⟩ := c.signEntry_refusedRun h pin o s
  have hfollows := c.follows_signEntry e (.passkey pin) o s
  have hrun : (c.signEntry e (.passkey pin) o).run.run s = (.error error, t) := hexec
  rw [hrun] at hfollows
  exact ⟨error, t, perform_signEntry_run hexec, hfollows.keyId, hfollows.wallet, hrefused,
    hrefused.authentications_ne_iff⟩

/-- An entry whose signature value is a number. -/
def sampleRefused : AuthEntry :=
  ⟨.address ⟨.contract Sample.wallet, 5, 0, .u32 1⟩, Sample.invocation⟩

theorem sampleRefused_refuses : sampleRefused.Refuses := .inr ⟨_, rfl, nofun⟩

theorem sampleRefused_payload :
    ∃ ledger u p, Sample.client.Expires ⟨some 2000, none⟩ Sample.session ledger u
      ∧ Sample.client.payload sampleRefused ledger = .ok p := by
  have hok : (Sample.client.payload sampleRefused 2000).isOk = true := by decide +kernel
  obtain ⟨p, hp⟩ := exists_of_isOk hok
  exact ⟨2000, Sample.session, p, .given rfl, hp⟩

theorem perform_signEntry_refused_sample :
    ∃ error t, (Sample.client.perform (.signEntry sampleRefused (.passkey .any)
        ⟨some 2000, none⟩)).run Sample.session = (.entries (.error error) [sampleRefused], t)
      ∧ t.authentications ≠ [] := by
  obtain ⟨error, t, hrun, -, -, -, hiff⟩ := perform_signEntry_refused Sample.client
    sampleRefused_refuses .any ⟨some 2000, none⟩ Sample.session
  exact ⟨error, t, hrun, hiff.mpr ⟨nofun, sampleRefused_payload⟩⟩

/-- That an entry takes no signature is not always found out before the user is asked. -/
theorem not_perform_signEntry_unasked :
    ¬ ∀ (c : Client Environment) (e : AuthEntry) (pin : KeyIdPin) (o : SignOptions)
      (s : SessionState Environment), e.Refuses →
      ∃ cause t, (∀ signer x ledger, e.addSignature signer x ledger = .error cause)
        ∧ (c.perform (.signEntry e (.passkey pin) o)).run s
          = (.entries (.error (.auth cause)) [e], t)
        ∧ t.authentications = s.authentications := by
  intro hall
  obtain ⟨cause, t, -, hrun, hsame⟩ :=
    hall Sample.client sampleRefused .any ⟨some 2000, none⟩ Sample.session sampleRefused_refuses
  obtain ⟨error, t', hexec, hrefused⟩ :=
    Sample.client.signEntry_refusedRun sampleRefused_refuses .any ⟨some 2000, none⟩ Sample.session
  rw [perform_signEntry_run hexec] at hrun
  obtain ⟨-, rfl⟩ := Prod.mk.inj hrun
  exact hrefused.authentications_ne_iff.mpr ⟨nofun, sampleRefused_payload⟩ hsame

end Client

end SmartWallet
