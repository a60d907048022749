import SmartWallet.Proofs.Wallet.Requests
import SmartWallet.Sample

set_option autoImplicit false

/-! # What a failed command leaves behind

The default passkey and the wallet of a session are set by two commands only: creating a passkey and
connecting a wallet. Everything else keeps them, failed or not, which `Keeps` says of a part of a
session.

`Client.perform_failed` says what a failure leaves of them. The wallet is never touched. The default
passkey is as it was, with one exception: an attempt to connect that knows for which passkey it is
makes it the default one before it looks for a wallet, so when there is no wallet to be found the
passkey stays all the same (`Client.perform_failed_unchanged_iff`). -/

namespace SmartWallet

open WebAuthn

variable {σ α : Type}

/-! ## Parts that keep the session -/

/-- The default passkey and the wallet are afterwards what they were before. -/
def Keeps (x : StateM (SessionState σ) α) : Prop :=
  ∀ s, (x.run s).2.keyId = s.keyId ∧ (x.run s).2.wallet = s.wallet

theorem Leads.keeps {P : Option Bytes → Request → Prop} {x : StateM (SessionState σ) α}
    (h : Leads (Follows P) x) : Keeps x :=
  fun s => ⟨(h s).keyId, (h s).wallet⟩

/-! ## Failures -/

/-- Why a command failed, if it did. -/
def Reply.error? : Reply → Option WalletError
  | .entries (.error e) _ => some e
  | .failed e => some e
  | _ => none

theorem Reply.error?_ofExcept {reply : α → Reply} (hreply : ∀ x, (reply x).error? = none)
    {r : Except WalletError α} {e : WalletError} :
    (ofExcept reply r).error? = some e ↔ r = .error e := by
  cases r with
  | ok x => simp [ofExcept, hreply]
  | error cause => simp [ofExcept, error?]

namespace Client

variable (c : Client σ)

/-- The request by which the user is asked for a passkey. -/
def identifyOptions : AuthenticationOptions := ⟨identifyChallenge, c.config.rpId, [], .discouraged⟩

/-- The passkey that an attempt to connect is for, once that is known: it was given, or the user
shows it. Other commands are no such attempt. -/
def attemptedKey (s : SessionState σ) : Command → Option Bytes
  | .connectWallet (some id) _ => some id
  | .connectWallet none _ =>
    ((c.services.authenticate c.identifyOptions s.services).1.toOption).map (·.rawId)
  | _ => none

/-- Creating a passkey sets nothing before it succeeds. -/
theorem createKey_failed {app user : String} {now : Nat} {s t : SessionState σ} {e : WalletError}
    (h : (c.createKey app user now).exec s = (.error e, t)) :
    t.keyId = s.keyId ∧ t.wallet = s.wallet := by
  -- either the ceremony fails or the response shows no key
  rcases Action.exec_bind_eq_error_iff.mp h with h | ⟨response, u, hu, h⟩
  · obtain ⟨-, rfl⟩ := Prod.mk.inj h
    exact ⟨rfl, rfl⟩
  rcases Action.exec_bind_eq_error_iff.mp h with h | ⟨publicKey, v, hv, h⟩
  · obtain ⟨-, rfl⟩ := Prod.mk.inj hu
    obtain ⟨-, rfl⟩ := Prod.mk.inj h
    exact ⟨rfl, rfl⟩
  · cases (Prod.mk.inj h).1

/-- Connecting the wallet of a known passkey. -/
def connectKnown (keyId : Bytes) (fallback : Option ContractAddress) :
    Action σ ConnectedWallet := do
  rememberKey keyId
  let (contract, expired) ← c.findWallet keyId fallback
  modify fun s => { s with wallet := some contract }
  return ⟨keyId, contract, expired⟩

theorem connectWallet_some (keyId : Bytes) (fallback : Option ContractAddress) :
    c.connectWallet (some keyId) fallback = c.connectKnown keyId fallback := rfl

theorem connectWallet_none (fallback : Option ContractAddress) :
    c.connectWallet none fallback
      = c.authenticate c.identifyOptions >>= fun r => c.connectKnown r.rawId fallback := by
  show (c.authenticate _ >>= fun r => pure r.rawId) >>= (fun id => c.connectKnown id fallback) = _
  rw [bind_assoc]
  simp only [pure_bind]
  rfl

/-- A passkey is the default one even when no wallet is found for it. -/
theorem connectKnown_failed {keyId : Bytes} {fallback : Option ContractAddress}
    {s t : SessionState σ} {e : WalletError}
    (h : (c.connectKnown keyId fallback).exec s = (.error e, t)) :
    t.keyId = s.keyId.or (some keyId) ∧ t.wallet = s.wallet := by
  unfold connectKnown at h
  -- making the passkey the default one cannot fail, so what fails comes after it
  rcases Action.exec_bind_eq_error_iff.mp h with h | ⟨_, u, hu, h⟩
  · cases (Prod.mk.inj h).1
  obtain ⟨-, rfl⟩ := Prod.mk.inj hu
  rcases Action.exec_bind_eq_error_iff.mp h with h | ⟨_, v, hv, h⟩
  · have hkeeps := (c.follows_findWallet keyId fallback).keeps
      { s with keyId := s.keyId.or (some keyId) }
    have ht : (c.findWallet keyId fallback).run.run
        { s with keyId := s.keyId.or (some keyId) } = (.error e, t) := h
    rw [ht] at hkeeps
    exact hkeeps
  · cases (Prod.mk.inj h).1

theorem connectWallet_failed {keyId : Option Bytes} {fallback : Option ContractAddress}
    {s t : SessionState σ} {e : WalletError}
    (h : (c.connectWallet keyId fallback).exec s = (.error e, t)) :
    t.keyId = s.keyId.or (c.attemptedKey s (.connectWallet keyId fallback))
      ∧ t.wallet = s.wallet := by
  cases keyId with
  | some id =>
      rw [connectWallet_some] at h
      exact c.connectKnown_failed h
  | none =>
      rw [connectWallet_none] at h
      unfold attemptedKey
      rcases Action.exec_bind_eq_error_iff.mp h with h | ⟨response, u, hu, h⟩
      · obtain ⟨hanswer, rfl⟩ := Prod.mk.inj h
        obtain ⟨cause, hcause, -⟩ := mapError_eq_error_iff.mp hanswer
        rw [hcause]
        exact ⟨(Option.or_none).symm, rfl⟩
      · obtain ⟨hanswer, rfl⟩ := Prod.mk.inj hu
        have hknown := c.connectKnown_failed h
        rw [mapError_eq_ok_iff.mp hanswer]
        exact hknown

theorem run_map {α β : Type} (f : α → β) (x : StateM (SessionState σ) α) (s : SessionState σ) :
    (f <$> x).run s = (f (x.run s).1, (x.run s).2) := rfl

/-- A command that fails leaves the wallet, and the default passkey unless it was an attempt to
connect for a known passkey in a session without a default one. -/
theorem perform_failed (command : Command) {s t : SessionState σ} {reply : Reply} {e : WalletError}
    (h : (c.perform command).run s = (reply, t)) (hfailed : reply.error? = some e) :
    t.keyId = s.keyId.or (c.attemptedKey s command) ∧ t.wallet = s.wallet := by
  have hkeep {α : Type} {x : StateM (SessionState σ) α} {f : α → Reply} (hx : Keeps x)
      (hnone : c.attemptedKey s command = none) (hrun : (f <$> x).run s = (reply, t)) :
      t.keyId = s.keyId.or (c.attemptedKey s command) ∧ t.wallet = s.wallet := by
    rw [run_map] at hrun
    obtain ⟨-, rfl⟩ := Prod.mk.inj hrun
    rw [hnone, Option.or_none]
    exact hx s
  cases command with
  | createKey app user now =>
      rw [perform, run_map] at h
      obtain ⟨rfl, rfl⟩ := Prod.mk.inj h
      rw [Reply.error?_ofExcept fun _ => rfl] at hfailed
      have hnone : c.attemptedKey s (.createKey app user now) = none := rfl
      rw [hnone, Option.or_none]
      exact c.createKey_failed (Prod.ext hfailed rfl)
  | connectWallet keyId fallback =>
      rw [perform, run_map] at h
      obtain ⟨rfl, rfl⟩ := Prod.mk.inj h
      rw [Reply.error?_ofExcept fun _ => rfl] at hfailed
      exact c.connectWallet_failed (Prod.ext hfailed rfl)
  | expiration o => exact hkeep (c.follows_expiration o).keeps rfl h
  | isSignerExpired contract signer =>
      exact hkeep (c.follows_isSignerExpired contract signer).keeps rfl h
  | signEntry entry method o => exact hkeep (c.follows_signEntry entry method o).keeps rfl h
  | signEntries entries method o => exact hkeep (c.follows_signEntries entries method o).keeps rfl h
  | sign input method o => exact hkeep (c.follows_sign input method o).keeps rfl h
  | attachPolicy t' index policy => exact hkeep (follows_attachPolicy t' index policy).keeps rfl h

/-- A command that fails leaves the wallet as it was. It leaves the default passkey as it was
exactly if there is one already or the command is no attempt to connect for a known passkey; else
that passkey is the default one afterwards. -/
theorem perform_failed_unchanged_iff (command : Command) {s t : SessionState σ} {reply : Reply}
    {e : WalletError} (h : (c.perform command).run s = (reply, t))
    (hfailed : reply.error? = some e) :
    t.wallet = s.wallet
      ∧ (t.keyId = s.keyId ↔ s.keyId ≠ none ∨ c.attemptedKey s command = none)
      ∧ (s.keyId = none → t.keyId = c.attemptedKey s command) := by
  obtain ⟨hkeyId, hwallet⟩ := c.perform_failed command h hfailed
  refine ⟨hwallet, ?_, ?_⟩
  · rw [hkeyId]
    cases s.keyId with
    | some id => simp
    | none => simp
  · intro hnone
    rw [hkeyId, hnone, Option.none_or]

/-- Connecting for a passkey without a wallet. -/
def connectSample : StateM (SessionState Environment) Reply :=
  Sample.client.perform (.connectWallet (some Sample.credentialId) none)

theorem connectSample_failed :
    ∃ reply t e, connectSample.run Sample.session = (reply, t) ∧ reply.error? = some e := by
  have h : (connectSample.run Sample.session).1.error?.isSome = true := by decide +kernel
  obtain ⟨e, he⟩ := Option.isSome_iff_exists.mp h
  exact ⟨_, _, e, rfl, he⟩

theorem perform_failed_unchanged_iff_sample :
    ∃ reply t e, connectSample.run Sample.session = (reply, t) ∧ reply.error? = some e
      ∧ t.wallet = none ∧ t.keyId = some Sample.credentialId := by
  obtain ⟨reply, t, e, h, he⟩ := connectSample_failed
  obtain ⟨hwallet, -, hkeyId⟩ := perform_failed_unchanged_iff Sample.client
    (.connectWallet (some Sample.credentialId) none) h he
  exact ⟨reply, t, e, h, he, hwallet, hkeyId rfl⟩

/-- Not every command that fails leaves the default passkey as it was. -/
theorem not_perform_failed_unchanged :
    ¬ ∀ (c : Client Environment) (command : Command) (s t : SessionState Environment)
      (reply : Reply) (e : WalletError), (c.perform command).run s = (reply, t) →
      reply.error? = some e → t.keyId = s.keyId ∧ t.wallet = s.wallet := by
  intro hall
  obtain ⟨reply, t, e, h, he⟩ := connectSample_failed
  have hsame : t.keyId = Sample.session.keyId := (hall Sample.client _ _ _ reply e h he).1
  have hkeyId := (Sample.client.perform_failed _ h he).1
  rw [hsame] at hkeyId
  cases hkeyId

end Client

end SmartWallet
