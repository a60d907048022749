import SmartWallet.Wallet.Error
import SmartWallet.Wallet.Ledger
import SmartWallet.WebAuthn.Ceremony

set_option autoImplicit false

/-! # Services

A session asks the ledger and an authenticator. `Services σ` is any way to answer, with a state `σ`
of its own that each answer may change. An `Action` runs against services: it asks them through
`ask`, which notes every request in a *journal*, and it may fail, which keeps what was noted and
changed before. So what the user was prompted for, and how often the ledger was asked, can be read
off the journal after any run. -/

namespace SmartWallet

/-- What a session asks for. -/
inductive Request where
  /-- The number of the latest ledger. -/
  | latestLedger
  /-- Whether a value is live. -/
  | contractDatum (d : ContractDatum)
  | registration (o : WebAuthn.RegistrationOptions)
  | authentication (o : WebAuthn.AuthenticationOptions)
deriving DecidableEq

/-- Answers to requests, with a state of their own. -/
structure Services (σ : Type) where
  /-- The number of the latest ledger, or why it is not known. -/
  latestLedger : σ → Except String UInt32 × σ
  /-- Whether a value is live, or why that is not known. -/
  contains : ContractDatum → σ → Except String Bool × σ
  register : WebAuthn.RegistrationOptions →
    σ → Except WebAuthn.CeremonyError WebAuthn.RegistrationResponse × σ
  authenticate : WebAuthn.AuthenticationOptions →
    σ → Except WebAuthn.CeremonyError WebAuthn.AuthenticationResponse × σ

/-- What changes in the course of a session. -/
structure SessionState (σ : Type) where
  /-- The default passkey, once there is one. -/
  keyId : Option Bytes
  /-- The wallet, once it is connected. -/
  wallet : Option ContractAddress
  services : σ
  /-- The requests made so far, the earliest first. -/
  journal : List Request

/-- The state in which a session starts. -/
def SessionState.start {σ : Type} (services : σ) : SessionState σ := ⟨none, none, services, []⟩

/-- A part of a session, which may fail; the state is kept when it does. -/
abbrev Action (σ : Type) := ExceptT WalletError (StateM (SessionState σ))

namespace Action

variable {σ α ε : Type}

/-- Notes a request and passes on the answer. -/
def ask (request : Request) (fail : ε → WalletError) (answer : σ → Except ε α × σ) : Action σ α :=
  ExceptT.mk fun s =>
    let (x, services) := answer s.services
    (x.mapError fail, { s with services := services, journal := s.journal ++ [request] })

/-- An outcome that is already known. -/
def ofExcept (fail : ε → WalletError) (x : Except ε α) : Action σ α :=
  ExceptT.mk (pure (x.mapError fail))

instance : MonadLift (Except AuthError) (Action σ) := ⟨ofExcept .auth⟩

end Action

end SmartWallet
