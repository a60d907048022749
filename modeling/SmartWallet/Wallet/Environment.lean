import SmartWallet.Wallet.Services
import SmartWallet.WebAuthn.Authenticator

set_option autoImplicit false

/-! # Simulated services

Services for sessions without a network or a user: a fixed view of the ledger, and an authenticator
that either holds a key itself or reads its answers off a script. -/

namespace SmartWallet

/-- The answers that an authenticator gives one after the other. -/
structure AuthenticatorScript where
  registrations : List (Except WebAuthn.CeremonyError WebAuthn.RegistrationResponse)
  authentications : List (Except WebAuthn.CeremonyError WebAuthn.AuthenticationResponse)

inductive Authenticator where
  /-- One that holds a key itself. -/
  | software (a : WebAuthn.SoftwareAuthenticator)
  /-- One that reads its answers off a script. -/
  | scripted (s : AuthenticatorScript)

/-- A view of the ledger and an authenticator. -/
structure Environment where
  ledger : LedgerView
  authenticator : Authenticator

/-- The next answer of a script, and those after it. -/
def nextAnswer {α : Type} :
    List (Except WebAuthn.CeremonyError α) →
      Except WebAuthn.CeremonyError α × List (Except WebAuthn.CeremonyError α)
  | [] => (.error (.platform "script exhausted"), [])
  | x :: rest => (x, rest)

namespace Authenticator

/-- Answers a registration. -/
def register (o : WebAuthn.RegistrationOptions) :
    Authenticator → Except WebAuthn.CeremonyError WebAuthn.RegistrationResponse × Authenticator
  | software a => (a.register o, software a)
  | scripted s =>
    let (x, rest) := nextAnswer s.registrations
    (x, scripted { s with registrations := rest })

/-- Answers an authentication. -/
def authenticate (o : WebAuthn.AuthenticationOptions) :
    Authenticator → Except WebAuthn.CeremonyError WebAuthn.AuthenticationResponse × Authenticator
  | software a => (a.authenticate o, software a)
  | scripted s =>
    let (x, rest) := nextAnswer s.authentications
    (x, scripted { s with authentications := rest })

end Authenticator

def Environment.services : Services Environment where
  latestLedger e := (e.ledger.latestLedger, e)
  contains d e := (e.ledger.contains d, e)
  register o e :=
    let (x, a) := e.authenticator.register o
    (x, { e with authenticator := a })
  authenticate o e :=
    let (x, a) := e.authenticator.authenticate o
    (x, { e with authenticator := a })

end SmartWallet
